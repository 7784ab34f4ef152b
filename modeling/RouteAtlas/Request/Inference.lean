import RouteAtlas.Dictionary
import RouteAtlas.Request.NumericUse
import RouteAtlas.Request.Part
import RouteAtlas.Syntax.Literal
import RouteAtlas.Syntax.Walk

/-!
# What a handler reads

The first parameter of a handler is the request. A walk through the body notes each reading of a
field of the request: by property, by a string in brackets, by destructuring, or through a name that
was bound to a part of the request. It also notes which fields, and which names that hold fields,
are used as numbers. `Observations.facts` puts this together once the whole body has been seen.
-/

namespace RouteAtlas

open Syntax

namespace Syntax.Node

/-- The parameter inside the wrappers that hold its type and its default. A wrapper that lacks its
inner part gives nothing if `strict`, and itself otherwise. -/
def bareParameter? (strict : Bool) : Node → Option Node
  | .mk l cs =>
    match l.kind with
    | .requiredParameter | .optionalParameter => bareAmong? strict .pattern (.mk l cs) cs
    | .assignmentPattern => bareAmong? strict .left (.mk l cs) cs
    | _ => some (.mk l cs)
where
  /-- The bare parameter of the first node that plays the given part. -/
  bareAmong? (strict : Bool) (r : Role) (whole : Node) : List Node → Option Node
    | [] => if strict then none else some whole
    | n :: ns => if n.role == some r then bareParameter? strict n else bareAmong? strict r whole ns

/-- The parameters of a function. -/
def parameterList (f : Node) : List Node :=
  match f.child? .parameter with
  | some single => [single]
  | none =>
    match f.child? .parameters with
    | some list => list.content
    | none => []

/-- The names that a function's parameters bind. -/
def parameterNames (f : Node) : List String :=
  f.parameterList.flatMap fun p =>
    match p.bareParameter? false with
    | none => []
    | some bare =>
      match bare.kind with
      | .identifier => [bare.text]
      | .objectPattern => bare.bindings.map (·.name)
      | _ => []

/-- The names that an object pattern binds to parts of the request. -/
def partBindings (pattern : Node) : List (String × Part) :=
  pattern.bindings.filterMap fun b => (Part.ofProperty? b.key).map (b.name, ·)

end Syntax.Node

/-- How a handler names its request: by one name, or by names for its parts. -/
structure RequestParameter where
  name? : Option String
  aliases : Dictionary Part

/-- The request parameter of a function. -/
def RequestParameter.ofFunction? (f : Node) : Option RequestParameter := do
  let bare ← (← f.parameterList.head?).bareParameter? true
  match bare.kind with
  | .identifier => return ⟨some bare.text, {}⟩
  | .objectPattern => return ⟨none, Dictionary.putAll {} bare.partBindings⟩
  | _ => none

/-- What a walk through a handler's body has seen. -/
structure Observations where
  /-- Names bound to a part of the request. -/
  aliases : Dictionary Part
  /-- Names that hold a field, with its part and name. -/
  holders : Dictionary (Part × String) := {}
  readings : List Reading := []
  headers : List String := []
  numericFields : List (Part × String) := []
  numericHolders : List String := []

namespace Observations

/-- Notes that a field of a part is read. -/
def read (o : Observations) (part : Part) (name : String) (type : FieldType) : Observations :=
  match part with
  | .headers => { o with headers := o.headers ++ [name] }
  | _ => { o with readings := o.readings ++ [⟨part, name, type⟩] }

/-- Notes that a field is read by the expression at a cursor. -/
def readAt (o : Observations) (part : Part) (name : String) (access : Cursor) : Observations :=
  let o := if access.isUsedAsNumber
    then { o with numericFields := o.numericFields ++ [(part, name)] } else o
  o.read part name .string

/-- Notes that a name holds a field. -/
def hold (o : Observations) (name : String) (part : Part) (field : String) : Observations :=
  { o with holders := o.holders.put name (part, field) }

/-- The fields that are used as numbers: those read where a number is needed, and those held in
the end by a name that was used so. -/
def numbers (o : Observations) : List (Part × String) :=
  o.numericFields ++ o.numericHolders.filterMap o.holders.find?

/-- What has been learnt of the fields of a part. -/
def fields (o : Observations) (part : Part) : List Field :=
  part.withNumbers o.numbers (part.fields o.readings)

/-- What has been learnt of the handler. -/
def facts (o : Observations) : Facts :=
  ⟨o.fields .params, o.fields .query, o.fields .body,
    o.headers.foldl (fun hs h => if h ∈ hs then hs else hs ++ [h]) []⟩

end Observations

namespace Inference

/-- The node is the request. -/
def isRequest (request? : Option String) (n : Node) : Bool :=
  n.unwrap.kind == .identifier && request? == some n.unwrap.text

/-- The part of the request that the node stands for. -/
def part? (request? : Option String) (o : Observations) (n : Node) : Option Part :=
  match n.kind with
  | .memberExpression => do
    let object ← n.child? .object
    guard (isRequest request? object)
    Part.ofProperty? (← n.child? .property).text
  | .identifier => o.aliases.find? n.text
  | _ => none

/-- The function binds the name of the request or of a part anew. -/
def shadows (request? : Option String) (o : Observations) (f : Node) : Bool :=
  f.parameterNames.any fun name => request? == some name || o.aliases.has name

/-- Names bound to parts by a declaration such as `const { body } = req`. -/
def bindParts (request? : Option String) (o : Observations) (declarator : Node) : Observations :=
  match declarator.child? .name, declarator.child? .value with
  | some name, some value =>
    if name.kind == .objectPattern && isRequest request? value then
      { o with aliases := o.aliases.putAll name.partBindings }
    else o
  | _, _ => o

/-- Methods of a request that read one header. -/
def headerMethods : List String := ["get", "header"]

/-- The header read by a call such as `req.get('x-api-key')`. -/
def headerCall? (request? : Option String) (call : Node) : Option String := do
  let callee := (← call.child? .function).unwrap
  guard (callee.kind == .memberExpression)
  let object ← callee.child? .object
  let property ← callee.child? .property
  guard (isRequest request? object && property.text ∈ headerMethods)
  let args ← call.child? .arguments
  match args.children.filter (·.label.named) with
  | [single] => single.stringValue?
  | _ => none

/-- What a declaration reads whose value is a part of the request: each field that it destructures,
or, under the declared name, the whole part. -/
def readDeclared (o : Observations) (part : Part) (name : Node) : Observations :=
  match name.kind with
  | .objectPattern =>
    name.bindings.foldl (fun o b =>
      let type := (b.default?.map Node.literalType).getD .string
      (o.read part b.key type).hold b.name part b.key) o
  | .identifier => if part = .headers then o else o.read part name.text .object
  | _ => o

/-- What is read of a part of the request that stands at a cursor: its surroundings say which
field. -/
def readPart (o : Observations) (part : Part) (c : Cursor) : Observations :=
  let outer := c.wrapped
  match outer.parent? with
  | none => o
  | some parent =>
    match parent.kind with
    | .memberExpression =>
      if outer.plays .object then
        match parent.node.child? .property with
        | some property => o.readAt part property.text parent
        | none => o
      else o
    | .subscriptExpression =>
      if outer.plays .object then
        match (parent.node.child? .index).bind Node.stringValue? with
        | some key => o.readAt part key parent
        | none => o
      else o
    | .variableDeclarator =>
      if outer.plays .value then
        match parent.node.child? .name with
        | some name => readDeclared o part name
        | none => o
      else o
    | _ => o

/-- What is noted of a node before it is asked whether it stands for a part of the request. -/
def observeNode (request? : Option String) (o : Observations) (n : Node) : Observations :=
  match n.kind with
  | .variableDeclarator => bindParts request? o n
  | .callExpression =>
    match headerCall? request? n with
    | some header => { o with headers := o.headers ++ [header] }
    | none => o
  | _ => o

/-- What is noted of the use of a node: a part of the request, or a name that holds a field. -/
def observeUse (request? : Option String) (o : Observations) (c : Cursor) : Observations :=
  match part? request? o c.node with
  | some part => readPart o part c
  | none =>
    if c.kind == .identifier && o.holders.has c.node.text && c.isUsedAsNumber then
      { o with numericHolders := o.numericHolders ++ [c.node.text] }
    else o

/-- What is noted on entering a node. Functions that bind the names of the request anew are passed
by. -/
def visit (request? : Option String) : Visitor Observations := fun o c =>
  if c.kind.isFunction && shadows request? o c.node then (o, .past)
  else (observeUse request? (observeNode request? o c.node) c, .into)

end Inference

/-- What the handler at a cursor reads of its request. A function without a request parameter or a
body reads nothing. -/
def Syntax.Cursor.handlerFacts (f : Cursor) : Facts :=
  match RequestParameter.ofFunction? f.node, f.child? .body with
  | some request, some body =>
    (body.walk (Inference.visit request.name?) { aliases := request.aliases }).facts
  | _, _ => {}

end RouteAtlas
