import RouteAtlas.Module.Outline
import RouteAtlas.Syntax.Walk

/-!
# Outlining a file

One walk through the tree of a file collects its outline. Imports and mounted routers are resolved
to files afterwards, when all imports are known.
-/

namespace RouteAtlas

open Syntax

/-- What a walk through a file has collected. -/
structure Collection where
  imports : List Import := []
  exportedNames : List String := []
  exports : Dictionary Value := {}
  default? : Option Value := none
  functions : Dictionary Span := {}
  vars : Dictionary Variable := {}
  routes : List Route := []
  /-- Prefixes, and the names of the routers mounted there. -/
  mounts : List (String × String) := []

namespace Syntax.Node

/-- What the node refers to as a value: a function, one handed to a wrapper, or a name. -/
def value? (n : Node) : Option Value :=
  let inner := n.unwrap
  if inner.kind.isFunction then some (.function inner.span)
  else
    match inner.kind with
    | .identifier => some (.named inner.text)
    | .callExpression => inner.wrappedFunction?.map (.function ·.span)
    | _ => none

/-- What one member of an object literal puts under which name. -/
def objectMember? (n : Node) : Option (String × Value) :=
  match n.kind with
  | .pair => do
    let key ← n.child? .key
    let value ← n.child? .value
    return (← key.propertyKey?, ← value.value?)
  | .shorthandPropertyIdentifier => some (n.text, .named n.text)
  | .methodDefinition => (n.child? .name).map fun name => (name.text, .function n.span)
  | _ => none

/-- What an object literal holds, by property. -/
def objectMembers (n : Node) : Dictionary Value :=
  Dictionary.putAll {} (n.content.filterMap objectMember?)

/-- The call that a node is, or that it picks a member of, and the member. -/
def pickedCall? (n : Node) : Option (Node × Option String) :=
  match n.kind with
  | .callExpression => some (n, none)
  | .memberExpression => do
    let object ← n.child? .object
    let property ← n.child? .property
    return (object.unwrap, some property.text)
  | _ => none

/-- The module, and the member of it if one is picked, that `require('x')` or `require('x').member`
gives. -/
def required? (n : Node) : Option (String × Option String) := do
  let (call, member) ← n.pickedCall?
  guard (call.kind == .callExpression)
  let callee ← call.child? .function
  guard (callee.kind == .identifier && callee.text == "require")
  let args ← call.child? .arguments
  let specifier ← (← args.firstContent?).stringValue?
  return (specifier, member)

/-- The node is `module.exports`. -/
def isModuleExports (n : Node) : Bool :=
  n.kind == .memberExpression && (n.child? .object).any (·.text == "module") &&
    (n.child? .property).any (·.text == "exports")

/-- The name that one specifier of an import brings in. -/
def importedName? (n : Node) : Option ImportedName := do
  guard (n.kind == .importSpecifier)
  let name ← n.child? .name
  let exported := name.stringValue?.getD name.text
  return ⟨((n.child? .newName).map (·.text)).getD exported, exported⟩

/-- An import with what one part of its clause brings in. -/
def addImportPart (i : Import) (n : Node) : Import :=
  match n.kind with
  | .identifier => { i with default? := some n.text }
  | .namespaceImport => { i with whole? := n.firstContent?.map (·.text) }
  | .namedImports => { i with names := i.names ++ n.content.filterMap importedName? }
  | _ => i

/-- What an import statement brings in. -/
def import? (n : Node) : Option Import := do
  let specifier ← (← n.child? .source).stringValue?
  let parts := ((n.content.find? (·.kind == .importClause)).map content).getD []
  return parts.foldl addImportPart { specifier }

/-- What a declaration imports whose value is a module or a member of one. -/
def importOfDeclarator (name : Node) (specifier : String) (member : Option String) : Import :=
  match name.kind, member with
  | .identifier, some exported =>
    if exported = "default" then { specifier, default? := some name.text }
    else { specifier, names := [⟨name.text, exported⟩] }
  | .identifier, none => { specifier, default? := some name.text }
  | .objectPattern, none => { specifier, names := name.bindings.map fun b => ⟨b.name, b.key⟩ }
  | _, _ => { specifier }

end Syntax.Node

/-- The declaration at the cursor stands directly in the program, or behind `export` there. -/
def Syntax.Cursor.isTopLevel (c : Cursor) : Bool :=
  let above : List Kind := c.above.map (·.label.kind)
  match if c.kind == .variableDeclarator then above.drop 1 else above with
  | .program :: _ => true
  | .exportStatement :: .program :: _ => true
  | _ => false

namespace Collection

/-- Adds a function. Of functions with one name the last one at the top level counts, and the first
one elsewhere only if there is none. -/
def addFunction (c : Collection) (name : String) (span : Span) (topLevel : Bool) : Collection :=
  { c with functions :=
    if topLevel then c.functions.put name span else c.functions.putAbsent name span }

/-- Lists an exported name, once. -/
def listExport (c : Collection) (name : String) : Collection :=
  if name ∈ c.exportedNames then c else { c with exportedNames := c.exportedNames ++ [name] }

/-- Adds an export, with what it refers to if that is known. -/
def addExport (c : Collection) (name : String) (value? : Option Value) : Collection :=
  match value? with
  | none => c.listExport name
  | some value => { c.listExport name with exports := c.exports.put name value }

/-- Adds the members of an object as exports. -/
def addExports (c : Collection) (members : Dictionary Value) : Collection :=
  members.entries.foldl (fun c (name, value) => c.addExport name (some value)) c

/-- A variable that is declared with a value. -/
def declare (c : Collection) (place : Cursor) (name value : Node) : Collection :=
  match value.required? with
  | some (specifier, member) =>
    let c := { c with imports := c.imports ++ [Node.importOfDeclarator name specifier member] }
    if name.kind == .identifier then { c with vars := c.vars.put name.text (.required specifier) }
    else c
  | none =>
    if name.kind == .identifier then
      match value.value? with
      | some (.function span) =>
        let c := c.addFunction name.text span place.isTopLevel
        { c with vars := c.vars.put name.text (.function span) }
      | _ =>
        let held : Variable := if value.kind == .object then .object value.objectMembers else .other
        { c with vars := c.vars.put name.text held }
    else c

/-- A default export. -/
def exportDefault (c : Collection) (target? : Option Node) : Collection :=
  let c := c.listExport "default"
  match target? with
  | none => c
  | some target =>
    if target.unwrap.kind == .object then c.addExports target.unwrap.objectMembers
    else { c with default? := target.unwrap.value? }

/-- The exports of a declaration. -/
def exportDeclaration (c : Collection) (declaration : Node) : Collection :=
  match declaration.kind with
  | .functionDeclaration | .generatorFunctionDeclaration =>
    match declaration.child? .name with
    | some name => c.addExport name.text (some (.function declaration.span))
    | none => c
  | .lexicalDeclaration | .variableDeclaration =>
    declaration.content.foldl (fun c declarator =>
      match declarator.child? .name with
      | some name =>
        if name.kind == .identifier then c.addExport name.text (some (.named name.text)) else c
      | none => c) c
  | _ => c

/-- The export of one specifier; what comes from another file is only listed. -/
def exportSpecifier (again : Bool) (c : Collection) (n : Node) : Collection :=
  match n.child? .name with
  | none => c
  | some name =>
    let exported := ((n.child? .newName).map (·.text)).getD name.text
    c.addExport exported (if again then none else some (.named name.text))

/-- An export statement. -/
def exportStatement (c : Collection) (n : Node) : Collection :=
  if n.children.any (fun k => !k.label.named && k.text == "default") then
    c.exportDefault ((n.child? .declaration).or (n.child? .value))
  else
    match n.child? .declaration with
    | some declaration => c.exportDeclaration declaration
    | none =>
      match n.content.find? (·.kind == .exportClause) with
      | some clause => clause.content.foldl (exportSpecifier (n.child? .source).isSome) c
      | none => c

/-- The object of the node is what a file exports through. -/
def isExportsObject (n : Node) : Bool :=
  match n.kind with
  | .identifier => n.text == "exports"
  | .memberExpression => n.isModuleExports
  | _ => false

/-- An assignment to `module.exports` or to a member of it. -/
def assign (c : Collection) (left right : Node) : Collection :=
  if left.kind == .memberExpression then
    if left.isModuleExports then
      let c := c.listExport "default"
      if right.kind == .object then { c with default? := none }.addExports right.objectMembers
      else { c with default? := right.value? }
    else
      match left.child? .object, left.child? .property with
      | some object, some property =>
        if isExportsObject object && property.kind == .propertyIdentifier then
          c.addExport property.text right.value?
        else c
      | _, _ => c
  else c

/-- An expression statement: a call of `require` alone imports a module. -/
def evaluate (c : Collection) (n : Node) : Collection :=
  match n.firstContent? with
  | none => c
  | some e =>
    if e.unwrap.kind == .callExpression then
      match e.unwrap.required? with
      | some (specifier, none) => { c with imports := c.imports ++ [{ specifier }] }
      | _ => c
    else c

/-- A call: it registers a route, or else a mount, or nothing. -/
def call (c : Collection) (n : Node) : Collection :=
  match n.route? with
  | some route => { c with routes := c.routes ++ [route] }
  | none =>
    match n.mount? with
    | some mount => { c with mounts := c.mounts ++ [mount] }
    | none => c

/-- What is collected on entering a node. -/
def enter (c : Collection) (place : Cursor) : Collection :=
  let n := place.node
  match n.kind with
  | .importStatement =>
    match n.import? with
    | some i => { c with imports := c.imports ++ [i] }
    | none => c
  | .variableDeclarator =>
    match n.child? .name, n.child? .value with
    | some name, some value => c.declare place name value.unwrap
    | _, _ => c
  | .functionDeclaration | .generatorFunctionDeclaration =>
    match n.child? .name with
    | some name => c.addFunction name.text n.span place.isTopLevel
    | none => c
  | .exportStatement => c.exportStatement n
  | .assignmentExpression =>
    match n.child? .left, n.child? .right with
    | some left, some right => c.assign left right.unwrap
    | _, _ => c
  | .expressionStatement => c.evaluate n
  | .callExpression => c.call n
  | _ => c

/-- The visitor that collects. There is nothing to collect inside an import statement. -/
def visit : Visitor Collection := fun c place =>
  (c.enter place, if place.kind == .importStatement then .past else .into)

/-- What is collected in a tree. -/
def ofTree (root : Cursor) : Collection := root.walk visit {}

/-- The file that a mounted router comes from: that of the import that binds its name, or else of
the module its variable holds. -/
def routerFile? (resolve : String → Option Path) (imports : List ResolvedImport)
    (vars : Dictionary Variable) (router : String) : Option Path :=
  match Outline.bindingIn? imports router with
  | some (i, _) => i.file?
  | none =>
    match vars.find? router with
    | some (.required specifier) => resolve specifier
    | _ => none

end Collection

/-- The outline of a parsed file. `resolve` gives the file that a module specifier stands for. -/
def Outline.ofSource (resolve : String → Option Path) (source : SourceFile) : Outline :=
  let c := Collection.ofTree source.root
  let imports := c.imports.map fun i => { i with file? := resolve i.specifier }
  { path := source.path
    source? := some source
    imports
    exportedNames := c.exportedNames
    exports := c.exports
    default? := c.default?
    functions := c.functions
    vars := c.vars
    routes := c.routes
    mounts := c.mounts.map fun (front, router) =>
      ⟨front, router, Collection.routerFile? resolve imports c.vars router⟩ }

end RouteAtlas
