import RouteAtlas.Module.Outlining
import RouteAtlas.Proofs.Syntax.Preorder

/-!
# Outlines as notes

What is collected on entering a node does not depend on what was collected before: it is a list of
notes, and each note changes one thing in a collection. So every question about an outline comes
down to two smaller ones: what a note does, and which notes a node gives rise to.

## Key results

- `Note.mem_ofNode_iff`: which notes a node gives rise to, by the kind of the node
- `Collection.enter_eq_foldl_notes`: entering a node is to write down its notes
- `Collection.ofTree_keeps`: what the notes of every node of a tree keep holds of what is collected
  in it
- `Collection.foldl_note_eq_getLast?`: what each note sets or leaves alone is what it was last set
  to
-/

namespace RouteAtlas

open Syntax

/-- One thing to be noted of a file. -/
inductive Note where
  | imported (i : Import)
  /-- A name is exported. -/
  | listed (name : String)
  | exported (name : String) (value : Value)
  | defaultExport (value? : Option Value)
  | function (name : String) (span : Span) (topLevel : Bool)
  | declared (name : String) (held : Variable)
  | route (r : Route)
  | mount (front router : String)

/-- Writes down a note. -/
def Collection.note (c : Collection) : Note → Collection
  | .imported i => { c with imports := c.imports ++ [i] }
  | .listed name => c.listExport name
  | .exported name value => { c with exports := c.exports.put name value }
  | .defaultExport value? => { c with default? := value? }
  | .function name span topLevel => c.addFunction name span topLevel
  | .declared name held => { c with vars := c.vars.put name held }
  | .route r => { c with routes := c.routes ++ [r] }
  | .mount front router => { c with mounts := c.mounts ++ [(front, router)] }

/-! ## Which notes there are -/

namespace Note

/-- An export, with what it refers to if that is known. -/
def ofExport (name : String) (value? : Option Value) : List Note :=
  .listed name :: (value?.map (.exported name)).toList

/-- The members of an object as exports. -/
def ofMembers (members : Dictionary Value) : List Note :=
  members.entries.flatMap fun m => ofExport m.1 (some m.2)

/-- A variable that is declared with a value. -/
def ofDeclared (topLevel : Bool) (name value : Node) : List Note :=
  match value.required? with
  | some (specifier, member) =>
    .imported (Node.importOfDeclarator name specifier member) ::
      if name.kind == .identifier then [.declared name.text (.required specifier)] else []
  | none =>
    if name.kind == .identifier then
      match value.value? with
      | some (.function span) =>
        [.function name.text span topLevel, .declared name.text (.function span)]
      | _ => [.declared name.text
          (if value.kind == .object then .object value.objectMembers else .other)]
    else []

/-- A default export. -/
def ofDefault (target? : Option Node) : List Note :=
  .listed "default" ::
    match target? with
    | none => []
    | some target =>
      if target.unwrap.kind == .object then ofMembers target.unwrap.objectMembers
      else [.defaultExport target.unwrap.value?]

/-- The export of a declared variable. -/
def ofDeclarator (declarator : Node) : List Note :=
  match declarator.child? .name with
  | some name =>
    if name.kind == .identifier then ofExport name.text (some (.named name.text)) else []
  | none => []

/-- The exports of a declaration. -/
def ofDeclaration (declaration : Node) : List Note :=
  match declaration.kind with
  | .functionDeclaration | .generatorFunctionDeclaration =>
    match declaration.child? .name with
    | some name => ofExport name.text (some (.function declaration.span))
    | none => []
  | .lexicalDeclaration | .variableDeclaration => declaration.content.flatMap ofDeclarator
  | _ => []

/-- The export of one specifier; what comes from another file is only listed. -/
def ofSpecifier (again : Bool) (n : Node) : List Note :=
  match n.child? .name with
  | none => []
  | some name =>
    ofExport (((n.child? .newName).map (·.text)).getD name.text)
      (if again then none else some (.named name.text))

/-- An export statement. -/
def ofExportStatement (n : Node) : List Note :=
  if n.children.any (fun k => !k.label.named && k.text == "default") then
    ofDefault ((n.child? .declaration).or (n.child? .value))
  else
    match n.child? .declaration with
    | some declaration => ofDeclaration declaration
    | none =>
      match n.content.find? (·.kind == .exportClause) with
      | some clause => clause.content.flatMap (ofSpecifier (n.child? .source).isSome)
      | none => []

/-- An assignment to what a file exports. -/
def ofAssignment (left right : Node) : List Note :=
  if left.kind == .memberExpression then
    if left.isModuleExports then
      .listed "default" ::
        if right.kind == .object then .defaultExport none :: ofMembers right.objectMembers
        else [.defaultExport right.value?]
    else
      match left.child? .object, left.child? .property with
      | some object, some property =>
        if Collection.isExportsObject object && property.kind == .propertyIdentifier then
          ofExport property.text right.value?
        else []
      | _, _ => []
  else []

/-- A call of `require` that stands alone. -/
def ofStatement (n : Node) : List Note :=
  match n.firstContent? with
  | none => []
  | some e =>
    if e.unwrap.kind == .callExpression then
      match e.unwrap.required? with
      | some (specifier, none) => [.imported { specifier }]
      | _ => []
    else []

/-- A call that registers a route or a mount. -/
def ofCall (n : Node) : List Note :=
  match n.route? with
  | some r => [.route r]
  | none => (n.mount?.map fun m => .mount m.1 m.2).toList

/-- What is to be noted of the node at a cursor. -/
def ofNode (place : Cursor) : List Note :=
  let n := place.node
  match n.kind with
  | .importStatement => (n.import?.map .imported).toList
  | .variableDeclarator =>
    match n.child? .name, n.child? .value with
    | some name, some value => ofDeclared place.isTopLevel name value.unwrap
    | _, _ => []
  | .functionDeclaration | .generatorFunctionDeclaration =>
    ((n.child? .name).map fun name => .function name.text n.span place.isTopLevel).toList
  | .exportStatement => ofExportStatement n
  | .assignmentExpression =>
    match n.child? .left, n.child? .right with
    | some left, some right => ofAssignment left right.unwrap
    | _, _ => []
  | .expressionStatement => ofStatement n
  | .callExpression => ofCall n
  | _ => []

/-- `ofDeclared` notes an import, a function or a variable. -/
theorem exists_of_mem_ofDeclared {topLevel : Bool} {name value : Node} {note : Note}
    (h : note ∈ ofDeclared topLevel name value) :
    (∃ i, note = .imported i) ∨ (∃ x span, note = .function x span topLevel) ∨
      ∃ x held, note = .declared x held := by
  rw [ofDeclared] at h
  cases hrequired : value.required? with
  | some required =>
    rw [hrequired] at h
    rcases List.mem_cons.mp h with rfl | hdeclared
    · exact .inl ⟨_, rfl⟩
    · split at hdeclared
      · exact .inr (.inr ⟨_, _, List.mem_singleton.mp hdeclared⟩)
      · exact absurd hdeclared List.not_mem_nil
  | none =>
    rw [hrequired] at h
    dsimp only at h
    split at h
    · split at h
      · -- A function is noted by itself, and as what the variable holds.
        rcases List.mem_cons.mp h with rfl | hdeclared
        · exact .inr (.inl ⟨_, _, rfl⟩)
        · exact .inr (.inr ⟨_, _, List.mem_singleton.mp hdeclared⟩)
      · exact .inr (.inr ⟨_, _, List.mem_singleton.mp h⟩)
    · exact absurd h List.not_mem_nil

/-- `ofStatement` notes imports only. -/
private theorem exists_of_mem_ofStatement {n : Node} {note : Note} (h : note ∈ ofStatement n) :
    ∃ i, note = .imported i := by
  rw [ofStatement] at h
  cases hfirst : n.firstContent? with
  | none =>
    rw [hfirst] at h
    exact absurd h List.not_mem_nil
  | some e =>
    rw [hfirst] at h
    dsimp only at h
    by_cases hcall : e.unwrap.kind = .callExpression
    · rw [if_pos (by simpa using hcall)] at h
      cases hrequired : e.unwrap.required? with
      | none => simp [hrequired] at h
      | some required =>
        obtain ⟨specifier, member⟩ := required
        -- A member that is taken from the module is left to the declaration that takes it.
        cases member with
        | none => exact ⟨_, by simpa [hrequired] using h⟩
        | some member => simp [hrequired] at h
    · rw [if_neg (by simpa using hcall)] at h
      exact absurd h List.not_mem_nil

/-- `ofCall` notes the route that the call registers, or a mount. -/
private theorem exists_of_mem_ofCall {n : Node} {note : Note} (h : note ∈ ofCall n) :
    (∃ r, n.route? = some r ∧ note = .route r) ∨ ∃ front router, note = .mount front router := by
  rw [ofCall] at h
  cases hroute : n.route? with
  | some r => exact .inl ⟨r, rfl, by simpa [hroute] using h⟩
  | none =>
    cases hmount : n.mount? with
    | none => simp [hroute, hmount] at h
    | some m => exact .inr ⟨m.1, m.2, by simpa [hroute, hmount] using h⟩

/-- The note is to be taken of the node at the cursor, for the reason that its kind gives. -/
inductive TakenFrom (place : Cursor) : Note → Prop where
  | importStatement {i : Import} (kind : place.node.kind = .importStatement)
      (import_eq : place.node.import? = some i) : TakenFrom place (.imported i)
  | declarator {name value : Node} {note : Note} (kind : place.node.kind = .variableDeclarator)
      (name_eq : place.node.child? .name = some name)
      (value_eq : place.node.child? .value = some value)
      (mem : note ∈ ofDeclared place.isTopLevel name value.unwrap) : TakenFrom place note
  | function {name : Node}
      (kind : place.node.kind = .functionDeclaration ∨
        place.node.kind = .generatorFunctionDeclaration)
      (name_eq : place.node.child? .name = some name) :
      TakenFrom place (.function name.text place.node.span place.isTopLevel)
  | exportStatement {note : Note} (kind : place.node.kind = .exportStatement)
      (mem : note ∈ ofExportStatement place.node) : TakenFrom place note
  | assignment {left right : Node} {note : Note}
      (kind : place.node.kind = .assignmentExpression)
      (left_eq : place.node.child? .left = some left)
      (right_eq : place.node.child? .right = some right)
      (mem : note ∈ ofAssignment left right.unwrap) : TakenFrom place note
  | statement {i : Import} (kind : place.node.kind = .expressionStatement)
      (mem : .imported i ∈ ofStatement place.node) : TakenFrom place (.imported i)
  | route {r : Route} (kind : place.node.kind = .callExpression)
      (route_eq : place.node.route? = some r) : TakenFrom place (.route r)
  | mount {front router : String} (kind : place.node.kind = .callExpression)
      (mem : .mount front router ∈ ofCall place.node) : TakenFrom place (.mount front router)

/-- `ofNode` has no other notes than those that `TakenFrom` allows. -/
theorem takenFrom_of_mem_ofNode {place : Cursor} {note : Note} (h : note ∈ ofNode place) :
    TakenFrom place note := by
  unfold ofNode at h
  dsimp only at h
  split at h
  all_goals rename_i hkind
  · obtain ⟨i, himport, rfl⟩ := Option.map_eq_some_iff.mp (Option.mem_toList.mp h)
    exact .importStatement hkind himport
  · split at h
    · rename_i name value hname hvalue
      exact .declarator hkind hname hvalue h
    · exact absurd h List.not_mem_nil
  · obtain ⟨name, hname, rfl⟩ := Option.map_eq_some_iff.mp (Option.mem_toList.mp h)
    exact .function (.inl hkind) hname
  · obtain ⟨name, hname, rfl⟩ := Option.map_eq_some_iff.mp (Option.mem_toList.mp h)
    exact .function (.inr hkind) hname
  · exact .exportStatement hkind h
  · split at h
    · rename_i left right hleft hright
      exact .assignment hkind hleft hright h
    · exact absurd h List.not_mem_nil
  · obtain ⟨i, rfl⟩ := exists_of_mem_ofStatement h
    exact .statement hkind h
  · rcases exists_of_mem_ofCall h with ⟨r, hroute, rfl⟩ | ⟨front, router, rfl⟩
    · exact .route hkind hroute
    · exact .mount hkind h
  · exact absurd h List.not_mem_nil

/-- `ofNode` has the notes that `TakenFrom` allows, and no others. -/
theorem mem_ofNode_iff {place : Cursor} {note : Note} :
    note ∈ ofNode place ↔ TakenFrom place note := by
  refine ⟨takenFrom_of_mem_ofNode, fun h => ?_⟩
  unfold ofNode
  -- The kind of the node chooses the branch that the note was taken in.
  cases h with
  | importStatement kind import_eq => simp [kind, import_eq]
  | declarator kind name_eq value_eq mem => simpa [kind, name_eq, value_eq] using mem
  | function kind name_eq => rcases kind with kind | kind <;> simp [kind, name_eq]
  | exportStatement kind mem => simpa [kind] using mem
  | assignment kind left_eq right_eq mem => simpa [kind, left_eq, right_eq] using mem
  | statement kind mem => simpa [kind] using mem
  | route kind route_eq => simp [kind, ofCall, route_eq]
  | mount kind mem => simpa [kind] using mem

end Note

/-! ## Writing them down -/

namespace Collection

variable (c : Collection)

/-- Steps that write down notes, one after the other, write down all of the notes. -/
theorem foldl_note_flatMap {α : Type} {step : Collection → α → Collection} {notes : α → List Note}
    (hstep : ∀ c a, step c a = (notes a).foldl note c) (as : List α) :
    as.foldl step c = (as.flatMap notes).foldl note c := by
  induction as generalizing c with
  | nil => rfl
  | cons a as ih => rw [List.foldl_cons, List.flatMap_cons, List.foldl_append, ih, hstep]

/-- `addExport` writes down the notes of `ofExport`. -/
private theorem addExport_eq (name : String) (value? : Option Value) :
    c.addExport name value? = (Note.ofExport name value?).foldl note c := by
  -- The name is listed first, which does not touch what is exported.
  have hexports : (c.listExport name).exports = c.exports := by
    unfold listExport
    split <;> rfl
  cases value? with
  | none => rfl
  | some value =>
    show { c.listExport name with exports := c.exports.put name value } =
      (c.listExport name).note (.exported name value)
    rw [note, hexports]

/-- `addExports` writes down the notes of `ofMembers`. -/
private theorem addExports_eq (members : Dictionary Value) :
    c.addExports members = (Note.ofMembers members).foldl note c :=
  foldl_note_flatMap c (fun c m => c.addExport_eq m.1 (some m.2)) members.entries

/-- `declare` writes down the notes of `ofDeclared`. -/
private theorem declare_eq (place : Cursor) (name value : Node) :
    c.declare place name value = (Note.ofDeclared place.isTopLevel name value).foldl note c := by
  unfold declare Note.ofDeclared
  cases value.required? with
  | some required =>
    dsimp only
    split <;> rfl
  | none =>
    dsimp only
    split
    · cases value.value? with
      | none => rfl
      | some v => cases v <;> rfl
    · rfl

/-- `exportDefault` writes down the notes of `ofDefault`. -/
private theorem exportDefault_eq (target? : Option Node) :
    c.exportDefault target? = (Note.ofDefault target?).foldl note c := by
  unfold exportDefault Note.ofDefault
  rw [List.foldl_cons]
  cases target? with
  | none => rfl
  | some target =>
    dsimp only
    split
    · exact addExports_eq _ _
    · rfl

/-- `exportDeclaration` writes down the notes of `ofDeclaration`. -/
private theorem exportDeclaration_eq (declaration : Node) :
    c.exportDeclaration declaration = (Note.ofDeclaration declaration).foldl note c := by
  unfold exportDeclaration Note.ofDeclaration
  generalize declaration.kind = kind
  cases kind
  case functionDeclaration | generatorFunctionDeclaration =>
    cases declaration.child? .name with
    | none => rfl
    | some name => exact addExport_eq _ _ _
  case lexicalDeclaration | variableDeclaration =>
    -- Each declarator of the declaration exports its own name.
    refine foldl_note_flatMap c (fun c declarator => ?_) _
    unfold Note.ofDeclarator
    cases declarator.child? .name with
    | none => rfl
    | some name =>
      dsimp only
      split
      · exact addExport_eq _ _ _
      · rfl
  all_goals rfl

/-- `exportSpecifier` writes down the notes of `ofSpecifier`. -/
private theorem exportSpecifier_eq (again : Bool) (n : Node) :
    exportSpecifier again c n = (Note.ofSpecifier again n).foldl note c := by
  unfold exportSpecifier Note.ofSpecifier
  cases n.child? .name with
  | none => rfl
  | some name => exact addExport_eq _ _ _

/-- `exportStatement` writes down the notes of `ofExportStatement`. -/
private theorem exportStatement_eq (n : Node) :
    c.exportStatement n = (Note.ofExportStatement n).foldl note c := by
  unfold exportStatement Note.ofExportStatement
  split
  · exact exportDefault_eq _ _
  · cases n.child? .declaration with
    | some declaration => exact exportDeclaration_eq _ _
    | none =>
      cases n.content.find? (·.kind == .exportClause) with
      | some clause => exact foldl_note_flatMap c (fun c k => c.exportSpecifier_eq _ k) _
      | none => rfl

/-- `assign` writes down the notes of `ofAssignment`. -/
private theorem assign_eq (left right : Node) :
    c.assign left right = (Note.ofAssignment left right).foldl note c := by
  unfold assign Note.ofAssignment
  split
  · split
    · -- All that is exported is assigned to: the default export is listed in any case.
      rw [List.foldl_cons]
      dsimp only
      split
      · exact addExports_eq _ _
      · rfl
    · cases left.child? .object with
      | none => rfl
      | some object =>
        cases left.child? .property with
        | none => rfl
        | some property =>
          dsimp only
          split
          · exact addExport_eq _ _ _
          · rfl
  · rfl

/-- `evaluate` writes down the notes of `ofStatement`. -/
private theorem evaluate_eq (n : Node) : c.evaluate n = (Note.ofStatement n).foldl note c := by
  unfold evaluate Note.ofStatement
  cases n.firstContent? with
  | none => rfl
  | some e =>
    dsimp only
    split
    · cases e.unwrap.required? with
      | none => rfl
      | some required =>
        obtain ⟨specifier, member⟩ := required
        cases member <;> rfl
    · rfl

/-- `call` writes down the notes of `ofCall`. -/
private theorem call_eq (n : Node) : c.call n = (Note.ofCall n).foldl note c := by
  unfold call Note.ofCall
  cases n.route? with
  | some r => rfl
  | none =>
    cases n.mount? with
    | none => rfl
    | some mount => rfl

/-- `enter` writes down the notes of `ofNode`. -/
theorem enter_eq_foldl_notes (place : Cursor) :
    c.enter place = (Note.ofNode place).foldl note c := by
  unfold enter Note.ofNode
  dsimp only
  generalize place.node.kind = kind
  -- Both sides look at the kind of the node first.
  cases kind
  case importStatement => cases place.node.import? <;> rfl
  case variableDeclarator =>
    cases place.node.child? .name with
    | none => rfl
    | some name =>
      cases place.node.child? .value with
      | none => rfl
      | some value => exact declare_eq _ _ _ _
  case functionDeclaration | generatorFunctionDeclaration => cases place.node.child? .name <;> rfl
  case exportStatement => exact exportStatement_eq _ _
  case assignmentExpression =>
    cases place.node.child? .left with
    | none => rfl
    | some left =>
      cases place.node.child? .right with
      | none => rfl
      | some right => exact assign_eq _ _ _
  case expressionStatement => exact evaluate_eq _ _
  case callExpression => exact call_eq _ _
  all_goals rfl

/-- `ofTree` keeps what the notes of every node of the tree keep, if it holds of nothing. -/
theorem ofTree_keeps {P : Collection → Prop} {root : Cursor}
    (hnotes : ∀ c place, place.node ∈ root.node.subtrees → P c →
      P ((Note.ofNode place).foldl note c))
    (hempty : P {}) : P (ofTree root) := by
  -- The walk enters nodes of the tree only, and entering one is to write down its notes.
  refine Cursor.walk_keeps_within (fun c place hplace hc => ?_) hempty
  rw [visit, enter_eq_foldl_notes]
  exact hnotes c place hplace hc

/-! ## What is noted last -/

/-- `listExport` changes nothing but the list of names. -/
theorem listExport_eq (name : String) :
    c.listExport name = { c with exportedNames := (c.listExport name).exportedNames } := by
  unfold listExport
  split <;> rfl

/-- `note` of several notes leaves a part of a collection that each note sets or leaves alone as it
was last set. -/
theorem foldl_note_eq_getLast? {α : Type} (part : Collection → Option α) (sets : Note → Option α)
    (hnote : ∀ c note, part (c.note note) = (sets note).or (part c)) (notes : List Note) :
    part (notes.foldl note c) = (notes.filterMap sets).getLast?.or (part c) := by
  induction notes generalizing c with
  | nil => rfl
  | cons first rest ih =>
    rw [List.foldl_cons, ih, hnote]
    -- What the first note sets counts if no later note sets anything.
    cases hfirst : sets first with
    | none => rw [List.filterMap_cons_none hfirst, Option.none_or]
    | some a =>
      rw [List.filterMap_cons_some hfirst, List.getLast?_cons, Option.some_or]
      cases (rest.filterMap sets).getLast? <;> rfl

end Collection

/-- What the note says that the variable holds, if it is about the variable. -/
def Note.declaredAs? (name : String) : Note → Option Variable
  | .declared n held => if n = name then some held else none
  | _ => none

/-- `declaredAs?` tells one kind of note. -/
theorem Note.declaredAs?_eq_some_iff {note : Note} {name : String} {held : Variable} :
    note.declaredAs? name = some held ↔ note = .declared name held := by
  cases note <;> simp [declaredAs?]

/-- `note` of several notes leaves a variable with what it was last declared with. -/
theorem Collection.find?_vars_foldl_note (c : Collection) (name : String) (notes : List Note) :
    (notes.foldl note c).vars.find? name =
      (notes.filterMap (Note.declaredAs? name)).getLast?.or (c.vars.find? name) := by
  refine foldl_note_eq_getLast? c (fun c => c.vars.find? name) _ (fun c note => ?_) notes
  -- Only declarations touch the variables; a listed name may change the list, and nothing else.
  cases note with
  | declared n held => by_cases hname : n = name <;> simp [Collection.note, Note.declaredAs?, hname]
  | listed n => exact congrArg (fun c => c.vars.find? name) (c.listExport_eq n)
  | imported | exported | defaultExport | function | route | mount => rfl

end RouteAtlas
