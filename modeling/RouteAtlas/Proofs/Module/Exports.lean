import Mathlib.Data.List.Induction
import RouteAtlas.Proofs.Catalogue.WellFormed
import RouteAtlas.Proofs.Module.Notes
import RouteAtlas.Proofs.Syntax.Moves

/-!
# Finding what a file exports

A file exports functions in many forms, and an outline keeps what they export under two heads: what
is exported under a name, and the default export. Whatever the form, what was exported last under a
name is what the outline has under it. A function that is exported under a name is found under it,
unless the name is `default`: that name is looked up as the default export only, and a function that
some form exports under the name `default` is not found there.

## Key results

- `Note.exported_mem_ofNode_iff`, `Note.defaultExport_mem_ofNode_iff`: the forms of exports
- `Collection.lastGiven_of_find?_exports`, `Collection.default?_ofTree_eq_some_iff`: what was
  exported last
- `Outline.exportedFunction?_of_exports`: which exported functions are found under their names
- `Outline.defaultByName_not_found`: two forms whose functions are not
-/

namespace RouteAtlas

open Syntax

/-! ## Forms of exports -/

namespace Syntax.Node

/-- The export statement has the word `default`. -/
def isDefaultExport (n : Node) : Bool := n.children.any fun k =>
    !k.label.named && k.text == "default"

/-- The node exports the value under the name. -/
inductive Exports (n : Node) : String → Value → Prop where
  /-- A function, as in `export function name() {}`. -/
  | function {declaration id : Node} (kind : n.kind = .exportStatement)
      (plain : n.isDefaultExport = false)
      (declaration_eq : n.child? .declaration = some declaration)
      (declares : declaration.kind = .functionDeclaration ∨
        declaration.kind = .generatorFunctionDeclaration)
      (id_eq : declaration.child? .name = some id) : Exports n id.text (.function declaration.span)
  /-- A variable, as in `export const name = f`. -/
  | declared {declaration declarator id : Node} (kind : n.kind = .exportStatement)
      (plain : n.isDefaultExport = false)
      (declaration_eq : n.child? .declaration = some declaration)
      (declares : declaration.kind = .lexicalDeclaration ∨ declaration.kind = .variableDeclaration)
      (mem : declarator ∈ declaration.content) (id_eq : declarator.child? .name = some id)
      (id_kind : id.kind = .identifier) : Exports n id.text (.named id.text)
  /-- A name under itself or another, as in `export { f }` and `export { f as name }`. -/
  | specifier {clause specifier id : Node} (kind : n.kind = .exportStatement)
      (plain : n.isDefaultExport = false)
      (no_declaration : n.child? .declaration = none)
      (clause_eq : n.content.find? (·.kind == .exportClause) = some clause)
      (no_source : n.child? .source = none)
      (mem : specifier ∈ clause.content) (id_eq : specifier.child? .name = some id) :
      Exports n (((specifier.child? .newName).map (·.text)).getD id.text) (.named id.text)
  /-- A member of the default export, as in `export default { name }`. -/
  | defaultMember {target : Node} {name : String} {value : Value} (kind : n.kind = .exportStatement)
      (by_default : n.isDefaultExport = true)
      (target_eq : (n.child? .declaration).or (n.child? .value) = some target)
      (object : target.unwrap.kind = .object)
      (mem : (name, value) ∈ target.unwrap.objectMembers.entries) : Exports n name value
  /-- A property of `exports` or `module.exports`, as in `exports.name = f`. -/
  | property {left right object property : Node} {value : Value}
      (kind : n.kind = .assignmentExpression)
      (left_eq : n.child? .left = some left) (right_eq : n.child? .right = some right)
      (left_kind : left.kind = .memberExpression) (not_whole : left.isModuleExports = false)
      (object_eq : left.child? .object = some object)
      (property_eq : left.child? .property = some property)
      (exports : Collection.isExportsObject object = true)
      (property_kind : property.kind = .propertyIdentifier)
      (value_eq : right.unwrap.value? = some value) : Exports n property.text value
  /-- A member of what is exported as a whole, as in `module.exports = { name }`. -/
  | member {left right : Node} {name : String} {value : Value}
      (kind : n.kind = .assignmentExpression)
      (left_eq : n.child? .left = some left) (right_eq : n.child? .right = some right)
      (whole : left.isModuleExports = true) (object : right.unwrap.kind = .object)
      (mem : (name, value) ∈ right.unwrap.objectMembers.entries) : Exports n name value

/-- The node makes the value the default export, or takes the default export away. -/
inductive SetsDefault (n : Node) : Option Value → Prop where
  /-- As in `export default f`. -/
  | statement {target : Node} (kind : n.kind = .exportStatement)
      (by_default : n.isDefaultExport = true)
      (target_eq : (n.child? .declaration).or (n.child? .value) = some target)
      (no_object : target.unwrap.kind ≠ .object) : SetsDefault n target.unwrap.value?
  /-- As in `module.exports = f`. -/
  | assignment {left right : Node} (kind : n.kind = .assignmentExpression)
      (left_eq : n.child? .left = some left)
      (right_eq : n.child? .right = some right) (whole : left.isModuleExports = true)
      (no_object : right.unwrap.kind ≠ .object) : SetsDefault n right.unwrap.value?
  /-- As in `module.exports = {}`. -/
  | object {left right : Node} (kind : n.kind = .assignmentExpression)
      (left_eq : n.child? .left = some left)
      (right_eq : n.child? .right = some right) (whole : left.isModuleExports = true)
      (object : right.unwrap.kind = .object) : SetsDefault n none

variable {n : Node}

/-- A node `SetsDefault` once. -/
theorem SetsDefault.unique {v w : Option Value} (hv : n.SetsDefault v) (hw : n.SetsDefault w) :
    v = w := by
  -- The kind of the node and whether an object is assigned tell the forms apart.
  cases hv with
  | statement kind _ target_eq =>
    cases hw with
    | statement _ _ target_eq' =>
      obtain rfl := Option.some.inj (target_eq.symm.trans target_eq')
      rfl
    | assignment kind' | object kind' => exact nomatch kind.symm.trans kind'
  | assignment kind _ right_eq _ no_object =>
    cases hw with
    | statement kind' => exact nomatch kind.symm.trans kind'
    | assignment _ _ right_eq' =>
      obtain rfl := Option.some.inj (right_eq.symm.trans right_eq')
      rfl
    | object _ _ right_eq' _ object =>
      obtain rfl := Option.some.inj (right_eq.symm.trans right_eq')
      exact absurd object no_object
  | object kind _ right_eq _ object =>
    cases hw with
    | statement kind' => exact nomatch kind.symm.trans kind'
    | assignment _ _ right_eq' _ no_object =>
      obtain rfl := Option.some.inj (right_eq.symm.trans right_eq')
      exact absurd object no_object
    | object => rfl

end Syntax.Node

/-! ## Which notes are exports -/

namespace Note

variable {name : String} {value : Value} {value? : Option Value} {n : Node}

/-- `ofExport` notes what is exported under the name, if it is known. -/
private theorem exported_mem_ofExport_iff {exported : String} {exports? : Option Value} :
    .exported name value ∈ ofExport exported exports? ↔ exported = name ∧
      exports? = some value := by
  cases exports? <;> simp [ofExport, eq_comm]

/-- `ofMembers` notes every member under its name. -/
private theorem exported_mem_ofMembers_iff {members : Dictionary Value} :
    .exported name value ∈ ofMembers members ↔ (name, value) ∈ members.entries := by
  simp [ofMembers, exported_mem_ofExport_iff]

/-- `ofDefault` notes the members of an object as exports. -/
private theorem exported_mem_ofDefault_iff {target? : Option Node} :
    .exported name value ∈ ofDefault target? ↔
      ∃ target, target? = some target ∧ target.unwrap.kind = .object ∧
        (name, value) ∈ target.unwrap.objectMembers.entries := by
  cases target? with
  | none => simp [ofDefault]
  | some target =>
    by_cases hobject : target.unwrap.kind = .object <;>
      simp [ofDefault, hobject, exported_mem_ofMembers_iff]

/-- `ofDeclarator` notes the variable, under a plain name. -/
private theorem exported_mem_ofDeclarator_iff :
    .exported name value ∈ ofDeclarator n ↔
      ∃ id, n.child? .name = some id ∧ id.kind = .identifier ∧ id.text = name ∧
        .named id.text = value := by
  rw [ofDeclarator]
  cases n.child? .name with
  | none => simp
  | some id => by_cases hid : id.kind = .identifier <;> simp [hid, exported_mem_ofExport_iff]

/-- `ofSpecifier` notes the name, unless it comes from another file. -/
private theorem exported_mem_ofSpecifier_iff {again : Bool} :
    .exported name value ∈ ofSpecifier again n ↔
      ∃ id, n.child? .name = some id ∧ again = false ∧
        ((n.child? .newName).map (·.text)).getD id.text = name ∧ .named id.text = value := by
  rw [ofSpecifier]
  cases n.child? .name with
  | none => simp
  | some id => cases again <;> simp [exported_mem_ofExport_iff]

/-- `ofExport` notes no default export. -/
private theorem not_defaultExport_mem_ofExport {exports? : Option Value} :
    .defaultExport value? ∉ ofExport name exports? := by
  cases exports? <;> simp [ofExport]

/-- `ofMembers` notes no default export. -/
private theorem not_defaultExport_mem_ofMembers {members : Dictionary Value} :
    .defaultExport value? ∉ ofMembers members := by
  simp [ofMembers, not_defaultExport_mem_ofExport]

/-- `ofDefault` notes what is no object as the default export. -/
private theorem defaultExport_mem_ofDefault_iff {target? : Option Node} :
    .defaultExport value? ∈ ofDefault target? ↔
      ∃ target, target? = some target ∧ target.unwrap.kind ≠ .object ∧
        value? = target.unwrap.value? := by
  cases target? with
  | none => simp [ofDefault]
  | some target =>
    by_cases hobject : target.unwrap.kind = .object <;>
      simp [ofDefault, hobject, not_defaultExport_mem_ofMembers]

/-- `ofDeclaration` notes a function, or the variables. -/
private theorem exported_mem_ofDeclaration_iff :
    .exported name value ∈ ofDeclaration n ↔
      ((n.kind = .functionDeclaration ∨ n.kind = .generatorFunctionDeclaration) ∧
        ∃ id, n.child? .name = some id ∧ id.text = name ∧ .function n.span = value) ∨
      ((n.kind = .lexicalDeclaration ∨ n.kind = .variableDeclaration) ∧
        ∃ declarator ∈ n.content, ∃ id, declarator.child? .name = some id ∧ id.kind = .identifier ∧
          id.text = name ∧
          .named id.text = value) := by
  rw [ofDeclaration]
  cases n.kind
  case functionDeclaration | generatorFunctionDeclaration =>
    cases n.child? .name <;> simp [exported_mem_ofExport_iff]
  case lexicalDeclaration | variableDeclaration => simp [exported_mem_ofDeclarator_iff]
  all_goals simp

/-- `ofDeclarator` notes no default export. -/
private theorem not_defaultExport_mem_ofDeclarator : .defaultExport value? ∉ ofDeclarator n := by
  rw [ofDeclarator]
  cases n.child? .name with
  | none => simp
  | some id => by_cases hid : id.kind = .identifier <;> simp [hid, not_defaultExport_mem_ofExport]

/-- `ofDeclaration` notes no default export. -/
private theorem not_defaultExport_mem_ofDeclaration : .defaultExport value? ∉ ofDeclaration n := by
  rw [ofDeclaration]
  cases n.kind
  case functionDeclaration | generatorFunctionDeclaration =>
    cases n.child? .name <;> simp [not_defaultExport_mem_ofExport]
  case lexicalDeclaration | variableDeclaration => simp [not_defaultExport_mem_ofDeclarator]
  all_goals simp

/-- `ofSpecifier` notes no default export. -/
private theorem not_defaultExport_mem_ofSpecifier {again : Bool} :
    .defaultExport value? ∉ ofSpecifier again n := by
  rw [ofSpecifier]
  cases n.child? .name <;> simp [not_defaultExport_mem_ofExport]

/-! ### Statements -/

/-- `ofExportStatement` notes a default export, the exports of a declaration, or those of a
clause. -/
private theorem mem_ofExportStatement_iff {note : Note} :
    note ∈ ofExportStatement n ↔
      (n.isDefaultExport = true ∧ note ∈ ofDefault ((n.child? .declaration).or (n.child? .value))) ∨
      (n.isDefaultExport = false ∧ ∃ declaration, n.child? .declaration = some declaration ∧
        note ∈ ofDeclaration declaration) ∨
      (n.isDefaultExport = false ∧ n.child? .declaration = none ∧
        ∃ clause, n.content.find? (·.kind == .exportClause) = some clause ∧
          ∃ specifier ∈ clause.content,
            note ∈ ofSpecifier (n.child? .source).isSome specifier) := by
  rw [ofExportStatement, ← Node.isDefaultExport]
  cases n.isDefaultExport with
  | true => simp
  | false =>
    cases n.child? .declaration with
    | some declaration => simp
    | none => cases n.content.find? (·.kind == .exportClause) <;> simp

/-- `isModuleExports` holds of member expressions only. -/
private theorem kind_of_isModuleExports (h : n.isModuleExports = true) :
    n.kind = .memberExpression := by
  simp only [Node.isModuleExports, Bool.and_eq_true, beq_iff_eq] at h
  exact h.1.1

/-- `ofAssignment` notes an assignment to all that is exported, or to one property of it. -/
private theorem mem_ofAssignment_iff {left right : Node} {note : Note} :
    note ∈ ofAssignment left right ↔
      (left.isModuleExports = true ∧ (note = .listed "default" ∨
        (right.kind = .object ∧
          (note = .defaultExport none ∨ note ∈ ofMembers right.objectMembers)) ∨
        (right.kind ≠ .object ∧ note = .defaultExport right.value?))) ∨
      (left.kind = .memberExpression ∧ left.isModuleExports = false ∧
        ∃ object, left.child? .object = some object ∧
          ∃ property, left.child? .property = some property ∧
          Collection.isExportsObject object = true ∧ property.kind = .propertyIdentifier ∧
          note ∈ ofExport property.text right.value?) := by
  rw [ofAssignment]
  -- Both branches are for member expressions only, and `module.exports` is one.
  cases hwhole : left.isModuleExports with
  | true =>
    by_cases hobject : right.kind = .object <;> simp [kind_of_isModuleExports hwhole, hobject]
  | false =>
    by_cases hmember : left.kind = .memberExpression
    · cases left.child? .object with
      | none => simp
      | some object =>
        cases left.child? .property with
        | none => simp
        | some property =>
          by_cases hexports : Collection.isExportsObject object = true <;>
            by_cases hproperty : property.kind = .propertyIdentifier <;>
              simp [hmember, hexports, hproperty]
    · simp [hmember]

/-- `ofAssignment` notes the members of an object, or one property. -/
private theorem exported_mem_ofAssignment_iff {left right : Node} :
    .exported name value ∈ ofAssignment left right ↔
      (left.isModuleExports = true ∧ right.kind = .object ∧
        (name, value) ∈ right.objectMembers.entries) ∨
      (left.kind = .memberExpression ∧ left.isModuleExports = false ∧
        ∃ object, left.child? .object = some object ∧
          ∃ property, left.child? .property = some property ∧
          Collection.isExportsObject object = true ∧ property.kind = .propertyIdentifier ∧
            property.text = name ∧
          right.value? = some value) := by
  simp [mem_ofAssignment_iff, exported_mem_ofMembers_iff, exported_mem_ofExport_iff]

/-- `ofAssignment` notes a default export if all that is exported is assigned to; an object takes it
away. -/
private theorem defaultExport_mem_ofAssignment_iff {left right : Node} :
    .defaultExport value? ∈ ofAssignment left right ↔
      left.isModuleExports = true ∧
        ((right.kind ≠ .object ∧ value? = right.value?) ∨
          (right.kind = .object ∧ value? = none)) := by
  simp [mem_ofAssignment_iff, not_defaultExport_mem_ofMembers, not_defaultExport_mem_ofExport,
    or_comm]

/-! ### Nodes -/

/-- The note is about something that is exported under a name or by default. -/
def isExport : Note → Bool
  | .exported _ _ | .defaultExport _ => true
  | _ => false

/-- `ofNode` notes exports as `ofExportStatement` and `ofAssignment` do. -/
private theorem mem_ofNode_iff_of_isExport {place : Cursor} {note : Note}
    (h : note.isExport = true) :
    note ∈ ofNode place ↔
      (place.node.kind = .exportStatement ∧ note ∈ ofExportStatement place.node) ∨
      (place.node.kind = .assignmentExpression ∧ ∃ left, place.node.child? .left = some left ∧
        ∃ right, place.node.child? .right = some right ∧
          note ∈ ofAssignment left right.unwrap) := by
  constructor
  · intro hnote
    cases takenFrom_of_mem_ofNode hnote with
    | exportStatement kind mem => exact .inl ⟨kind, mem⟩
    | assignment kind left_eq right_eq mem => exact .inr ⟨kind, _, left_eq, _, right_eq, mem⟩
    | declarator _ _ _ mem =>
      rcases exists_of_mem_ofDeclared mem with ⟨_, rfl⟩ | ⟨_, _, rfl⟩ | ⟨_, _, rfl⟩ <;>
        exact absurd h Bool.false_ne_true
    | importStatement | function | statement | route | mount => exact absurd h Bool.false_ne_true
  · rintro (⟨hkind, hmem⟩ | ⟨hkind, left, hleft, right, hright, hmem⟩)
    · exact mem_ofNode_iff.mpr (.exportStatement hkind hmem)
    · exact mem_ofNode_iff.mpr (.assignment hkind hleft hright hmem)

/-- `ofNode` notes the exports under a name in one of the forms of `Exports`, and no others. -/
private theorem exported_mem_ofNode_iff {place : Cursor} :
    .exported name value ∈ ofNode place ↔ place.node.Exports name value := by
  rw [mem_ofNode_iff_of_isExport rfl, mem_ofExportStatement_iff]
  -- The six forms are the six ways to come to such a note, one by one.
  constructor
  · rintro (⟨hkind, ⟨hdefault, h⟩ | ⟨hplain, declaration, hdeclaration, h⟩ |
      ⟨hplain, hnone, clause, hclause, specifier, hmem, h⟩⟩ | ⟨hkind, left, hleft, right,
        hright, h⟩)
    · obtain ⟨target, htarget, hobject, hmem⟩ := exported_mem_ofDefault_iff.mp h
      exact .defaultMember hkind hdefault htarget hobject hmem
    · rcases exported_mem_ofDeclaration_iff.mp h with
        ⟨hdeclares, id, hid, rfl, rfl⟩ | ⟨hdeclares, declarator, hmem, id, hid, hidKind, rfl, rfl⟩
      · exact .function hkind hplain hdeclaration hdeclares hid
      · exact .declared hkind hplain hdeclaration hdeclares hmem hid hidKind
    · obtain ⟨id, hid, hsource, rfl, rfl⟩ := exported_mem_ofSpecifier_iff.mp h
      exact .specifier hkind hplain hnone hclause (by simpa using hsource) hmem hid
    · rcases exported_mem_ofAssignment_iff.mp h with ⟨hwhole, hobject, hmem⟩ |
        ⟨hmember, hwhole, object, hobject, property, hproperty, hexports, hname, rfl, hvalue⟩
      · exact .member hkind hleft hright hwhole hobject hmem
      · exact .property hkind hleft hright hmember hwhole hobject hproperty hexports hname hvalue
  · intro h
    cases h with
    | @function declaration id kind plain declaration_eq declares id_eq =>
      have hmem := exported_mem_ofDeclaration_iff.mpr (.inl ⟨declares, id, id_eq, rfl, rfl⟩)
      exact .inl ⟨kind, .inr (.inl ⟨plain, declaration, declaration_eq, hmem⟩)⟩
    | @declared declaration declarator id kind plain declaration_eq declares mem id_eq id_kind =>
      have hmem :=
        exported_mem_ofDeclaration_iff.mpr
        (.inr ⟨declares, declarator, mem, id, id_eq, id_kind, rfl, rfl⟩)
      exact .inl ⟨kind, .inr (.inl ⟨plain, declaration, declaration_eq, hmem⟩)⟩
    | @specifier clause specifier id kind plain no_declaration clause_eq no_source mem id_eq =>
      have hsource : (place.node.child? .source).isSome = false := by rw [no_source]; rfl
      have hmem := exported_mem_ofSpecifier_iff.mpr ⟨id, id_eq, hsource, rfl, rfl⟩
      exact .inl
        ⟨kind, .inr (.inr ⟨plain, no_declaration, clause, clause_eq, specifier, mem, hmem⟩)⟩
    | @defaultMember target _ _ kind by_default target_eq object mem =>
      exact .inl
        ⟨kind, .inl ⟨by_default, exported_mem_ofDefault_iff.mpr ⟨target, target_eq, object, mem⟩⟩⟩
    | @property left right object property _ kind left_eq right_eq left_kind not_whole object_eq
        property_eq exports
        property_kind value_eq =>
      have hmem :=
        exported_mem_ofAssignment_iff.mpr (.inr ⟨left_kind, not_whole, object, object_eq, property,
          property_eq, exports, property_kind, rfl, value_eq⟩)
      exact .inr ⟨kind, left, left_eq, right, right_eq, hmem⟩
    | @member left right _ _ kind left_eq right_eq whole object mem =>
      have hmem := exported_mem_ofAssignment_iff.mpr (.inl ⟨whole, object, mem⟩)
      exact .inr ⟨kind, left, left_eq, right, right_eq, hmem⟩

/-- `ofNode` notes the default exports in one of the forms of `SetsDefault`, and no others. -/
private theorem defaultExport_mem_ofNode_iff {place : Cursor} :
    .defaultExport value? ∈ ofNode place ↔ place.node.SetsDefault value? := by
  rw [mem_ofNode_iff_of_isExport rfl, mem_ofExportStatement_iff]
  -- Declarations and clauses export under names only, so three forms are left.
  constructor
  · rintro (⟨hkind, ⟨hdefault, h⟩ | ⟨_, declaration, _, h⟩ | ⟨_, _, clause, _, specifier, _, h⟩⟩ |
      ⟨hkind, left, hleft, right, hright, h⟩)
    · obtain ⟨target, htarget, hobject, rfl⟩ := defaultExport_mem_ofDefault_iff.mp h
      exact .statement hkind hdefault htarget hobject
    · exact absurd h not_defaultExport_mem_ofDeclaration
    · exact absurd h not_defaultExport_mem_ofSpecifier
    · obtain ⟨hwhole, ⟨hobject, rfl⟩ | ⟨hobject, rfl⟩⟩ := defaultExport_mem_ofAssignment_iff.mp h
      · exact .assignment hkind hleft hright hwhole hobject
      · exact .object hkind hleft hright hwhole hobject
  · intro h
    cases h with
    | @statement target kind by_default target_eq no_object =>
      have hmem := defaultExport_mem_ofDefault_iff.mpr ⟨target, target_eq, no_object, rfl⟩
      exact .inl ⟨kind, .inl ⟨by_default, hmem⟩⟩
    | @assignment left right kind left_eq right_eq whole no_object =>
      have hmem := defaultExport_mem_ofAssignment_iff.mpr ⟨whole, .inl ⟨no_object, rfl⟩⟩
      exact .inr ⟨kind, left, left_eq, right, right_eq, hmem⟩
    | @object left right kind left_eq right_eq whole object =>
      have hmem := defaultExport_mem_ofAssignment_iff.mpr ⟨whole, .inr ⟨object, rfl⟩⟩
      exact .inr ⟨kind, left, left_eq, right, right_eq, hmem⟩

/-- What the note puts under the name, if it exports anything under it. -/
def exportedAs? (name : String) : Note → Option Value
  | .exported n value => if n = name then some value else none
  | _ => none

/-- What the note makes the default export, if it is about that. -/
def newDefault? : Note → Option (Option Value)
  | .defaultExport value? => some value?
  | _ => none

/-- `exportedAs?` tells one kind of note. -/
private theorem exportedAs?_eq_some_iff {note : Note} :
    note.exportedAs? name = some value ↔ note = .exported name value := by
  cases note <;> simp [exportedAs?]

/-- `newDefault?` tells one kind of note. -/
private theorem newDefault?_eq_some_iff {note : Note} :
    note.newDefault? = some value? ↔ note = .defaultExport value? := by
  cases note <;> simp [newDefault?]

end Note

/-! ## What is exported last -/

/-- At the last of the places that give anything, this is given. -/
def LastGiven {α : Type} (gives : Cursor → α → Prop) (places : List Cursor) (a : α) : Prop :=
  ∃ before place after, places = before ++ place :: after ∧ gives place a ∧
    ∀ later ∈ after, ∀ b, ¬ gives later b

section LastGiven

variable {α : Type} {gives : Cursor → α → Prop} {givenAt : Cursor → List α} {places : List Cursor}
  {a : α}

/-- `getLast?` of what is given at the places is `LastGiven`. -/
theorem lastGiven_of_getLast? (hgives : ∀ place b, b ∈ givenAt place ↔ gives place b)
    (h : (places.flatMap givenAt).getLast? = some a) : LastGiven gives places a := by
  -- From the last place back: it gives something itself, or what counts was given before it.
  induction places using List.reverseRecOn with
  | nil => exact nomatch h
  | append_singleton places place ih =>
    rw [List.flatMap_append, List.flatMap_singleton] at h
    cases hgiven : givenAt place with
    | nil =>
      rw [hgiven, List.append_nil] at h
      obtain ⟨before, p, after, rfl, hp, hafter⟩ := ih h
      refine ⟨before, p, after ++ [place], by simp, hp, fun later hlater b hb => ?_⟩
      rcases List.mem_append.mp hlater with hlater | hlater
      · exact hafter later hlater b hb
      · obtain rfl := List.mem_singleton.mp hlater
        have hmem := (hgives later b).mpr hb
        rw [hgiven] at hmem
        exact absurd hmem List.not_mem_nil
    | cons b bs =>
      refine ⟨places, place, [], rfl, (hgives place a).mp ?_, fun _ => nofun⟩
      rw [List.getLast?_append_of_ne_nil _ (by simp [hgiven])] at h
      exact List.mem_of_getLast? h

/-- `getLast?` finds what is `LastGiven`, if each place gives one thing at most. -/
theorem getLast?_of_lastGiven (hgives : ∀ place b, b ∈ givenAt place ↔ gives place b)
    (hunique : ∀ place b c, gives place b → gives place c → b = c) (h : LastGiven gives places a) :
    (places.flatMap givenAt).getLast? = some a := by
  obtain ⟨before, place, after, rfl, hplace, hafter⟩ := h
  -- Nothing is given after the place, so the last of what it gives is the last of all.
  have hnone : after.flatMap givenAt = [] := by
    refine List.flatMap_eq_nil_iff.mpr fun later hlater =>
      List.eq_nil_iff_forall_not_mem.mpr fun b hb => ?_
    exact hafter later hlater b ((hgives later b).mp hb)
  have hmem : a ∈ givenAt place := (hgives place a).mpr hplace
  rw [List.flatMap_append, List.flatMap_cons, hnone, List.append_nil,
    List.getLast?_append_of_ne_nil _ (List.ne_nil_of_mem hmem),
    List.getLast?_eq_some_getLast (List.ne_nil_of_mem hmem)]
  exact congrArg some (hunique place _ _ ((hgives place _).mp (List.getLast_mem _)) hplace)

end LastGiven

namespace Collection

variable {c : Collection} {name : String}

/-- The places that are entered in a tree, in order. -/
def places (root : Cursor) : List Cursor := (root.history visit {}).map (·.2)

/-- `ofTree` writes down the notes of the places that are entered. -/
theorem ofTree_eq_foldl_note (root : Cursor) :
    ofTree root = ((places root).flatMap Note.ofNode).foldl note {} := by
  rw [ofTree, Cursor.walk_eq_stateAfter, Cursor.stateAfter, places,
    ← foldl_note_flatMap _ enter_eq_foldl_notes, List.foldl_map]
  rfl

/-- `note` of several notes leaves under a name what is put there last. -/
private theorem find?_exports_foldl_note (notes : List Note) :
    (notes.foldl note c).exports.find? name =
      (notes.filterMap (Note.exportedAs? name)).getLast?.or (c.exports.find? name) := by
  refine foldl_note_eq_getLast? c (fun c => c.exports.find? name) _ (fun c note => ?_) notes
  cases note with
  | exported n value =>
    by_cases hname : n = name <;> simp [Collection.note, Note.exportedAs?, hname]
  | listed n => exact congrArg (fun c => c.exports.find? name) (c.listExport_eq n)
  | imported | defaultExport | function | declared | route | mount => rfl

/-- `note` of several notes leaves the default export that is set last. -/
private theorem default?_foldl_note (notes : List Note) :
    (notes.foldl note c).default? =
      (notes.filterMap Note.newDefault?).getLast?.getD c.default? := by
  -- There always is a default export or none, so it is a part that is never missing.
  have hlast := foldl_note_eq_getLast? c (fun c => some c.default?) Note.newDefault?
    (fun c note => by
      cases note with
      | defaultExport value? => rfl
      | listed n => exact congrArg (fun c => some c.default?) (c.listExport_eq n)
      | imported | exported | function | declared | route | mount => rfl) notes
  rw [Option.or_some] at hlast
  exact Option.some.inj hlast

/-- `ofTree` has, under a name, what was exported under it in one of the forms, and nothing was
afterwards. -/
private theorem lastGiven_of_find?_exports {root : Cursor} {value : Value}
    (h : (ofTree root).exports.find? name = some value) :
    LastGiven (fun place => place.node.Exports name) (places root) value := by
  have hnotes : ∀ place v, v ∈ (Note.ofNode place).filterMap (Note.exportedAs? name) ↔
      place.node.Exports name v := by
    intro place v
    simp [List.mem_filterMap, Note.exportedAs?_eq_some_iff, Note.exported_mem_ofNode_iff]
  refine lastGiven_of_getLast? hnotes ?_
  rw [ofTree_eq_foldl_note, find?_exports_foldl_note, List.filterMap_flatMap] at h
  -- Nothing is exported before the first place is entered.
  rcases Option.or_eq_some_iff.mp h with hlast | ⟨_, hempty⟩
  · exact hlast
  · exact nomatch hempty

/-- `ofTree` has the default export that was made last, unless it was taken away again. -/
private theorem default?_ofTree_eq_some_iff {root : Cursor} {value : Value} :
    (ofTree root).default? = some value ↔
      LastGiven (fun place => place.node.SetsDefault) (places root) (some value) := by
  have hnotes : ∀ place v?, v? ∈ (Note.ofNode place).filterMap Note.newDefault? ↔
      place.node.SetsDefault v? := by
    intro place v?
    simp [List.mem_filterMap, Note.newDefault?_eq_some_iff, Note.defaultExport_mem_ofNode_iff]
  rw [ofTree_eq_foldl_note, default?_foldl_note, List.filterMap_flatMap]
  constructor
  · intro h
    refine lastGiven_of_getLast? hnotes ?_
    cases hlast :
      ((places root).flatMap fun place => (Note.ofNode place).filterMap Note.newDefault?).getLast?
      with
    | none =>
      rw [hlast] at h
      exact nomatch h
    | some v? =>
      rw [hlast] at h
      exact congrArg some h
  · intro h
    -- A node sets the default export once, so the last place decides.
    rw [getLast?_of_lastGiven hnotes (fun _ _ _ hb hc => hb.unique hc) h]
    rfl

end Collection

namespace Outline

/-- `exports` has, under a name, what was exported in one of the forms of `Exports`. If it refers to
a function, `exportedFunction?` finds the function under the name, unless the name is `default` and
the default export, which is another thing, refers to no function or to another one. -/
theorem exportedFunction?_of_exports {resolve : String → Option Path} {source : SourceFile}
    {name : String} {value : Value} {s : Span}
    (hexported : (ofSource resolve source).exports.find? name = some value)
    (hfunction : (ofSource resolve source).functionOf? value = some s) :
    LastGiven (fun place => place.node.Exports name) (Collection.places source.root) value ∧
      ((ofSource resolve source).exportedFunction? name = some s ↔
        (name = "default" →
          ∃ v, LastGiven (fun place => place.node.SetsDefault) (Collection.places source.root)
            (some v) ∧
            (ofSource resolve source).functionOf? v = some s)) := by
  refine ⟨Collection.lastGiven_of_find?_exports hexported, ?_⟩
  rw [exportedFunction?]
  -- Only the name `default` is looked up elsewhere than in `exports`.
  by_cases hname : name = "default"
  · have hdefault (v : Value) : (ofSource resolve source).default? = some v ↔
        LastGiven (fun place => place.node.SetsDefault) (Collection.places source.root) (some v) :=
      Collection.default?_ofTree_eq_some_iff
    rw [if_pos hname, defaultFunction?, Option.bind_eq_some_iff]
    simp only [hname, hdefault, true_implies]
  · have hfound : ((ofSource resolve source).exports.find? name).bind
        (ofSource resolve source).functionOf? = some s := by
      rw [hexported]
      exact hfunction
    rw [if_neg hname]
    exact iff_of_true hfound fun h => absurd h hname

/-- The outline of a file with the tree. -/
def ofScript (tree : Node) : Outline :=
    ofSource (fun _ => none) ⟨⟨"a.js"⟩, .javaScript, tree.text, tree⟩

/-- The file `function list() {} export { list as name };`. -/
def aliasScript (name : String) : Node :=
  let stop := 36 + name.length
  let specifier := "list as " ++ name
  .onLine .program none 0 (stop + 3)
    ("function list() \x7b\x7d export \x7b " ++ specifier ++ " \x7d;")
    [.onLine .functionDeclaration none 0 18 "function list() \x7b\x7d"
      [.onLine .identifier (some .name) 9 13 "list",
        .onLine .formalParameters (some .parameters) 13 15 "()",
       .onLine .statementBlock (some .body) 16 18 "\x7b\x7d"],
     .onLine .exportStatement none 19 (stop + 3) ("export \x7b " ++ specifier ++ " \x7d;")
      [.onLine .exportClause none 26 (stop + 2) ("\x7b " ++ specifier ++ " \x7d")
        [.onLine .exportSpecifier none 28 stop specifier
          [.onLine .identifier (some .name) 28 32 "list",
            .onLine .identifier (some .newName) 36 stop name]]]]

/-- In `aliasScript`, the function is found under the name that the clause gives it. -/
theorem aliasScript_found :
    (ofScript (aliasScript "show")).exports.find? "show" = some (.named "list") ∧
      (ofScript (aliasScript "show")).functionOf? (.named "list") = some ⟨0, 18, 1⟩ ∧
      (ofScript (aliasScript "show")).exportedFunction? "show" = some ⟨0, 18, 1⟩ := by
  have hexported : (ofScript (aliasScript "show")).exports.find? "show" = some (.named "list") := by
    decide +kernel
  have hfunction : (ofScript (aliasScript "show")).functionOf? (.named "list") =
      some ⟨0, 18, 1⟩ := by decide +kernel
  exact ⟨hexported, hfunction, (exportedFunction?_of_exports hexported hfunction).2.mpr
    (fun h => absurd h (by decide))⟩

/-- The file `exports.name = function () {};`. -/
def propertyScript (name : String) : Node :=
  let stop := 8 + name.length
  let assignment := "exports." ++ name ++ " = function () \x7b\x7d"
  .onLine .program none 0 (stop + 18) (assignment ++ ";")
    [.onLine .expressionStatement none 0 (stop + 18) (assignment ++ ";")
      [.onLine .assignmentExpression none 0 (stop + 17) assignment
        [.onLine .memberExpression (some .left) 0 stop ("exports." ++ name)
          [.onLine .identifier (some .object) 0 7 "exports",
            .onLine .propertyIdentifier (some .property) 8 stop name],
         .onLine .functionExpression (some .right) (stop + 3) (stop + 17) "function () \x7b\x7d"
          [.onLine .formalParameters (some .parameters) (stop + 12) (stop + 14) "()",
           .onLine .statementBlock (some .body) (stop + 15) (stop + 17) "\x7b\x7d"]]]]

/-- In `aliasScript` and `propertyScript`, functions that are exported under the name `default` are
not found under it. -/
theorem defaultByName_not_found :
    ((ofScript (aliasScript "default")).exports.find? "default" = some (.named "list") ∧
      (ofScript (aliasScript "default")).functionOf? (.named "list") = some ⟨0, 18, 1⟩ ∧
      (ofScript (aliasScript "default")).exportedFunction? "default" = none) ∧
    (ofScript (propertyScript "default")).exports.find? "default" = some (.function ⟨18, 32, 1⟩) ∧
      (ofScript (propertyScript "default")).exportedFunction? "default" = none := by
  decide +kernel

end Outline

end RouteAtlas
