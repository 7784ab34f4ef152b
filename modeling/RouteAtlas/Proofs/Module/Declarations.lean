import RouteAtlas.Proofs.Module.Exports
import RouteAtlas.Proofs.Module.Provenance
import RouteAtlas.Proofs.Project.Handlers
import RouteAtlas.Proofs.Syntax.Positions

/-!
# Functions and variables of a file

A file declares functions and variables at its top level and inside functions and blocks, and an
outline keeps them in two flat tables. A name stands for the last function declared under it at the
top level, or else for the first one declared under it anywhere. Variables know no levels: a name
stands for what it was declared with last, so a variable inside a function hides one at the top
level that is declared before it. Declarations inside import statements, where only the object of
an import attribute can hold any, do not count.

## Key results

- `Note.function_mem_ofNode_iff`, `Note.declared_mem_ofNode_iff`: the forms of declarations
- `Outline.functions_by_level`: the function that a name stands for
- `Outline.vars_of_topLevel`: when a name stands for its last variable at the top level, and what
  follows for handlers
- `Outline.attributeFunction_missed`, `Outline.innerUsers_hides`: where a declaration is lost
-/

namespace RouteAtlas

open Syntax

/-! ## Forms of declarations -/

namespace Syntax

/-- What is below the frames stands directly in the program, or behind `export` there. -/
inductive InProgram : List Frame → Prop where
  | direct {f : Frame} {above : List Frame} (kind : f.label.kind = .program) :
      InProgram (f :: above)
  | exported {f g : Frame} {above : List Frame} (kind : f.label.kind = .exportStatement)
      (outer : g.label.kind = .program) : InProgram (f :: g :: above)

/-- The declaration at the cursor is one of the top level. A declarator stands in a declaration,
which is what has to stand in the program. -/
def Cursor.TopLevel (c : Cursor) : Prop :=
  InProgram (if c.kind = .variableDeclarator then c.above.drop 1 else c.above)

/-- `isTopLevel` decides `TopLevel`. -/
private theorem Cursor.isTopLevel_iff {c : Cursor} : c.isTopLevel = true ↔ c.TopLevel := by
  have hkinds : (if c.kind == .variableDeclarator then (c.above.map (·.label.kind)).drop 1
      else c.above.map (·.label.kind)) =
      (if c.kind = .variableDeclarator then c.above.drop 1 else c.above).map (·.label.kind) := by
    by_cases hkind : c.kind = .variableDeclarator <;> simp [hkind]
  unfold isTopLevel TopLevel
  dsimp only
  rw [hkinds]
  generalize (if c.kind = .variableDeclarator then c.above.drop 1 else c.above) = above
  -- Which of the two forms it is can be read off the kinds of the nearest frames.
  split
  · rename_i hprogram
    obtain ⟨f, _, rfl, hf, _⟩ := List.map_eq_cons_iff.mp hprogram
    exact iff_of_true rfl (.direct hf)
  · rename_i hexport
    obtain ⟨f, _, rfl, hf, hrest⟩ := List.map_eq_cons_iff.mp hexport
    obtain ⟨g, _, rfl, hg, _⟩ := List.map_eq_cons_iff.mp hrest
    exact iff_of_true rfl (.exported hf hg)
  · rename_i hprogram hexport
    refine iff_of_false Bool.false_ne_true fun h => ?_
    cases h with
    | direct kind => exact hprogram _ (by rw [List.map_cons, kind])
    | exported kind outer => exact hexport _ (by rw [List.map_cons, List.map_cons, kind, outer])

namespace Node

/-- The node declares a variable under a plain name, with a value to begin with. -/
structure Initialises (n id init : Node) : Prop where
  kind : n.kind = .variableDeclarator
  id_eq : n.child? .name = some id
  id_kind : id.kind = .identifier
  init_eq : n.child? .value = some init

/-- The node declares the function under the name. -/
inductive DeclaresFunction (n : Node) : String → Span → Prop where
  /-- As in `function name() {}`; it may be a generator. -/
  | statement {id : Node}
      (kind : n.kind = .functionDeclaration ∨ n.kind = .generatorFunctionDeclaration)
      (id_eq : n.child? .name = some id) : DeclaresFunction n id.text n.span
  /-- As in `const name = () => {}`. -/
  | held {id init : Node} (initialises : n.Initialises id init)
      (not_required : init.unwrap.required? = none)
      (function : init.unwrap.kind.isFunction = true) : DeclaresFunction n id.text init.unwrap.span
  /-- As in `const name = wrapper(() => {})`. -/
  | wrapped {id init f : Node} (initialises : n.Initialises id init)
      (not_required : init.unwrap.required? = none)
      (wraps : init.unwrap.wrappedFunction? = some f) : DeclaresFunction n id.text f.span

/-- What a variable holds that is declared with the node as its value. -/
def held (n : Node) : Variable :=
  match n.required? with
  | some (specifier, _) => .required specifier
  | none =>
    match n.value? with
    | some (.function span) => .function span
    | _ => if n.kind == .object then .object n.objectMembers else .other

/-- The node declares the variable, which then holds the value. -/
def DeclaresVariable (n : Node) (name : String) (v : Variable) : Prop :=
  ∃ id init, n.Initialises id init ∧ id.text = name ∧ init.unwrap.held = v

/-! ### Values -/

/-- `unwrapAmong` leaves nothing to `unwrap`, if the nodes and the fallback do not. -/
private theorem unwrapAmong_unwrap {fallback : Node} {ns : List Node}
    (hns : ∀ n ∈ ns, n.unwrap.unwrap = n.unwrap)
    (hfallback : (∀ n ∈ ns, n.label.named = false) → fallback.unwrap = fallback) :
    (unwrapAmong fallback ns).unwrap = unwrapAmong fallback ns := by
  induction ns with
  | nil => exact hfallback fun _ => nofun
  | cons n ns ih =>
    obtain ⟨hn, hrest⟩ := List.forall_mem_cons.mp hns
    -- The first node with a name is the one that is unwrapped.
    rw [unwrapAmong]
    split
    · exact hn
    · rename_i hunnamed
      refine ih hrest fun hall => hfallback ?_
      exact List.forall_mem_cons.mpr ⟨Bool.eq_false_of_not_eq_true hunnamed, hall⟩

/-- `unwrapAmong` nodes without a name falls back. -/
private theorem unwrapAmong_of_unnamed {fallback : Node} {ns : List Node}
    (h : ∀ n ∈ ns, n.label.named = false) :
    unwrapAmong fallback ns = fallback := by
  induction ns with
  | nil => rfl
  | cons n ns ih =>
    obtain ⟨hn, hrest⟩ := List.forall_mem_cons.mp h
    rw [unwrapAmong, hn, if_neg Bool.false_ne_true, ih hrest]

/-- `unwrap` leaves nothing to unwrap. -/
private theorem unwrap_unwrap (n : Node) : n.unwrap.unwrap = n.unwrap := by
  induction n using induction with
  | mk l cs ih =>
    rw [unwrap]
    split
    · rename_i htransparent
      -- A wrapper without anything named in it stays as it is.
      refine unwrapAmong_unwrap ih fun hunnamed => ?_
      rw [unwrap, if_pos htransparent, unwrapAmong_of_unnamed hunnamed]
    · rename_i hopaque
      rw [unwrap, if_neg hopaque]

/-- `wrappedFunction?` finds something in calls only. -/
private theorem kind_of_wrappedFunction? {n f : Node} (h : n.wrappedFunction? = some f) :
    n.kind = .callExpression := by
  obtain ⟨_, hguard, _⟩ := Option.bind_eq_some_iff.mp h
  simpa using (Option.guard_eq_some' _).mp hguard

/-- A node `Initialises` one name with one value. -/
theorem Initialises.unique {n id id' init init' : Node} (h : n.Initialises id init)
    (h' : n.Initialises id' init') :
    id = id' ∧ init = init' :=
  ⟨Option.some.inj (h.id_eq.symm.trans h'.id_eq), Option.some.inj (h.init_eq.symm.trans h'.init_eq)⟩

/-- A node `DeclaresVariable` once. -/
theorem DeclaresVariable.unique {n : Node} {name : String} {v w : Variable}
    (hv : n.DeclaresVariable name v) (hw : n.DeclaresVariable name w) :
    v = w := by
  obtain ⟨id, init, h, _, rfl⟩ := hv
  obtain ⟨id', init', h', _, rfl⟩ := hw
  obtain ⟨rfl, rfl⟩ := h.unique h'
  rfl

/-- `value?` is a function if the node is one, or hands one to a wrapper. -/
private theorem value?_eq_function_iff {n : Node} {s : Span} :
    n.value? = some (.function s) ↔
      (n.unwrap.kind.isFunction = true ∧ n.unwrap.span = s) ∨
        ∃ f, n.unwrap.wrappedFunction? = some f ∧ f.span = s := by
  rw [value?]
  generalize n.unwrap = inner
  by_cases hfunction : inner.kind.isFunction = true
  · -- A function is no call, so it hands nothing to a wrapper.
    have hnone : ¬ ∃ f, inner.wrappedFunction? = some f ∧ f.span = s := by
      rintro ⟨f, hf, _⟩
      rw [kind_of_wrappedFunction? hf] at hfunction
      exact nomatch hfunction
    simp [hfunction, hnone]
  · rw [if_neg hfunction]
    by_cases hcall : inner.kind = .callExpression
    · simp [hcall, Kind.isFunction]
    · have hnone : ¬ ∃ f, inner.wrappedFunction? = some f ∧ f.span = s := by
        rintro ⟨f, hf, _⟩
        exact hcall (kind_of_wrappedFunction? hf)
      refine iff_of_false (fun h => ?_) (by simp [hfunction, hnone])
      split at h
      · exact nomatch h
      · exact absurd ‹_› hcall
      · exact nomatch h

/-- `DeclaresFunction` holds of statements, and of variables with a function as their value. -/
private theorem declaresFunction_iff {n : Node} {name : String} {s : Span} :
    n.DeclaresFunction name s ↔
      ((n.kind = .functionDeclaration ∨ n.kind = .generatorFunctionDeclaration) ∧
        ∃ id, n.child? .name = some id ∧ name = id.text ∧ s = n.span) ∨
      ∃ id init, n.Initialises id init ∧ name = id.text ∧ init.unwrap.required? = none ∧
        init.unwrap.value? = some (.function s) := by
  simp only [value?_eq_function_iff, unwrap_unwrap]
  constructor
  · intro h
    cases h with
    | statement kind id_eq => exact .inl ⟨kind, _, id_eq, rfl, rfl⟩
    | held initialises not_required function =>
      exact .inr ⟨_, _, initialises, rfl, not_required, .inl ⟨function, rfl⟩⟩
    | wrapped initialises not_required wraps =>
      exact .inr ⟨_, _, initialises, rfl, not_required, .inr ⟨_, wraps, rfl⟩⟩
  · rintro (⟨hkind, id, hid, rfl, rfl⟩ | ⟨id, init, hinit, rfl, hrequired,
      ⟨hfunction, rfl⟩ | ⟨f, hf, rfl⟩⟩)
    · exact .statement hkind hid
    · exact .held hinit hrequired hfunction
    · exact .wrapped hinit hrequired hf

/-- A node `DeclaresFunction` once. -/
theorem DeclaresFunction.unique {n : Node} {name : String} {s t : Span}
    (hs : n.DeclaresFunction name s) (ht : n.DeclaresFunction name t) :
    s = t := by
  -- A statement is no declarator, so both declarations have the same form.
  rcases declaresFunction_iff.mp hs with ⟨hkind, _, _, _, rfl⟩ | ⟨id, init, hinit, _, _, hvalue⟩
  · rcases declaresFunction_iff.mp ht with ⟨_, _, _, _, rfl⟩ | ⟨_, _, hinit', _⟩
    · rfl
    · simp [hinit'.kind] at hkind
  · rcases declaresFunction_iff.mp ht with ⟨hkind', _⟩ | ⟨_, _, hinit', _, _, hvalue'⟩
    · simp [hinit.kind] at hkind'
    · obtain ⟨rfl, rfl⟩ := hinit.unique hinit'
      exact Value.function.inj (Option.some.inj (hvalue.symm.trans hvalue'))

end Node

end Syntax

/-! ## Which notes are declarations -/

namespace Note

variable {place : Cursor} {name : String} {s : Span} {topLevel : Bool} {v : Variable}

/-- `ofDeclared` notes a function if the value is one, and is not required from another file. -/
private theorem function_mem_ofDeclared_iff {level : Bool} {id init : Node} :
    .function name s topLevel ∈ ofDeclared level id init ↔
      topLevel = level ∧ id.kind = .identifier ∧ name = id.text ∧ init.required? = none ∧
        init.value? = some (.function s) := by
  rw [ofDeclared]
  -- What is required from another file is no function of this one.
  cases init.required? with
  | some required => by_cases hid : id.kind = .identifier <;> simp [hid]
  | none =>
    by_cases hid : id.kind = .identifier
    · cases init.value? with
      | none => simp [hid]
      | some value =>
        cases value with
        | named other => simp [hid]
        | function span =>
          simp only [hid, beq_self_eq_true, if_true, List.mem_cons, Note.function.injEq,
            reduceCtorEq, List.not_mem_nil, or_false, true_and, Option.some.injEq,
            Value.function.injEq]
          grind
    · simp [hid]

/-- `ofDeclared` notes a variable under a plain name, with what it holds. -/
private theorem declared_mem_ofDeclared_iff {level : Bool} {id init : Node} :
    .declared name v ∈ ofDeclared level id init ↔ id.kind = .identifier ∧ name = id.text ∧
      v = init.held := by
  rw [ofDeclared, Node.held]
  cases init.required? with
  | some required => by_cases hid : id.kind = .identifier <;> simp [hid]
  | none =>
    by_cases hid : id.kind = .identifier
    · cases init.value? with
      | none => simp [hid]
      | some value => cases value <;> simp [hid]
    · simp [hid]

/-- The note is about a function or a variable that is declared. -/
def isDeclaration : Note → Bool
  | .function _ _ _ | .declared _ _ => true
  | _ => false

/-- `ExportFrom` holds of no note on a declaration. -/
private theorem isDeclaration_of_exportFrom {n : Node} {note : Note} (h : ExportFrom n note) :
    note.isDeclaration = false := by
  cases h <;> rfl

/-- `ofNode` notes declarations of declarators and functions only. -/
private theorem mem_ofNode_iff_of_isDeclaration {note : Note} (h : note.isDeclaration = true) :
    note ∈ ofNode place ↔
      (place.node.kind = .variableDeclarator ∧ ∃ id, place.node.child? .name = some id ∧
        ∃ init, place.node.child? .value = some init ∧
          note ∈ ofDeclared place.isTopLevel id init.unwrap) ∨
      ((place.node.kind = .functionDeclaration ∨ place.node.kind = .generatorFunctionDeclaration) ∧
        ∃ id, place.node.child? .name = some id ∧
          note = .function id.text place.node.span place.isTopLevel) := by
  constructor
  · intro hnote
    cases takenFrom_of_mem_ofNode hnote with
    | declarator kind name_eq value_eq mem => exact .inl ⟨kind, _, name_eq, _, value_eq, mem⟩
    | function kind name_eq => exact .inr ⟨kind, _, name_eq, rfl⟩
    | exportStatement _ mem =>
      have hexport := isDeclaration_of_exportFrom (exportFrom_of_mem_ofExportStatement note mem)
      exact absurd h (ne_true_of_eq_false hexport)
    | @assignment left _ _ _ _ _ mem =>
      have hexport := isDeclaration_of_exportFrom
        (exportFrom_of_mem_ofAssignment left (Node.self_mem_subtrees _) note mem)
      exact absurd h (ne_true_of_eq_false hexport)
    | importStatement | statement | route | mount => exact absurd h Bool.false_ne_true
  · rintro (⟨hkind, id, hid, init, hinit, hmem⟩ | ⟨hkind, id, hid, rfl⟩)
    · exact mem_ofNode_iff.mpr (.declarator hkind hid hinit hmem)
    · exact mem_ofNode_iff.mpr (.function hkind hid)

/-- `ofNode` notes the functions that the node declares. -/
private theorem function_mem_ofNode_iff :
    .function name s topLevel ∈ ofNode place ↔
      topLevel = place.isTopLevel ∧ place.node.DeclaresFunction name s := by
  rw [mem_ofNode_iff_of_isDeclaration rfl, Node.declaresFunction_iff]
  constructor
  · rintro (⟨hkind, id, hid, init, hinit, hmem⟩ | ⟨hkind, id, hid, hnote⟩)
    · obtain ⟨hlevel, hidKind, hname, hrequired, hvalue⟩ := function_mem_ofDeclared_iff.mp hmem
      exact ⟨hlevel, .inr ⟨id, init, ⟨hkind, hid, hidKind, hinit⟩, hname, hrequired, hvalue⟩⟩
    · obtain ⟨hname, hspan, hlevel⟩ := Note.function.inj hnote
      exact ⟨hlevel, .inl ⟨hkind, id, hid, hname, hspan⟩⟩
  · rintro ⟨hlevel, ⟨hkind, id, hid, rfl, rfl⟩ | ⟨id, init, h, hname, hrequired, hvalue⟩⟩
    · exact .inr ⟨hkind, id, hid, by rw [hlevel]⟩
    · exact .inl ⟨h.kind, id, h.id_eq, init, h.init_eq,
        function_mem_ofDeclared_iff.mpr ⟨hlevel, h.id_kind, hname, hrequired, hvalue⟩⟩

/-- `ofNode` notes the variables that the node declares. -/
private theorem declared_mem_ofNode_iff :
    .declared name v ∈ ofNode place ↔ place.node.DeclaresVariable name v := by
  rw [mem_ofNode_iff_of_isDeclaration rfl]
  constructor
  · rintro (⟨hkind, id, hid, init, hinit, hmem⟩ | ⟨_, _, _, hnote⟩)
    · obtain ⟨hidKind, rfl, rfl⟩ := declared_mem_ofDeclared_iff.mp hmem
      exact ⟨id, init, ⟨hkind, hid, hidKind, hinit⟩, rfl, rfl⟩
    · exact nomatch hnote
  · rintro ⟨id, init, hinitialises, rfl, rfl⟩
    exact .inl ⟨hinitialises.kind, id, hinitialises.id_eq, init, hinitialises.init_eq,
      declared_mem_ofDeclared_iff.mpr ⟨hinitialises.id_kind, rfl, rfl⟩⟩

/-- The function that the note puts under the name, at the top level or elsewhere. -/
def functionAt? (level : Bool) (name : String) : Note → Option Span
  | .function n span topLevel => if n = name ∧ topLevel = level then some span else none
  | _ => none

/-- `functionAt?` tells one kind of note. -/
private theorem functionAt?_eq_some_iff {note : Note} {level : Bool} :
    note.functionAt? level name = some s ↔ note = .function name s level := by
  cases note <;> simp [functionAt?]
  grind

end Note

/-! ## What is given first -/

/-- At the first of the places that give anything, this is given. -/
def FirstGiven {α : Type} (gives : Cursor → α → Prop) (places : List Cursor) (a : α) : Prop :=
  ∃ before place after, places = before ++ place :: after ∧ gives place a ∧
    ∀ earlier ∈ before, ∀ b, ¬ gives earlier b

section Given

variable {α : Type} {gives : Cursor → α → Prop} {givenAt : Cursor → List α} {places : List Cursor}
  {a : α}

/-- `FirstGiven` is `LastGiven` in reverse. -/
private theorem firstGiven_iff_reverse :
    FirstGiven gives places a ↔ LastGiven gives places.reverse a := by
  constructor
  · rintro ⟨before, place, after, rfl, hplace, hbefore⟩
    refine ⟨after.reverse, place, before.reverse, by simp, hplace, fun earlier hearlier => ?_⟩
    exact hbefore earlier (List.mem_reverse.mp hearlier)
  · rintro ⟨before, place, after, hplaces, hplace, hafter⟩
    refine ⟨after.reverse, place, before.reverse, ?_, hplace, fun earlier hearlier => ?_⟩
    · rw [← List.reverse_reverse places, hplaces]
      simp
    · exact hafter earlier (List.mem_reverse.mp hearlier)

/-- `LastGiven` depends only on what is given at the places. -/
private theorem lastGiven_congr {gives' : Cursor → α → Prop}
    (h : ∀ place ∈ places, ∀ b, gives place b ↔ gives' place b) :
    LastGiven gives places a ↔ LastGiven gives' places a := by
  unfold LastGiven
  refine exists_congr fun before => exists_congr fun place => exists_congr fun after => ?_
  refine and_congr_right fun hplaces => ?_
  have hlater : ∀ later ∈ place :: after, ∀ b, gives later b ↔ gives' later b := fun later hmem =>
    h later (hplaces ▸ List.mem_append_right before hmem)
  obtain ⟨hplace, hafter⟩ := List.forall_mem_cons.mp hlater
  refine and_congr (hplace a)
    (forall_congr' fun later => forall_congr' fun hmem => forall_congr' fun b => ?_)
  exact not_congr (hafter later hmem b)

/-- `LastGiven` does not depend on what was given before. -/
theorem LastGiven.append_left (h : LastGiven gives places a) (front : List Cursor) :
    LastGiven gives (front ++ places) a := by
  obtain ⟨before, place, after, rfl, hplace, hafter⟩ := h
  exact ⟨front ++ before, place, after, (List.append_assoc ..).symm, hplace, hafter⟩

/-- `getLast?` computes what is `LastGiven`. -/
private theorem getLast?_flatMap_eq_some_iff (hgives : ∀ place b, b ∈ givenAt place ↔ gives place b)
    (hunique : ∀ place b c, gives place b → gives place c → b = c) :
    (places.flatMap givenAt).getLast? = some a ↔ LastGiven gives places a :=
  ⟨lastGiven_of_getLast? hgives, getLast?_of_lastGiven hgives hunique⟩

/-- `head?` computes what is `FirstGiven`. -/
private theorem head?_flatMap_eq_some_iff (hgives : ∀ place b, b ∈ givenAt place ↔ gives place b)
    (hunique : ∀ place b c, gives place b → gives place c → b = c) :
    (places.flatMap givenAt).head? = some a ↔ FirstGiven gives places a := by
  -- The first of a list is the last of the list in reverse.
  rw [firstGiven_iff_reverse, ← List.getLast?_reverse, List.reverse_flatMap]
  refine getLast?_flatMap_eq_some_iff (fun place b => ?_) hunique
  rw [Function.comp_apply, List.mem_reverse, hgives]

/-- `flatMap` gives nothing if nothing is given at any place. -/
private theorem flatMap_eq_nil_iff_not_given
    (hgives : ∀ place b, b ∈ givenAt place ↔ gives place b) :
    places.flatMap givenAt = [] ↔ ¬ ∃ place ∈ places, ∃ b, gives place b := by
  rw [List.flatMap_eq_nil_iff]
  simp only [List.eq_nil_iff_forall_not_mem, hgives, not_exists, not_and]

end Given

/-! ## What is found under a name -/

namespace Collection

variable {name : String}

/-- `note` puts a function from the top level under its name, and one from elsewhere only if there
is none. -/
private theorem find?_functions_note (c : Collection) (note : Note) :
    (c.note note).functions.find? name =
      (note.functionAt? true name).or
        ((c.functions.find? name).or (note.functionAt? false name)) := by
  cases note with
  | function n span topLevel =>
    by_cases hname : n = name <;> cases topLevel <;>
      simp [Collection.note, addFunction, Note.functionAt?, Dictionary.find?_putAbsent, hname]
  | listed n =>
    simp [Collection.note, Note.functionAt?, congrArg Collection.functions (c.listExport_eq n)]
  | imported | exported | defaultExport | declared | route | mount =>
    simp [Collection.note, Note.functionAt?]

/-- `note` of several notes leaves the last function from the top level under a name; the first one
from elsewhere counts if there is none. -/
private theorem find?_functions_foldl_note (c : Collection) (notes : List Note) :
    (notes.foldl note c).functions.find? name =
      (notes.filterMap (Note.functionAt? true name)).getLast?.or
        ((c.functions.find? name).or (notes.filterMap (Note.functionAt? false name)).head?) := by
  induction notes generalizing c with
  | nil => simp
  | cons first rest ih =>
    rw [List.foldl_cons, ih, find?_functions_note]
    cases htop : first.functionAt? true name with
    | some s =>
      -- From here on the name is taken, and only the top level can change what is under it.
      rw [List.filterMap_cons_some htop, List.getLast?_cons, Option.some_or, Option.some_or]
      cases (rest.filterMap (Note.functionAt? true name)).getLast? <;> rfl
    | none =>
      rw [List.filterMap_cons_none htop, Option.none_or, Option.or_assoc]
      -- The first function from elsewhere takes the name, and later ones from elsewhere do not
      -- change it.
      cases hnested : first.functionAt? false name with
      | none => rw [List.filterMap_cons_none hnested, Option.none_or]
      | some s => rw [List.filterMap_cons_some hnested, Option.some_or, List.head?_cons]

end Collection

namespace Syntax

/-- The positions in the tree that are not inside an import statement, in source order. -/
def Cursor.outsideImports (c : Cursor) : List Cursor :=
    c.positions.filter (!·.isBelow (· == .importStatement))

/-- By the declarations at the places the name stands for the function: the last one declared under
the name at the top level or, if there is none, the first one declared under it elsewhere. -/
def FunctionNamed (places : List Cursor) (name : String) (s : Span) : Prop :=
  LastGiven (fun place t => place.TopLevel ∧ place.node.DeclaresFunction name t) places s ∨
    (¬ ∃ place ∈ places, ∃ t, place.TopLevel ∧ place.node.DeclaresFunction name t) ∧
      FirstGiven (fun place t => ¬ place.TopLevel ∧ place.node.DeclaresFunction name t) places s

end Syntax

namespace Note

variable {name : String}

/-- The functions that are noted under the name at some places, at the top level or elsewhere. -/
def functionsAt (level : Bool) (name : String) (places : List Cursor) : List Span :=
  places.flatMap fun place => (ofNode place).filterMap (functionAt? level name)

/-- `functionAt?` finds, in the notes of a node, what the node declares at that level. -/
private theorem mem_functionAt?_iff {level : Bool} (place : Cursor) (s : Span) :
    s ∈ (ofNode place).filterMap (functionAt? level name) ↔
      level = place.isTopLevel ∧ place.node.DeclaresFunction name s := by
  simp [List.mem_filterMap, functionAt?_eq_some_iff, function_mem_ofNode_iff]

/-- `functionAt?` for the top level finds what is declared at the top level. -/
private theorem mem_topFunction_iff (place : Cursor) (s : Span) :
    s ∈ (ofNode place).filterMap (functionAt? true name) ↔ place.TopLevel ∧
      place.node.DeclaresFunction name s := by
  rw [mem_functionAt?_iff, eq_comm, Cursor.isTopLevel_iff]

/-- `functionAt?` for elsewhere finds what is declared elsewhere. -/
private theorem mem_nestedFunction_iff (place : Cursor) (s : Span) :
    s ∈ (ofNode place).filterMap (functionAt? false name) ↔ ¬ place.TopLevel ∧
      place.node.DeclaresFunction name s := by
  rw [mem_functionAt?_iff, eq_comm, ← Cursor.isTopLevel_iff, Bool.not_eq_true]

/-- `FunctionNamed`, computed from the notes. -/
private theorem functionsAt_eq_some_iff {places : List Cursor} {s : Span} :
    (functionsAt true name places).getLast?.or (functionsAt false name places).head? = some s ↔
      FunctionNamed places name s := by
  -- Each of the three parts is computed from the list of notes.
  rw [functionsAt, functionsAt, Option.or_eq_some_iff, List.getLast?_eq_none_iff,
    getLast?_flatMap_eq_some_iff mem_topFunction_iff fun _ _ _ hs ht => hs.2.unique ht.2,
    flatMap_eq_nil_iff_not_given mem_topFunction_iff,
    head?_flatMap_eq_some_iff mem_nestedFunction_iff fun _ _ _ hs ht => hs.2.unique ht.2]
  rfl

/-- `declaredAs?` finds, in the notes of a node, the variable that the node declares. -/
private theorem mem_declaredAs?_iff (place : Cursor) (v : Variable) :
    v ∈ (ofNode place).filterMap (declaredAs? name) ↔ place.node.DeclaresVariable name v := by
  simp [List.mem_filterMap, declaredAs?_eq_some_iff, declared_mem_ofNode_iff]

/-- `declaredAs?`, used at the top level only, finds what is declared there. -/
private theorem mem_topVariable_iff (place : Cursor) (v : Variable) :
    v ∈ (if place.isTopLevel then (ofNode place).filterMap (declaredAs? name) else []) ↔
      place.TopLevel ∧ place.node.DeclaresVariable name v := by
  rw [← mem_declaredAs?_iff, ← Cursor.isTopLevel_iff]
  split <;> simp [*]

end Note

namespace Collection

variable {name : String}

/-- `places` of a tree are `outsideImports`: only what is inside import statements is not
entered. -/
private theorem places_ofRoot (tree : Node) :
    places (.ofRoot tree) = (Cursor.ofRoot tree).outsideImports := by
  unfold places Cursor.outsideImports
  refine Cursor.map_history_eq_filter (fun _ _ => ?_) ?_ _
  · rfl
  · rfl

/-- `ofTree` has, under a name, the function that the notes give it. -/
private theorem find?_functions_ofRoot (tree : Node) :
    (ofTree (.ofRoot tree)).functions.find? name =
      (Note.functionsAt true name (Cursor.ofRoot tree).outsideImports).getLast?.or
        (Note.functionsAt false name (Cursor.ofRoot tree).outsideImports).head? := by
  rw [ofTree_eq_foldl_note, find?_functions_foldl_note, places_ofRoot, List.filterMap_flatMap,
    List.filterMap_flatMap]
  rfl

/-- `ofTree` has, under the name of a variable, what the variable was last declared with. -/
private theorem find?_vars_eq_some_iff {tree : Node} {v : Variable} :
    (ofTree (.ofRoot tree)).vars.find? name = some v ↔
      LastGiven (fun place => place.node.DeclaresVariable name) (Cursor.ofRoot tree).outsideImports
        v := by
  have hempty : (({} : Collection).vars.find? name) = none := rfl
  rw [ofTree_eq_foldl_note, find?_vars_foldl_note, places_ofRoot, List.filterMap_flatMap, hempty,
    Option.or_none,
    getLast?_flatMap_eq_some_iff Note.mem_declaredAs?_iff fun _ _ _ hv hw => hv.unique hw]

end Collection

namespace Outline

variable {resolve : String → Option Path} {source : SourceFile}

/-- `ofSource` has, under a name, the function that is `FunctionNamed` so. -/
private theorem find?_functions_eq_some_iff {name : String} {s : Span} :
    (ofSource resolve source).functions.find? name = some s ↔
      FunctionNamed source.root.outsideImports name s := by
  rw [← Note.functionsAt_eq_some_iff, SourceFile.root, ← Collection.find?_functions_ofRoot]
  rfl

/-! ## Functions -/

/-- `functions` has, under a name, the last function that is declared under it at the top level or,
if there is none, the first one that is declared under it elsewhere. There is none under the name
only if none is declared. -/
theorem functions_by_level (resolve : String → Option Path) (source : SourceFile) (name : String) :
    (∀ s, (ofSource resolve source).functions.find? name = some s ↔
      FunctionNamed source.root.outsideImports name s) ∧
    ((ofSource resolve source).functions.find? name = none ↔
      ¬ ∃ place ∈ source.root.outsideImports, ∃ s, place.node.DeclaresFunction name s) := by
  refine ⟨fun _ => find?_functions_eq_some_iff, ?_⟩
  have hfind : (ofSource resolve source).functions.find? name = _ :=
    Collection.find?_functions_ofRoot source.tree
  rw [hfind, Option.or_eq_none_iff, List.getLast?_eq_none_iff, List.head?_eq_none_iff,
    Note.functionsAt, Note.functionsAt, flatMap_eq_nil_iff_not_given Note.mem_topFunction_iff,
    flatMap_eq_nil_iff_not_given Note.mem_nestedFunction_iff, ← not_or]
  -- A declaration is at the top level or it is not.
  refine not_congr ⟨?_, ?_⟩
  · rintro (⟨place, hplace, s, _, hs⟩ | ⟨place, hplace, s, _, hs⟩)
    · exact ⟨place, hplace, s, hs⟩
    · exact ⟨place, hplace, s, hs⟩
  · rintro ⟨place, hplace, s, hs⟩
    by_cases htop : place.TopLevel
    · exact .inl ⟨place, hplace, s, htop, hs⟩
    · exact .inr ⟨place, hplace, s, htop, hs⟩

/-- The file `import x from './y' with { a: () => { function inner() {} } };`. -/
def attributeScript : Node :=
  let inner := "function inner() \x7b\x7d"
  let body := "\x7b " ++ inner ++ " \x7d"
  let pair := "a: () => " ++ body
  let members := "\x7b " ++ pair ++ " \x7d"
  let statement := "import x from './y' with " ++ members ++ ";"
  .onLine .program none 0 62 statement
    [.onLine .importStatement none 0 62 statement
      [.onLine .importClause none 7 8 "x" [.onLine .identifier none 7 8 "x"],
       .onLine .string (some .source) 14 19 "'./y'",
       .onLine .other none 20 61 ("with " ++ members)
        [.onLine .object none 25 61 members
          [.onLine .pair none 27 59 pair
            [.onLine .propertyIdentifier (some .key) 27 28 "a",
             .onLine .arrowFunction (some .value) 30 59 ("() => " ++ body)
              [.onLine .formalParameters (some .parameters) 30 32 "()",
               .onLine .statementBlock (some .body) 36 59 body
                [.onLine .functionDeclaration none 38 57 inner
                  [.onLine .identifier (some .name) 47 52 "inner",
                   .onLine .formalParameters (some .parameters) 52 54 "()",
                   .onLine .statementBlock (some .body) 55 57 "\x7b\x7d"]]]]]]]]

/-- In `attributeScript`, a function that is declared inside an import statement is not found. -/
theorem attributeFunction_missed :
    FunctionNamed (Cursor.ofRoot attributeScript).positions "inner" ⟨38, 57, 1⟩ ∧
      (ofScript attributeScript).functions.find? "inner" = none := by
  refine ⟨Note.functionsAt_eq_some_iff.mp ?_, ?_⟩
  · decide +kernel
  · decide +kernel

end Outline

/-! ## Variables -/

/-- By the declarations at the places the value refers to the function. -/
def Value.RefersTo (places : List Cursor) : Value → Span → Prop
  | .function span, s => span = s
  | .named name, s => FunctionNamed places name s

namespace Outline

variable {resolve : String → Option Path} {source : SourceFile}

/-- `functionOf?` gives what the value `RefersTo`. -/
private theorem functionOf?_eq_some_iff {value : Value} {s : Span} :
    (ofSource resolve source).functionOf? value = some s ↔
      value.RefersTo source.root.outsideImports s := by
  cases value with
  | function span => exact Option.some_inj
  | named name => exact find?_functions_eq_some_iff

/-- `localMember?` looks into the object that the variable holds. -/
private theorem localMember?_eq_some_iff {o : Outline} {name property : String} {held : Variable}
    {s : Span} (hheld : o.vars.find? name = some held) :
    o.localMember? name property = some s ↔
      ∃ members value, held = .object members ∧ members.find? property = some value ∧
        o.functionOf? value = some s := by
  rw [localMember?, hheld]
  cases held <;> simp [Option.bind_eq_some_iff]

/-- `vars` has, under a name, the last variable at the top level exactly if the last of the
variables that are declared under the name elsewhere and after that one, if there are any, holds the
same. If it does, then `localMember?` of the variable is the function that the object has there, and
a route of the file that names the member has that function as its handler. -/
theorem vars_of_topLevel {name : String} {held : Variable} {place : Cursor}
    {before after : List Cursor} (hplaces : source.root.outsideImports = before ++ place :: after)
    (hheld : place.TopLevel ∧ place.node.DeclaresVariable name held)
    (hlast : ∀ later ∈ after, ∀ v, ¬ (later.TopLevel ∧ later.node.DeclaresVariable name v)) :
    ((ofSource resolve source).vars.find? name = some held ↔
      ∀ v, LastGiven (fun later w => ¬ later.TopLevel ∧ later.node.DeclaresVariable name w)
        after v → v = held) ∧
    ((ofSource resolve source).vars.find? name = some held → ∀ property s,
      ((ofSource resolve source).localMember? name property = some s ↔
        ∃ members value, held = .object members ∧ members.find? property = some value ∧
          value.RefersTo source.root.outsideImports s) ∧
      ((ofSource resolve source).localMember? name property = some s → ∀ survey : Survey,
        survey.handlerOf? (ofSource resolve source) (.member name property) =
          some (ofSource resolve source, s))) := by
  -- What the outline has under the name is what was declared last, at whatever level.
  have hvars (v : Variable) : (ofSource resolve source).vars.find? name = some v ↔
      LastGiven (fun p => p.node.DeclaresVariable name) (before ++ place :: after) v := by
    rw [← hplaces]
    exact Collection.find?_vars_eq_some_iff
  -- After the last one at the top level there are only others.
  have hothers (v : Variable) :
      LastGiven (fun later w => ¬ later.TopLevel ∧ later.node.DeclaresVariable name w) after v ↔
        LastGiven (fun later => later.node.DeclaresVariable name) after v :=
    lastGiven_congr fun later hlater w =>
      ⟨And.right, fun hw => ⟨fun htop => hlast later hlater w ⟨htop, hw⟩, hw⟩⟩
  -- What is given after the place is given last of all.
  have hafter {v : Variable}
      (hv : LastGiven (fun later => later.node.DeclaresVariable name) after v) :
        (ofSource resolve source).vars.find? name = some v := by
    rw [hvars, List.append_cons]
    exact hv.append_left (before ++ [place])
  refine ⟨⟨fun hfind v hv => ?_, fun hsame => ?_⟩,
    fun hfind property s => ⟨?_, fun hmember survey => ?_⟩⟩
  · exact Option.some.inj ((hafter ((hothers v).mp hv)).symm.trans hfind)
  · -- Either something is declared after it, which holds the same, or it is the last one itself.
    cases hv :
      (after.flatMap fun later => (Note.ofNode later).filterMap (Note.declaredAs? name)).getLast?
      with
    | some v =>
      have hgiven := lastGiven_of_getLast? Note.mem_declaredAs?_iff hv
      rw [← hsame v ((hothers v).mpr hgiven)]
      exact hafter hgiven
    | none =>
      have hnone :=
        (flatMap_eq_nil_iff_not_given Note.mem_declaredAs?_iff).mp (List.getLast?_eq_none_iff.mp hv)
      exact (hvars held).mpr
        ⟨before, place, after, rfl, hheld.2, fun later hlater v hv => hnone ⟨later, hlater, v, hv⟩⟩
  · simp only [localMember?_eq_some_iff hfind, functionOf?_eq_some_iff]
  · rw [Survey.handlerOf?, Survey.memberHandler?, hmember]

/-- The function `function f() { const users = 1; }`. -/
def innerUsers (start : Nat) : Node :=
  let declaration := "const users = 1;"
  let body := "\x7b " ++ declaration ++ " \x7d"
  .onLine .functionDeclaration none start (start + 33) ("function f() " ++ body)
    [.onLine .identifier (some .name) (start + 9) (start + 10) "f",
     .onLine .formalParameters (some .parameters) (start + 10) (start + 12) "()",
     .onLine .statementBlock (some .body) (start + 13) (start + 33) body
      [.onLine .lexicalDeclaration none (start + 15) (start + 31) declaration
        [.onLine .variableDeclarator none (start + 21) (start + 30) "users = 1"
          [.onLine .identifier (some .name) (start + 21) (start + 26) "users",
           .onLine .number (some .value) (start + 29) (start + 30) "1"]]]]

/-- The declaration `const users = { list() {} };`. -/
def outerUsers (start : Nat) : Node :=
  let method := "list() \x7b\x7d"
  let object := "\x7b " ++ method ++ " \x7d"
  .onLine .lexicalDeclaration none start (start + 28) ("const users = " ++ object ++ ";")
    [.onLine .variableDeclarator none (start + 6) (start + 27) ("users = " ++ object)
      [.onLine .identifier (some .name) (start + 6) (start + 11) "users",
       .onLine .object (some .value) (start + 14) (start + 27) object
        [.onLine .methodDefinition none (start + 16) (start + 25) method
          [.onLine .propertyIdentifier (some .name) (start + 16) (start + 20) "list",
           .onLine .formalParameters (some .parameters) (start + 20) (start + 22) "()",
           .onLine .statementBlock (some .body) (start + 23) (start + 25) "\x7b\x7d"]]]]

/-- A file of two statements, on one line. -/
def twoStatements (first second : Node) : Node :=
  .onLine .program none first.span.start second.span.stop (first.text ++ " " ++ second.text)
    [first, second]

/-- Where `innerUsers` comes first, the object of `outerUsers` is found. -/
theorem innerUsers_first :
    LastGiven (fun place v => place.TopLevel ∧ place.node.DeclaresVariable "users" v)
        (Cursor.ofRoot (twoStatements (innerUsers 0) (outerUsers 34))).outsideImports
        (.object ⟨[("list", .function ⟨50, 59, 1⟩)]⟩) ∧
      (ofScript (twoStatements (innerUsers 0) (outerUsers 34))).vars.find? "users" =
        some (.object ⟨[("list", .function ⟨50, 59, 1⟩)]⟩) ∧
      (ofScript (twoStatements (innerUsers 0) (outerUsers 34))).localMember? "users" "list" =
        some ⟨50, 59, 1⟩ := by
  have hgiven : LastGiven (fun place v => place.TopLevel ∧ place.node.DeclaresVariable "users" v)
      (Cursor.ofRoot (twoStatements (innerUsers 0) (outerUsers 34))).outsideImports
      (.object ⟨[("list", .function ⟨50, 59, 1⟩)]⟩) :=
    lastGiven_of_getLast? Note.mem_topVariable_iff (by decide +kernel)
  have hfind : (ofScript (twoStatements (innerUsers 0) (outerUsers 34))).vars.find? "users" =
      some (.object ⟨[("list", .function ⟨50, 59, 1⟩)]⟩) := by
    decide +kernel
  refine ⟨hgiven, hfind, ?_⟩
  -- The member is found by what has been shown of any file, not by another look at this one.
  obtain ⟨before, place, after, hplaces, hheld, hlast⟩ := hgiven
  obtain ⟨_, hmember⟩ := @vars_of_topLevel (fun _ => none)
    ⟨⟨"a.js"⟩, .javaScript, _, twoStatements (innerUsers 0) (outerUsers 34)⟩
      _ _ _ _ _ hplaces hheld hlast
  exact (hmember hfind "list" ⟨50, 59, 1⟩).1.mpr ⟨_, _, rfl, rfl, rfl⟩

/-- Where `innerUsers` comes second, it hides the object of `outerUsers`. -/
theorem innerUsers_hides :
    LastGiven (fun place v => place.TopLevel ∧ place.node.DeclaresVariable "users" v)
        (Cursor.ofRoot (twoStatements (outerUsers 0) (innerUsers 29))).outsideImports
        (.object ⟨[("list", .function ⟨16, 25, 1⟩)]⟩) ∧
      (ofScript (twoStatements (outerUsers 0) (innerUsers 29))).vars.find? "users" = some .other ∧
      (ofScript (twoStatements (outerUsers 0) (innerUsers 29))).localMember? "users" "list" =
        none := by
  refine ⟨lastGiven_of_getLast? Note.mem_topVariable_iff ?_, ?_, ?_⟩
  · decide +kernel
  · decide +kernel
  · decide +kernel

end Outline

end RouteAtlas
