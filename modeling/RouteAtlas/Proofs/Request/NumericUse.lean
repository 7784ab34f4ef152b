import RouteAtlas.Proofs.Request.Events

/-!
# Names that are used as numbers

A name that holds a field of the request may be used as a number. The use is remembered by the name,
and which field the name holds is asked when the whole body has been seen. So the use tells on the
field if the name holds it still in the end. It is lost if the name has been given another field in
between, and also if the name stood for a part of the request when it was used.

## Key results

- `Inference.observations_eq_of_history`: what has been observed when a node is entered is what
  happened before
- `Syntax.Cursor.mem_names_of_held`: a field that is held is listed
- `Syntax.Cursor.type?_of_numeric_use`: the type of a field that a name holds where it is used as a
  number
- `Syntax.numeric_use_lost`: the two ways in which such a use is lost
-/

namespace RouteAtlas

open Syntax

/-! ## The type of a field -/

/-- The fields that were found in a part. -/
def Facts.fieldsIn (facts : Facts) : Part → List Field
  | .params => facts.params
  | .query => facts.query
  | .body => facts.body
  | .headers => []

/-- The type that was found for a field of a part. -/
def Facts.type? (facts : Facts) (part : Part) (field : String) : Option FieldType :=
  ((facts.fieldsIn part).find? (·.name == field)).map (·.type)

namespace Inference

variable {events : List Event} {part : Part} {field name : String}

/-- `fieldType` says more than `string` exactly if the readings do or the field is used as a
number. -/
private theorem fieldType_ne_string_iff :
    fieldType events part field ≠ .string ↔
      part.baseType (Reading.types (readings events) part field) ≠ .string ∨
        UsedAsNumber events part field := by
  unfold fieldType
  dsimp only
  split
  · rename_i h
    simp [h.2]
  · rename_i h
    rw [not_and] at h
    exact ⟨Or.inl, fun hor heq => hor.elim (fun hne => hne heq) (h heq)⟩

/-- `fieldsOf` has, under a name that is read, the type that comes from all that happens. -/
private theorem find?_fieldsOf (h : field ∈ Reading.names (readings events) part) :
    (fieldsOf events part).find? (·.name == field) =
      some ⟨field, fieldType events part field, part.isRequired⟩ := by
  rw [fieldsOf, List.find?_map]
  have hfind : (Reading.names (readings events) part).find? (fun name => name == field) =
      some field := by
    -- What is found under the name has the name, so the search among names finds just it.
    cases hfound : (Reading.names (readings events) part).find? (fun name => name == field) with
    | none => exact absurd (beq_self_eq_true field) (List.find?_eq_none.mp hfound field h)
    | some found =>
      have heq : (found == field) = true := List.find?_some (p := fun name => name == field) hfound
      rw [eq_of_beq heq]
  exact congrArg (Option.map _) hfind

end Inference

namespace Syntax.Cursor

variable {f : Cursor} {part : Part} {field : String}

/-- `fieldsIn` of `handlerFacts` are `fieldsOf` what happens in the handler. -/
private theorem fieldsIn_handlerFacts (f : Cursor) (hpart : part ≠ .headers) :
    f.handlerFacts.fieldsIn part = Inference.fieldsOf f.handlerEvents part := by
  -- Without a request or a body nothing is found, as if nothing happened.
  have hnone : ({} : Facts).fieldsIn part = Inference.fieldsOf [] part := by cases part <;> rfl
  unfold handlerFacts handlerEvents
  cases RequestParameter.ofFunction? f.node with
  | none => exact hnone
  | some request =>
    cases f.child? .body with
    | none => exact hnone
    | some body =>
      dsimp only
      rw [Inference.walk_eq_foldl_note, Inference.events,
        ← Inference.fields_foldl_note request.aliases]
      cases part with
      | params | query | body => rfl
      | headers => exact absurd rfl hpart

/-- `type?` of a field that is read in the handler is its `fieldType`. -/
private theorem type?_handlerFacts (hpart : part ≠ .headers)
    (h : field ∈ Reading.names (Inference.readings f.handlerEvents) part) :
    f.handlerFacts.type? part field = some (Inference.fieldType f.handlerEvents part field) := by
  rw [Facts.type?, fieldsIn_handlerFacts f hpart, Inference.find?_fieldsOf h]
  rfl

end Syntax.Cursor

/-! ## What has been observed when a node is entered -/

namespace Inference

open Observations

variable {request? : Option String} {o : Observations} {body c : Cursor} {part : Part}
  {events : List Event} {field name : String}

/-- `history` has, for each node that is entered, what happened at the nodes before it. -/
private theorem observations_eq_of_history {before after : List (Observations × Cursor)}
    {e : Observations × Cursor} (h : body.history (visit request?) o = before ++ e :: after) :
    e.1 = (before.flatMap fun e => Event.ofEntry request? e.1 e.2).foldl note o := by
  rw [Cursor.state_eq_of_history h]
  -- The state before a node is what the visitor made of the one before the last node.
  induction before using List.reverseRecOn generalizing e after with
  | nil => rfl
  | append_singleton before last ih =>
    rw [List.append_assoc, List.singleton_append] at h
    have hlast : last.1 = Cursor.stateAfter (visit request?) o before :=
      Cursor.state_eq_of_history h
    rw [Cursor.stateAfter, List.foldl_append, List.foldl_cons, List.foldl_nil, ← Cursor.stateAfter,
      ← hlast, visit_eq_foldl_note, List.flatMap_append, List.foldl_append, List.flatMap_singleton,
      ← ih h, ← hlast]

/-! A name is given a field by the declaration that reads the field. -/

/-- `ofDeclared` reads each field that it gives to a name. -/
private theorem exists_read_of_hold_mem_ofDeclared {p : Part} {pattern : Node}
    (h : .hold name part field ∈ Event.ofDeclared p pattern) :
    ∃ type, .read part field type none ∈ Event.ofDeclared p pattern := by
  unfold Event.ofDeclared at h ⊢
  generalize pattern.kind = kind at h ⊢
  cases kind
  case objectPattern =>
    obtain ⟨b, hb, hevent⟩ := List.mem_flatMap.mp h
    simp only [List.mem_cons, reduceCtorEq, Event.hold.injEq, List.not_mem_nil, or_false, false_or]
      at hevent
    obtain ⟨_, rfl, rfl⟩ := hevent
    exact ⟨_, List.mem_flatMap.mpr ⟨b, hb, List.mem_cons_self⟩⟩
  case identifier =>
    by_cases hheaders : p = .headers <;> simp [hheaders] at h
  all_goals exact absurd h List.not_mem_nil

/-- `ofAccess` gives no field to a name. -/
private theorem not_hold_mem_ofAccess {p : Part} {field? : Option String} {access : Cursor} :
    .hold name part field ∉ Event.ofAccess p field? access := by
  cases field? <;> simp [Event.ofAccess]

/-- `ofPart` reads each field that it gives to a name. -/
private theorem exists_read_of_hold_mem_ofPart {p : Part}
    (h : .hold name part field ∈ Event.ofPart p c) :
    ∃ type, .read part field type none ∈ Event.ofPart p c := by
  unfold Event.ofPart at h ⊢
  cases hparent : c.wrapped.parent? with
  | none =>
    rw [hparent] at h
    exact absurd h List.not_mem_nil
  | some parent =>
    rw [hparent] at h
    dsimp only at h ⊢
    generalize parent.kind = kind at h ⊢
    -- Accesses give nothing to names, so the part is in a declaration.
    cases kind
    case memberExpression | subscriptExpression =>
      by_cases hplays : c.wrapped.plays .object = true
      · exact absurd (by simpa [hplays] using h) not_hold_mem_ofAccess
      · simp [hplays] at h
    case variableDeclarator =>
      by_cases hplays : c.wrapped.plays .value = true
      · simp only [hplays, if_true] at h ⊢
        cases hname : parent.node.child? .name with
        | none => simp [hname] at h
        | some pattern =>
          rw [hname] at h
          exact exists_read_of_hold_mem_ofDeclared h
      · simp [hplays] at h
    all_goals exact absurd h List.not_mem_nil

/-- `ofNode` gives no field to a name. -/
private theorem not_hold_mem_ofNode {n : Node} :
    .hold name part field ∉ Event.ofNode request? n := by
  intro h
  unfold Event.ofNode at h
  generalize n.kind = kind at h
  -- A declarator that takes fields out of the request, or a call for a header: neither gives a
  -- field to a name.
  cases kind
  case variableDeclarator =>
    cases hname : n.child? .name with
    | none => simp [hname] at h
    | some pattern =>
      cases hvalue : n.child? .value with
      | none => simp [hname, hvalue] at h
      | some value =>
        rw [hname, hvalue] at h
        dsimp only at h
        by_cases hrequest : (pattern.kind == .objectPattern && isRequest request? value) = true
        · simp [hrequest] at h
        · simp [hrequest] at h
  case callExpression => cases hcall : headerCall? request? n <;> simp [hcall] at h
  all_goals exact absurd h List.not_mem_nil

/-- `ofEntry` reads each field that it gives to a name. -/
private theorem exists_read_of_hold_mem_ofEntry
    (h : .hold name part field ∈ Event.ofEntry request? o c) :
    ∃ type, .read part field type none ∈ Event.ofEntry request? o c := by
  unfold Event.ofEntry at h ⊢
  by_cases hpassed : (c.kind.isFunction && shadows request? o c.node) = true
  · simp [hpassed] at h
  · rw [if_neg hpassed] at h ⊢
    -- Of the two things that happen at a node only the use gives fields to names.
    have huse := (List.mem_append.mp h).resolve_left not_hold_mem_ofNode
    suffices hread : ∃ type, .read part field type none ∈ Event.ofUse request? o c by
      obtain ⟨type, hmem⟩ := hread
      exact ⟨type, List.mem_append_right _ hmem⟩
    unfold Event.ofUse at huse ⊢
    cases hstands : part? request? o c.node with
    | some p =>
      rw [hstands] at huse
      exact exists_read_of_hold_mem_ofPart huse
    | none =>
      rw [hstands] at huse
      dsimp only at huse
      by_cases hused : (c.kind == .identifier && c.isUsedAsNumber) = true <;> simp [hused] at huse

/-- `heldBy?` gives a field that has been given to the name. -/
private theorem hold_mem_of_heldBy? (h : heldBy? events name = some (part, field)) :
    .hold name part field ∈ events := by
  obtain ⟨e, he, hheld⟩ := List.exists_of_findSome?_eq_some h
  rw [List.mem_reverse] at he
  cases e with
  | hold n p k =>
    rw [Event.held?] at hheld
    -- Only events that give a field to this name count.
    by_cases hn : n = name
    · rw [if_pos hn] at hheld
      obtain ⟨rfl, rfl⟩ := Prod.mk.inj (Option.some.inj hheld)
      exact hn ▸ he
    · rw [if_neg hn] at hheld
      exact absurd hheld (by simp)
  | read | use | standsFor | header => exact absurd hheld (by simp [Event.held?])

/-- `Reading.names` has every field of which there is a reading. -/
private theorem mem_names_of_read {type : FieldType} {access? : Option Cursor}
    (hpart : part ≠ .headers) (h : .read part field type access? ∈ events) :
    field ∈ Reading.names (readings events) part := by
  have hreading : ⟨part, field, type⟩ ∈ readings events :=
    List.mem_filterMap.mpr ⟨_, h, by rw [Event.reading?, if_neg hpart]⟩
  rw [Reading.names, List.mem_eraseDups]
  exact List.mem_map.mpr ⟨_, List.mem_filter.mpr ⟨hreading, beq_self_eq_true part⟩, rfl⟩

/-- `ofEntry` of a name that stands for no part of the request, where a number is needed, is a use
as a number. -/
private theorem ofEntry_of_numeric_use (hname : c.kind = .identifier)
    (hnumber : c.isUsedAsNumber = true) (halias : o.aliases.has c.node.text = false) :
    Event.ofEntry request? o c = [.use c.node.text] := by
  have hkind : c.node.kind = .identifier := hname
  have hnone : o.aliases.find? c.node.text = none := by simpa [Dictionary.has] using halias
  simp [Event.ofEntry, Event.ofNode, Event.ofUse, part?, hkind, hnone, hnumber, Kind.isFunction]

end Inference

/-! ## Uses of names that hold fields -/

namespace Syntax.Cursor

open Inference

variable {f c : Cursor} {o : Observations} {part : Part} {field name : String}

/-- At each node of `handlerHistory` the events fall into those before it, which have been observed,
its own, and those after it. -/
private theorem exists_events_of_mem_handlerHistory (h : (o, c) ∈ f.handlerHistory) :
    ∃ aliases before after, f.handlerEvents = before ++ Event.ofEntry f.requestName? o c ++ after ∧
      o = before.foldl Observations.note { aliases } := by
  obtain ⟨entered, rest, hsplit⟩ := List.append_of_mem h
  rw [handlerEvents_eq_flatMap, hsplit, List.flatMap_append, List.flatMap_cons, ← List.append_assoc]
  revert hsplit
  unfold handlerHistory requestName? at *
  cases RequestParameter.ofFunction? f.node with
  | none => exact fun hsplit => absurd hsplit.symm (by simp)
  | some request =>
    cases f.child? .body with
    | none => exact fun hsplit => absurd hsplit.symm (by simp)
    | some body =>
      exact fun hsplit => ⟨request.aliases, _, _, rfl, observations_eq_of_history hsplit⟩

/-- `Reading.names` has, in the end, every field that a name holds at some moment. -/
private theorem mem_names_of_held (hentered : (o, c) ∈ f.handlerHistory)
    (hheld : o.holders.find? name = some (part, field)) (hpart : part ≠ .headers) :
    field ∈ Reading.names (readings f.handlerEvents) part := by
  obtain ⟨aliases, before, after, hevents, rfl⟩ := exists_events_of_mem_handlerHistory hentered
  rw [find?_holders_foldl_note] at hheld
  -- The name was given the field before the node, so by some node that has been entered.
  have hhold : .hold name part field ∈ f.handlerEvents := by
    rw [hevents]
    exact List.mem_append_left _ (List.mem_append_left _ (hold_mem_of_heldBy? hheld))
  rw [handlerEvents_eq_flatMap] at hhold ⊢
  obtain ⟨entry, hentry, hevent⟩ := List.mem_flatMap.mp hhold
  obtain ⟨type, hread⟩ := exists_read_of_hold_mem_ofEntry hevent
  exact mem_names_of_read hpart (List.mem_flatMap.mpr ⟨entry, hentry, hread⟩)

/-- A name that is used as a number while it holds a field and stands for no part of the request is
a `NumericHolder`. -/
private theorem numericHolder_of_use (hentered : (o, c) ∈ f.handlerHistory)
    (hname : c.kind = .identifier) (hnumber : c.isUsedAsNumber = true)
    (halias : o.aliases.has c.node.text = false) (hheld : o.holders.has c.node.text = true) :
    NumericHolder f.handlerEvents c.node.text := by
  obtain ⟨aliases, before, after, hevents, ho⟩ := exists_events_of_mem_handlerHistory hentered
  rw [ofEntry_of_numeric_use hname hnumber halias] at hevents
  refine ⟨before, ⟨after, hevents.symm⟩, ?_⟩
  rwa [Dictionary.has, ho, find?_holders_foldl_note] at hheld

/-- Let a name be used as a number where it holds a field. `type?` has the field then. Its type says
more than `string` exactly if its readings say so or it is `UsedAsNumber`, and that is so in
particular if the name stood for no part of the request then and holds the field still in
the end. -/
theorem type?_of_numeric_use (f : Cursor) {o : Observations} {c : Cursor} {part : Part}
    {field : String} (hentered : (o, c) ∈ f.handlerHistory) (hname : c.kind = .identifier)
    (hnumber : c.isUsedAsNumber = true) (hheld : o.holders.find? c.node.text = some (part, field))
    (hpart : part ≠ .headers) :
    ∃ type, f.handlerFacts.type? part field = some type ∧
      (type ≠ .string ↔
        part.baseType (Reading.types (readings f.handlerEvents) part field) ≠ .string ∨
          UsedAsNumber f.handlerEvents part field) ∧
      (o.aliases.has c.node.text = false →
        heldBy? f.handlerEvents c.node.text = some (part, field) →
        type ≠ .string) := by
  refine ⟨fieldType f.handlerEvents part field, ?_, fieldType_ne_string_iff, fun halias hkept => ?_⟩
  · exact type?_handlerFacts hpart (mem_names_of_held hentered hheld hpart)
  · -- The name counts as used while it held a field, and holds this one in the end.
    have hhas : o.holders.has c.node.text = true := by
      rw [Dictionary.has, hheld, Option.isSome_some]
    have hholder := numericHolder_of_use hentered hname hnumber halias hhas
    exact fieldType_ne_string_iff.mpr (.inr (.inr ⟨_, hholder, hkept⟩))

end Syntax.Cursor

namespace Syntax

/-- The statement that uses a name as a number. -/
def signedName (start : Nat) (name : String) : Node :=
  .onLine .expressionStatement none start (start + name.length + 2) ("+" ++ name ++ ";")
    [.onLine .unaryExpression none start (start + name.length + 1) ("+" ++ name)
      [.mk ⟨.other, false, some .operator, ⟨start, start + 1, 1⟩, "+"⟩ [],
       .onLine .identifier (some .argument) (start + 1) (start + name.length + 1) name]]

/-- A handler that uses a name as a number while it holds a field of the query, which it does to
the end. -/
def sizeHandler : Node :=
  .onLine .arrowFunction none 0 43 "req => \x7b let \x7b size \x7d = req.query; +size; \x7d"
    [.onLine .identifier (some .parameter) 0 3 "req",
     .onLine .statementBlock (some .body) 7 43 "\x7b let \x7b size \x7d = req.query; +size; \x7d"
      [sizeDeclaration 9 34 "query", signedName 35 "size"]]

/-- In `sizeHandler` the size is a number, as the name that holds it is used as one. -/
theorem sizeHandler_type? :
    ∃ e ∈ (Cursor.ofRoot sizeHandler).handlerHistory, e.2.kind = .identifier ∧
      e.2.isUsedAsNumber = true ∧
      e.1.holders.find? e.2.node.text = some (.query, "size") ∧
        e.1.aliases.has e.2.node.text = false ∧
      Inference.heldBy? (Cursor.ofRoot sizeHandler).handlerEvents e.2.node.text =
        some (.query, "size") ∧
      ∃ type, (Cursor.ofRoot sizeHandler).handlerFacts.type? .query "size" = some type ∧
        type ≠ .string := by
  -- The place of the use is found by a run through the handler.
  have huse : ∃ e ∈ (Cursor.ofRoot sizeHandler).handlerHistory, e.2.kind = .identifier ∧
      e.2.isUsedAsNumber = true ∧ e.1.holders.find? e.2.node.text = some (.query, "size") ∧
      e.1.aliases.has e.2.node.text = false ∧
      Inference.heldBy? (Cursor.ofRoot sizeHandler).handlerEvents e.2.node.text =
        some (.query, "size") := by
    decide +kernel
  obtain ⟨e, hentered, hname, hnumber, hheld, halias, hkept⟩ := huse
  obtain ⟨type, htype, _, hnotString⟩ :=
    (Cursor.ofRoot sizeHandler).type?_of_numeric_use hentered hname hnumber hheld (by decide)
  exact ⟨e, hentered, hname, hnumber, hheld, halias, hkept, type, htype, hnotString halias hkept⟩

/-- The pattern that binds `query`. -/
def queryPattern (start : Nat) : Node :=
  .onLine .objectPattern (some .name) start (start + 9) "\x7b query \x7d"
    [.onLine .shorthandPropertyIdentifierPattern none (start + 2) (start + 7) "query"]

/-- A handler in which a name stands for the query, and in a block of its own holds a field of the
body. -/
def blockHandler : Node :=
  .onLine .arrowFunction none 0 73
      "req => \x7b const \x7b query \x7d = req; \x7b const \x7b query \x7d = req.body; +query; \x7d \x7d"
    [.onLine .identifier (some .parameter) 0 3 "req",
     .onLine .statementBlock (some .body) 7 73
        "\x7b const \x7b query \x7d = req; \x7b const \x7b query \x7d = req.body; +query; \x7d \x7d"
      [.onLine .lexicalDeclaration none 9 31 "const \x7b query \x7d = req;"
        [.onLine .variableDeclarator none 15 30 "\x7b query \x7d = req"
          [queryPattern 15, .onLine .identifier (some .value) 27 30 "req"]],
       .onLine .statementBlock none 32 71 "\x7b const \x7b query \x7d = req.body; +query; \x7d"
        [.onLine .lexicalDeclaration none 34 61 "const \x7b query \x7d = req.body;"
          [.onLine .variableDeclarator none 40 60 "\x7b query \x7d = req.body"
            [queryPattern 40,
             .onLine .memberExpression (some .value) 52 60 "req.body"
              [.onLine .identifier (some .object) 52 55 "req",
               .onLine .propertyIdentifier (some .property) 56 60 "body"]]],
         signedName 62 "query"]]]

/-- In `resizeHandler` and `blockHandler` two names are used as numbers where they hold a field, and
the field is a string all the same: the first is given another field afterwards, the second stands
for a part of the request as well. -/
theorem numeric_use_lost :
    (∃ e ∈ (Cursor.ofRoot resizeHandler).handlerHistory, e.2.kind = .identifier ∧
      e.2.isUsedAsNumber = true ∧
      e.1.holders.find? e.2.node.text = some (.query, "size") ∧
      (Cursor.ofRoot resizeHandler).handlerFacts.type? .query "size" = some .string) ∧
    ∃ e ∈ (Cursor.ofRoot blockHandler).handlerHistory, e.2.kind = .identifier ∧
      e.2.isUsedAsNumber = true ∧
      e.1.holders.find? e.2.node.text = some (.body, "query") ∧
      (Cursor.ofRoot blockHandler).handlerFacts.type? .body "query" = some .string := by
  decide +kernel

end Syntax

end RouteAtlas
