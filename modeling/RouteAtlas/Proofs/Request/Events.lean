import Mathlib.Data.List.Induction
import Mathlib.Data.Option.Basic
import RouteAtlas.Proofs.Catalogue.WellFormed
import RouteAtlas.Proofs.Request.Fields
import RouteAtlas.Proofs.Syntax.Moves

/-!
# What happens in a handler

A walk through the body of a handler comes upon one thing after the other: a field is read, a name
comes to hold a field, a name is used as a number. All that is observed is a record of these events,
and the types of the fields can be told from their list. Where in the body a field is used as a
number, before the reading or the declaration that gives it its type or after it, makes no
difference.

## Key results

- `Inference.visit_eq_foldl_note`: what is observed on entering a node is what happens there
- `Inference.walk_eq_foldl_note`: what a walk observes is what has happened
- `Inference.mem_numbers_iff`: which fields are used as numbers
- `Syntax.Cursor.handlerFacts_fields_typed`: the fields of a handler and their types, from what
  happens in it
-/

namespace RouteAtlas

open Syntax

/-! ## Events -/

namespace Inference

/-- One thing that a walk through the body of a handler comes upon. -/
inductive Event where
  /-- A field is read: by a declaration, or by the access at a cursor. -/
  | read (part : Part) (field : String) (type : FieldType) (access? : Option Cursor)
  /-- A name comes to hold a field. -/
  | hold (name : String) (part : Part) (field : String)
  /-- A name that stands for no part of the request is used as a number. -/
  | use (name : String)
  /-- A name comes to stand for a part of the request. -/
  | standsFor (name : String) (part : Part)
  /-- A header is read by a call. -/
  | header (name : String)

namespace Event

/-- The access, if any, to the field of a part under a name. -/
def ofAccess (part : Part) (field? : Option String) (access : Cursor) : List Event :=
  match field? with
  | some field => [.read part field .string (some access)]
  | none => []

/-- The declaration of a name, or of names, with a part of the request as value. -/
def ofDeclared (part : Part) (name : Node) : List Event :=
  match name.kind with
  | .objectPattern =>
    name.bindings.flatMap fun b =>
      [.read part b.key ((b.default?.map Node.literalType).getD .string) none,
        .hold b.name part b.key]
  | .identifier => if part = .headers then [] else [.read part name.text .object none]
  | _ => []

/-- What happens where a part of the request stands. -/
def ofPart (part : Part) (c : Cursor) : List Event :=
  match c.wrapped.parent? with
  | none => []
  | some parent =>
    match parent.kind with
    | .memberExpression =>
      if c.wrapped.plays .object then ofAccess part ((parent.node.child? .property).map Node.text)
        parent else []
    | .subscriptExpression =>
      if c.wrapped.plays .object then ofAccess part
        ((parent.node.child? .index).bind Node.stringValue?) parent
      else []
    | .variableDeclarator =>
      if c.wrapped.plays .value then ((parent.node.child? .name).map (ofDeclared part)).getD []
        else []
    | _ => []

/-- What happens at a node itself: names come to stand for parts, or a header is read. -/
def ofNode (request? : Option String) (n : Node) : List Event :=
  match n.kind with
  | .variableDeclarator =>
    match n.child? .name, n.child? .value with
    | some name, some value =>
      if name.kind == .objectPattern && isRequest request? value then
        name.partBindings.map fun b => .standsFor b.1 b.2
      else []
    | _, _ => []
  | .callExpression => ((headerCall? request? n).map .header).toList
  | _ => []

/-- What happens by the use of a node, when names stand for parts as has been observed. -/
def ofUse (request? : Option String) (o : Observations) (c : Cursor) : List Event :=
  match part? request? o c.node with
  | some part => ofPart part c
  | none => if c.kind == .identifier && c.isUsedAsNumber then [.use c.node.text] else []

/-- What happens when a node is entered. Nothing does at a function that binds the names of the
request anew. -/
def ofEntry (request? : Option String) (o : Observations) (c : Cursor) : List Event :=
  if c.kind.isFunction && shadows request? o c.node then []
  else ofNode request? c.node ++ ofUse request? o c

end Event

/-- What happens in a body, one thing after the other. -/
def events (request : RequestParameter) (body : Cursor) : List Event :=
  (body.history (visit request.name?) { aliases := request.aliases }).flatMap fun e =>
    Event.ofEntry request.name? e.1 e.2

end Inference

/-- What happens in the handler at a cursor. -/
def Syntax.Cursor.handlerEvents (f : Cursor) : List Inference.Event :=
  match RequestParameter.ofFunction? f.node, f.child? .body with
  | some request, some body => Inference.events request body
  | _, _ => []

/-- The nodes that are entered in the handler at a cursor, in order, each with what has been
observed before. -/
def Syntax.Cursor.handlerHistory (f : Cursor) : List (Observations × Cursor) :=
  match RequestParameter.ofFunction? f.node, f.child? .body with
  | some request, some body =>
    body.history (Inference.visit request.name?) { aliases := request.aliases }
  | _, _ => []

/-- The name of the request in the handler at a cursor. -/
def Syntax.Cursor.requestName? (f : Cursor) : Option String :=
  (RequestParameter.ofFunction? f.node).bind RequestParameter.name?

/-- `handlerEvents` are what happens at the nodes that are entered, one after the other. -/
theorem Syntax.Cursor.handlerEvents_eq_flatMap (f : Cursor) :
    f.handlerEvents = f.handlerHistory.flatMap fun e =>
      Inference.Event.ofEntry f.requestName? e.1 e.2 := by
  unfold handlerEvents handlerHistory requestName?
  cases RequestParameter.ofFunction? f.node with
  | none => rfl
  | some request => cases f.child? .body <;> rfl

/-! ## Observing events -/

/-- Observes an event. -/
def Observations.note (o : Observations) : Inference.Event → Observations
  | .read part field type access? =>
    let o :=
      if access?.any (·.isUsedAsNumber)
        then { o with numericFields := o.numericFields ++ [(part, field)] } else o
    o.read part field type
  | .hold name part field => o.hold name part field
  | .use name =>
    if o.holders.has name then { o with numericHolders := o.numericHolders ++ [name] } else o
  | .standsFor name part => { o with aliases := o.aliases.put name part }
  | .header name => { o with headers := o.headers ++ [name] }

namespace Inference

open Observations

variable {request? : Option String} {o : Observations} {c : Cursor} {part : Part}

/-- `note` of names that come to stand for parts puts them among the aliases. -/
private theorem foldl_note_standsFor (o : Observations) (bindings : List (String × Part)) :
    (bindings.map fun b => Event.standsFor b.1 b.2).foldl note o =
      { o with aliases := o.aliases.putAll bindings } := by
  induction bindings generalizing o with
  | nil => rfl
  | cons b bindings ih =>
    rw [List.map_cons, List.foldl_cons, ih]
    rfl

/-- `observeNode` observes `Event.ofNode`. -/
private theorem observeNode_eq (o : Observations) (n : Node) :
    observeNode request? o n = (Event.ofNode request? n).foldl note o := by
  unfold observeNode Event.ofNode
  generalize n.kind = kind
  -- Two kinds of nodes say something by themselves: declarations from the request, and calls.
  cases kind
  case variableDeclarator =>
    dsimp only
    unfold bindParts
    cases n.child? .name with
    | none => rfl
    | some name =>
      cases n.child? .value with
      | none => rfl
      | some value =>
        dsimp only
        split
        · exact (foldl_note_standsFor o _).symm
        · rfl
  case callExpression => cases headerCall? request? n <;> rfl
  all_goals rfl

/-- `readDeclared` observes `Event.ofDeclared`. -/
private theorem readDeclared_eq (o : Observations) (part : Part) (name : Node) :
    readDeclared o part name = (Event.ofDeclared part name).foldl note o := by
  unfold readDeclared Event.ofDeclared
  generalize name.kind = kind
  cases kind
  case objectPattern =>
    dsimp only
    rw [List.foldl_flatMap]
    rfl
  case identifier =>
    dsimp only
    split <;> rfl
  all_goals rfl

/-- `readPart` observes `Event.ofPart`. -/
private theorem readPart_eq (o : Observations) (part : Part) (c : Cursor) :
    readPart o part c = (Event.ofPart part c).foldl note o := by
  unfold readPart Event.ofPart
  dsimp only
  cases c.wrapped.parent? with
  | none => rfl
  | some parent =>
    dsimp only
    generalize parent.kind = kind
    -- The parent decides how the part is read, and each way is an event or a list of them.
    cases kind
    case memberExpression =>
      dsimp only
      split
      · cases parent.node.child? .property <;> rfl
      · rfl
    case subscriptExpression =>
      dsimp only
      split
      · cases (parent.node.child? .index).bind Node.stringValue? <;> rfl
      · rfl
    case variableDeclarator =>
      dsimp only
      split
      · cases parent.node.child? .name with
        | none => rfl
        | some name => exact readDeclared_eq o part name
      · rfl
    all_goals rfl

/-- `observeUse` observes `Event.ofUse`. -/
private theorem observeUse_eq (o : Observations) (c : Cursor) :
    observeUse request? o c = (Event.ofUse request? o c).foldl note o := by
  unfold observeUse Event.ofUse
  cases part? request? o c.node with
  | some part => exact readPart_eq o part c
  | none =>
    -- Whether the name holds a field is asked when the event is noted.
    dsimp only
    rw [Bool.and_right_comm]
    cases c.kind == .identifier && c.isUsedAsNumber <;> rfl

/-- `observeNode` does not change what `part?` of the request the node stands for. -/
private theorem part?_observeNode (o : Observations) (n : Node) :
    part? request? (observeNode request? o n) n = part? request? o n := by
  unfold part? observeNode
  generalize n.kind = kind
  -- A node that binds aliases or reads a header stands for no part itself.
  cases kind <;> rfl

/-- `visit` observes `Event.ofEntry`: what is observed on entering a node is what happens there. -/
theorem visit_eq_foldl_note (o : Observations) (c : Cursor) :
    (visit request? o c).1 = (Event.ofEntry request? o c).foldl note o := by
  unfold visit Event.ofEntry
  split
  · rfl
  · -- The use is observed after the node itself, which does not change what it stands for.
    have huse : Event.ofUse request? (observeNode request? o c.node) c =
        Event.ofUse request? o c := by
      rw [Event.ofUse, part?_observeNode, Event.ofUse]
    rw [List.foldl_append, ← observeNode_eq, observeUse_eq, huse]

/-- `walk` observes all that happens at the nodes that are entered. -/
theorem walk_eq_foldl_note (request? : Option String) (body : Cursor) (o : Observations) :
    body.walk (visit request?) o =
      ((body.history (visit request?) o).flatMap fun e => Event.ofEntry request? e.1 e.2).foldl note
        o := by
  -- The record and the state grow together, so it is enough that they agree after each node.
  have hkeeps : ∀ s c, c.node ∈ body.node.subtrees →
      s.1 = (s.2.flatMap fun e => Event.ofEntry request? e.1 e.2).foldl note o →
        ((visit request?).logged s c).1.1 =
          (((visit request?).logged s c).1.2.flatMap fun e => Event.ofEntry request? e.1 e.2).foldl
            note o := by
    intro s c _ hs
    simp only [Visitor.logged, List.flatMap_append, List.flatMap_singleton, List.foldl_append, ← hs]
    exact visit_eq_foldl_note s.1 c
  have hwalk := Cursor.walk_keeps_within hkeeps (s := (o, [])) rfl
  rw [Cursor.history]
  rw [Cursor.walk_logged] at hwalk ⊢
  exact hwalk

/-! ## What events tell -/

/-- The reading that an event is, for the parts of which fields are listed. -/
def Event.reading? : Event → Option Reading
  | .read part field type _ => if part = .headers then none else some ⟨part, field, type⟩
  | _ => none

/-- The field that a name holds after an event that gives it one. -/
def Event.held? (name : String) : Event → Option (Part × String)
  | .hold n part field => if n = name then some (part, field) else none
  | _ => none

/-- The readings among events. -/
def readings (events : List Event) : List Reading := events.filterMap Event.reading?

/-- The field that a name holds after events: the one that it was given last. -/
def heldBy? (events : List Event) (name : String) : Option (Part × String) :=
  events.reverse.findSome? (Event.held? name)

/-- Some access to the field stands where a number is needed. -/
def ReadAsNumber (events : List Event) (part : Part) (field : String) : Prop :=
  ∃ type access, Event.read part field type (some access) ∈ events ∧ access.isUsedAsNumber = true

/-- Some name has been used as a number while it held a field. -/
def NumericHolder (events : List Event) (name : String) : Prop :=
  ∃ before, before ++ [.use name] <+: events ∧ (heldBy? before name).isSome = true

/-- The field is used as a number: where it is read, or by a name that holds it in the end and that
was used so while it held a field. -/
def UsedAsNumber (events : List Event) (part : Part) (field : String) : Prop :=
  ReadAsNumber events part field ∨ ∃ name, NumericHolder events name ∧
    heldBy? events name = some (part, field)

variable {aliases : Dictionary Part} {events : List Event} {name field : String}

/-- `heldBy?` after one event more: the event may give the name another field. -/
private theorem heldBy?_append (events : List Event) (e : Event) (name : String) :
    heldBy? (events ++ [e]) name = (e.held? name).or (heldBy? events name) := by
  rw [heldBy?, List.reverse_append, List.reverse_singleton, List.singleton_append,
    List.findSome?_cons, heldBy?]
  cases e.held? name <;> rfl

/-- `NumericHolder` after one event more: the event may be a use of the name. -/
private theorem numericHolder_append {e : Event} :
    NumericHolder (events ++ [e]) name ↔
      NumericHolder events name ∨ e = .use name ∧ (heldBy? events name).isSome = true := by
  unfold NumericHolder
  simp only [List.prefix_concat_iff]
  constructor
  · -- The use is the last event, or it came before.
    rintro ⟨before, hlast | hearlier, hheld⟩
    · obtain ⟨rfl, heq⟩ := List.append_inj' hlast rfl
      exact .inr ⟨(List.singleton_inj.mp heq).symm, hheld⟩
    · exact .inl ⟨before, hearlier, hheld⟩
  · rintro (⟨before, hearlier, hheld⟩ | ⟨rfl, hheld⟩)
    · exact ⟨before, .inr hearlier, hheld⟩
    · exact ⟨events, .inl rfl, hheld⟩

/-- `ReadAsNumber` after one event more: the event may be an access to the field. -/
private theorem readAsNumber_append {e : Event} :
    ReadAsNumber (events ++ [e]) part field ↔ ReadAsNumber events part field ∨
      ReadAsNumber [e] part field := by
  simp only [ReadAsNumber, List.mem_append, or_and_right, exists_or]

/-! One event changes one thing in what is observed. -/

/-- `read` leaves the holders. -/
private theorem holders_read (o : Observations) (part : Part) (field : String) (type : FieldType) :
    (o.read part field type).holders = o.holders := by
  cases part <;> rfl

/-- `read` leaves the fields that are read as numbers. -/
private theorem numericFields_read (o : Observations) (part : Part) (field : String)
    (type : FieldType) :
    (o.read part field type).numericFields = o.numericFields := by
  cases part <;> rfl

/-- `read` leaves the names that are used as numbers. -/
private theorem numericHolders_read (o : Observations) (part : Part) (field : String)
    (type : FieldType) :
    (o.read part field type).numericHolders = o.numericHolders := by
  cases part <;> rfl

/-- `note` adds the reading that the event is, if it is one. -/
private theorem readings_note (o : Observations) (e : Event) :
    (o.note e).readings = o.readings ++ e.reading?.toList := by
  cases e with
  | read part field type access? =>
    simp only [note]
    cases part <;> split <;> simp [Observations.read, Event.reading?]
  | use name =>
    rw [note]
    split <;> simp [Event.reading?]
  | hold | standsFor | header => simp [note, Observations.hold, Event.reading?]

/-- `note` changes what a name holds if the event gives it a field. -/
private theorem find?_holders_note (o : Observations) (e : Event) (name : String) :
    (o.note e).holders.find? name = (e.held? name).or (o.holders.find? name) := by
  cases e with
  | read part field type access? =>
    simp only [note, holders_read]
    split <;> rfl
  | hold n part field =>
    rw [note, Observations.hold, Dictionary.find?_put, Event.held?]
    split <;> rfl
  | use n =>
    rw [note]
    split <;> rfl
  | standsFor | header => rfl

/-- `note` adds a field that the event reads as a number. -/
private theorem mem_numericFields_note {e : Event} :
    (part, field) ∈ (o.note e).numericFields ↔ (part, field) ∈ o.numericFields ∨
      ReadAsNumber [e] part field := by
  cases e with
  | read p n type access? =>
    simp only [note, numericFields_read]
    cases access? with
    | none => simp [ReadAsNumber]
    | some access => cases hused : access.isUsedAsNumber <;> simp [ReadAsNumber, hused]
  | use n =>
    rw [note]
    split <;> simp [ReadAsNumber]
  | hold | standsFor | header => simp [note, Observations.hold, ReadAsNumber]

/-- `note` adds a name that the event uses as a number, if it holds a field. -/
private theorem mem_numericHolders_note {e : Event} :
    name ∈ (o.note e).numericHolders ↔ name ∈ o.numericHolders ∨ e = .use name ∧
      o.holders.has name = true := by
  cases e with
  | read p n type access? =>
    simp only [note, numericHolders_read]
    split <;> simp
  | use n =>
    rw [note]
    -- A use counts at once or never: the name has to hold a field at that moment.
    by_cases hhas : o.holders.has n = true
    · rw [if_pos hhas, List.mem_append, List.mem_singleton, Event.use.injEq]
      refine or_congr_right ⟨fun heq => ⟨heq.symm, heq ▸ hhas⟩, fun heq => heq.1.symm⟩
    · rw [if_neg hhas, Event.use.injEq]
      refine (or_iff_left ?_).symm
      rintro ⟨rfl, hname⟩
      exact hhas hname
  | hold | standsFor | header => simp [note, Observations.hold]

/-! What is observed in the end, by induction on the events from the last one back. -/

/-- `note` of all events leads to the `readings` among them. -/
private theorem readings_foldl_note (aliases : Dictionary Part) (events : List Event) :
    (events.foldl note { aliases }).readings = readings events := by
  induction events using List.reverseRecOn with
  | nil => rfl
  | append_singleton events e ih =>
    rw [List.foldl_append, List.foldl_cons, List.foldl_nil, readings_note, ih, readings, readings,
      List.filterMap_append]
    cases h : e.reading? <;> simp [h]

/-- `note` of all events leads to what `heldBy?` gives for a name. -/
theorem find?_holders_foldl_note (aliases : Dictionary Part) (events : List Event) (name : String) :
    (events.foldl note { aliases }).holders.find? name = heldBy? events name := by
  induction events using List.reverseRecOn with
  | nil => rfl
  | append_singleton events e ih =>
    rw [List.foldl_append, List.foldl_cons, List.foldl_nil, find?_holders_note, ih, heldBy?_append]

/-- `note` of all events leads to the fields that are `ReadAsNumber`. -/
private theorem mem_numericFields_foldl_note :
    (part, field) ∈ (events.foldl note { aliases }).numericFields ↔
      ReadAsNumber events part field := by
  induction events using List.reverseRecOn with
  | nil => simp [ReadAsNumber]
  | append_singleton events e ih =>
    rw [List.foldl_append, List.foldl_cons, List.foldl_nil, mem_numericFields_note, ih,
      readAsNumber_append]

/-- `note` of all events leads to the names that are `NumericHolder`. -/
private theorem mem_numericHolders_foldl_note :
    name ∈ (events.foldl note { aliases }).numericHolders ↔ NumericHolder events name := by
  induction events using List.reverseRecOn with
  | nil => simp [NumericHolder]
  | append_singleton events e ih =>
    rw [List.foldl_append, List.foldl_cons, List.foldl_nil, mem_numericHolders_note, ih,
      numericHolder_append, Dictionary.has, find?_holders_foldl_note]

/-- `numbers` are the fields that are `UsedAsNumber`. -/
private theorem mem_numbers_iff :
    (part, field) ∈ (events.foldl note { aliases }).numbers ↔ UsedAsNumber events part field := by
  rw [numbers, List.mem_append, List.mem_filterMap, mem_numericFields_foldl_note, UsedAsNumber]
  simp only [mem_numericHolders_foldl_note, find?_holders_foldl_note]

instance (events : List Event) (part : Part) (field : String) :
    Decidable (UsedAsNumber events part field) :=
  decidable_of_iff ((part, field) ∈ (events.foldl note { aliases := {} }).numbers) mem_numbers_iff

/-! ## The types of fields -/

/-- The type of a field after all that happens: the one that its readings give it, except that a
string which is used as a number is a number. -/
def fieldType (events : List Event) (part : Part) (name : String) : FieldType :=
  let base := part.baseType (Reading.types (readings events) part name)
  if base = .string ∧ UsedAsNumber events part name then .number else base

/-- The fields of a part after all that happens: one for each name that is read, in the order of
first readings. -/
def fieldsOf (events : List Event) (part : Part) : List Field :=
  (Reading.names (readings events) part).map fun name =>
    ⟨name, fieldType events part name, part.isRequired⟩

/-- `note` of all events leads to `fieldsOf` them. -/
theorem fields_foldl_note (aliases : Dictionary Part) (events : List Event) (part : Part) :
    (events.foldl note { aliases }).fields part = fieldsOf events part := by
  rw [Observations.fields, readings_foldl_note, Part.fields_eq_map,
    Part.withNumbers_map (fun _ => rfl) (Reading.nodup_names _ _), fieldsOf]
  refine List.map_congr_left fun name _ => ?_
  simp only [mem_numbers_iff, Part.fieldOf, Field.asNumber, fieldType]
  -- A field becomes a number if it is used so and nothing more is known of it than `string`.
  by_cases hnumber : UsedAsNumber events part name
  · by_cases hbase : part.baseType (Reading.types (readings events) part name) = .string
    · simp [hnumber, hbase]
    · simp [hbase]
  · simp [hnumber]

end Inference

/-- `handlerFacts` has the fields that are read in a handler, one for each name, and the type of
each comes from all that happens in the body. -/
theorem Syntax.Cursor.handlerFacts_fields_typed (f : Cursor) :
    f.handlerFacts.params = Inference.fieldsOf f.handlerEvents .params ∧
    f.handlerFacts.query = Inference.fieldsOf f.handlerEvents .query ∧
    f.handlerFacts.body = Inference.fieldsOf f.handlerEvents .body := by
  unfold handlerFacts handlerEvents
  cases RequestParameter.ofFunction? f.node with
  | none => exact ⟨rfl, rfl, rfl⟩
  | some request =>
    cases f.child? .body with
    | none => exact ⟨rfl, rfl, rfl⟩
    | some body =>
      dsimp only
      rw [Inference.walk_eq_foldl_note]
      exact ⟨Inference.fields_foldl_note _ _ _, Inference.fields_foldl_note _ _ _,
        Inference.fields_foldl_note _ _ _⟩

namespace Syntax

/-- The declaration of `size` from a part of the request. -/
def sizeDeclaration (start stop : Nat) (part : String) : Node :=
  .onLine .lexicalDeclaration none start stop ("let \x7b size \x7d = req." ++ part ++ ";")
    [.onLine .variableDeclarator none (start + 4) (stop - 1) ("\x7b size \x7d = req." ++ part)
      [.onLine .objectPattern (some .name) (start + 4) (start + 12) "\x7b size \x7d"
        [.onLine .shorthandPropertyIdentifierPattern none (start + 6) (start + 10) "size"],
       .onLine .memberExpression (some .value) (start + 15) (stop - 1) ("req." ++ part)
        [.onLine .identifier (some .object) (start + 15) (start + 18) "req",
         .onLine .propertyIdentifier (some .property) (start + 19) (stop - 1) part]]]

/-- A handler that uses a field as a number where it is read, and a name that holds another field
later on. -/
def resizeHandler : Node :=
  .onLine .arrowFunction none 0 89
      "req => \x7b +req.query.page; let \x7b size \x7d = req.query; +size; \x7b let \x7b size \x7d = req.body; \x7d \x7d"
    [.onLine .identifier (some .parameter) 0 3 "req",
     .onLine .statementBlock (some .body) 7 89
        "\x7b +req.query.page; let \x7b size \x7d = req.query; +size; \x7b let \x7b size \x7d = req.body; \x7d \x7d"
      [.onLine .expressionStatement none 9 25 "+req.query.page;"
        [.onLine .unaryExpression none 9 24 "+req.query.page"
          [.mk ⟨.other, false, some .operator, ⟨9, 10, 1⟩, "+"⟩ [],
           .onLine .memberExpression (some .argument) 10 24 "req.query.page"
            [.onLine .memberExpression (some .object) 10 19 "req.query"
              [.onLine .identifier (some .object) 10 13 "req",
               .onLine .propertyIdentifier (some .property) 14 19 "query"],
             .onLine .propertyIdentifier (some .property) 20 24 "page"]]],
       sizeDeclaration 26 51 "query",
       .onLine .expressionStatement none 52 58 "+size;"
        [.onLine .unaryExpression none 52 57 "+size"
          [.mk ⟨.other, false, some .operator, ⟨52, 53, 1⟩, "+"⟩ [],
           .onLine .identifier (some .argument) 53 57 "size"]],
       .onLine .statementBlock none 59 87 "\x7b let \x7b size \x7d = req.body; \x7d"
         [sizeDeclaration 61 85 "body"]]]

/-- In `resizeHandler` the page is a number. Of the two fields that `size` holds one after the
other, the last one is, although it was used as a number while it held the first. -/
theorem resizeHandler_fields :
    Inference.UsedAsNumber (Cursor.ofRoot resizeHandler).handlerEvents .body "size" ∧
      ¬ Inference.UsedAsNumber (Cursor.ofRoot resizeHandler).handlerEvents .query "size" ∧
      (Cursor.ofRoot resizeHandler).handlerFacts.query =
        [⟨"page", .number, false⟩, ⟨"size", .string, false⟩] ∧
      (Cursor.ofRoot resizeHandler).handlerFacts.body = [⟨"size", .number, true⟩] := by
  obtain ⟨_, hquery, hbody⟩ := (Cursor.ofRoot resizeHandler).handlerFacts_fields_typed
  rw [hquery, hbody]
  exact ⟨by decide +kernel, by decide +kernel, by decide +kernel, by decide +kernel⟩

end Syntax

end RouteAtlas
