import RouteAtlas.Json.Catalogue
import RouteAtlas.Proofs.Json.RoundTrip

/-!
# Catalogues survive being written

A catalogue that is written and read again is the same catalogue, with whatever texts for URLs and
names and whatever lists of fields.

## Key results

- `record?_ofMembers`: a record is read back from an object with its fields
- `ofText?_toText`: a catalogue is read back from its text
-/

namespace RouteAtlas

namespace JsonValue

/-! ## Records -/

variable {members : List (String × JsonValue)}

/-- The object with the given members, each with a name that is a text. -/
def ofMembers (members : List (String × JsonValue)) : JsonValue :=
  object (members.map fun m => (some m.1, m.2))

/-- `ofMembers` of values without numbers has none. -/
theorem NumberFree.ofMembers (h : ∀ m ∈ members, NumberFree m.2) :
    NumberFree (ofMembers members) := by
  refine .object fun m hm => ?_
  obtain ⟨m', hm', rfl⟩ := List.mem_map.mp hm
  exact h m' hm'

/-- A list of what `write` gives without numbers has none. -/
private theorem NumberFree.array_map {α : Type} {write : α → JsonValue}
    (h : ∀ x, NumberFree (write x)) (xs : List α) :
    NumberFree (.array (xs.map write)) := by
  refine .array fun v hv => ?_
  obtain ⟨x, _, rfl⟩ := List.mem_map.mp hv
  exact h x

/-- `single?` finds each member of `ofMembers`, if no name is there twice. -/
private theorem single?_ofMembers (hnames : (members.map Prod.fst).Nodup) {m : String × JsonValue}
    (hm : m ∈ members) :
    single? m.1 (members.map fun m => (some m.1, m.2)) = some (some m.2) := by
  have hkey : ∀ x : String × JsonValue, (some x.1 == some m.1) = decide (x.1 = m.1) := fun x => rfl
  -- Under distinct names, one member has the name, and so there is no repetition to reject.
  have hone := filter_key_eq_singleton hnames hm
  rw [single?, List.filter_map]
  simp only [Function.comp_def, hkey, hone, List.map_singleton]

/-- `record?` reads a record back from an object whose members are its fields, under distinct
names. -/
theorem record?_ofMembers (hnames : (members.map Prod.fst).Nodup) :
    (ofMembers members).record? (members.map Prod.fst) = some (members.map Prod.snd) := by
  -- The object has the members that are asked for and no others, each once.
  have hfields : (ofMembers members).fields? (members.map Prod.fst) =
      some (members.map fun m => some m.2) := by
    rw [ofMembers, fields?, if_pos (by simp)]
    exact mapM_map_eq_some fun m hm => single?_ofMembers hnames hm
  rw [record?, hfields]
  exact mapM_map_eq_some fun m _ => rfl

end JsonValue

/-! ## Fields -/

namespace Field

/-- The members of a field as JSON. -/
def members (f : Field) : List (String × JsonValue) :=
  [("name", .text f.name), ("type", .text f.type.name), ("required", .bool f.required)]

private theorem toJson_eq_ofMembers (f : Field) : f.toJson = .ofMembers f.members := rfl

/-- `Field.toJson` writes no numbers. -/
private theorem toJson_numberFree (f : Field) : f.toJson.NumberFree := by
  rw [toJson_eq_ofMembers]
  refine .ofMembers ?_
  simp only [members, List.forall_mem_cons]
  exact ⟨.text _, .text _, .bool _, by simp⟩

/-- `record?` finds the members of a field in `Field.toJson`. -/
private theorem record?_toJson (f : Field) :
    f.toJson.record? memberNames = some (f.members.map Prod.snd) := by
  have hnames : memberNames.Nodup := by decide
  rw [toJson_eq_ofMembers]
  exact JsonValue.record?_ofMembers hnames

/-- `Field.ofJson?` reads back what `Field.toJson` has written. -/
private theorem ofJson?_toJson (f : Field) : ofJson? f.toJson = some f := by
  rw [ofJson?, record?_toJson]
  simp [members, JsonValue.text?, JsonValue.word?, JsonValue.bool?]

/-- `listOfJson?` reads fields back from an array of what `Field.toJson` has written. -/
private theorem listOfJson?_toJson (fields : List Field) :
    listOfJson? (.array (fields.map toJson)) = some fields := by
  have hread : (fields.map toJson).mapM ofJson? = some (fields.map id) :=
    mapM_map_eq_some fun f _ => f.ofJson?_toJson
  rw [List.map_id] at hread
  exact hread

end Field

/-! ## Endpoints -/

namespace Endpoint

/-- The members of an endpoint as JSON. -/
def members (e : Endpoint) : List (String × JsonValue) :=
  [("method", .text e.method.name), ("url", .text e.url), ("headers", .array (e.headers.map .text)),
    ("requestDataType", .text e.dataSource.name),
      ("paramTypes", .array (e.params.map Field.toJson)),
    ("queryParamTypes", .array (e.query.map Field.toJson)),
      ("bodyParamTypes", .array (e.body.map Field.toJson))]

private theorem toJson_eq_ofMembers (e : Endpoint) : e.toJson = .ofMembers e.members := rfl

/-- `Endpoint.toJson` writes no numbers. -/
private theorem toJson_numberFree (e : Endpoint) : e.toJson.NumberFree := by
  have hfields := JsonValue.NumberFree.array_map Field.toJson_numberFree
  rw [toJson_eq_ofMembers]
  refine .ofMembers ?_
  simp only [members, List.forall_mem_cons]
  exact ⟨.text _, .text _, .array_map .text _, .text _, hfields _, hfields _, hfields _, by simp⟩

/-- `record?` finds the members of an endpoint in `Endpoint.toJson`. -/
private theorem record?_toJson (e : Endpoint) :
    e.toJson.record? memberNames = some (e.members.map Prod.snd) := by
  have hnames : memberNames.Nodup := by decide
  rw [toJson_eq_ofMembers]
  exact JsonValue.record?_ofMembers hnames

/-- `Endpoint.ofJson?` reads back what `Endpoint.toJson` has written. -/
private theorem ofJson?_toJson (e : Endpoint) : ofJson? e.toJson = some e := by
  have hheaders : (e.headers.map JsonValue.text).mapM JsonValue.text? = some (e.headers.map id) :=
    mapM_map_eq_some fun _ _ => rfl
  rw [ofJson?, record?_toJson]
  simp [members, JsonValue.text?, JsonValue.word?, JsonValue.items?, hheaders,
    Field.listOfJson?_toJson]

end Endpoint

/-! ## Catalogues -/

namespace Catalogue

/-- `toText` writes a catalogue as an array of its endpoints, and `ofText?` reads it back from that
text as it was. -/
theorem ofText?_toText (endpoints : List Endpoint) :
    JsonValue.read (toText endpoints) = some (.array (endpoints.map Endpoint.toJson)) ∧
      ofText? (toText endpoints) = some endpoints := by
  have hread : JsonValue.read (toText endpoints) = some (.array (endpoints.map Endpoint.toJson)) :=
    (JsonValue.NumberFree.array_map Endpoint.toJson_numberFree endpoints).read_pretty
  have hitems : (endpoints.map Endpoint.toJson).mapM Endpoint.ofJson? = some (endpoints.map id) :=
    mapM_map_eq_some fun e _ => e.ofJson?_toJson
  -- The endpoints are read one by one, each from the object it was written as.
  rw [List.map_id] at hitems
  refine ⟨hread, ?_⟩
  rw [ofText?, hread]
  exact hitems

end Catalogue

end RouteAtlas
