import Mathlib.Data.List.Induction
import RouteAtlas.Proofs.Endpoint.WellFormed
import RouteAtlas.Proofs.Lists
import RouteAtlas.Request.Inference

/-!
# Fields that handlers read

Whatever a walk through a handler has seen, the fields that come out of it have to be sent or not as
the part of the request says that they are in. There is one for each name that is read, and its type
comes from all the readings of that name together and from whether the field is among those used as
numbers.

## Key results

- `Observations.flagged_facts`: of any observations
- `Syntax.Cursor.flagged_handlerFacts`: of any handler
- `Part.fields_eq_map`: one field for each name that is read, typed by the readings of the name
- `Part.withNumbers_map`: which fields become numbers
-/

namespace RouteAtlas

namespace Part

variable {part : Part} {fields : List Field}

/-- The fields have to be sent if those of the part have to. -/
def Flags (part : Part) (fields : List Field) : Prop := ∀ f ∈ fields, f.required = part.isRequired

/-- `addReading` keeps the flags: a new field has the one of the part, and an old one keeps its
own. -/
private theorem flags_addReading (r : Reading) (h : part.Flags fields) :
    part.Flags (part.addReading fields r) := by
  unfold addReading
  -- A field that is listed changes its type at most; any other one is appended.
  split
  · split
    · exact Field.required_updateFirst (fun _ => rfl) h
    · exact h
  · intro f hf
    rcases List.mem_append.mp hf with hold | hlast
    · exact h f hold
    · obtain rfl := List.mem_singleton.mp hlast
      rfl

/-- `Part.fields` have the flag of the part. -/
private theorem flags_fields (readings : List Reading) : part.Flags (part.fields readings) := by
  unfold Part.fields
  refine List.foldlRecOn (motive := part.Flags) _ part.addReading ?_ ?_
  · exact fun f hf => absurd hf List.not_mem_nil
  · exact fun fields h r _ => flags_addReading r h

/-- `withNumbers` keeps the flags. -/
private theorem flags_withNumbers (numeric : List (Part × String)) (h : part.Flags fields) :
    part.Flags (part.withNumbers numeric fields) := by
  unfold withNumbers
  refine List.foldlRecOn (motive := part.Flags) _ _ h ?_
  intro fields h named _
  apply Field.required_updateFirst _ h
  intro f
  unfold Field.asNumber
  split <;> rfl

end Part

namespace Observations

/-- `Observations.fields` have the flag of the part. -/
private theorem flags_fields (o : Observations) (part : Part) : part.Flags (o.fields part) :=
  Part.flags_withNumbers o.numbers (Part.flags_fields o.readings)

/-- `Observations.facts` are `Flagged`, whatever was observed. -/
private theorem flagged_facts (o : Observations) : o.facts.Flagged :=
  ⟨o.flags_fields .params, o.flags_fields .query, o.flags_fields .body⟩

end Observations

/-- `handlerFacts` are `Flagged`, whatever the handler. -/
theorem Syntax.Cursor.flagged_handlerFacts (f : Cursor) : f.handlerFacts.Flagged := by
  unfold handlerFacts
  split
  · exact Observations.flagged_facts _
  · exact ⟨by simp, by simp, by simp⟩

/-! ## Fields by their readings -/

namespace Reading

/-- The names that are read in a part, in the order in which each is read first. -/
def names (readings : List Reading) (part : Part) : List String :=
  ((readings.filter (·.part == part)).map (·.name)).eraseDups

/-- What the readings of one field say about its type, one after the other. -/
def types (readings : List Reading) (part : Part) (name : String) : List FieldType :=
  (readings.filter fun r => r.part == part && r.name == name).map (·.type)

variable {readings : List Reading} {r : Reading} {part : Part} {name : String}

/-- `Reading.names` has each name once. -/
theorem nodup_names (readings : List Reading) (part : Part) : (names readings part).Nodup :=
    nodup_eraseDups _

/-- `Reading.types` has something for just the names of `Reading.names`. -/
private theorem types_ne_nil_iff : types readings part name ≠ [] ↔ name ∈ names readings part := by
  simp [types, names, and_assoc]

/-- `Reading.names` does not change by a reading of another part. -/
private theorem names_append_other (h : r.part ≠ part) :
    names (readings ++ [r]) part = names readings part := by
  simp [names, h]

/-- `Reading.names` does not change by a reading of a name that it has. -/
private theorem names_append_known (h : r.name ∈ names readings r.part) :
    names (readings ++ [r]) r.part = names readings r.part := by
  simp only [names, List.mem_eraseDups] at h ⊢
  simp [List.eraseDups_append, List.removeAll, h]

/-- `Reading.names` has a name more by a reading of a new one. -/
private theorem names_append_new (h : r.name ∉ names readings r.part) :
    names (readings ++ [r]) r.part = names readings r.part ++ [r.name] := by
  simp only [names, List.mem_eraseDups] at h ⊢
  simp [List.eraseDups_append, List.removeAll, List.eraseDups_cons, h]

/-- `Reading.types` does not change by a reading of another field. -/
private theorem types_append_other (h : ¬(r.part = part ∧ r.name = name)) :
    types (readings ++ [r]) part name = types readings part name := by
  simpa [types] using h

/-- `Reading.types` has a type more by a reading of the field. -/
private theorem types_append_self :
    types (readings ++ [r]) r.part r.name = types readings r.part r.name ++ [r.type] := by
  simp [types]

end Reading

namespace Field

/-- `updateFirst` among fields with distinct names changes the one field that has the name. -/
private theorem updateFirst_map {fieldOf : String → Field}
    (hfield : ∀ name, (fieldOf name).name = name) (change : Field → Field) (name : String)
    {names : List String} (h : names.Nodup) :
    updateFirst name change (names.map fieldOf) =
      names.map fun n => if n = name then change (fieldOf n) else fieldOf n := by
  induction names with
  | nil => rfl
  | cons first rest ih =>
    obtain ⟨hfirst, hrest⟩ := List.nodup_cons.mp h
    rw [List.map_cons, List.map_cons, updateFirst, hfield]
    by_cases heq : first = name
    · -- Names are distinct, so no other field has the name.
      have hothers : ∀ n ∈ rest, fieldOf n = if n = name then change (fieldOf n)
          else fieldOf n := by
        intro n hn
        have hne : n ≠ name := fun hn' => hfirst (heq.trans hn'.symm ▸ hn)
        rw [if_neg hne]
      rw [if_pos heq, if_pos heq, List.map_congr_left hothers]
    · rw [if_neg heq, if_neg heq, ih hrest]

/-- `asNumber` again changes nothing. -/
private theorem asNumber_asNumber (f : Field) : f.asNumber.asNumber = f.asNumber := by
  by_cases h : f.type = .string <;> simp [asNumber, h]

/-- `asNumber` keeps the name. -/
private theorem name_asNumber (f : Field) : f.asNumber.name = f.name := by
  unfold asNumber
  split <;> rfl

end Field

/-- The type that the readings of a field of the part give it: what the first says, but of a path
parameter what the last says that says more than `string`. -/
def Part.baseType (part : Part) (types : List FieldType) : FieldType :=
  if part = .params then (types.reverse.find? (· ≠ .string)).getD .string else types.headD .string

/-- The field of the part under a name, by its readings. -/
def Part.fieldOf (part : Part) (readings : List Reading) (name : String) : Field :=
  ⟨name, part.baseType (Reading.types readings part name), part.isRequired⟩

namespace Part

variable {part : Part} {types : List FieldType} {type : FieldType}

private theorem baseType_singleton : part.baseType [type] = type := by
  cases type <;> simp [baseType]

/-- `baseType` of a path parameter is the last type other than `string`. -/
private theorem baseType_append_of_ne_string (h : type ≠ .string) :
    Part.params.baseType (types ++ [type]) = type := by
  simp [baseType, h]

/-- `baseType` does not change by any other reading of a field that has been read. -/
private theorem baseType_append_of_known (hknown : types ≠ [])
    (h : ¬(part = .params ∧ type ≠ .string)) :
    part.baseType (types ++ [type]) = part.baseType types := by
  unfold baseType
  -- For a path parameter a `string` says nothing new, and elsewhere the first reading has decided.
  by_cases hpart : part = .params
  · have htype : type = .string := by simpa [hpart] using h
    simp [hpart, htype]
  · obtain ⟨first, rest, rfl⟩ := List.exists_cons_of_ne_nil hknown
    simp [hpart]

/-- `Part.fields` of one reading more: it is added if it is of the part. -/
private theorem fields_append (part : Part) (readings : List Reading) (r : Reading) :
    part.fields (readings ++ [r]) =
      if r.part = part then part.addReading (part.fields readings) r else part.fields readings := by
  unfold Part.fields
  by_cases h : r.part = part <;> simp [h]

/-- `addReading` adds a field, or changes it, as the type that all its readings give it does. -/
private theorem addReading_map (readings : List Reading) (r : Reading) :
    r.part.addReading ((Reading.names readings r.part).map (r.part.fieldOf readings)) r =
      (Reading.names (readings ++ [r]) r.part).map (r.part.fieldOf (readings ++ [r])) := by
  -- One reading says nothing about other fields.
  have hothers : ∀ name, name ≠ r.name →
      r.part.fieldOf (readings ++ [r]) name = r.part.fieldOf readings name := by
    intro name hname
    rw [fieldOf, fieldOf, Reading.types_append_other fun h => hname h.2.symm]
  have hlisted : Field.Listed r.name
      ((Reading.names readings r.part).map (r.part.fieldOf readings)) ↔
        r.name ∈ Reading.names readings r.part := by
    simp [Field.listed_iff, fieldOf, Function.comp_def]
  unfold addReading
  by_cases hknown : r.name ∈ Reading.names readings r.part
  · rw [if_pos (hlisted.mpr hknown), Reading.names_append_known hknown]
    split
    · rename_i hchange
      -- The last reading of a path parameter decides.
      rw [Field.updateFirst_map (fun _ => rfl) _ _ (Reading.nodup_names _ _)]
      refine List.map_congr_left fun name _ => ?_
      by_cases hname : name = r.name
      · rw [if_pos hname, hname, fieldOf, fieldOf, Reading.types_append_self, hchange.1,
          baseType_append_of_ne_string hchange.2]
      · rw [if_neg hname, hothers name hname]
    · rename_i hchange
      refine List.map_congr_left fun name _ => ?_
      by_cases hname : name = r.name
      · rw [hname, fieldOf, fieldOf, Reading.types_append_self,
          baseType_append_of_known (Reading.types_ne_nil_iff.mpr hknown) hchange]
      · rw [hothers name hname]
  · have hnone : Reading.types readings r.part r.name = [] := by
      by_contra htypes
      exact hknown (Reading.types_ne_nil_iff.mp htypes)
    have hold : ∀ name ∈ Reading.names readings r.part,
        r.part.fieldOf readings name = r.part.fieldOf (readings ++ [r]) name := by
      intro name hname
      exact (hothers name fun heq => hknown (heq ▸ hname)).symm
    have hnew : r.part.fieldOf (readings ++ [r]) r.name = ⟨r.name, r.type, r.part.isRequired⟩ := by
      rw [fieldOf, Reading.types_append_self, hnone, List.nil_append, baseType_singleton]
    rw [if_neg (mt hlisted.mp hknown), Reading.names_append_new hknown, List.map_append,
      List.map_singleton, hnew, List.map_congr_left hold]

/-- `Part.fields` has one field for each name that is read, in the order of first readings, with the
type that all the readings of the name give it. -/
theorem fields_eq_map (part : Part) (readings : List Reading) :
    part.fields readings = (Reading.names readings part).map (part.fieldOf readings) := by
  -- The last reading is the last one to be added.
  induction readings using List.reverseRecOn with
  | nil => rfl
  | append_singleton readings r ih =>
    rw [fields_append, ih]
    by_cases hpart : r.part = part
    · subst hpart
      rw [if_pos rfl, addReading_map]
    · rw [if_neg hpart, Reading.names_append_other hpart]
      refine List.map_congr_left fun name _ => ?_
      rw [fieldOf, fieldOf, Reading.types_append_other fun h => hpart h.1]

/-- `withNumbers` goes through the numbers one by one, and leaves out those of other parts. -/
private theorem withNumbers_cons (part p : Part) (name : String) (numeric : List (Part × String))
    (fields : List Field) :
    part.withNumbers ((p, name) :: numeric) fields =
      part.withNumbers numeric
        (if p = part then Field.updateFirst name Field.asNumber fields else fields) := by
  by_cases h : p = part <;> simp [withNumbers, h]

/-- `withNumbers` makes a number of each field that is named among the numbers, however often and in
whatever order they are named. -/
theorem withNumbers_map {fieldOf : String → Field} (hfield : ∀ name, (fieldOf name).name = name)
    {names : List String} (h : names.Nodup) (part : Part) (numeric : List (Part × String)) :
    part.withNumbers numeric (names.map fieldOf) =
      names.map fun n => if (part, n) ∈ numeric then (fieldOf n).asNumber else fieldOf n := by
  induction numeric generalizing fieldOf with
  | nil => simp [withNumbers]
  | cons number rest ih =>
    obtain ⟨p, name⟩ := number
    rw [withNumbers_cons]
    by_cases hpart : p = part
    · rw [if_pos hpart, Field.updateFirst_map hfield _ _ h, ih]
      · refine List.map_congr_left fun n _ => ?_
        -- What is named once more is a number all the same.
        by_cases hn : n = name
        · simp [hn, hpart, Field.asNumber_asNumber]
        · simp [hn]
      · intro n
        split <;> simp [Field.name_asNumber, hfield]
    · rw [if_neg hpart, ih hfield]
      simp [Ne.symm hpart]

end Part

end RouteAtlas
