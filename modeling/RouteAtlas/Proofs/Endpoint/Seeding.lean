import RouteAtlas.Endpoint
import RouteAtlas.Proofs.Lists

/-!
# Seeding of path parameters

An endpoint that is moved to another URL keeps its path parameters and gets one more for every name
of the URL that it does not list yet.

## Key results

- `mergeAbsent_map`: which of some new fields are appended
- `relocate_params`: the path parameters of an endpoint at another URL
-/

namespace RouteAtlas

/-- `Url.params` has each name of a pattern once. -/
theorem nodup_urlParams (url : String) : (Url.params url).Nodup := nodup_eraseDups _

/-! ## Merging fields -/

/-- `Field.mergeAbsent` of fields for names without repetitions appends those whose names are not
listed. -/
theorem mergeAbsent_map {fields : List Field} {names : List String} (type : FieldType)
    (required : Bool) (hnodup : names.Nodup) :
    Field.mergeAbsent fields (names.map (⟨·, type, required⟩)) =
      fields ++ (names.filter (fun n => ¬ Field.Listed n fields)).map (⟨·, type, required⟩) := by
  -- The fields grow while the names are gone through, so this is shown for any fields.
  induction names generalizing fields with
  | nil => simp [Field.mergeAbsent]
  | cons n rest ih =>
    obtain ⟨hn, hrest⟩ := List.nodup_cons.mp hnodup
    have hstep : Field.mergeAbsent fields ((n :: rest).map (⟨·, type, required⟩)) =
        Field.mergeAbsent (Field.addAbsent fields ⟨n, type, required⟩)
          (rest.map (⟨·, type, required⟩)) := rfl
    rw [hstep, ih hrest]
    by_cases hlisted : Field.Listed n fields
    · simp [Field.addAbsent, hlisted]
    · -- The field just appended lists no other name.
      have hsame : rest.filter (fun x => ¬ Field.Listed x (fields ++ [⟨n, type, required⟩])) =
          rest.filter (fun x => ¬ Field.Listed x fields) := by
        refine List.filter_congr fun x hx => ?_
        have hxn : n ≠ x := fun h => hn (h ▸ hx)
        simp [Field.Listed, hxn]
      rw [Field.addAbsent, if_neg hlisted, hsame]
      simp [hlisted]

/-- `Endpoint.relocate` keeps the path parameters, and appends a required string for each name of
the URL that they lack. -/
theorem relocate_params (e : Endpoint) (url : String) :
    (e.relocate url).params =
      e.params ++ ((Url.params url).filter (fun n => ¬ Field.Listed n e.params)).map
        (⟨·, .string, true⟩) :=
  mergeAbsent_map .string true (nodup_urlParams url)

end RouteAtlas
