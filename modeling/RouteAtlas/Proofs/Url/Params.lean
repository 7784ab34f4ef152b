import RouteAtlas.Proofs.Lists
import RouteAtlas.Proofs.Url.Join

/-!
# Parameters of joined URLs

A name ends where a slash comes, and what a URL is joined with starts with a slash or is nothing. So
the names of the prefix and those of the path are found in the joined URL as they are found in each
alone, and no name runs from one into the other.

## Key results

- `namesAfterColons_append`: names in a text cut where no name can go on
- `namesAfterColons_joinChars`: names in a joined URL
- `params_join`: the parameters of a joined URL
-/

namespace RouteAtlas.Url

/-! ## Cutting a text -/

/-- No name goes on into the text. -/
def EndsName (cs : List Char) : Prop := ∀ c ∈ cs.head?, isNamePart c = false

/-- A slash `EndsName`. -/
private theorem endsName_slash (cs : List Char) : EndsName ('/' :: cs) := by
  intro c hc
  obtain rfl : '/' = c := by simpa using hc
  decide

/-- `nameAtFront` is not changed by a text that no name goes on into. -/
private theorem nameAtFront_append {cs ds : List Char} (h : EndsName ds) :
    nameAtFront (cs ++ ds) = nameAtFront cs := by
  cases cs with
  | nil =>
    cases ds with
    | nil => rfl
    | cons d ds =>
      -- What a name can start with, it can also hold.
      have hpart : isNamePart d = false := h d rfl
      have hstart : isNameStart d = false := by
        rw [isNamePart, Bool.or_eq_false_iff] at hpart
        exact hpart.1
      simp [nameAtFront, hstart]
  | cons c cs =>
    have hnone : ds.takeWhile isNamePart = [] := by
      cases ds with
      | nil => rfl
      | cons d ds => exact List.takeWhile_cons_of_neg (by simp [h d rfl])
    -- The name is the longest start of parts of a name, and it cannot reach into the second text.
    have htake : (cs ++ ds).takeWhile isNamePart = cs.takeWhile isNamePart := by
      rw [List.takeWhile_append, hnone, List.append_nil]
      split
      · rename_i hall
        exact ((List.takeWhile_prefix isNamePart).eq_of_length hall).symm
      · rfl
    simp only [List.cons_append, nameAtFront, htake]

/-- `namesAfterColons` of a text are those of its parts, if it is cut where no name goes on. -/
theorem namesAfterColons_append (cs : List Char) {ds : List Char} (h : EndsName ds) :
    namesAfterColons (cs ++ ds) = namesAfterColons cs ++ namesAfterColons ds := by
  induction cs with
  | nil => rfl
  | cons c cs ih =>
    rw [List.cons_append, namesAfterColons, namesAfterColons, ih, nameAtFront_append h]
    by_cases hc : c = ':'
    · simp [hc]
    · simp [hc]

/-! ## Slashes at the ends -/

/-- `namesAfterColons` do not change by `dropTrailingSlashes`. -/
private theorem namesAfterColons_dropTrailingSlashes (cs : List Char) :
    namesAfterColons (dropTrailingSlashes cs) = namesAfterColons cs := by
  induction cs using List.reverseRecOn with
  | nil => rfl
  | append_singleton cs c ih =>
    -- Slashes go one by one from the end, up to the first other character.
    by_cases hc : c = '/'
    · subst hc
      rw [dropTrailingSlashes_append, if_pos (by decide), ih,
        namesAfterColons_append cs (endsName_slash [])]
      exact (List.append_nil _).symm
    · have hkept : dropTrailingSlashes [c] = [c] := by simp [dropTrailingSlashes, hc]
      rw [dropTrailingSlashes_append, hkept, if_neg (List.cons_ne_nil c [])]

/-- `namesAfterColons` do not change by `withLeadingSlash`. -/
private theorem namesAfterColons_withLeadingSlash (cs : List Char) :
    namesAfterColons (withLeadingSlash cs) = namesAfterColons cs := by
  rcases withLeadingSlash_eq_or cs with heq | heq
  · rw [heq]
  · rw [heq]
    rfl

/-! ## Joined URLs -/

/-- `namesAfterColons` of what a path adds are those of the path. -/
private theorem namesAfterColons_added (path : List Char) :
    namesAfterColons (added path) = namesAfterColons path := by
  unfold added
  split
  · rename_i hpath
    rcases hpath with rfl | rfl <;> rfl
  · exact namesAfterColons_withLeadingSlash path

/-- What a path adds `EndsName`. -/
private theorem endsName_added (path : List Char) : EndsName (added path) := by
  unfold added
  split
  · intro c hc
    cases hc
  · obtain ⟨rest, hrest⟩ := withLeadingSlash_eq_cons path
    rw [hrest]
    exact endsName_slash rest

/-- `namesAfterColons` of a joined URL are those of the prefix, then those of the path. -/
theorem namesAfterColons_joinChars (mount path : List Char) :
    namesAfterColons (joinChars mount path) = namesAfterColons mount ++ namesAfterColons path := by
  rw [← namesAfterColons_dropTrailingSlashes mount]
  -- A prefix of slashes has no names, and any other one is cut from the path where a slash is.
  by_cases h : dropTrailingSlashes mount = []
  · rw [joinChars_of_eq_nil h, h]
    rfl
  · rw [joinChars_of_ne_nil h, namesAfterColons_append _ (endsName_added path),
      namesAfterColons_withLeadingSlash, namesAfterColons_added]

/-- `params` of a joined URL are those of the prefix, then those of the path that are not among
them. -/
theorem params_join (mount path : String) :
    params (join mount path) = (params mount ++ params path).eraseDups := by
  rw [params, params, params, join, String.toList_ofList, namesAfterColons_joinChars,
    List.map_append, eraseDups_append_eraseDups]

-- A colon at the end of the prefix does not make a name of the path.
example : params (join "/:org:/" "id/:user/:org") = ["org", "user"] := by decide +kernel

end RouteAtlas.Url
