import Mathlib.Data.List.Basic
import RouteAtlas.Path

/-!
# Paths and the names along them

A path comes apart at its slashes, and an absolute path along names has just these names as its
components. A path along names from another one has them after those of the other one.

## Key results

- `splitSlashes_intercalate`: parts put together with slashes come apart again
- `components_ofNames`: the components of an absolute path along names
- `ofNames_same_iff`: two such paths name the same place only if the names are equal
- `components_join`: what a relative path adds to the components of the path it starts from
- `within?_join_intercalate`, `join_intercalate_inj`: the names can be read off a path along them
-/

namespace RouteAtlas

namespace Path

/-! ## Paths that name the same place -/

@[simp] theorem same_refl (p : Path) : p.same p = true := beq_self_eq_true _

theorem same_comm (p q : Path) : p.same q = q.same p := Bool.beq_comm

/-- Paths with the same components are `same` as the same paths. -/
theorem same_congr {p q : Path} (h : p.same q = true) (r : Path) : p.same r = q.same r := by
  rw [same, beq_iff_eq] at h
  rw [same, same, h]

/-! ## Parts between slashes -/

/-- No part that `splitSlashes` gives has a slash in it. -/
private theorem slash_not_mem_splitSlashes {cs part : List Char} (h : part ∈ splitSlashes cs) :
    '/' ∉ part := by
  -- Reading on from a slash starts a new part, and any other character goes in front of the first
  -- one.
  induction cs generalizing part with
  | nil => simp_all [splitSlashes]
  | cons c cs ih =>
    rw [splitSlashes] at h
    split at h
    · rcases List.mem_cons.mp h with rfl | hmem
      · exact List.not_mem_nil
      · exact ih hmem
    · rename_i hc
      cases hsplit : splitSlashes cs with
      | nil =>
        rw [hsplit, List.mem_singleton] at h
        simp [h, Ne.symm hc]
      | cons first parts =>
        rw [hsplit] at h ih
        rcases List.mem_cons.mp h with rfl | hmem
        · have hfirst := ih List.mem_cons_self
          simp [hfirst, Ne.symm hc]
        · exact ih (List.mem_cons_of_mem _ hmem)

/-- No part of a path has a slash in it. -/
theorem slash_not_mem_segments {p : Path} {part : String} (h : part ∈ p.segments) :
    '/' ∉ part.toList := by
  obtain ⟨cs, hcs, rfl⟩ := List.mem_map.mp h
  rw [String.toList_ofList]
  exact slash_not_mem_splitSlashes hcs

/-- `splitSlashes` gives at least one part, if only the empty one. -/
theorem splitSlashes_ne_nil (cs : List Char) : splitSlashes cs ≠ [] := by
  cases cs with
  | nil => exact List.cons_ne_nil _ _
  | cons c cs =>
    rw [splitSlashes]
    split
    · exact List.cons_ne_nil _ _
    · split <;> exact List.cons_ne_nil _ _

/-- A path has at least one of its `segments`. -/
theorem segments_ne_nil (p : Path) : p.segments ≠ [] := by
  rw [segments, Ne, List.map_eq_nil_iff]
  exact splitSlashes_ne_nil _

/-- Without a slash, `splitSlashes` gives one part. -/
theorem splitSlashes_of_not_mem {cs : List Char} (h : '/' ∉ cs) : splitSlashes cs = [cs] := by
  induction cs with
  | nil => rfl
  | cons c cs ih =>
    obtain ⟨hc, hcs⟩ := not_or.mp (mt List.mem_cons.mpr h)
    rw [splitSlashes, if_neg (Ne.symm hc), ih hcs]

/-- `splitSlashes` parts what is before a slash from what is after it. -/
private theorem splitSlashes_append_slash (cs rest : List Char) :
    splitSlashes (cs ++ '/' :: rest) = splitSlashes cs ++ splitSlashes rest := by
  -- The parts in front of the slash are read first, so the induction is on what stands there.
  induction cs with
  | nil => simp [splitSlashes]
  | cons c cs ih =>
    rw [List.cons_append, splitSlashes, splitSlashes, ih]
    by_cases hc : c = '/'
    · rw [if_pos hc, if_pos hc, List.cons_append]
    · rw [if_neg hc, if_neg hc]
      cases hsplit : splitSlashes cs with
      | nil => exact absurd hsplit (splitSlashes_ne_nil cs)
      | cons part parts => rfl

/-- `splitSlashes` takes apart again what was put together with slashes. -/
theorem splitSlashes_intercalate {parts : List (List Char)} (hne : parts ≠ [])
    (hparts : ∀ part ∈ parts, '/' ∉ part) : splitSlashes (List.intercalate ['/'] parts) =
    parts := by
  induction parts with
  | nil => exact absurd rfl hne
  | cons part rest ih =>
    have hpart := hparts part List.mem_cons_self
    -- A single part has no slash after it, so the last one is a case of its own.
    cases rest with
    | nil => simpa [List.intercalate] using splitSlashes_of_not_mem hpart
    | cons next rest =>
      have hrest := ih (List.cons_ne_nil _ _) fun p hp => hparts p (List.mem_cons_of_mem _ hp)
      have hjoin : List.intercalate ['/'] (part :: next :: rest) =
          part ++ '/' :: List.intercalate ['/'] (next :: rest) := by
        simp [List.intercalate]
      rw [hjoin, splitSlashes_append_slash, splitSlashes_of_not_mem hpart, hrest,
        List.singleton_append]

/-! ## Names -/

/-- A name that a member of a directory is found under: it counts as a part of a path, does not go
up, and has no slash in it. -/
structure IsName (name : String) : Prop where
  counts : isVoid name = false
  notUp : name ≠ ".."
  noSlash : '/' ∉ name.toList

/-- The component of a name is that name. -/
theorem IsName.component? {name : String} (h : IsName name) :
    component? name = some (.name name) := by
  simp [Path.component?, h.counts, h.notUp]

/-- The absolute path along some names. -/
def ofNames (names : List String) : Path := ⟨"/" ++ "/".intercalate names⟩

/-- A text that is put in front of another one is what the whole starts with. -/
theorem startsWith_append (front rest : String) : (front ++ rest).startsWith front = true := by
  rw [String.startsWith_string_iff, String.toList_append]
  exact List.prefix_append _ _

/-- The path that `ofNames` makes starts with a slash. -/
theorem startsWith_ofNames (names : List String) : (ofNames names).text.startsWith "/" = true :=
  startsWith_append _ _

/-- The `segments` of the path that `ofSegments` makes of parts without slashes are these parts. -/
theorem segments_ofSegments {parts : List String} (hne : parts ≠ [])
    (hparts : ∀ part ∈ parts, '/' ∉ part.toList) :
    (ofSegments parts).segments = parts := by
  have hslash : "/".toList = ['/'] := rfl
  rw [segments, ofSegments, String.toList_intercalate, hslash,
    splitSlashes_intercalate (by simpa using hne), List.map_map]
  · refine (List.map_congr_left fun n _ => ?_).trans (List.map_id parts)
    simp
  · intro part hpart
    obtain ⟨n, hn, rfl⟩ := List.mem_map.mp hpart
    exact hparts n hn

/-- The `segments` of a relative path along names are the names. -/
theorem segments_intercalate {names : List String} (hne : names ≠ [])
    (hnames : ∀ n ∈ names, IsName n) :
    (Path.mk ("/".intercalate names)).segments = names :=
  segments_ofSegments hne fun n hn => (hnames n hn).noSlash

/-- The `segments` around a slash are those of what is before it and those of what is after it. -/
theorem segments_append_slash (s q : String) :
    (Path.mk (s ++ "/" ++ q)).segments = (Path.mk s).segments ++ (Path.mk q).segments := by
  have htext : (s ++ "/" ++ q).toList = s.toList ++ '/' :: q.toList := by simp
  rw [segments, htext, splitSlashes_append_slash, List.map_append]
  rfl

/-- The `segments` of an absolute path along names: nothing in front of the first slash, and then
the names. -/
theorem segments_ofNames {names : List String} (hnames : ∀ n ∈ names, IsName n) :
    (ofNames names).segments = "" :: (if names = [] then [""] else names) := by
  have htext : ofNames names = ⟨"" ++ "/" ++ "/".intercalate names⟩ := by
    rw [String.empty_append]
    rfl
  have hfront : (Path.mk "").segments = [""] := rfl
  rw [htext, segments_append_slash, hfront, List.singleton_append]
  by_cases hnil : names = []
  · subst hnil; rfl
  · rw [if_neg hnil, segments_intercalate hnil hnames]

/-- The `components` of an absolute path along names are the root and the names. -/
theorem components_ofNames {names : List String} (hnames : ∀ n ∈ names, IsName n) :
    (ofNames names).components = .root :: names.map .name := by
  have habs : (ofNames names).isAbsolute = true := startsWith_ofNames names
  have hvoid : Path.component? "" = none := by decide
  simp only [components, habs, if_true, segments_ofNames hnames, List.filterMap_cons, hvoid,
    List.singleton_append]
  refine congrArg (List.cons Component.root) ?_
  -- Without names the one part after the slash is empty and has no component.
  split
  · rename_i hnil; subst hnil; rfl
  · rw [← List.filterMap_eq_map]
    exact List.filterMap_congr fun n hn => (hnames n hn).component?

/-- Absolute paths along names are `same` only if the names are equal. -/
theorem ofNames_same_iff {names names' : List String} (hnames : ∀ n ∈ names, IsName n)
    (hnames' : ∀ n ∈ names', IsName n) :
    (ofNames names).same (ofNames names') = true ↔ names = names' := by
  rw [same, beq_iff_eq, components_ofNames hnames, components_ofNames hnames', List.cons.injEq]
  simp only [true_and]
  exact List.map_inj_right fun a b h => Component.name.inj h

/-! ## Going on from a path -/

/-- The first of the `segments` of an absolute path is empty: nothing stands in front of its first
slash. -/
private theorem head?_segments_of_isAbsolute {p : Path} (h : p.isAbsolute = true) :
    p.segments.head? = some "" := by
  obtain ⟨rest, hrest⟩ := String.startsWith_string_iff.mp h
  have hslash : "/".toList = ['/'] := rfl
  rw [segments, ← hrest, hslash, List.singleton_append, splitSlashes, if_pos rfl]
  rfl

/-- Whether a path is absolute is seen in front of any slash, unless nothing is there. -/
theorem isAbsolute_append_slash (s q : String) :
    (Path.mk (s ++ "/" ++ q)).isAbsolute = (s == "" || (Path.mk s).isAbsolute) := by
  rw [Bool.eq_iff_iff, Bool.or_eq_true, beq_iff_eq, isAbsolute, isAbsolute,
    String.startsWith_string_iff, String.startsWith_string_iff, ← String.toList_inj]
  have htext : (s ++ "/" ++ q).toList = s.toList ++ '/' :: q.toList := by simp
  rw [htext]
  cases s.toList with
  | nil => simp
  | cons c cs => simp

/-- What is after a slash adds those of its `segments` that have a component. -/
private theorem components_append_slash (s q : String) :
    (Path.mk (s ++ "/" ++ q)).components =
      (if s = "" then [.root] else (Path.mk s).components) ++ (Path.mk q).segments.filterMap
        component? := by
  -- Where the path starts is seen in front of the slash, unless nothing is there.
  simp only [components, segments_append_slash, isAbsolute_append_slash, List.filterMap_append,
    List.head?_append_of_ne_nil _ (segments_ne_nil _)]
  by_cases hs : s = ""
  · subst hs; rfl
  · simp [hs]

/-- A text ends with a slash if it is one with a slash put after it. -/
theorem endsWith_slash_iff {s : String} : s.endsWith "/" = true ↔ ∃ t, s = t ++ "/" := by
  rw [String.endsWith_eq_endsWith_toSlice, String.Slice.endsWith_string_iff, String.copy_toSlice]
  constructor
  · rintro ⟨cs, hcs⟩
    refine ⟨String.ofList cs, String.toList_inj.mp ?_⟩
    rw [String.toList_append, String.toList_ofList, hcs]
  · rintro ⟨t, rfl⟩
    rw [String.toList_append]
    exact List.suffix_append _ _

/-- `join` adds the `segments` of a relative path that have a component, if it does not start with a
point. -/
theorem components_join (p : Path) {q : String} (hrelative : (Path.mk q).isAbsolute = false)
    (hfront : (Path.mk q).segments.head? ≠ some ".") :
    (p.join q).components = p.components ++ (Path.mk q).segments.filterMap component? := by
  obtain ⟨s⟩ := p
  have hstart : ¬q.startsWith "/" = true := ne_true_of_eq_false hrelative
  have hvoid : (Path.mk "").segments.filterMap component? = [] := by decide
  rw [join, if_neg hstart]
  by_cases hempty : s = ""
  · subst hempty
    have hnone : (Path.mk "").components = [] := by decide
    simp only [beq_self_eq_true, Bool.true_or, if_true, String.empty_append, hnone, List.nil_append]
    simp [components, hrelative, hfront]
  · by_cases hend : s.endsWith "/" = true
    · -- The slash is there already, and nothing comes after it.
      rw [if_pos (by simp [hend])]
      obtain ⟨t, rfl⟩ := endsWith_slash_iff.mp hend
      have hself := components_append_slash t ""
      rw [String.append_empty, hvoid, List.append_nil] at hself
      rw [components_append_slash, hself]
    · rw [if_neg (by simp [hempty, hend]), components_append_slash, if_neg hempty]

variable {names names' : List String}

/-- A path along names is relative. -/
theorem isAbsolute_intercalate (hne : names ≠ []) (hnames : ∀ n ∈ names, IsName n) :
    (Path.mk ("/".intercalate names)).isAbsolute = false := by
  refine Bool.eq_false_iff.mpr fun habsolute => ?_
  -- The first part of an absolute path is empty, and no name is.
  have hhead := head?_segments_of_isAbsolute habsolute
  obtain ⟨first, rest, rfl⟩ := List.exists_cons_of_ne_nil hne
  rw [segments_intercalate hne hnames, List.head?_cons, Option.some.injEq] at hhead
  have hcounts := (hnames first List.mem_cons_self).counts
  rw [hhead] at hcounts
  exact absurd hcounts (by decide)

/-- `join` with a path along names adds the names to the `components`. -/
private theorem components_join_intercalate (p : Path) (hne : names ≠ [])
    (hnames : ∀ n ∈ names, IsName n) :
    (p.join ("/".intercalate names)).components = p.components ++ names.map .name := by
  have hsegments := segments_intercalate hne hnames
  have hrelative := isAbsolute_intercalate hne hnames
  obtain ⟨first, rest, rfl⟩ := List.exists_cons_of_ne_nil hne
  have hcounts : isVoid first = false := (hnames first List.mem_cons_self).counts
  -- A name is no point either, so nothing is lost in front.
  have hfront : (Path.mk ("/".intercalate (first :: rest))).segments.head? ≠ some "." := by
    rw [hsegments, List.head?_cons, Ne, Option.some.injEq]
    rintro rfl
    exact absurd hcounts (by decide)
  rw [components_join p hrelative hfront, hsegments, ← List.filterMap_eq_map]
  refine congrArg _ (List.filterMap_congr fun n hn => ?_)
  exact (hnames n hn).component?

/-- `within?` gives back the names that were joined to a path. -/
theorem within?_join_intercalate (p : Path) (hne : names ≠ []) (hnames : ∀ n ∈ names, IsName n) :
    (p.join ("/".intercalate names)).within? p = some (names.map .name) := by
  rw [within?, components_join_intercalate p hne hnames,
    if_pos (List.isPrefixOf_iff_prefix.mpr (List.prefix_append _ _)), List.drop_left]

/-- `join` leads along different names to different paths. -/
theorem join_intercalate_inj {p : Path} (hne : names ≠ []) (hnames : ∀ n ∈ names, IsName n)
    (hne' : names' ≠ []) (hnames' : ∀ n ∈ names', IsName n)
    (h : p.join ("/".intercalate names) = p.join ("/".intercalate names')) : names = names' := by
  -- What was joined can be read off with `within?`.
  have hwithin := within?_join_intercalate p hne hnames
  rw [h, within?_join_intercalate p hne' hnames', Option.some.injEq] at hwithin
  exact (List.map_inj_right fun a b hab => Component.name.inj hab).mp hwithin.symm

end Path

end RouteAtlas
