import Mathlib.Data.List.DropRight
import RouteAtlas.Url

/-!
# Joining prefixes

A prefix that is more than slashes is put in front of a path with one slash before it and none after
it; what the path adds to it does not depend on the prefix. So it does not matter whether a path is
mounted under two prefixes one after the other or under the joined prefix at once, and a path that
changes by being mounted gets longer.

## Key results

- `joinChars_of_ne_nil`: a joined URL is what is left of the prefix, followed by what the path adds
- `join_assoc`: prefixes can be joined in any order
- `size_lt_size_joinChars`: a URL that differs from the path is longer, however length is measured
-/

namespace RouteAtlas.Url

variable {mount path : List Char}

/-! ## Slashes at the ends -/

/-- `dropTrailingSlashes` of two texts: if the second is all slashes, those of the first go too. -/
theorem dropTrailingSlashes_append (cs ds : List Char) :
    dropTrailingSlashes (cs ++ ds) =
      if dropTrailingSlashes ds = [] then dropTrailingSlashes cs
      else cs ++ dropTrailingSlashes ds := by
  simp only [dropTrailingSlashes, List.reverse_append, List.dropWhile_append,
    List.reverse_eq_nil_iff, List.isEmpty_iff]
  split
  · rfl
  · rw [List.reverse_append, List.reverse_reverse]

/-- `dropTrailingSlashes` again drops nothing. -/
private theorem dropTrailingSlashes_idem (cs : List Char) :
    dropTrailingSlashes (dropTrailingSlashes cs) = dropTrailingSlashes cs :=
  List.rdropWhile_idempotent (· == '/') cs

/-- `withLeadingSlash` starts with a slash. -/
theorem withLeadingSlash_eq_cons (cs : List Char) : ∃ rest, withLeadingSlash cs = '/' :: rest := by
  unfold withLeadingSlash
  split
  · exact ⟨_, rfl⟩
  · exact ⟨cs, rfl⟩

/-- `withLeadingSlash` adds nothing where a slash is in front. -/
private theorem withLeadingSlash_append (cs ds : List Char) :
    withLeadingSlash (withLeadingSlash cs ++ ds) = withLeadingSlash cs ++ ds := by
  obtain ⟨rest, hrest⟩ := withLeadingSlash_eq_cons cs
  rw [hrest]
  rfl

/-- `withLeadingSlash` and `dropTrailingSlashes` can be done in either order: the slash in front and
those at the end are different ones, unless there is nothing else. -/
private theorem dropTrailingSlashes_withLeadingSlash {cs : List Char}
    (h : dropTrailingSlashes cs ≠ []) :
    dropTrailingSlashes (withLeadingSlash cs) = withLeadingSlash (dropTrailingSlashes cs) := by
  cases cs with
  | nil => exact absurd rfl h
  | cons c rest =>
    have hcons := dropTrailingSlashes_append [c] rest
    rw [List.singleton_append] at hcons
    by_cases hc : c = '/'
    · -- The slash in front is there already, and it is not the last character that is left.
      subst hc
      have hrest : dropTrailingSlashes rest ≠ [] := by
        intro hnil
        rw [hcons, if_pos hnil] at h
        exact h rfl
      rw [if_neg hrest] at hcons
      rw [show withLeadingSlash ('/' :: rest) = '/' :: rest from rfl, hcons]
      rfl
    · have hslash : ∀ ds, withLeadingSlash (c :: ds) = '/' :: c :: ds := by
        intro ds
        unfold withLeadingSlash
        split
        · rename_i heq
          exact absurd (List.cons.inj heq).1 hc
        · rfl
      -- The first character is no slash, so it stays when slashes at the end go.
      have hkept : ∃ ds, dropTrailingSlashes (c :: rest) = c :: ds := by
        rw [hcons]
        split
        · exact ⟨[], by simp [dropTrailingSlashes, hc]⟩
        · exact ⟨_, rfl⟩
      obtain ⟨ds, hds⟩ := hkept
      have happend := dropTrailingSlashes_append ['/'] (c :: rest)
      rw [if_neg h, List.singleton_append, hds, List.singleton_append] at happend
      rw [hslash rest, happend, hds, hslash ds]

/-! ## What a path adds -/

/-- What a path adds to a prefix that is more than slashes. -/
def added (path : List Char) : List Char :=
  if path = ['/'] ∨ path = [] then [] else withLeadingSlash path

/-- `joinChars` leaves a path under a prefix of slashes as it is. -/
theorem joinChars_of_eq_nil (h : dropTrailingSlashes mount = []) (path : List Char) :
    joinChars mount path = path := by
  rw [joinChars, h]

/-- `joinChars` puts what is left of any other prefix before what the path adds. -/
theorem joinChars_of_ne_nil (h : dropTrailingSlashes mount ≠ []) (path : List Char) :
    joinChars mount path = withLeadingSlash (dropTrailingSlashes mount) ++ added path := by
  unfold joinChars added
  split
  · exact absurd ‹_› h
  · split
    · rw [List.append_nil]
    · rfl

/-- A path of slashes has nothing `added` but slashes. -/
private theorem dropTrailingSlashes_added_eq_nil (h : dropTrailingSlashes path = []) :
    dropTrailingSlashes (added path) = [] := by
  unfold added
  split
  · rfl
  · rename_i hne
    cases path with
    | nil => exact absurd (Or.inr rfl) hne
    | cons c rest =>
      have hall : ∀ x ∈ c :: rest, (x == '/') = true := List.rdropWhile_eq_nil_iff.mp h
      obtain rfl : c = '/' := by simpa using hall c List.mem_cons_self
      exact h

/-- A path that is more than slashes is `added` with a slash in front. -/
private theorem added_of_ne_nil (h : dropTrailingSlashes path ≠ []) :
    added path = withLeadingSlash path := by
  refine if_neg ?_
  rintro (rfl | rfl)
  · exact h (by decide)
  · exact h rfl

/-- What is left of a prefix has at least two characters after `withLeadingSlash`. -/
private theorem one_lt_length_withLeadingSlash (h : dropTrailingSlashes mount ≠ []) :
    1 < (withLeadingSlash (dropTrailingSlashes mount)).length := by
  -- A slash alone would have been dropped.
  by_contra hshort
  obtain ⟨rest, hrest⟩ := withLeadingSlash_eq_cons (dropTrailingSlashes mount)
  have hnil : rest = [] := by
    rw [hrest, List.length_cons] at hshort
    exact List.length_eq_zero_iff.mp (by omega)
  rw [← dropTrailingSlashes_idem] at h
  have hdrop := dropTrailingSlashes_withLeadingSlash h
  rw [dropTrailingSlashes_idem, hrest, hnil] at hdrop
  exact absurd hdrop (by decide)

/-- What starts with a prefix that is more than slashes is `added` as it is. -/
private theorem added_append (h : dropTrailingSlashes mount ≠ []) (ds : List Char) :
    added (withLeadingSlash (dropTrailingSlashes mount) ++ ds) =
      withLeadingSlash (dropTrailingSlashes mount) ++ ds := by
  have hlong := one_lt_length_withLeadingSlash h
  rw [added, if_neg, withLeadingSlash_append]
  rintro (heq | heq) <;>
  · have hlen := congrArg List.length heq
    simp only [List.length_append, List.length_cons, List.length_nil] at hlen
    omega

/-! ## Joining twice -/

/-- `joinChars` of three texts does not depend on which two are joined first. -/
private theorem joinChars_assoc (a b c : List Char) :
    joinChars (joinChars a b) c = joinChars a (joinChars b c) := by
  by_cases ha : dropTrailingSlashes a = []
  · rw [joinChars_of_eq_nil ha, joinChars_of_eq_nil ha]
  · -- What is left of the first prefix is kept whole when the slashes at the end of what is joined
    -- to it go.
    have hfront : dropTrailingSlashes (withLeadingSlash (dropTrailingSlashes a)) =
        withLeadingSlash (dropTrailingSlashes a) := by
      rw [dropTrailingSlashes_withLeadingSlash (by rwa [dropTrailingSlashes_idem]),
        dropTrailingSlashes_idem]
    have hne : withLeadingSlash (dropTrailingSlashes a) ≠ [] := by
      have hlong := one_lt_length_withLeadingSlash ha
      intro hnil
      rw [hnil] at hlong
      exact absurd hlong (by decide)
    have hboth := dropTrailingSlashes_append (withLeadingSlash (dropTrailingSlashes a)) (added b)
    rw [joinChars_of_ne_nil ha b, joinChars_of_ne_nil ha (joinChars b c)]
    -- A middle of slashes adds none that last; any other one keeps what it adds.
    by_cases hb : dropTrailingSlashes b = []
    · rw [if_pos (dropTrailingSlashes_added_eq_nil hb), hfront] at hboth
      have hlead := withLeadingSlash_append (dropTrailingSlashes a) []
      rw [List.append_nil] at hlead
      rw [joinChars_of_ne_nil (by rwa [hboth]), hboth, hlead, joinChars_of_eq_nil hb]
    · have hadded : dropTrailingSlashes (added b) = withLeadingSlash (dropTrailingSlashes b) := by
        rw [added_of_ne_nil hb, dropTrailingSlashes_withLeadingSlash hb]
      have hsecond : withLeadingSlash (dropTrailingSlashes b) ≠ [] := by
        obtain ⟨rest, hrest⟩ := withLeadingSlash_eq_cons (dropTrailingSlashes b)
        rw [hrest]
        exact List.cons_ne_nil _ _
      rw [hadded, if_neg hsecond] at hboth
      have hjoined :
          dropTrailingSlashes (withLeadingSlash (dropTrailingSlashes a) ++ added b) ≠ [] := by
        rw [hboth]
        exact List.append_ne_nil_of_left_ne_nil hne _
      rw [joinChars_of_ne_nil hjoined, hboth, withLeadingSlash_append, joinChars_of_ne_nil hb,
        added_append hb, List.append_assoc]

/-- `join` of a path under two prefixes is that of the path under the joined prefix. -/
theorem join_assoc (a b c : String) : join (join a b) c = join a (join b c) := by
  simp only [join, String.toList_ofList, joinChars_assoc]

/-! ## Longer URLs -/

/-- `withLeadingSlash` adds a slash or nothing. -/
theorem withLeadingSlash_eq_or (cs : List Char) :
    withLeadingSlash cs = cs ∨ withLeadingSlash cs = '/' :: cs := by
  unfold withLeadingSlash
  split
  · exact .inl rfl
  · exact .inr rfl

/-- `joinChars` makes a path longer if it changes it, however length is measured: the parts of a
text add up, a slash counts for one, and nothing for less. -/
theorem size_lt_size_joinChars (size : List Char → Nat)
    (happend : ∀ cs ds, size (cs ++ ds) = size cs + size ds) (hlength : ∀ cs, cs.length ≤ size cs)
    (hslash : size ['/'] = 1) (h : joinChars mount path ≠ path) :
    size path < size (joinChars mount path) := by
  have hnil : size [] = 0 := by
    have hdouble := happend [] []
    rw [List.append_nil] at hdouble
    omega
  have hmount : dropTrailingSlashes mount ≠ [] := fun heq => h (joinChars_of_eq_nil heq path)
  -- What is in front counts for two at least, more than the slash that a path may lose.
  have hfront : 1 < size (withLeadingSlash (dropTrailingSlashes mount)) :=
    Nat.lt_of_lt_of_le (one_lt_length_withLeadingSlash hmount) (hlength _)
  rw [joinChars_of_ne_nil hmount, happend]
  unfold added
  split
  · -- The path is a slash or nothing, and what is left of the prefix is more.
    rename_i hpath
    have hshort : size path ≤ 1 := by rcases hpath with rfl | rfl <;> omega
    omega
  · have hlead : size path ≤ size (withLeadingSlash path) := by
      rcases withLeadingSlash_eq_or path with heq | heq
      · rw [heq]
      · have hcons := happend ['/'] path
        rw [heq, ← List.singleton_append]
        omega
    omega

/-- `join` changes a text if `joinChars` changes its characters. -/
private theorem joinChars_ne_of_join_ne {a b : String} (h : join a b ≠ b) :
    joinChars a.toList b.toList ≠ b.toList := by
  intro heq
  rw [join, heq, String.ofList_toList] at h
  exact h rfl

/-- `join` makes a path longer if it changes it. -/
theorem length_lt_length_join {a b : String} (h : join a b ≠ b) : b.length < (join a b).length := by
  rw [join, String.length_ofList, ← String.length_toList]
  exact size_lt_size_joinChars List.length (fun _ _ => List.length_append)
    (fun _ => Nat.le_refl _) rfl
    (joinChars_ne_of_join_ne h)

/-- A text has at least as many bytes as characters. -/
private theorem length_le_utf8ByteSize_ofList (cs : List Char) :
    cs.length ≤ (String.ofList cs).utf8ByteSize := by
  induction cs with
  | nil => exact Nat.zero_le _
  | cons c cs ih =>
    have hpos := c.utf8Size_pos
    rw [String.ofList_cons, String.utf8ByteSize_append, String.utf8ByteSize_singleton,
      List.length_cons]
    omega

/-- `join` makes a path take more bytes, too. -/
private theorem utf8ByteSize_lt_utf8ByteSize_join {a b : String} (h : join a b ≠ b) :
    b.utf8ByteSize < (join a b).utf8ByteSize := by
  have happend : ∀ cs ds, (String.ofList (cs ++ ds)).utf8ByteSize =
      (String.ofList cs).utf8ByteSize + (String.ofList ds).utf8ByteSize := by
    intro cs ds
    rw [String.ofList_append, String.utf8ByteSize_append]
  have hlt := size_lt_size_joinChars (fun cs => (String.ofList cs).utf8ByteSize) happend
    length_le_utf8ByteSize_ofList (by decide) (joinChars_ne_of_join_ne h)
  rwa [String.ofList_toList] at hlt

/-- `join` composes: it does not matter whether a path is mounted step by step or under the joined
prefix, and each mount that changes the path makes it longer, in characters and in bytes. -/
theorem join_composes (a b c : String) :
    join (join a b) c = join a (join b c) ∧
      (join a b ≠ b → b.length < (join a b).length ∧ b.utf8ByteSize < (join a b).utf8ByteSize) := by
  constructor
  · exact join_assoc a b c
  · intro h
    exact ⟨length_lt_length_join h, utf8ByteSize_lt_utf8ByteSize_join h⟩

/-- `join` with a prefix without a slash in front and with two at the end, before a path of
slashes. -/
theorem join_composes_at_slashes :
    join "api//" "//" = "/api//" ∧ join (join "api//" "//") "/é" = join "api//" (join "//" "/é") ∧
      "//".utf8ByteSize < (join "api//" "//").utf8ByteSize := by
  have hjoined : join "api//" "//" = "/api//" := by decide +kernel
  obtain ⟨hassoc, hlonger⟩ := join_composes "api//" "//" "/é"
  refine ⟨hjoined, hassoc, (hlonger ?_).2⟩
  rw [hjoined]
  decide

end RouteAtlas.Url
