import RouteAtlas.Proofs.Path.Names

/-!
# Spellings of a path

Parts of a path that count for nothing can stand anywhere in it but at its end, where they ask for a
directory. Two paths that differ only in such parts are spellings of one path. They stay so when
both are joined with a name, when both get a text after them, and when both get another extension.

## Key results

- `segments_join`: the parts of a path that is joined with another one
- `counted_segments_of_same`: paths that name the same place have the same parts that count
- `Respelled.append`, `Respelled.join`, `Respelled.withExtension`: what can be done to two spellings
  of a path
- `respelled_join`: a point in front of a relative path makes another spelling
-/

namespace RouteAtlas.Path

variable {p q : Path} {parts : List String} {part name : String}

/-! ## Parts that count -/

/-- The parts that count. -/
def counted (parts : List String) : List String := parts.filter (!isVoid ·)

@[simp] theorem counted_append (a b : List String) : counted (a ++ b) = counted a ++ counted b :=
    List.filter_append ..

@[simp] theorem counted_counted (parts : List String) : counted (counted parts) = counted parts :=
  List.filter_filter.trans (List.filter_congr fun _ _ => Bool.and_self _)

theorem counted_cons_of_isVoid (h : isVoid part = true) : counted (part :: parts) = counted parts :=
  List.filter_cons_of_neg (by simp [h])

theorem counted_cons (h : isVoid part = false) : counted (part :: parts) = part :: counted parts :=
  List.filter_cons_of_pos (by simp [h])

/-- `counted` leaves nothing of parts that all count for nothing. -/
private theorem counted_of_forall_isVoid (h : ∀ v ∈ parts, isVoid v = true) : counted parts = [] :=
  List.filter_eq_nil_iff.mpr fun v hv => by simp [h v hv]

/-- `component?` gives nothing for the parts that count for nothing. -/
private theorem component?_eq_none_iff : component? part = none ↔ isVoid part = true := by
  unfold component?
  by_cases hvoid : isVoid part = true
  · simp [hvoid]
  · by_cases hup : part = ".." <;> simp [hvoid, hup]

/-- What `component?` gives has the part as its text, and it is no place to start from. -/
private theorem component?_eq_some {c : Component} (h : component? part = some c) :
    c.text = part ∧ c ≠ .root ∧ c ≠ .current := by
  unfold component? at h
  by_cases hvoid : isVoid part = true
  · simp [hvoid] at h
  · by_cases hup : part = ".."
    · rw [if_neg hvoid, if_pos (by simp [hup]), Option.some.injEq] at h
      subst h
      exact ⟨hup.symm, by simp, by simp⟩
    · obtain rfl : Component.name part = c := by simpa [hvoid, hup] using h
      exact ⟨rfl, by simp, by simp⟩

/-- `counted` keeps the parts with a component, which is the one that has them as its text. -/
private theorem counted_eq_map_text (parts : List String) :
    counted parts = (parts.filterMap component?).map Component.text := by
  induction parts with
  | nil => rfl
  | cons part parts ih =>
    -- A part counts exactly if it has a component.
    cases hc : component? part with
    | none =>
      rw [counted_cons_of_isVoid (component?_eq_none_iff.mp hc), List.filterMap_cons_none hc, ih]
    | some c =>
      have hcounts : isVoid part = false := by
        rw [← Bool.not_eq_true, ← component?_eq_none_iff, hc]
        simp
      rw [counted_cons hcounts, List.filterMap_cons_some hc, List.map_cons,
        (component?_eq_some hc).1, ih]

/-! ## Where a path starts -/

/-- A path is absolute if the first of its `segments` is empty and not the last. -/
private theorem isAbsolute_iff_segments :
    p.isAbsolute = true ↔ ∃ rest, rest ≠ [] ∧ p.segments = "" :: rest := by
  have hslash : "/".toList = ['/'] := rfl
  rw [isAbsolute, String.startsWith_string_iff, segments, hslash]
  cases p.text.toList with
  | nil => simp [splitSlashes]
  | cons c cs =>
    rw [splitSlashes]
    -- The text starts with a slash, or its first character stands in the first part.
    by_cases hc : c = '/'
    · rw [if_pos hc, hc]
      have hrest : (splitSlashes cs).map String.ofList ≠ [] := by simpa using splitSlashes_ne_nil cs
      exact iff_of_true ⟨cs, rfl⟩ ⟨_, hrest, rfl⟩
    · rw [if_neg hc]
      refine iff_of_false (by simp [Ne.symm hc]) ?_
      rintro ⟨rest, -, hfirst⟩
      cases hsplit : splitSlashes cs with
      | nil => simp [hsplit] at hfirst
      | cons first parts => simp [hsplit] at hfirst

/-- The `components` after the first are those of the parts that count. -/
private theorem counted_segments_eq (p : Path) :
    counted p.segments = (p.components.filter fun c => c ≠ .root ∧ c ≠ .current).map
      Component.text := by
  -- Only what is put in front tells where the path starts, and no part that counts gives that.
  have hfront :
      (if p.isAbsolute then [Component.root] else if p.segments.head? == some "." then [.current]
        else []).filter (fun c => c ≠ .root ∧ c ≠ .current) = [] := by
    split
    · rfl
    · split <;> rfl
  have hparts : (p.segments.filterMap component?).filter (fun c => c ≠ .root ∧ c ≠ .current) =
      p.segments.filterMap component? := by
    rw [List.filter_eq_self]
    intro c hc
    obtain ⟨part, -, hpart⟩ := List.mem_filterMap.mp hc
    exact decide_eq_true (component?_eq_some hpart).2
  rw [counted_eq_map_text, components, List.filter_append, hfront, hparts, List.nil_append]

/-- A path is absolute if the root is the first of its `components`. -/
private theorem isAbsolute_eq_head? (p : Path) :
    p.isAbsolute = (p.components.head? == some .root) := by
  -- The root is put in front; no part has it as its component.
  have hparts : (p.segments.filterMap component?).head? ≠ some .root := by
    intro hroot
    obtain ⟨part, -, hpart⟩ := List.mem_filterMap.mp (List.mem_of_head? hroot)
    exact (component?_eq_some hpart).2.1 rfl
  rw [components]
  cases p.isAbsolute with
  | true => rfl
  | false =>
    by_cases hpoint : (p.segments.head? == some ".") = true
    · simp [hpoint]
    · simpa [hpoint] using hparts

/-- Paths that are `same` start at the same place and have the same parts that count. -/
theorem counted_segments_of_same (h : p.same q = true) :
    p.isAbsolute = q.isAbsolute ∧ counted p.segments = counted q.segments := by
  have hcomponents : p.components = q.components := eq_of_beq h
  rw [isAbsolute_eq_head?, isAbsolute_eq_head? q, counted_segments_eq, counted_segments_eq q,
    hcomponents]
  exact ⟨rfl, rfl⟩

/-! ## Joined paths -/

/-- The parts of a path that stand in front of another one that is joined to it. -/
def lead (p : Path) : List String :=
  if p.text = "" then [] else if p.text.endsWith "/" then p.segments.dropLast else p.segments

/-- A slash at the end adds an empty one to the `segments`. -/
private theorem segments_slash (t : String) :
    (Path.mk (t ++ "/")).segments = (Path.mk t).segments ++ [""] := by
  have hsegments := segments_append_slash t ""
  rwa [String.append_empty] at hsegments

/-- A slash at the end makes a path absolute if nothing is in front of it. -/
private theorem isAbsolute_slash (t : String) :
    (Path.mk (t ++ "/")).isAbsolute = (t == "" || (Path.mk t).isAbsolute) := by
  have habsolute := isAbsolute_append_slash t ""
  rwa [String.append_empty] at habsolute

/-- `join` with an absolute path is that path. -/
theorem join_of_isAbsolute (p : Path) {q : String} (hq : (Path.mk q).isAbsolute = true) :
    p.join q = ⟨q⟩ := if_pos hq

/-- `join` puts a relative path after nothing, after a slash that is there, or after a slash that it
puts there. -/
private theorem join_cases (p : Path) {q : String} (hq : (Path.mk q).isAbsolute = false) :
    (p = ⟨""⟩ ∧ p.join q = ⟨q⟩) ∨ (∃ t, p = ⟨t ++ "/"⟩ ∧ p.join q = ⟨t ++ "/" ++ q⟩) ∨
      (p.text ≠ "" ∧ p.text.endsWith "/" = false ∧ p.join q = ⟨p.text ++ "/" ++ q⟩) := by
  obtain ⟨s⟩ := p
  have hrelative : ¬q.startsWith "/" = true := ne_true_of_eq_false hq
  rw [join, if_neg hrelative]
  -- The two tests of `join`, in the order in which it makes them.
  by_cases hempty : s = ""
  · subst hempty
    exact Or.inl ⟨rfl, by simp⟩
  · by_cases hend : s.endsWith "/" = true
    · obtain ⟨t, rfl⟩ := endsWith_slash_iff.mp hend
      exact Or.inr (Or.inl ⟨t, rfl, if_pos (by simp [hend])⟩)
    · exact Or.inr (Or.inr ⟨hempty, Bool.eq_false_iff.mpr hend, if_neg (by simp [hempty, hend])⟩)

/-- The `segments` of a joined path are the `lead` of the first and the `segments` of the second. -/
theorem segments_join (p : Path) {q : String} (hq : (Path.mk q).isAbsolute = false) :
    (p.join q).segments = p.lead ++ (Path.mk q).segments := by
  -- Only in the second case a part is left out, the empty one after the slash that is there.
  rcases join_cases p hq with ⟨rfl, hjoin⟩ | ⟨t, rfl, hjoin⟩ | ⟨hne, hend, hjoin⟩
  · rw [hjoin]
    rfl
  · have hne : t ++ "/" ≠ "" := by simp
    have hend : (t ++ "/").endsWith "/" = true := endsWith_slash_iff.mpr ⟨t, rfl⟩
    rw [hjoin, lead, if_neg hne, if_pos hend, segments_append_slash, segments_slash,
      List.dropLast_concat]
  · rw [hjoin, lead, if_neg hne, if_neg (by simp [hend]), segments_append_slash]

/-- `join` with a relative path goes on from where the other one starts. -/
theorem isAbsolute_join (p : Path) {q : String} (hq : (Path.mk q).isAbsolute = false) :
    (p.join q).isAbsolute = p.isAbsolute := by
  rcases join_cases p hq with ⟨rfl, hjoin⟩ | ⟨t, rfl, hjoin⟩ | ⟨hne, -, hjoin⟩
  · rw [hjoin, hq]
    rfl
  · rw [hjoin, isAbsolute_append_slash, isAbsolute_slash]
  · rw [hjoin, isAbsolute_append_slash, beq_false_of_ne hne, Bool.false_or]

/-- What `lead` leaves out in front of a joined path counts for nothing. -/
theorem counted_lead (p : Path) : counted p.lead = counted p.segments := by
  obtain ⟨s⟩ := p
  have hvoid : counted [""] = [] := by decide
  rw [lead]
  by_cases hempty : s = ""
  · subst hempty
    rw [if_pos rfl]
    exact hvoid.symm
  · rw [if_neg hempty]
    -- What `lead` drops is the empty part after a slash at the end.
    by_cases hend : s.endsWith "/" = true
    · obtain ⟨t, rfl⟩ := endsWith_slash_iff.mp hend
      rw [if_pos hend, segments_slash, List.dropLast_concat, counted_append, hvoid, List.append_nil]
    · rw [if_neg hend]

/-! ## Spellings -/

/-- The two paths are spellings of one: they start at the same place, and they have the same parts
that count up to the last part, which is the same whether it counts or not. -/
structure Respelled (p q : Path) : Prop where
  absolute : p.isAbsolute = q.isAbsolute
  parts : ∃ front front' last, p.segments = front ++ [last] ∧ q.segments = front' ++ [last] ∧
    counted front = counted front'

/-- Two spellings of a path have the same parts that count. -/
private theorem Respelled.counted_segments (h : Respelled p q) :
    counted p.segments = counted q.segments := by
  obtain ⟨front, front', last, hp, hq, hfront⟩ := h.parts
  rw [hp, hq, counted_append, counted_append, hfront]

/-- Paths are spellings of one if their `segments` are the same from some part on, and before that
differ in what counts for nothing. -/
private theorem respelled_of_segments {lead lead' rest : List String} (hne : rest ≠ [])
    (habsolute : p.isAbsolute = q.isAbsolute) (hp : p.segments = lead ++ rest)
    (hq : q.segments = lead' ++ rest) (hlead : counted lead = counted lead') :
    Respelled p q := by
  obtain ⟨front, last, rfl⟩ : ∃ front last, rest = front ++ [last] := by
    rcases List.eq_nil_or_concat rest with hnil | ⟨front, last, hrest⟩
    · exact absurd hnil hne
    · exact ⟨front, last, hrest.trans List.concat_eq_append⟩
  refine ⟨habsolute, lead ++ front, lead' ++ front, last, ?_, ?_, ?_⟩
  · rw [hp, List.append_assoc]
  · rw [hq, List.append_assoc]
  · rw [counted_append, counted_append, hlead]

/-- `join` with the same relative path makes two spellings of one path again. -/
theorem Respelled.join (h : Respelled p q) {r : String} (hr : (Path.mk r).isAbsolute = false) :
    Respelled (p.join r) (q.join r) := by
  apply respelled_of_segments (segments_ne_nil ⟨r⟩)
  · rw [isAbsolute_join p hr, isAbsolute_join q hr, h.absolute]
  · exact segments_join p hr
  · exact segments_join q hr
  · rw [counted_lead, counted_lead, h.counted_segments]

/-! ## A text after a path -/

/-- What is put after a text without a slash goes on the last part that `splitSlashes` gives. -/
private theorem exists_splitSlashes_append {tail : List Char} (htail : '/' ∉ tail)
    (cs : List Char) :
    ∃ front last, splitSlashes cs = front ++ [last] ∧
      splitSlashes (cs ++ tail) = front ++ [last ++ tail] := by
  -- The last part is the first one only where nothing is in front of it.
  induction cs with
  | nil => exact ⟨[], [], rfl, splitSlashes_of_not_mem htail⟩
  | cons c cs ih =>
    obtain ⟨front, last, hcs, happend⟩ := ih
    rw [List.cons_append, splitSlashes, splitSlashes, hcs, happend]
    by_cases hc : c = '/'
    · exact ⟨[] :: front, last, if_pos hc, if_pos hc⟩
    · rw [if_neg hc, if_neg hc]
      cases front with
      | nil => exact ⟨[], c :: last, rfl, rfl⟩
      | cons first front => exact ⟨(c :: first) :: front, last, rfl, rfl⟩

/-- A text without slashes goes on the last of the `segments`. -/
private theorem exists_segments_append {tail : String} (htail : '/' ∉ tail.toList) (s : String) :
    ∃ front last, (Path.mk s).segments = front ++ [last] ∧
      (Path.mk (s ++ tail)).segments = front ++ [last ++ tail] := by
  obtain ⟨front, last, hs, happend⟩ := exists_splitSlashes_append htail s.toList
  refine ⟨front.map String.ofList, String.ofList last, ?_, ?_⟩
  · rw [segments, hs, List.map_append]
    rfl
  · rw [segments, String.toList_append, happend, List.map_append, List.map_singleton,
      String.ofList_append, String.ofList_toList]

/-- A text without slashes at the end does not make a path absolute. -/
private theorem isAbsolute_append {tail : String} (htail : '/' ∉ tail.toList) (s : String) :
    (Path.mk (s ++ tail)).isAbsolute = (Path.mk s).isAbsolute := by
  have hslash : "/".toList = ['/'] := rfl
  rw [Bool.eq_iff_iff, isAbsolute, isAbsolute, String.startsWith_string_iff,
    String.startsWith_string_iff, String.toList_append, hslash]
  cases s.toList with
  | nil =>
    refine iff_of_false ?_ (by simp)
    rintro ⟨rest, hrest⟩
    have hmem : '/' ∈ [] ++ tail.toList := hrest ▸ List.mem_cons_self
    exact htail hmem
  | cons c cs => simp

/-- The same text after two spellings of a path makes two spellings again. -/
theorem Respelled.append (h : Respelled p q) {tail : String} (htail : '/' ∉ tail.toList) :
    Respelled ⟨p.text ++ tail⟩ ⟨q.text ++ tail⟩ := by
  obtain ⟨front, front', last, hp, hq, hfront⟩ := h.parts
  obtain ⟨before, end₁, hbefore, happend⟩ := exists_segments_append htail p.text
  obtain ⟨before', end₂, hbefore', happend'⟩ := exists_segments_append htail q.text
  -- A path has one last part, so what is before it is what the spelling has before it.
  obtain ⟨rfl, hlast⟩ := List.append_inj' (hp.symm.trans hbefore) rfl
  obtain ⟨rfl, hlast'⟩ := List.append_inj' (hq.symm.trans hbefore') rfl
  obtain rfl : last = end₁ := List.singleton_inj.mp hlast
  obtain rfl : last = end₂ := List.singleton_inj.mp hlast'
  refine ⟨?_, front, front', last ++ tail, happend, happend', hfront⟩
  rw [isAbsolute_append htail, isAbsolute_append htail]
  exact h.absolute

/-! ## Another extension -/

/-- `fileName?` gives the last part that counts, if it does not go up. -/
private theorem fileName?_eq_some_iff :
    p.fileName? = some name ↔ (counted p.segments).getLast? = some name ∧ name ≠ ".." := by
  rw [counted_eq_map_text, List.getLast?_map, fileName?, components, List.getLast?_append]
  -- The last component comes from the last part with one, and else from where the path starts.
  cases hlast : (p.segments.filterMap component?).getLast? with
  | none =>
    by_cases habsolute : p.isAbsolute = true
    · simp [habsolute]
    · by_cases hpoint : (p.segments.head? == some ".") = true <;> simp [habsolute, hpoint]
  | some c =>
    obtain ⟨part, -, hpart⟩ := List.mem_filterMap.mp (List.mem_of_getLast? hlast)
    obtain ⟨htext, hroot, hcurrent⟩ := component?_eq_some hpart
    cases c with
    | root => exact absurd rfl hroot
    | current => exact absurd rfl hcurrent
    | parent =>
      refine iff_of_false (by simp) ?_
      rintro ⟨hup, hne⟩
      exact hne (Option.some.inj hup).symm
    | name t =>
      have hup : t ≠ ".." := by
        rintro rfl
        rw [← htext] at hpart
        exact absurd hpart (by decide)
      simp only [Option.some_or, Option.map_some, Option.some.injEq, Component.text]
      exact ⟨fun h => ⟨h, h ▸ hup⟩, fun h => h.1⟩

/-- `trimEnd` drops the parts in front that count for nothing, up to the first that counts. -/
private theorem trimEnd_append {voids rest : List String} (hvoids : ∀ v ∈ voids, isVoid v = true)
    (hpart : isVoid part = false) :
    trimEnd (voids ++ part :: rest) = part :: rest := by
  -- A single part is never dropped, so what comes after is looked at first.
  induction voids with
  | nil =>
    cases rest with
    | nil => rfl
    | cons next rest => rw [List.nil_append, trimEnd, if_neg (by simp [hpart])]
  | cons v voids ih =>
    obtain ⟨hv, hrest⟩ := List.forall_mem_cons.mp hvoids
    have hne : voids ++ part :: rest ≠ [] := by simp
    obtain ⟨next, more, hmore⟩ := List.exists_cons_of_ne_nil hne
    rw [List.cons_append, hmore, trimEnd, if_pos hv, ← hmore, ih hrest]

/-- The name that `fileName?` gives is followed by parts that count for nothing. -/
private theorem exists_segments_of_fileName? (h : p.fileName? = some name) :
    ∃ before voids, p.segments = before ++ name :: voids ∧ (∀ v ∈ voids, isVoid v = true) ∧
      isVoid name = false ∧
      p.backwards = name :: before.reverse := by
  obtain ⟨hlast, -⟩ := fileName?_eq_some_iff.mp h
  -- Read from the back, the name is the first part that counts.
  rw [counted, List.getLast?_eq_head?_reverse, ← List.filter_reverse, List.head?_filter,
    List.find?_eq_some_iff_append] at hlast
  obtain ⟨hname, voids, before, hreverse, hvoids⟩ := hlast
  have hcounts : isVoid name = false := by simpa using hname
  have hvoids : ∀ v ∈ voids, isVoid v = true := by simpa using hvoids
  refine ⟨before.reverse, voids.reverse, ?_, ?_, hcounts, ?_⟩
  · have hsegments := congrArg List.reverse hreverse
    simpa using hsegments
  · simpa using hvoids
  · rw [backwards, hreverse, trimEnd_append hvoids hcounts, List.reverse_reverse]

/-- What `splitName` finds before the last point of a name is part of the name. -/
private theorem mem_splitName {c : Char} (h : c ∈ (splitName name).1.toList) : c ∈ name.toList := by
  unfold splitName at h
  simp only at h
  split at h
  · rename_i a cs hdrop
    rw [String.toList_ofList, List.mem_reverse] at h
    have hsuffix : '.' :: a :: cs <:+ name.toList.reverse := hdrop ▸ List.drop_suffix _ _
    exact List.mem_reverse.mp (hsuffix.subset (List.mem_cons_of_mem _ h))
  · exact h

/-- `withExtension` replaces the name that a path ends in, and drops what is after it. -/
private theorem exists_segments_withExtension (h : p.fileName? = some name) {extension : String}
    (hextension : '/' ∉ extension.toList) :
    ∃ before, counted p.segments = counted before ++ [name] ∧
      (p.withExtension extension).segments = before ++ [(splitName name).1 ++ "." ++ extension] ∧
      (p.withExtension extension).isAbsolute = p.isAbsolute := by
  obtain ⟨before, voids, hsegments, hvoids, hcounts, hback⟩ := exists_segments_of_fileName? h
  have hname : '/' ∉ name.toList :=
    slash_not_mem_segments (hsegments ▸ List.mem_append_right _ List.mem_cons_self)
  have hnew : '/' ∉ ((splitName name).1 ++ "." ++ extension).toList := by
    simp only [String.toList_append, List.mem_append, not_or]
    exact ⟨⟨fun hmem => hname (mem_splitName hmem), by decide⟩, hextension⟩
  have hparts : ∀ part ∈ before ++ [(splitName name).1 ++ "." ++ extension], '/' ∉ part.toList := by
    intro part hpart
    rcases List.mem_append.mp hpart with hmem | hlast
    · exact slash_not_mem_segments (hsegments ▸ List.mem_append_left _ hmem)
    · rwa [List.mem_singleton.mp hlast]
  have hwith : p.withExtension extension =
      ofSegments (before ++ [(splitName name).1 ++ "." ++ extension]) := by
    rw [withExtension, h, hback]
    simp
  have hsegments' : (p.withExtension extension).segments =
      before ++ [(splitName name).1 ++ "." ++ extension] := by
    rw [hwith, segments_ofSegments (by simp) hparts]
  refine ⟨before, ?_, hsegments', ?_⟩
  · rw [hsegments, counted_append, counted_cons hcounts, counted_of_forall_isVoid hvoids]
  · -- Nothing in front of the first slash is something that is in front of the name.
    rw [Bool.eq_iff_iff, isAbsolute_iff_segments, isAbsolute_iff_segments, hsegments, hsegments']
    cases before with
    | nil =>
      have hne : name ≠ "" := by
        rintro rfl
        exact absurd hcounts (by decide)
      simp [hne]
    | cons first before => simp

/-- `withExtension` makes two spellings of a path two spellings again. -/
theorem Respelled.withExtension (h : Respelled p q) (hname : p.fileName? = some name)
    {extension : String} (hextension : '/' ∉ extension.toList) :
    Respelled (p.withExtension extension) (q.withExtension extension) := by
  -- The other spelling ends in the same name.
  have hname' : q.fileName? = some name := by
    rw [fileName?_eq_some_iff, ← h.counted_segments]
    exact fileName?_eq_some_iff.mp hname
  obtain ⟨before, hcounted, hsegments, habsolute⟩ := exists_segments_withExtension hname hextension
  obtain ⟨before', hcounted', hsegments', habsolute'⟩ :=
    exists_segments_withExtension hname' hextension
  have hsame : counted before ++ [name] = counted before' ++ [name] := by
    rw [← hcounted, ← hcounted', h.counted_segments]
  refine ⟨?_, before, before', _, hsegments, hsegments', List.append_cancel_right hsame⟩
  rw [habsolute, habsolute', h.absolute]

/-- `fileName?` is the same for two spellings of a path. -/
theorem Respelled.fileName? (h : Respelled p q) : p.fileName? = q.fileName? := by
  apply Option.ext
  intro name
  rw [fileName?_eq_some_iff, fileName?_eq_some_iff, h.counted_segments]

/-- `extension?` is the same for two spellings of a path. -/
theorem Respelled.extension? (h : Respelled p q) : p.extension? = q.extension? := by
  rw [Path.extension?, Path.extension?, h.fileName?]

/-! ## A point in front -/

/-- A point and a slash in front add a point to the `segments`. -/
private theorem segments_point_slash (rest : String) :
    (Path.mk ("./" ++ rest)).segments = "." :: (Path.mk rest).segments := by
  have hsegments := segments_append_slash "." rest
  exact hsegments

/-- A path with a point and a slash in front is relative. -/
private theorem isAbsolute_point_slash (rest : String) :
    (Path.mk ("./" ++ rest)).isAbsolute = false := by
  have hpoint : ("." == "" || (Path.mk ".").isAbsolute) = false := by decide +kernel
  have habsolute := isAbsolute_append_slash "." rest
  exact habsolute.trans hpoint

/-- A relative path can also be joined with a point in front of it, from any path that is `same`. -/
theorem respelled_join (hsame : p.same q = true) {rest : String}
    (hrest : (Path.mk rest).isAbsolute = false) :
    Respelled (q.join rest) (p.join ("./" ++ rest)) := by
  obtain ⟨habsolute, hcounted⟩ := counted_segments_of_same hsame
  have hpoint := isAbsolute_point_slash rest
  apply respelled_of_segments (segments_ne_nil ⟨rest⟩)
  · rw [isAbsolute_join q hrest, isAbsolute_join p hpoint, habsolute]
  · exact segments_join q hrest
  · rw [segments_join p hpoint, segments_point_slash, List.append_cons]
  · have hvoid : counted ["."] = [] := by decide
    rw [counted_append, hvoid, List.append_nil, counted_lead, counted_lead, hcounted]

/-- An absolute path goes on from the root with a point in front of it. -/
theorem respelled_join_root (hsame : p.same ⟨"/"⟩ = true) {rest : String}
    (hrest : (Path.mk rest).isAbsolute = true) :
    Respelled ⟨rest⟩ (p.join ("./" ++ rest)) := by
  obtain ⟨habsolute, hcounted⟩ := counted_segments_of_same hsame
  have hpoint := isAbsolute_point_slash rest
  apply respelled_of_segments (segments_ne_nil ⟨rest⟩)
  · have hroot : (Path.mk "/").isAbsolute = true := by decide +kernel
    rw [hrest, isAbsolute_join p hpoint, habsolute, hroot]
  · exact (List.nil_append _).symm
  · rw [segments_join p hpoint, segments_point_slash, List.append_cons]
  · have hvoid : counted ["."] = [] := by decide
    have hroot : counted (Path.mk "/").segments = [] := by decide
    rw [counted_append, hvoid, List.append_nil, counted_lead, hcounted, hroot]
    rfl

end RouteAtlas.Path
