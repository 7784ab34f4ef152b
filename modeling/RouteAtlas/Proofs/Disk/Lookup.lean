import RouteAtlas.Disk
import RouteAtlas.Proofs.Path.Spelling

/-!
# Looking up spellings of a path

Parts of a path that count for nothing are passed over, as long as something comes after them: both
the part and what comes after it need a directory to start from. So two spellings of a path lead to
the same place, unless one of them is too long to be looked up. A part that counts for nothing at
the end of a path still asks for a directory, and such a path leads to no file.

## Key results

- `follow_counted`: only parts that count lead on
- `isFile_of_isVoid_last`: a path that ends in a part that counts for nothing leads to no file
- `isFile_respelled`: spellings of a path lead to the same file
-/

namespace RouteAtlas.Disk

open RouteAtlas.Path

variable {d : Disk} {onLink : Trail → List String → Except ReadFault Trail} {trail found : Trail}
  {rest rest' : List String} {part : String} {p q : Path}

/-! ## One part -/

/-- `followWith` after one part: how it goes on is all that the parts after it decide. -/
private theorem followWith_cons_congr
    (hrest : ∀ t, d.followWith onLink t rest = d.followWith onLink t rest')
    (hlink : ∀ t parts, onLink t (parts ++ rest) = onLink t (parts ++ rest')) :
    d.followWith onLink trail (part :: rest) = d.followWith onLink trail (part :: rest') := by
  simp only [followWith, hrest, hlink]

/-- `followWith` passes over a part that counts for nothing if something comes after it. -/
private theorem followWith_cons_of_isVoid (hpart : isVoid part = true) (hne : rest ≠ []) :
    d.followWith onLink trail (part :: rest) = d.followWith onLink trail rest := by
  obtain ⟨next, more, rfl⟩ := List.exists_cons_of_ne_nil hne
  rw [followWith]
  -- Where there is no directory, both lookups fail in the same way.
  cases hentry : d.entryAt trail with
  | directory members => simp only [hpart, if_true]
  | file text? => simp only [followWith, hentry]
  | link target => simp only [followWith, hentry]

/-! ## All parts -/

/-- `followWith` needs only the parts that count before the last part, if going on at a link
does. -/
private theorem followWith_counted (hne : rest ≠ [])
    (hlink : ∀ t parts, onLink t (parts ++ rest) = onLink t (counted parts ++ rest))
    (parts : List String) (trail : Trail) :
    d.followWith onLink trail (parts ++ rest) =
      d.followWith onLink trail (counted parts ++ rest) := by
  induction parts generalizing trail with
  | nil => rfl
  | cons part parts ih =>
    by_cases hvoid : isVoid part = true
    · -- Something comes after the part, if only the rest.
      have hafter : parts ++ rest ≠ [] := by simp [hne]
      rw [List.cons_append, followWith_cons_of_isVoid hvoid hafter, ih,
        counted_cons_of_isVoid hvoid]
    · rw [counted_cons (Bool.eq_false_iff.mpr hvoid), List.cons_append, List.cons_append]
      apply followWith_cons_congr ih
      intro t target
      -- The parts of the link come before those that are still to go.
      have hleft := hlink t (target ++ parts)
      have hright := hlink t (target ++ counted parts)
      rw [counted_append, List.append_assoc] at hleft hright
      rw [hleft, hright, counted_counted]

/-- `follow` needs only the parts that count, before the last part. -/
theorem follow_counted (hne : rest ≠ []) (links : Nat) (trail : Trail) (parts : List String) :
    d.follow links trail (parts ++ rest) = d.follow links trail (counted parts ++ rest) := by
  -- The links that may still be passed are the only thing that changes at a link.
  induction links generalizing trail parts with
  | zero => exact followWith_counted hne (fun _ _ => rfl) parts trail
  | succ links ih => exact followWith_counted hne ih parts trail

/-! ## A directory at the end -/

/-- `followWith` goes well after one part: there is a directory to start from, and it goes on by the
parts after it, from the same place if the part counts for nothing, or at a link. -/
private theorem followWith_cons_eq_ok (h : d.followWith onLink trail (part :: rest) = .ok found) :
    (∃ members, d.entryAt trail = .directory members) ∧
      ((∃ t, d.followWith onLink t rest = .ok found ∧ (isVoid part = true → t = trail)) ∨
        (∃ t target, onLink t (target ++ rest) = .ok found ∧ isVoid part = false)) := by
  rw [followWith] at h
  cases hentry : d.entryAt trail with
  | file text? => simp [hentry] at h
  | link target => simp [hentry] at h
  | directory members =>
    refine ⟨⟨members, rfl⟩, ?_⟩
    simp only [hentry] at h
    by_cases hvoid : isVoid part = true
    · rw [if_pos hvoid] at h
      exact Or.inl ⟨trail, h, fun _ => rfl⟩
    · rw [if_neg hvoid] at h
      -- Past this point the part counts, so nothing is claimed of the place.
      have hother : ∀ t, isVoid part = true → t = trail := fun _ hpart => absurd hpart hvoid
      by_cases hup : part = ".."
      · rw [if_pos hup] at h
        exact Or.inl ⟨_, h, hother _⟩
      · rw [if_neg hup] at h
        by_cases hlong : maxNameBytes < part.utf8ByteSize
        · simp [hlong] at h
        · rw [if_neg hlong] at h
          cases hmember : Entry.memberIn? part members with
          | none => simp [hmember] at h
          | some e =>
            cases e with
            | file text? =>
              simp only [hmember] at h
              exact Or.inl ⟨_, h, hother _⟩
            | directory below =>
              simp only [hmember] at h
              exact Or.inl ⟨_, h, hother _⟩
            | link target =>
              simp only [hmember] at h
              by_cases hempty : target = ""
              · simp [hempty] at h
              · rw [if_neg hempty] at h
                exact Or.inr ⟨_, _, h, Bool.eq_false_iff.mpr hvoid⟩

/-- `followWith` ends at a directory if the last part counts for nothing and going on at a link
does. -/
private theorem followWith_isVoid_last (hpart : isVoid part = true)
    (hlink : ∀ t parts, onLink t (parts ++ [part]) = .ok found →
      ∃ members, d.entryAt found = .directory members)
    {parts : List String} (h : d.followWith onLink trail (parts ++ [part]) = .ok found) :
    ∃ members, d.entryAt found = .directory members := by
  induction parts generalizing trail with
  | nil =>
    -- Where only the last part is left, the entry that it stands at has to be a directory.
    obtain ⟨hdirectory, ⟨t, hfound, hsame⟩ | ⟨_, _, _, hcounts⟩⟩ := followWith_cons_eq_ok h
    · rw [hsame hpart, followWith, Except.ok.injEq] at hfound
      exact hfound ▸ hdirectory
    · rw [hpart] at hcounts
      exact absurd hcounts (by simp)
  | cons first parts ih =>
    obtain ⟨-, ⟨t, hfound, -⟩ | ⟨t, target, hfound, -⟩⟩ := followWith_cons_eq_ok h
    · exact ih hfound
    · -- The last part stays the last behind the target of a link.
      have hlinked : onLink t ((target ++ parts) ++ [part]) = .ok found := by
        rw [List.append_assoc]
        exact hfound
      exact hlink t _ hlinked

/-- `follow` ends at a directory if the last part counts for nothing. -/
private theorem follow_isVoid_last (hpart : isVoid part = true) {links : Nat} {parts : List String}
    (h : d.follow links trail (parts ++ [part]) = .ok found) :
    ∃ members, d.entryAt found = .directory members := by
  induction links generalizing trail parts with
  | zero => exact followWith_isVoid_last hpart (fun _ _ hfail => absurd hfail (by simp)) h
  | succ links ih => exact followWith_isVoid_last hpart (fun _ _ => ih) h

/-! ## Paths -/

/-- The `segments` by which a path is looked up go on from the current directory if it is not
absolute. -/
theorem segments_lookup (d : Disk) (p : Path) :
    (d.current.join p.text).segments = (if p.isAbsolute then [] else d.current.lead) ++
      p.segments := by
  by_cases habsolute : p.isAbsolute = true
  · rw [if_pos habsolute, join_of_isAbsolute _ habsolute, List.nil_append]
  · rw [if_neg habsolute]
    exact segments_join d.current (Bool.eq_false_iff.mpr habsolute)

/-- `find` follows the parts of the path from the root. -/
theorem find_eq_ok {trail : Trail} (h : d.find p = .ok trail) :
    d.follow maxLinks [] (d.current.join p.text).segments = .ok trail := by
  rw [find] at h
  by_cases hempty : p.text = ""
  · simp [hempty] at h
  · by_cases hlong : maxPathBytes < p.text.utf8ByteSize
    · simp [hempty, hlong] at h
    · rwa [if_neg hempty, if_neg hlong] at h

/-- `isFile` is false for a path that ends in a part that counts for nothing. -/
theorem isFile_of_isVoid_last {front : List String} (hp : p.segments = front ++ [part])
    (hpart : isVoid part = true) :
    d.isFile p = false := by
  rw [isFile, get?]
  cases hfind : d.find p with
  | error fault => rfl
  | ok trail =>
    have hfollow := find_eq_ok hfind
    rw [segments_lookup, hp, ← List.append_assoc] at hfollow
    obtain ⟨members, hmembers⟩ := follow_isVoid_last hpart hfollow
    simp [hmembers]

/-- A path whose last part counts is not the empty one. -/
theorem text_ne_empty {front : List String} (hp : p.segments = front ++ [part])
    (hpart : isVoid part = false) :
    p.text ≠ "" := by
  intro hempty
  have hsegments : p.segments = [] ++ [""] := by
    rw [segments, hempty]
    rfl
  obtain ⟨-, hlast⟩ := List.append_inj' (hp.symm.trans hsegments) rfl
  rw [List.singleton_inj.mp hlast] at hpart
  exact absurd hpart (by decide)

/-- The path is too long to be looked up. -/
def IsTooLong (p : Path) : Prop := maxPathBytes < p.text.utf8ByteSize

instance (p : Path) : Decidable (IsTooLong p) :=
    inferInstanceAs (Decidable (maxPathBytes < p.text.utf8ByteSize))

/-- `find` leads to the same place for spellings of a path that end in a part that counts. -/
private theorem find_respelled {front front' : List String} (hp : p.segments = front ++ [part])
    (hq : q.segments = front' ++ [part]) (hpart : isVoid part = false)
    (hcounted : counted front = counted front') (habsolute : p.isAbsolute = q.isAbsolute)
    (hlong : IsTooLong p ↔ IsTooLong q) :
    d.find p = d.find q := by
  -- The last part is kept apart, since it asks for a directory only if it counts for nothing.
  have hparts : ∀ front : List String, d.follow maxLinks [] (front ++ [part]) =
      d.follow maxLinks [] (counted front ++ [part]) :=
        follow_counted (List.cons_ne_nil _ _) maxLinks []
  have hfollow : d.follow maxLinks [] (d.current.join p.text).segments =
      d.follow maxLinks [] (d.current.join q.text).segments := by
    rw [segments_lookup, segments_lookup, habsolute, hp, hq, ← List.append_assoc,
      ← List.append_assoc, hparts, hparts (_ ++ front'), counted_append, counted_append, hcounted]
  unfold IsTooLong at hlong
  rw [find, find, if_neg (text_ne_empty hp hpart), if_neg (text_ne_empty hq hpart), hfollow]
  simp only [hlong]

/-- `isFile` and `canonical?` are the same for spellings of a path, unless one of them only is too
long to be looked up. -/
theorem isFile_respelled (h : Respelled p q) (hlong : IsTooLong p ↔ IsTooLong q) :
    d.isFile p = d.isFile q ∧ (d.isFile p = true → d.canonical? p = d.canonical? q) := by
  obtain ⟨front, front', last, hp, hq, hcounted⟩ := h.parts
  -- With such a part at the end, neither spelling leads to a file; else both lead to one place.
  by_cases hvoid : isVoid last = true
  · have hfile : d.isFile p = false := isFile_of_isVoid_last hp hvoid
    have hfile' : d.isFile q = false := isFile_of_isVoid_last hq hvoid
    rw [hfile, hfile']
    exact ⟨rfl, fun hfalse => absurd hfalse (by simp)⟩
  · have hfind : d.find p = d.find q :=
      find_respelled hp hq (Bool.eq_false_iff.mpr hvoid) hcounted h.absolute hlong
    rw [isFile, isFile, get?, get?, canonical?, canonical?, hfind]
    exact ⟨rfl, fun _ => rfl⟩

end RouteAtlas.Disk
