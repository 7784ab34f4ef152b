import RouteAtlas.Proofs.Disk.Lookup
import RouteAtlas.Proofs.Disk.Tree

/-!
# Reading what is below a directory

A tree can be gone through in two ways: from entry to member, as `Entry.below?` does it, and by
looking up the path of every file, as `Disk.read` does it. No link is passed on the way from a
directory down to a file, so both come to the same file; but a path can be too long to be looked up.

## Key results

- `follow_append`: what comes after a place that has been found
- `followWith_below`: names that lead down a tree are followed down the tree
- `read_join_eq_ok_iff`: which files below a directory can be read, and what is read then
-/

namespace RouteAtlas.Disk

open RouteAtlas.Path

variable {d : Disk} {onLink : Trail → List String → Except ReadFault Trail} {trail found : Trail}
  {parts rest names : List String} {root : Path} {e : Entry} {result : Except ReadFault Trail}

/-! ## One lookup after the other -/

/-- `followWith` goes on from the place that it has found, if what comes after does not depend on
how links are passed. -/
private theorem followWith_append (hrest : ∀ onLink, d.followWith onLink found rest = result)
    (hlink : ∀ t parts, onLink t parts = .ok found → onLink t (parts ++ rest) = result)
    (h : d.followWith onLink trail parts = .ok found) :
    d.followWith onLink trail (parts ++ rest) = result := by
  -- The cases are those of the lookup itself; in each the parts before are the same on both sides.
  induction parts generalizing trail with
  | nil =>
    obtain rfl : trail = found := Except.ok.inj h
    exact hrest onLink
  | cons part parts ih =>
    rw [List.cons_append]
    rw [followWith] at h ⊢
    cases hentry : d.entryAt trail with
    | file text? => simp [hentry] at h
    | link target => simp [hentry] at h
    | directory members =>
      simp only [hentry] at h ⊢
      by_cases hvoid : isVoid part = true
      · rw [if_pos hvoid] at h ⊢
        exact ih h
      rw [if_neg hvoid] at h ⊢
      by_cases hup : part = ".."
      · rw [if_pos hup] at h ⊢
        exact ih h
      rw [if_neg hup] at h ⊢
      by_cases hlong : maxNameBytes < part.utf8ByteSize
      · simp [hlong] at h
      rw [if_neg hlong] at h ⊢
      cases hmember : Entry.memberIn? part members with
      | none => simp [hmember] at h
      | some m =>
        cases m with
        | file text? =>
          simp only [hmember] at h ⊢
          exact ih h
        | directory below =>
          simp only [hmember] at h ⊢
          exact ih h
        | link target =>
          simp only [hmember] at h ⊢
          by_cases hempty : target = ""
          · simp [hempty] at h
          · -- The parts of the link come first, and what is still to go stays at the end.
            rw [if_neg hempty] at h ⊢
            rw [← List.append_assoc]
            exact hlink _ _ h

/-- `follow` goes on from the place that it has found, if what comes after does not depend on how
links are passed. -/
theorem follow_append {links : Nat} (hrest : ∀ onLink, d.followWith onLink found rest = result)
    (h : d.follow links trail parts = .ok found) :
    d.follow links trail (parts ++ rest) = result := by
  induction links generalizing trail parts with
  | zero => exact followWith_append hrest (fun _ _ hfail => nomatch hfail) h
  | succ links ih => exact followWith_append hrest (fun _ _ => ih) h

/-! ## Down a tree -/

/-- All of the names are short enough to be looked up. -/
def ShortNames (names : List String) : Prop := ∀ n ∈ names, n.utf8ByteSize ≤ maxNameBytes

instance (names : List String) : Decidable (ShortNames names) :=
  inferInstanceAs (Decidable (∀ n ∈ names, n.utf8ByteSize ≤ maxNameBytes))

/-- `followWith` goes along names that lead down a tree to something that is no link, unless one of
them is too long. -/
theorem followWith_below (hnames : ∀ n ∈ names, IsName n)
    (hbelow : (d.entryAt trail).below? names = some e) (hlink : ∀ target, e ≠ .link target) :
    ∃ found, d.entryAt found = e ∧ ∀ onLink, d.followWith onLink trail names =
      if ShortNames names then .ok found else .error .tooLong := by
  induction names generalizing trail with
  | nil => exact ⟨trail, Option.some.inj hbelow, fun _ => rfl⟩
  | cons name rest ih =>
    obtain ⟨hname, hrest⟩ := List.forall_mem_cons.mp hnames
    obtain ⟨m, hmember, hdeeper⟩ := Option.bind_eq_some_iff.mp hbelow
    have hnext : d.entryAt ((name, m) :: trail) = m := rfl
    obtain ⟨found, hentry, hfollow⟩ := ih hrest (hnext ▸ hdeeper)
    refine ⟨found, hentry, fun onLink => ?_⟩
    -- Nothing is below a link, so a member on the way is none, and the last one is none either.
    have hnotLink : ∀ target, m ≠ .link target := by
      rintro target rfl
      cases rest with
      | nil => exact hlink target (Option.some.inj hdeeper).symm
      | cons next more => exact nomatch hdeeper
    have hshort : ShortNames (name :: rest) ↔ name.utf8ByteSize ≤ maxNameBytes ∧ ShortNames rest :=
      List.forall_mem_cons
    -- Only a directory has members.
    cases htop : d.entryAt trail with
    | file text? =>
      rw [htop] at hmember
      exact nomatch hmember
    | link target =>
      rw [htop] at hmember
      exact nomatch hmember
    | directory members =>
      rw [htop, Entry.members] at hmember
      rw [followWith, htop]
      simp only [hname.counts, hname.notUp, if_false, Bool.false_eq_true, hshort]
      by_cases hlong : maxNameBytes < name.utf8ByteSize
      · rw [if_pos hlong, if_neg fun h => Nat.not_lt.mpr h.1 hlong]
      · rw [if_neg hlong, hmember]
        simp only [Nat.not_lt.mp hlong, true_and, ← hfollow onLink]

/-! ## Reading -/

/-- `follow` along the parts of a path that goes on by names from another one leads on from the
other one. -/
private theorem follow_segments_join (hne : names ≠ []) (hnames : ∀ n ∈ names, IsName n)
    (links : Nat) :
    d.follow links [] (d.current.join (root.join ("/".intercalate names)).text).segments =
      d.follow links [] ((d.current.join root.text).segments ++ names) := by
  have hrelative : (Path.mk ("/".intercalate names)).isAbsolute = false :=
    isAbsolute_intercalate hne hnames
  -- What the two paths have in parts that count for nothing differs, and that does not matter here.
  rw [segments_lookup, segments_lookup, isAbsolute_join root hrelative,
    segments_join root hrelative, segments_intercalate hne hnames, ← List.append_assoc,
    follow_counted hne, follow_counted hne links [] (_ ++ root.segments), counted_append,
    counted_append, counted_lead]

/-- `join` with names gives no empty path. -/
private theorem text_join_ne_empty (hne : names ≠ []) (hnames : ∀ n ∈ names, IsName n) :
    (root.join ("/".intercalate names)).text ≠ "" := by
  -- The last part is a name, and the empty path has none.
  have hsegments : (root.join ("/".intercalate names)).segments =
      (root.lead ++ names.dropLast) ++ [names.getLast hne] := by
    rw [segments_join root (isAbsolute_intercalate hne hnames), segments_intercalate hne hnames,
      List.append_assoc, List.dropLast_append_getLast]
  exact text_ne_empty hsegments (hnames _ (List.getLast_mem hne)).counts

/-- `find` finds a file below a directory where the tree has it, unless its path or one of the names
along it is too long. -/
private theorem find_join {text? : Option String} (hroot : d.get? root = some e) (hne : names ≠ [])
    (hnames : ∀ n ∈ names, IsName n) (hbelow : e.below? names = some (.file text?)) :
    ∃ found, d.entryAt found = .file text? ∧ d.find (root.join ("/".intercalate names)) =
      if IsTooLong (root.join ("/".intercalate names)) then .error .tooLong
      else if ShortNames names then .ok found else .error .tooLong := by
  rw [get?] at hroot
  cases hfind : d.find root with
  | error fault => simp [hfind] at hroot
  | ok trail =>
    simp only [hfind, Option.some.injEq] at hroot
    have hnotLink : ∀ target, Entry.file text? ≠ .link target := fun target => Entry.noConfusion
    obtain ⟨found, hentry, hfollow⟩ := followWith_below hnames (hroot ▸ hbelow) hnotLink
    refine ⟨found, hentry, ?_⟩
    -- The lookup of the whole path goes on from the directory, and then down the tree.
    rw [find, if_neg (text_join_ne_empty hne hnames), follow_segments_join hne hnames,
      follow_append hfollow (find_eq_ok hfind)]
    rfl

/-- `read` gives the text that the tree has for a file below a directory, if the path and the names
along it are short enough, and otherwise none. -/
theorem read_join_eq_ok_iff {text : String} {text? : Option String} (hroot : d.get? root = some e)
    (hne : names ≠ []) (hnames : ∀ n ∈ names, IsName n)
    (hbelow : e.below? names = some (.file text?)) :
    d.read (root.join ("/".intercalate names)) = .ok text ↔
      text? = some text ∧ ShortNames names ∧ ¬IsTooLong (root.join ("/".intercalate names)) := by
  obtain ⟨found, hentry, hfind⟩ := find_join hroot hne hnames hbelow
  rw [read, hfind]
  by_cases hlong : IsTooLong (root.join ("/".intercalate names))
  · simp [hlong]
  by_cases hshort : ShortNames names
  · cases text? with
    | none => simp [hlong, hshort, hentry]
    | some t => simp [hlong, hshort, hentry]
  · simp [hlong, hshort]

end RouteAtlas.Disk
