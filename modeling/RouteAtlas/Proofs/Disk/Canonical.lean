import Mathlib.Data.List.Nodup
import RouteAtlas.Project.Survey
import RouteAtlas.Proofs.Path.Names

/-!
# Canonical paths

The canonical path of a place is read off the trail that leads to it, and the trail can be read off
the path again. So canonical paths that name the same place are equal, and there are no more
canonical paths of files than there are files on the disk.

## Key results

- `find_isTrail`: what is found on a disk is found along a trail
- `IsCanonical.same_iff`: two canonical paths name the same place only if they are equal
- `IsCanonical.canonical?_self`: the canonical path of a canonical path is that path
- `mem_filePaths`, `length_filePaths`: the canonical paths of the files of a disk, and their number
- `importedFiles_ofFile`: what a file imports is among them
-/

namespace RouteAtlas

/-! ## Trails -/

namespace Disk

variable {d : Disk}

/-- From the end of a trail, a name leads on to an entry: the directory there has it under the name,
and it is no link. -/
structure IsStep (d : Disk) (trail : Trail) (name : String) (e : Entry) : Prop where
  isName : Path.IsName name
  short : name.utf8ByteSize ≤ maxNameBytes
  held : ∃ members, d.entryAt trail = .directory members ∧ Entry.memberIn? name members = some e
  notLink : ∀ target, e ≠ .link target

/-- The trail leads along the disk, step after step. -/
def IsTrail (d : Disk) : Trail → Prop
  | [] => True
  | (name, e) :: rest => d.IsTrail rest ∧ d.IsStep rest name e

/-- A trail without its last step is an `IsTrail`. -/
theorem IsTrail.drop {trail : Trail} (h : d.IsTrail trail) : d.IsTrail (trail.drop 1) := by
  cases trail with
  | nil => trivial
  | cons step rest => exact h.1

/-- The steps of an `IsTrail` have names. -/
theorem IsTrail.isName {trail : Trail} (h : d.IsTrail trail) :
    ∀ n ∈ trail.map Prod.fst, Path.IsName n := by
  induction trail with
  | nil => simp
  | cons step rest ih =>
    obtain ⟨hrest, hstep⟩ := h
    simpa using ⟨hstep.isName, by simpa using ih hrest⟩

/-- `followWith` keeps to the disk, if going on at a link does. -/
private theorem followWith_isTrail {onLink : Trail → List String → Except ReadFault Trail}
    (hlink : ∀ {trail parts found}, d.IsTrail trail → (∀ part ∈ parts, '/' ∉ part.toList) →
      onLink trail parts = .ok found → d.IsTrail found)
    {trail found : Trail} {parts : List String} (htrail : d.IsTrail trail)
    (hparts : ∀ part ∈ parts, '/' ∉ part.toList) (h : d.followWith onLink trail parts = .ok found) :
    d.IsTrail found := by
  -- Each case of the lookup stays, goes up or makes one step more along the disk.
  induction parts generalizing trail with
  | nil => exact Except.ok.inj h ▸ htrail
  | cons part rest ih =>
    have hrest : ∀ p ∈ rest, '/' ∉ p.toList := fun p hp => hparts p (List.mem_cons_of_mem _ hp)
    rw [followWith] at h
    cases hentry : d.entryAt trail with
    | file text => simp [hentry] at h
    | link target => simp [hentry] at h
    | directory members =>
      simp only [hentry] at h
      split at h
      · exact ih htrail hrest h
      · rename_i hcounts
        split at h
        · exact ih htrail.drop hrest h
        · rename_i hup
          split at h
          · exact nomatch h
          · rename_i hshort
            have hname : Path.IsName part :=
              ⟨by simpa using hcounts, hup, hparts part List.mem_cons_self⟩
            cases hmember : Entry.memberIn? part members with
            | none => simp [hmember] at h
            | some e =>
              have hnext (hnot : ∀ target, e ≠ .link target) : d.IsTrail ((part, e) :: trail) :=
                ⟨htrail, hname, Nat.not_lt.mp hshort, ⟨members, hentry, hmember⟩, hnot⟩
              cases e with
              | file text =>
                simp only [hmember] at h
                exact ih (hnext nofun) hrest h
              | directory below =>
                simp only [hmember] at h
                exact ih (hnext nofun) hrest h
              | link target =>
                simp only [hmember] at h
                split at h
                · exact nomatch h
                · -- A link goes on from the root or from where it stands, by parts of paths again.
                  refine hlink ?_ (fun p hp => ?_) h
                  · split
                    · trivial
                    · exact htrail
                  · rcases List.mem_append.mp hp with htarget | hmem
                    · exact Path.slash_not_mem_segments htarget
                    · exact hrest p hmem

/-- `follow` keeps to the disk. -/
private theorem follow_isTrail {links : Nat} {trail found : Trail} {parts : List String}
    (htrail : d.IsTrail trail) (hparts : ∀ part ∈ parts, '/' ∉ part.toList)
    (h : d.follow links trail parts = .ok found) :
    d.IsTrail found := by
  induction links generalizing trail parts found with
  | zero =>
    refine followWith_isTrail (fun _ _ hfail => ?_) htrail hparts h
    exact nomatch hfail
  | succ links ih => exact followWith_isTrail (fun ht hp hfound => ih ht hp hfound) htrail hparts h

/-- `find` finds everything along a trail. -/
theorem find_isTrail {p : Path} {trail : Trail} (h : d.find p = .ok trail) : d.IsTrail trail := by
  rw [find] at h
  split at h
  · exact nomatch h
  · split at h
    · exact nomatch h
    · exact follow_isTrail (show d.IsTrail [] from trivial)
        (fun _ hpart => Path.slash_not_mem_segments hpart) h

/-! ## Canonical paths -/

/-- The path is the canonical one of some place on the disk. -/
def IsCanonical (d : Disk) (p : Path) : Prop := ∃ q, d.canonical? q = some p

/-- `pathOf` is the path along the names of the trail. -/
private theorem pathOf_eq_ofNames (trail : Trail) :
    pathOf trail = Path.ofNames (trail.map Prod.fst).reverse := rfl

/-- `canonical?` gives the path along the trail that is found, which is short enough to be looked
up. -/
private theorem canonical?_eq_some {p q : Path} (h : d.canonical? q = some p) :
    ∃ trail, d.find q = .ok trail ∧ d.IsTrail trail ∧ p = pathOf trail ∧
      (pathOf trail).text.utf8ByteSize ≤ maxPathBytes := by
  rw [canonical?] at h
  cases hfind : d.find q with
  | error fault => simp [hfind] at h
  | ok trail =>
    simp only [hfind] at h
    by_cases hlong : maxPathBytes < (pathOf trail).text.utf8ByteSize
    · simp [hlong] at h
    · rw [if_neg hlong] at h
      exact ⟨trail, rfl, find_isTrail hfind, (Option.some.inj h).symm, Nat.not_lt.mp hlong⟩

/-- `same` holds of canonical paths only if they are equal. -/
theorem IsCanonical.same_iff {p q : Path} (hp : d.IsCanonical p) (hq : d.IsCanonical q) :
    p.same q = true ↔ p = q := by
  obtain ⟨_, hp⟩ := hp
  obtain ⟨_, hq⟩ := hq
  obtain ⟨trail, _, htrail, rfl, _⟩ := canonical?_eq_some hp
  obtain ⟨trail', _, htrail', rfl, _⟩ := canonical?_eq_some hq
  -- A trail can be read off its path, since the parts of the path are the names of the trail.
  have hnames : ∀ n ∈ (trail.map Prod.fst).reverse, Path.IsName n := fun n hn =>
    htrail.isName n (List.mem_reverse.mp hn)
  have hnames' : ∀ n ∈ (trail'.map Prod.fst).reverse, Path.IsName n := fun n hn =>
    htrail'.isName n (List.mem_reverse.mp hn)
  rw [pathOf_eq_ofNames, pathOf_eq_ofNames]
  refine ⟨fun h => ?_, fun h => ?_⟩
  · rw [(Path.ofNames_same_iff hnames hnames').mp h]
  · rw [h]
    exact beq_self_eq_true _

/-- `followWith` goes back along a trail by its names, and then on. -/
private theorem IsTrail.followWith_names {onLink : Trail → List String → Except ReadFault Trail}
    {trail : Trail} (h : d.IsTrail trail) (parts : List String) :
    d.followWith onLink [] ((trail.map Prod.fst).reverse ++ parts) =
      d.followWith onLink trail parts := by
  -- The last step of the trail is the last name of the path.
  induction trail generalizing parts with
  | nil => rfl
  | cons step rest ih =>
    obtain ⟨name, e⟩ := step
    obtain ⟨hrest, hstep⟩ := h
    obtain ⟨members, hentry, hmember⟩ := hstep.held
    rw [List.map_cons, List.reverse_cons, List.append_assoc, List.singleton_append, ih hrest,
      followWith, hentry]
    simp only [hstep.isName.counts, hstep.isName.notUp, Nat.not_lt.mpr hstep.short, hmember,
      if_false, Bool.false_eq_true]
    cases e with
    | file text => rfl
    | directory below => rfl
    | link target => exact absurd rfl (hstep.notLink target)

/-- `follow` goes back along a trail by its names. -/
private theorem IsTrail.follow_names {trail : Trail} (h : d.IsTrail trail) (links : Nat) :
    d.follow links [] (trail.map Prod.fst).reverse = .ok trail := by
  rw [← List.append_nil (trail.map Prod.fst).reverse]
  cases links with
  | zero => exact h.followWith_names []
  | succ links => exact h.followWith_names []

/-- `follow` finds something only if there is a directory to start from. -/
private theorem follow_root {links : Nat} {parts : List String} {found : Trail} (hne : parts ≠ [])
    (h : d.follow links [] parts = .ok found) : ∃ members, d.root = .directory members := by
  obtain ⟨part, rest, rfl⟩ := List.exists_cons_of_ne_nil hne
  cases links <;> rw [follow, followWith, entryAt] at h <;> split at h
  · exact ⟨_, ‹_›⟩
  · exact nomatch h
  · exact ⟨_, ‹_›⟩
  · exact nomatch h

/-- A canonical path is its own canonical path: `canonical?` is idempotent. -/
theorem IsCanonical.canonical?_self {p : Path} (h : d.IsCanonical p) : d.canonical? p = some p := by
  obtain ⟨q, hq⟩ := h
  obtain ⟨trail, hfind, htrail, rfl, hshort⟩ := canonical?_eq_some hq
  have hnames : ∀ n ∈ (trail.map Prod.fst).reverse, Path.IsName n := fun n hn =>
    htrail.isName n (List.mem_reverse.mp hn)
  have habs : (pathOf trail).text.startsWith "/" = true := Path.startsWith_ofNames _
  have hne : (pathOf trail).text ≠ "" := by
    intro hempty
    rw [hempty] at habs
    exact absurd habs (by decide)
  -- The path of the root has only parts that count for nothing, so there it matters what the root
  -- is.
  have hroot : ∃ members, d.root = .directory members := by
    rw [find] at hfind
    split at hfind
    · exact nomatch hfind
    · split at hfind
      · exact nomatch hfind
      · exact follow_root (Path.segments_ne_nil _) hfind
  obtain ⟨members, hroot⟩ := hroot
  -- The empty part before the first slash, and the one after it in the path of the root, count for
  -- nothing.
  have hvoid : ∀ links parts, d.follow links [] ("" :: parts) = d.follow links [] parts := by
    intro links parts
    have hempty : Path.isVoid "" = true := by decide
    cases links <;> rw [follow, followWith, entryAt, hroot] <;> simp only [hempty, if_true]
  have hfound : d.find (pathOf trail) = .ok trail := by
    rw [find, if_neg hne, if_neg (Nat.not_lt.mpr hshort), Path.join, if_pos habs,
      show (Path.mk (pathOf trail).text) = Path.ofNames (trail.map Prod.fst).reverse from rfl,
      Path.segments_ofNames hnames, hvoid]
    split
    · rename_i hnil
      rw [hvoid, ← hnil]
      exact htrail.follow_names _
    · exact htrail.follow_names _
  simp only [canonical?, hfound, if_neg (Nat.not_lt.mpr hshort)]

end Disk

/-! ## The files of a disk -/

mutual
/-- The names that lead to the files of an entry. -/
def Entry.fileNames : Entry → List (List String)
  | .file _ => [[]]
  | .link _ => []
  | .directory members => fileNamesAmong members
/-- The names that lead to the files of some members. -/
def Entry.fileNamesAmong : List (String × Entry) → List (List String)
  | [] => []
  | (name, e) :: rest => e.fileNames.map (name :: ·) ++ fileNamesAmong rest
end

mutual
/-- `fileNames` has as many items as `fileCount` counts. -/
private theorem Entry.length_fileNames : ∀ e : Entry, e.fileNames.length = e.fileCount
  | .file _ => rfl
  | .link _ => rfl
  | .directory members => by
    rw [fileNames, fileCount]
    exact length_fileNamesAmong members
/-- The same for the members of a directory. -/
private theorem Entry.length_fileNamesAmong : ∀ members : List (String × Entry),
    (fileNamesAmong members).length = fileCounts members
  | [] => rfl
  | (name, e) :: rest => by
    rw [fileNamesAmong, fileCounts, List.length_append, List.length_map, length_fileNames e,
      length_fileNamesAmong rest]
end

/-- `fileNamesAmong` has what leads on from a member. -/
private theorem Entry.cons_mem_fileNamesAmong {name : String} {e : Entry} {names : List String}
    {members : List (String × Entry)} (hmember : memberIn? name members = some e)
    (hnames : names ∈ e.fileNames) : name :: names ∈ fileNamesAmong members := by
  induction members with
  | nil => exact nomatch hmember
  | cons step rest ih =>
    obtain ⟨key, e'⟩ := step
    rw [memberIn?] at hmember
    rw [fileNamesAmong]
    -- The member with the name is this one or one further on.
    split at hmember
    · rename_i hkey
      rw [hkey, Option.some.inj hmember]
      exact List.mem_append_left _ (List.mem_map_of_mem hnames)
    · exact List.mem_append_right _ (ih hmember)

namespace Disk

variable {d : Disk}

/-- The canonical paths of the files of a disk. -/
def filePaths (d : Disk) : List Path := d.root.fileNames.map Path.ofNames

theorem length_filePaths (d : Disk) : d.filePaths.length = d.root.fileCount := by
  rw [filePaths, List.length_map, Entry.length_fileNames]

/-- `fileNames` of the root has the names along a trail, with those of the files below its end. -/
private theorem IsTrail.mem_fileNames {trail : Trail} {names : List String} (h : d.IsTrail trail)
    (hnames : names ∈ (d.entryAt trail).fileNames) :
    (trail.map Prod.fst).reverse ++ names ∈ d.root.fileNames := by
  induction trail generalizing names with
  | nil => exact hnames
  | cons step rest ih =>
    obtain ⟨hrest, hstep⟩ := h
    obtain ⟨members, hentry, hmember⟩ := hstep.held
    have hbelow : step.1 :: names ∈ (d.entryAt rest).fileNames := by
      rw [hentry, Entry.fileNames]
      exact Entry.cons_mem_fileNamesAmong hmember hnames
    simpa using ih hrest hbelow

/-- `filePaths` has the canonical path of every file. -/
theorem mem_filePaths {p q : Path} (hfile : d.isFile q = true)
    (hcanonical : d.canonical? q = some p) :
    p ∈ d.filePaths := by
  obtain ⟨trail, hfind, htrail, rfl, _⟩ := canonical?_eq_some hcanonical
  have hnil : [] ∈ (d.entryAt trail).fileNames := by
    simp only [isFile, get?, hfind] at hfile
    cases hentry : d.entryAt trail with
    | file text => simp [Entry.fileNames]
    | directory members => simp [hentry] at hfile
    | link target => simp [hentry] at hfile
  have hmem := htrail.mem_fileNames hnil
  rw [List.append_nil] at hmem
  exact List.mem_map_of_mem hmem

end Disk

/-- `resolve` gives the canonical path of a file. -/
private theorem Resolver.resolve_isFile {d : Disk} {root importer p : Path} {specifier : String}
    (h : Resolver.resolve d root specifier importer = some p) :
    ∃ q, d.isFile q = true ∧ d.canonical? q = some p := by
  rw [resolve, Option.bind_eq_bind, Option.bind_eq_some_iff] at h
  obtain ⟨base, _, hbase⟩ := h
  obtain ⟨q, hfind, hcanonical⟩ := Option.bind_eq_some_iff.mp hbase
  exact ⟨q, List.find?_some hfind, hcanonical⟩

/-- `ofFile` gives the outline of a source text at the path. -/
theorem Outline.ofFile_eq_ok {d : Disk} {root p : Path} {o : Outline}
    (h : Outline.ofFile d root p = .ok o) :
    ∃ source : SourceFile, source.path = p ∧ o = ofSource (Resolver.resolve d root · p) source := by
  rw [ofFile] at h
  -- The file has to be read, to be in a language and to be parsed; else there is no outline.
  cases hread : d.read p with
  | error fault => simp [hread] at h
  | ok text =>
    simp only [hread, ofText, SourceFile.parse] at h
    cases hlanguage : Language.ofPath? p with
    | none => simp [hlanguage] at h
    | some language =>
      cases htree : Grammar.parse language text with
      | none => simp [hlanguage, htree] at h
      | some tree =>
        simp only [hlanguage, htree, Except.ok.injEq] at h
        exact ⟨⟨p, language, text, tree⟩, rfl, h.symm⟩

/-- `importedFiles` are canonical paths of files. -/
theorem Outline.importedFiles_ofFile {d : Disk} {root p q : Path} {o : Outline}
    (ho : Outline.ofFile d root p = .ok o) (hq : q ∈ o.importedFiles) :
    d.IsCanonical q ∧ q ∈ d.filePaths := by
  obtain ⟨source, _, rfl⟩ := Outline.ofFile_eq_ok ho
  obtain ⟨i, hi, hfile⟩ := List.mem_filterMap.mp hq
  obtain ⟨j, _, rfl⟩ := List.mem_map.mp hi
  obtain ⟨r, hr, hcanonical⟩ := Resolver.resolve_isFile hfile
  exact ⟨⟨r, hcanonical⟩, Disk.mem_filePaths hr hcanonical⟩

end RouteAtlas
