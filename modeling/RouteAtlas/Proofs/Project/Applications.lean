import Mathlib.Data.List.Lex
import RouteAtlas.Proofs.Disk.Below

/-!
# The search for applications

The search goes through the tree of a project, directory by directory, and leaves out a directory
with all that is below it. What it finds can be told from the names that lead to a file: it has to
look like an application, and each directory on the way to it has to be one that is searched. The
files are found in the order of these names, and each of them once.

## Key results

- `mem_applicationsIn_iff`: what one step of the search does
- `mem_applicationsAmong_iff`, `pairwise_applicationsAmong`: what is found in a tree, and in which
  order
- `applications_spec`: the applications of a project
-/

namespace RouteAtlas.EntryPoints

variable {disk : Disk} {root : Path} {settings : Settings} {globs : List Glob} {top e m : Entry}
  {name : String} {front names rest found : List String}

/-! ## What the search is for -/

/-- A directory below the root is searched, given the name of it and the names that lead to it. -/
structure Searched (settings : Settings) (globs : List Glob) (name : String) (names : List String) :
    Prop where
  visible : name.startsWith "." = false
  notSkipped : name ∉ skippedDirectories
  notExtra : name ∉ settings.extraSkipDirs
  notExcluded : isExcluded globs names = false

/-- `isSearched` decides `Searched`. -/
private theorem isSearched_iff :
    isSearched settings globs name names = true ↔ Searched settings globs name names := by
  rw [isSearched, Bool.not_eq_true', Bool.or_eq_false_iff, Bool.or_eq_false_iff,
    Bool.or_eq_false_iff]
  constructor
  · rintro ⟨⟨⟨hvisible, hskipped⟩, hextra⟩, hexcluded⟩
    exact ⟨hvisible,
      by simpa using hskipped, by simpa [Settings.skipsDirectory] using hextra, hexcluded⟩
  · rintro ⟨hvisible, hskipped, hextra, hexcluded⟩
    exact ⟨⟨⟨hvisible, by simpa using hskipped⟩, by simpa [Settings.skipsDirectory] using hextra⟩,
      hexcluded⟩

/-- An entry is a source file that looks like an application, given the name of it and the names
that lead to it from the root. A path that is too long cannot be read. -/
structure IsApplication (root : Path) (globs : List Glob) (name : String) (names : List String)
    (e : Entry) : Prop where
  text : ∃ text, e = .file (some text) ∧ isApplicationText text = true
  source : (Path.mk name).isSource = true
  notExcluded : isExcluded globs names = false
  shortNames : Disk.ShortNames names
  shortPath : ¬Disk.IsTooLong (root.join ("/".intercalate names))

/-- Names lead on from an entry to an application, through directories that are searched. The names
in front lead to the entry itself. -/
structure LeadsToApplication (root : Path) (settings : Settings) (globs : List Glob)
    (front : List String) (e : Entry) (names : List String) : Prop where
  application : ∃ above name file, names = above ++ [name] ∧ e.below? names = some file ∧
    IsApplication root globs name (front ++ names) file
  searched : ∀ above name below, names = above ++ name :: below → below ≠ [] →
    Searched settings globs name (front ++ above ++ [name])

/-- A way to an application has at least one name, that of the file. -/
theorem LeadsToApplication.ne_nil (h : LeadsToApplication root settings globs front e names) :
    names ≠ [] := by
  obtain ⟨above, name, file, rfl, -, -⟩ := h.application
  exact List.concat_ne_nil name above

/-- The first name on a way to an application leads to the application itself, or to a directory
that leads on to it. -/
private theorem leadsToApplication_cons_iff (hmember : Entry.memberIn? name e.members = some m) :
    LeadsToApplication root settings globs front e (name :: rest) ↔
      (rest = [] ∧ IsApplication root globs name (front ++ [name]) m) ∨
        (Searched settings globs name (front ++ [name]) ∧
          LeadsToApplication root settings globs (front ++ [name]) m rest) := by
  -- All names are told from where the search is now, and from the root on both sides.
  have hbelow : e.below? (name :: rest) = m.below? rest := by
    rw [Entry.below?, hmember, Option.bind_some]
  have hfront : front ++ name :: rest = front ++ [name] ++ rest := List.append_cons front name rest
  constructor
  · rintro ⟨⟨above, last, file, hnames, hfile, happlication⟩, hsearched⟩
    rw [hbelow] at hfile
    -- The way to the application is the one name, or it goes on below the member.
    cases above with
    | nil =>
      obtain ⟨rfl, rfl⟩ := List.cons.inj hnames
      obtain rfl := Option.some.inj hfile
      exact Or.inl ⟨rfl, happlication⟩
    | cons first above =>
      obtain ⟨rfl, rfl⟩ := List.cons.inj hnames
      have hfirst := hsearched [] name (above ++ [last]) rfl (List.concat_ne_nil last above)
      rw [List.append_nil] at hfirst
      refine Or.inr ⟨hfirst, ⟨above, last, file, rfl, hfile, hfront ▸ happlication⟩, ?_⟩
      intro above' directory below hsplit hne
      have hdeeper := hsearched (name :: above') directory below (congrArg (name :: ·) hsplit) hne
      rwa [List.append_cons front name above'] at hdeeper
  · rintro (⟨rfl, happlication⟩ | ⟨hfirst, ⟨above, last, file, rfl, hfile, happlication⟩,
      hsearched⟩)
    · refine ⟨⟨[], name, m, rfl, hbelow, happlication⟩, fun above directory below hsplit hne => ?_⟩
      -- A single name leads through no directory.
      cases above with
      | nil => exact absurd (List.cons.inj hsplit).2.symm hne
      | cons first above => simp at hsplit
    · refine ⟨⟨name :: above, last, file, rfl, hbelow.trans hfile, hfront ▸ happlication⟩, ?_⟩
      intro above' directory below hsplit hne
      cases above' with
      | nil =>
        obtain ⟨rfl, -⟩ := List.cons.inj hsplit
        rwa [List.append_nil]
      | cons first above' =>
        obtain ⟨rfl, hrest⟩ := List.cons.inj hsplit
        rw [List.append_cons front name above']
        exact hsearched above' directory below hrest hne

/-! ## What is found -/

/-- `applicationsAmong` goes from member to member. -/
private theorem applicationsAmong_eq_flatMap (members : List (String × Entry)) :
    applicationsAmong disk root settings globs front members =
      members.flatMap fun m =>
        applicationsIn disk root settings globs (front ++ [m.1]) m.1 m.2 := by
  induction members with
  | nil => rfl
  | cons m rest ih => rw [applicationsAmong, ih, List.flatMap_cons]

/-- `readsAsApplication` tells of a file of the tree whether its text looks like an application,
unless it cannot be read. -/
private theorem readsAsApplication_iff {text? : Option String} (hroot : disk.get? root = some top)
    (htop : top.Proper) (hne : names ≠ []) (hbelow : top.below? names = some (.file text?)) :
    readsAsApplication disk root names = true ↔
      (∃ text, text? = some text ∧ isApplicationText text = true) ∧ Disk.ShortNames names ∧
        ¬Disk.IsTooLong (root.join ("/".intercalate names)) := by
  -- The path that is read is that of the file of the tree, so it gives the text of this file.
  have hread (text : String) := @Disk.read_join_eq_ok_iff disk _ root top text text? hroot hne
    (htop.isName_of_below? hbelow) hbelow
  rw [readsAsApplication]
  constructor
  · intro h
    cases htext : disk.read (root.join ("/".intercalate names)) with
    | error fault => simp [htext] at h
    | ok text =>
      simp only [htext] at h
      obtain ⟨hsame, hshort⟩ := (hread text).mp htext
      exact ⟨⟨text, hsame, h⟩, hshort⟩
  · rintro ⟨⟨text, hsame, happlication⟩, hshort⟩
    simp only [(hread text).mpr ⟨hsame, hshort⟩]
    exact happlication

/-- `applicationsIn` finds an application as it is, and in a directory that is searched what
`applicationsAmong` finds there. -/
theorem mem_applicationsIn_iff (hroot : disk.get? root = some top) (htop : top.Proper)
    (hne : names ≠ []) (hbelow : top.below? names = some m) :
    found ∈ applicationsIn disk root settings globs names name m.sorted ↔
      (found = names ∧ IsApplication root globs name names m) ∨
        (Searched settings globs name names ∧
          found ∈ applicationsAmong disk root settings globs names m.sorted.members) := by
  cases m with
  | file text? =>
    have hreads := readsAsApplication_iff hroot htop hne hbelow
    have hstep : found ∈ applicationsIn disk root settings globs names name (.file text?) ↔
        (((Path.mk name).isSource = true ∧ isExcluded globs names = false) ∧
          readsAsApplication disk root names = true) ∧ found = names := by
      rw [applicationsIn, List.mem_ite_nil_right, Bool.and_eq_true, Bool.and_eq_true,
        Bool.not_eq_true', List.mem_singleton]
    have hnone : found ∉ applicationsAmong disk root settings globs names
        (Entry.file text?).sorted.members := List.not_mem_nil
    -- Nothing is below a file, so only the file itself can be found.
    refine hstep.trans ⟨?_, ?_⟩
    · rintro ⟨⟨⟨hsource, hexcluded⟩, htext⟩, hfound⟩
      obtain ⟨⟨text, rfl, happlication⟩, hshort, hpath⟩ := hreads.mp htext
      exact Or.inl ⟨hfound, ⟨text, rfl, happlication⟩, hsource, hexcluded, hshort, hpath⟩
    · rintro (⟨hfound, ⟨text, htext, happlication⟩, hsource, hexcluded, hshort, hpath⟩ | ⟨-,
        hdeeper⟩)
      · have htext? := Entry.file.inj htext
        exact ⟨⟨⟨hsource, hexcluded⟩, hreads.mpr ⟨⟨text, htext?, happlication⟩, hshort, hpath⟩⟩,
          hfound⟩
      · exact absurd hdeeper hnone
  | link target =>
    refine iff_of_false List.not_mem_nil ?_
    rintro (⟨-, ⟨text, hfile, -⟩, -⟩ | ⟨-, hmem⟩)
    · exact nomatch hfile
    · exact absurd hmem List.not_mem_nil
  | directory members =>
    have hnotFile : ¬IsApplication root globs name names (.directory members) := by
      rintro ⟨⟨text, hfile, -⟩, -⟩
      exact nomatch hfile
    rw [Entry.sorted, applicationsIn, List.mem_ite_nil_right, isSearched_iff]
    simp only [hnotFile, and_false, false_or, Entry.members]

/-- `applicationsAmong` finds the names that lead to an application in a tree. -/
theorem mem_applicationsAmong_iff (hroot : disk.get? root = some top) (htop : top.Proper)
    (h : e.Proper) (hfront : top.below? front = some e) :
    found ∈ applicationsAmong disk root settings globs front e.sorted.members ↔
      ∃ rest, found = front ++ rest ∧ LeadsToApplication root settings globs front e rest := by
  -- By induction on the tree, for whatever names lead to the part that is looked at.
  refine h.induction (P := fun e => ∀ front, top.below? front = some e →
    (found ∈ applicationsAmong disk root settings globs front e.sorted.members ↔
      ∃ rest, found = front ++ rest ∧ LeadsToApplication root settings globs front e rest))
        ?_ front hfront
  intro e hproper ih front hfront
  rw [applicationsAmong_eq_flatMap, List.mem_flatMap]
  -- No two members have the same name, so a name leads to the member that the search is at.
  constructor
  · rintro ⟨_, hmem, hfound⟩
    obtain ⟨m, hm, rfl⟩ := Entry.mem_members_sorted.mp hmem
    have hmember := (Entry.memberIn?_eq_some_iff hproper.distinct).mpr hm
    have hbelow := Entry.below?_concat hfront hmember
    rcases (mem_applicationsIn_iff hroot htop (List.concat_ne_nil _ _) hbelow).mp hfound with
      ⟨rfl, happlication⟩ | ⟨hsearched, hdeeper⟩
    · exact ⟨[m.1], rfl, (leadsToApplication_cons_iff hmember).mpr (Or.inl ⟨rfl, happlication⟩)⟩
    · obtain ⟨rest, rfl, hrest⟩ := (ih m hm _ hbelow).mp hdeeper
      exact ⟨m.1 :: rest, (List.append_cons front m.1 rest).symm,
        (leadsToApplication_cons_iff hmember).mpr (Or.inr ⟨hsearched, hrest⟩)⟩
  · rintro ⟨rest, rfl, hrest⟩
    obtain ⟨name, rest, rfl⟩ := List.exists_cons_of_ne_nil hrest.ne_nil
    obtain ⟨-, -, file, -, hfile, -⟩ := hrest.application
    obtain ⟨m, hmember, -⟩ := Option.bind_eq_some_iff.mp hfile
    have hm := Entry.mem_of_memberIn? hmember
    have hbelow := Entry.below?_concat hfront hmember
    refine ⟨(name, m.sorted), Entry.mem_members_sorted.mpr ⟨_, hm, rfl⟩,
      (mem_applicationsIn_iff hroot htop (List.concat_ne_nil _ _) hbelow).mpr ?_⟩
    rcases (leadsToApplication_cons_iff hmember).mp hrest with ⟨rfl, happlication⟩ |
      ⟨hsearched, hdeeper⟩
    · exact Or.inl ⟨rfl, happlication⟩
    · exact Or.inr
        ⟨hsearched, (ih _ hm _ hbelow).mpr ⟨rest, List.append_cons front name rest, hdeeper⟩⟩

/-! ## The order -/

/-- What `applicationsIn` finds in an entry continues the names that lead to it. -/
private theorem exists_append_of_mem_applicationsIn (hroot : disk.get? root = some top)
    (htop : top.Proper) (h : m.Proper) (hne : names ≠ []) (hbelow : top.below? names = some m)
    (hfound : found ∈ applicationsIn disk root settings globs names name m.sorted) :
    ∃ rest, found = names ++ rest := by
  rcases (mem_applicationsIn_iff hroot htop hne hbelow).mp hfound with ⟨rfl, -⟩ | ⟨-, hdeeper⟩
  · exact ⟨[], (List.append_nil found).symm⟩
  · obtain ⟨rest, hrest, -⟩ := (mem_applicationsAmong_iff hroot htop h hbelow).mp hdeeper
    exact ⟨rest, hrest⟩

/-- `applicationsIn` brings nothing out of the order in which it was found below. -/
private theorem pairwise_applicationsIn {R : List String → List String → Prop}
    (hdeeper : (applicationsAmong disk root settings globs names m.sorted.members).Pairwise R) :
    (applicationsIn disk root settings globs names name m.sorted).Pairwise R := by
  -- A file is one application at most, and a directory has those below it.
  cases m with
  | file text? =>
    show (applicationsIn disk root settings globs names name (.file text?)).Pairwise R
    rw [applicationsIn]
    split
    · exact List.pairwise_singleton R names
    · exact List.Pairwise.nil
  | link target => exact List.Pairwise.nil
  | directory members =>
    rw [Entry.sorted] at hdeeper ⊢
    rw [applicationsIn]
    split
    · exact hdeeper
    · exact List.Pairwise.nil

/-- `applicationsAmong` finds names in their order, from the first name on. -/
theorem pairwise_applicationsAmong (hroot : disk.get? root = some top) (htop : top.Proper) :
    (applicationsAmong disk root settings globs [] top.sorted.members).Pairwise
      (List.Lex (· < ·)) := by
  refine htop.induction (P := fun e => ∀ front, top.below? front = some e →
    (applicationsAmong disk root settings globs front e.sorted.members).Pairwise (List.Lex (· < ·)))
    ?_ [] rfl
  intro e hproper ih front hfront
  have hbelow : ∀ m ∈ e.members, top.below? (front ++ [m.1]) = some m.2 := fun m hm =>
    Entry.below?_concat hfront ((Entry.memberIn?_eq_some_iff hproper.distinct).mpr hm)
  rw [applicationsAmong_eq_flatMap, List.pairwise_flatMap]
  -- Within one member the order is that of the induction hypothesis.
  refine ⟨fun sorted hsorted => ?_, ?_⟩
  · obtain ⟨m, hm, rfl⟩ := Entry.mem_members_sorted.mp hsorted
    exact pairwise_applicationsIn (ih m hm _ (hbelow m hm))
  · -- What is found in two members differs where their names do.
    have hnext : ∀ m ∈ e.members, ∀ x ∈ applicationsIn disk root settings globs (front ++ [m.1]) m.1
        m.2.sorted, ∃ rest, x = front ++ [m.1] ++ rest := fun m hm x hx =>
      exists_append_of_mem_applicationsIn hroot htop (hproper.of_mem_members m hm)
        (List.concat_ne_nil _ _) (hbelow m hm) hx
    refine (Entry.pairwise_members_sorted hproper.distinct).imp_of_mem ?_
    intro first second hfirst hsecond hlt x hx y hy
    obtain ⟨m, hm, rfl⟩ := Entry.mem_members_sorted.mp hfirst
    obtain ⟨m', hm', rfl⟩ := Entry.mem_members_sorted.mp hsecond
    obtain ⟨rest, rfl⟩ := hnext m hm x hx
    obtain ⟨rest', rfl⟩ := hnext m' hm' y hy
    rw [List.append_assoc, List.append_assoc]
    exact List.Lex.append_left _ (List.Lex.rel hlt) front

/-- `applicationsAmong` finds nothing twice. -/
private theorem nodup_applicationsAmong (hroot : disk.get? root = some top) (htop : top.Proper) :
    (applicationsAmong disk root settings globs [] top.sorted.members).Nodup := by
  refine (pairwise_applicationsAmong hroot htop).imp fun hlt heq => ?_
  rw [heq] at hlt
  exact List.lex_irrefl String.lt_irrefl _ hlt

/-! ## The applications of a project -/

/-- What leads to an application are names that members of a directory may have. -/
theorem LeadsToApplication.isName (h : LeadsToApplication root settings globs front e names)
    (hproper : e.Proper) :
    ∀ n ∈ names, Path.IsName n := by
  obtain ⟨-, -, file, -, hfile, -⟩ := h.application
  exact hproper.isName_of_below? hfile

variable {members : List (String × Entry)}

/-- `applications` joins what is found to the root. -/
theorem applications_eq_map (hroot : disk.get? root = some e) :
    applications disk root settings globs =
      (applicationsAmong disk root settings globs [] e.sorted.members).map
      fun names => root.join ("/".intercalate names) := by
  rw [applications, hroot]

/-- `applicationsAmong`, from the root of a project, finds all that leads to an application. -/
theorem mem_applicationsAmong_members_iff (hroot : disk.get? root = some e) (h : e.Proper) :
    names ∈ applicationsAmong disk root settings globs [] e.sorted.members ↔
      LeadsToApplication root settings globs [] e names := by
  rw [mem_applicationsAmong_iff hroot h h rfl]
  simp only [List.nil_append, exists_eq_left']

/-- `applications` are the files below the root of a project that names lead to through directories
that are searched. They are listed by name, component by component, and each of them once. -/
theorem applications_spec (hroot : disk.get? root = some (.directory members))
    (hproper : (Entry.directory members).Proper) :
    ∃ found : List (List String),
      applications disk root settings globs =
        found.map (fun names => root.join ("/".intercalate names)) ∧
      (∀ names, names ∈ found ↔
        LeadsToApplication root settings globs [] (.directory members) names) ∧
      found.Pairwise (List.Lex (· < ·)) ∧ (applications disk root settings globs).Nodup := by
  -- The names that are found serve as the list, and what is asked of it has been shown above.
  have hmem (names : List String) :=
    @mem_applicationsAmong_members_iff disk root settings globs _ names hroot hproper
  refine ⟨_, applications_eq_map hroot, hmem, pairwise_applicationsAmong hroot hproper, ?_⟩
  rw [applications_eq_map hroot]
  -- Two of the paths are equal only if the names along them are.
  refine (nodup_applicationsAmong hroot hproper).map_on fun names hnames names' hnames' heq => ?_
  have hleads := (hmem names).mp hnames
  have hleads' := (hmem names').mp hnames'
  exact Path.join_intercalate_inj hleads.ne_nil (hleads.isName hproper) hleads'.ne_nil
    (hleads'.isName hproper) heq

/-- A directory with an application in it. -/
def webDirectory : Entry := .directory [("web.js", .file (some "app.listen(3)"))]

/-- A project with an application in `src`, among files that are none, a link to it, and copies of
it in directories that are not searched. -/
def olderVersionKept : List (String × Entry) :=
  [("web.js", .link "src/web.js"),
    ("src", .directory
      [("web.js", .file (some "app.listen(3)")), ("web.txt", .file (some "app.listen(3)")),
        ("web.test.js", .file (some "app.listen(3)")), ("util.js", .file (some "f()"))]),
    (".old", webDirectory), ("dist", webDirectory), ("vendor", webDirectory),
      ("legacy", webDirectory)]

/-- Settings that leave out a directory by its name, another one by its path, and tests. -/
def testsExcluded : Settings :=
  { extraSkipDirs := ["vendor"], excludedPaths := ["legacy", "src/*.test.js"] }

/-- The patterns of these settings. -/
def testsPatterns : List Glob :=
  ["legacy".toList.map .char, "src/".toList.map .char ++ .star :: ".test.js".toList.map .char]

/-- `olderVersionKept` is a tree that a disk may have. -/
theorem proper_olderVersionKept : (Entry.directory olderVersionKept).Proper := by
  have hname : ∀ n ∈ ["web.js", "web.txt", "web.test.js", "util.js", "src", ".old", "dist",
      "vendor", "legacy"], Path.IsName n := by
    intro n hn
    exact ⟨by revert n; decide, by revert n; decide, by revert n; decide⟩
  -- The three kinds of directories are proper by themselves; the rest is about their names.
  have hweb : webDirectory.Proper :=
    .directory (List.nodup_singleton _) (by simpa using hname "web.js" (by decide))
      (by simpa using Entry.Proper.file _)
  refine .directory (by decide) ?_ ?_
  · simpa [olderVersionKept]
      using ⟨hname "web.js" (by decide), hname "src" (by decide), hname ".old" (by decide),
        hname "dist" (by decide), hname "vendor" (by decide), hname "legacy" (by decide)⟩
  · have hsrc : (Entry.directory
        [("web.js", .file (some "app.listen(3)")), ("web.txt", .file (some "app.listen(3)")),
          ("web.test.js", .file (some "app.listen(3)")),
          ("util.js", .file (some "f()"))]).Proper := by
      refine .directory (by decide) ?_ (by simp [Entry.Proper.file])
      simpa using ⟨hname "web.js" (by decide), hname "web.txt" (by decide),
        hname "web.test.js" (by decide), hname "util.js" (by decide)⟩
    simpa [olderVersionKept] using ⟨Entry.Proper.link _, hsrc, hweb⟩

/-- `olderVersionKept` is what a disk with it has at its root. -/
theorem get?_olderVersionKept :
    Disk.get? ⟨.directory olderVersionKept, ⟨"/"⟩⟩ ⟨"/"⟩ = some (.directory olderVersionKept) := by
  have hsegments : (Path.join ⟨"/"⟩ "/").segments = ["", ""] := by decide +kernel
  rw [Disk.get?, Disk.find, if_neg (by decide), if_neg (by decide), hsegments]
  rfl

/-- Of `olderVersionKept`, the application in `src` is found. What is not found is a link, below a
directory out of sight, below one that is never searched or that the settings leave out, excluded,
no source, or no application. -/
theorem olderVersionKept_applications :
    testsExcluded.excluded = .ok testsPatterns ∧ ∃ found : List (List String),
      applications ⟨.directory olderVersionKept, ⟨"/"⟩⟩ ⟨"/"⟩ testsExcluded testsPatterns =
        found.map (fun names => Path.join ⟨"/"⟩ ("/".intercalate names)) ∧
      ["src", "web.js"] ∈ found ∧ ["web.js"] ∉ found ∧ [".old", "web.js"] ∉ found ∧
      ["dist", "web.js"] ∉ found ∧ ["vendor", "web.js"] ∉ found ∧ ["legacy", "web.js"] ∉ found ∧
      ["src", "web.test.js"] ∉ found ∧ ["src", "web.txt"] ∉ found ∧ ["src", "util.js"] ∉ found := by
  obtain ⟨found, hfound, hmem, -, -⟩ := @applications_spec _ _ testsExcluded testsPatterns _
    get?_olderVersionKept proper_olderVersionKept
  -- What is found is an application of the tree, below a directory that is searched.
  have hfile {names : List String} {e : Entry} (h : names ∈ found)
      (he : (Entry.directory olderVersionKept).below? names = some e) :
      ∃ name, names.getLast? = some name ∧ IsApplication ⟨"/"⟩ testsPatterns name names e := by
    obtain ⟨above, name, file, rfl, hfile, happlication⟩ := ((hmem _).mp h).application
    obtain rfl := Option.some.inj (he.symm.trans hfile)
    exact ⟨name, List.getLast?_concat, happlication⟩
  have hdirectory {directory : String} (h : [directory, "web.js"] ∈ found) :
      Searched testsExcluded testsPatterns directory [directory] :=
    ((hmem _).mp h).searched [] directory ["web.js"] rfl (List.cons_ne_nil _ _)
  refine ⟨rfl, found, hfound, (hmem _).mpr ?_, fun h => ?_, fun h => ?_, fun h => ?_, fun h =>
    ?_, fun h => ?_,
    fun h => ?_, fun h => ?_, fun h => ?_⟩
  · -- The one that is found: both of its names are checked, one as searched, one as a file.
    have hsearched : Searched testsExcluded testsPatterns "src" ["src"] :=
      isSearched_iff.mp (by decide +kernel)
    have hweb : IsApplication ⟨"/"⟩ testsPatterns "web.js" ["src", "web.js"]
        (.file (some "app.listen(3)")) :=
      ⟨⟨_, rfl, by decide +kernel⟩,
        by decide +kernel, by decide +kernel, by decide +kernel, by decide +kernel⟩
    refine (leadsToApplication_cons_iff rfl).mpr (Or.inr ⟨hsearched, ?_⟩)
    exact (leadsToApplication_cons_iff rfl).mpr (Or.inl ⟨rfl, hweb⟩)
  · obtain ⟨_, _, happlication⟩ := hfile h rfl
    obtain ⟨text, htext, -⟩ := happlication.text
    exact nomatch htext
  · exact absurd (hdirectory h).visible (by decide +kernel)
  · exact absurd (hdirectory h).notSkipped (by decide +kernel)
  · exact absurd (hdirectory h).notExtra (by decide +kernel)
  · exact absurd (hdirectory h).notExcluded (by decide +kernel)
  · obtain ⟨_, _, happlication⟩ := hfile h rfl
    exact absurd happlication.notExcluded (by decide +kernel)
  · obtain ⟨_, hname, happlication⟩ := hfile h rfl
    obtain rfl := Option.some.inj hname
    exact absurd happlication.source (by decide +kernel)
  · obtain ⟨_, _, happlication⟩ := hfile h rfl
    obtain ⟨text, htext, htrue⟩ := happlication.text
    obtain rfl := Option.some.inj (Entry.file.inj htext)
    exact absurd htrue (by decide +kernel)

end RouteAtlas.EntryPoints
