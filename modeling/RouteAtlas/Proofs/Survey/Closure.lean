import Mathlib.Order.Bounds.Basic
import RouteAtlas.Project.Scan
import RouteAtlas.Proofs.Disk.Canonical
import RouteAtlas.Proofs.Survey.Ledger
import RouteAtlas.Proofs.Survey.Termination

/-!
# A survey visits the import closure

Every run stays inside any set of files that is closed under imports, and a survey that has ended is
closed itself. So the files of a survey are the least such set, however deep the walks go.

## Key results

- `Run.visits_mem`: a run stays inside every closed set
- `isLeast_files`: the files of a survey from canonical entry points are the least closed set
- `settle_canonical`: the entry points that a project is scanned from are canonical
-/

namespace RouteAtlas

namespace Survey

variable {load : Path → Except FileFault Outline} {entries all : List Path} {s t : Survey}

/-- The set has the entry points and, with every file that could be outlined, the files that it
imports. Files of packages need not be in it. -/
structure ImportClosed (load : Path → Except FileFault Outline) (entries : List Path)
    (S : Set Path) :
    Prop where
  entry : ∀ e ∈ entries, e.isForeign = false → e ∈ S
  imported : ∀ p ∈ S, ∀ o, load p = .ok o → ∀ q ∈ o.importedFiles, q.isForeign = false → q ∈ S

theorem mem_files {p : Path} : p ∈ s.files ↔ ∃ v ∈ s.visits, v.path = p := List.mem_map

/-! ## Inside every closed set -/

/-- `imports` of a visit are, in a `Sound` survey, what the file that was read imports. -/
private theorem Sound.imports_iff (hs : Sound load entries s) {v : Visit} (hv : v ∈ s.visits)
    {q : Path} :
    q ∈ v.imports ↔ ∃ o, load v.path = .ok o ∧ q ∈ o.importedFiles := by
  rw [← mem_imports_iff, ← hs.loaded v hv]

/-- What is `Due` in a `Sound` survey is in every closed set that has what was visited. -/
private theorem Sound.mem_of_due {S : Set Path} (hs : Sound load entries s)
    (hS : ImportClosed load entries S) (hvisits : ∀ v ∈ s.visits, v.path ∈ S) {p : Path}
    (hdue : s.Due entries p) (hown : p.isForeign = false) :
    p ∈ S := by
  rcases hdue with hentry | ⟨v, hv, hp⟩
  · exact hS.entry p hentry hown
  · obtain ⟨o, ho, hq⟩ := (hs.imports_iff hv).mp hp
    exact hS.imported v.path (hvisits v hv) o ho p hq hown

/-- A `Step` stays inside every closed set. -/
private theorem Step.visits_mem {S : Set Path} (hs : Sound load entries s)
    (hS : ImportClosed load entries S) (hvisits : ∀ v ∈ s.visits, v.path ∈ S)
    (h : Step load entries s t) :
    ∀ v ∈ t.visits, v.path ∈ S := by
  cases h with
  | visit hdue hown _ =>
    intro v hv
    rcases List.mem_append.mp hv with hold | hlast
    · exact hvisits v hold
    · obtain rfl := List.mem_singleton.mp hlast
      exact hs.mem_of_due hS hvisits hdue hown
  | putOff => exact hvisits
  | clear => exact hvisits

/-- A `Run` stays inside every closed set. -/
theorem Run.visits_mem {S : Set Path} (hs : Sound load entries s) (hS : ImportClosed load entries S)
    (hvisits : ∀ v ∈ s.visits, v.path ∈ S) (h : Run load entries s t) :
    ∀ v ∈ t.visits, v.path ∈ S := by
  induction h with
  | refl => exact hvisits
  | tail hrun hstep ih => exact hstep.visits_mem (Run.sound hs hrun) hS ih

/-- A `Run` keeps what has been visited. -/
theorem Run.has (h : Run load entries s t) {p : Path} (hp : s.has p = true) : t.has p = true := by
  obtain ⟨v, hv, hsame⟩ := has_eq_true.mp hp
  exact has_eq_true.mpr ⟨v, h.visits_prefix.subset hv, hsame⟩

/-! ## Closed itself -/

/-- `walkFrom` visits the entry point that it starts from. -/
private theorem has_walkFrom {maxDepth visits : Nat} {e : Path} (hown : e.isForeign = false) :
    (walkFrom load maxDepth (visits + 1) e s).has e = true := by
  cases hnew : s.has e with
  | true =>
    have hwalk : Run load [e] s (walkFrom load maxDepth (visits + 1) e s) :=
      walkFrom_run List.mem_cons_self
    exact hwalk.has hnew
  | false =>
    rw [walkFrom, walkStack]
    simp only [nextTask, Nat.not_lt_zero, if_false, hown, hnew, Bool.or_self, Bool.false_eq_true,
      List.append_nil]
    -- The first task calls for the visit, and what comes after it undoes nothing.
    have hrest : Run load [] (s.record [⟨e, load e⟩]) (walkStack load maxDepth visits
        ((s.record [⟨e, load e⟩]).tasksOf ⟨e, load e⟩ 0) (s.record [⟨e, load e⟩])) := by
      refine walkStack_run fun task htask => ?_
      exact Or.inr ⟨⟨e, load e⟩, by simp, mem_tasksOf htask⟩
    exact hrest.has (by simp [has_record])

/-- `walkFrom` all entry points visits each of them. -/
private theorem has_foldl_walkFrom {maxDepth visits : Nat} {e : Path} (he : e ∈ entries)
    (hown : e.isForeign = false) :
    (entries.foldl (fun s e => walkFrom load maxDepth (visits + 1) e s) s).has e = true := by
  induction entries generalizing s with
  | nil => exact absurd he List.not_mem_nil
  | cons first rest ih =>
    -- The walk is the first one, and the others keep what it has visited; or it is one of them.
    rcases List.mem_cons.mp he with rfl | hmem
    · have hrest : Run load rest (walkFrom load maxDepth (visits + 1) e s)
          (rest.foldl (fun s e => walkFrom load maxDepth (visits + 1) e s)
            (walkFrom load maxDepth (visits + 1) e s)) := foldl_walkFrom_run (List.Subset.refl _)
      exact hrest.has (has_walkFrom hown)
    · exact ih hmem

/-- `explore` has `Ended`, if it may make enough visits. -/
private theorem explore_ended (hload : ImportsWithin load all) {maxDepth visits : Nat}
    (hvisits : all.length + 2 ≤ visits) : (explore load maxDepth visits entries).Ended :=
  sweep_ended hload hvisits _

/-- `explore` leaves out nothing that is due. -/
theorem has_explore_of_due (hload : ImportsWithin load all) {maxDepth visits : Nat}
    (hvisits : all.length + 2 ≤ visits) {p : Path} (hown : p.isForeign = false)
    (hdue : (explore load maxDepth visits entries).Due entries p) :
    (explore load maxDepth visits entries).has p = true := by
  -- Entry points are visited by the walks, imports at the latest by the sweep.
  rcases hdue with hentry | himport
  · obtain ⟨visits, rfl⟩ : ∃ k, visits = k + 1 := ⟨visits - 1, by omega⟩
    have hwalks : Run load entries {}
        (entries.foldl (fun s e => walkFrom load maxDepth (visits + 1) e s) {}) :=
      foldl_walkFrom_run (List.Subset.refl _)
    have hsweep : Run load entries _ (explore load maxDepth (visits + 1) entries) :=
      sweep_run (hwalks.sound sound_empty).pendingDue
    exact hsweep.has (has_foldl_walkFrom hentry hown)
  · exact has_of_missing_eq_nil (explore_ended hload hvisits).1 (Or.inr himport) hown

/-- `explore` visits the least closed set, where no two files of a closed set name the same
place. -/
private theorem isLeast_files_explore (hload : ImportsWithin load all) {maxDepth visits : Nat}
    (hvisits : all.length + 2 ≤ visits) {S : Set Path} (hS : ImportClosed load entries S)
    (hsame : ∀ p ∈ S, ∀ q ∈ S, p.same q = true → p = q) :
    IsLeast {T | ImportClosed load entries T}
      {p | p ∈ (explore load maxDepth visits entries).files} := by
  -- Everything visited is in every closed set, so in the one where paths of the same place are
  -- equal.
  have hinside : ∀ {T : Set Path}, ImportClosed load entries T →
      ∀ p ∈ (explore load maxDepth visits entries).files, p ∈ T := by
    intro T hT p hp
    obtain ⟨v, hv, rfl⟩ := mem_files.mp hp
    exact Run.visits_mem sound_empty hT (fun v hv => absurd hv List.not_mem_nil) explore_run v hv
  -- What is due has been visited under some path for its place, and that path is its own.
  have hdue : ∀ {p : Path}, (explore load maxDepth visits entries).Due entries p →
      p.isForeign = false →
        p ∈ (explore load maxDepth visits entries).files := by
    intro p hp hown
    obtain ⟨v, hv, hvp⟩ := has_eq_true.mp (has_explore_of_due hload hvisits hown hp)
    have hmem : ∀ w ∈ (explore load maxDepth visits entries).visits, w.path ∈ S := fun w hw =>
      hinside hS _ (mem_files.mpr ⟨w, hw, rfl⟩)
    exact mem_files.mpr
      ⟨v, hv, hsame _ (hmem v hv) _ (explore_sound.mem_of_due hS hmem hp hown) hvp⟩
  refine ⟨⟨fun e he => hdue (Or.inl he), fun p hp o ho q hq => hdue (Or.inr ?_)⟩,
    fun T hT => hinside hT⟩
  obtain ⟨v, hv, rfl⟩ := mem_files.mp hp
  exact ⟨v, hv, (explore_sound.imports_iff hv).mpr ⟨o, ho, hq⟩⟩

end Survey

/-! ## Surveys of a disk -/

section Disk

variable {disk : Disk} {root : Path} {entries : List Path}

/-- `ofFile` gives imports among the files of the disk. -/
theorem Outline.ofFile_importsWithin (disk : Disk) (root : Path) :
    Survey.ImportsWithin (Outline.ofFile disk root) disk.filePaths :=
  fun _ _ ho _ hq => (Outline.importedFiles_ofFile ho hq).2

/-- `visitBound` is two more than there are files. -/
theorem Disk.length_filePaths_add_two (disk : Disk) :
    disk.filePaths.length + 2 = disk.visitBound := by
  rw [Disk.length_filePaths, Disk.visitBound]

/-- Canonical paths are `ImportClosed`. -/
private theorem Disk.importClosed_canonical (hentries : ∀ e ∈ entries, disk.IsCanonical e) :
    Survey.ImportClosed (Outline.ofFile disk root) entries {p | disk.IsCanonical p} :=
  ⟨fun e he _ => hentries e he, fun _ _ _ ho _ hq _ => (Outline.importedFiles_ofFile ho hq).1⟩

namespace Survey

/-- `ofEntries` visits the least closed set, however deep the walks go. -/
theorem isLeast_files (root : Path) (hentries : ∀ e ∈ entries, disk.IsCanonical e)
    (maxDepth : Nat) :
    IsLeast {S | ImportClosed (Outline.ofFile disk root) entries S}
      {p | p ∈ (ofEntries disk root maxDepth entries).files} := by
  rw [ofEntries_eq_explore]
  exact isLeast_files_explore (Outline.ofFile_importsWithin disk root)
    (Nat.le_of_eq disk.length_filePaths_add_two) (Disk.importClosed_canonical hentries)
    fun _ hp _ hq => (hp.same_iff hq).mp

/-- `ofEntries` visits canonical paths only. -/
private theorem isCanonical_of_mem_files (hentries : ∀ e ∈ entries, disk.IsCanonical e)
    {maxDepth : Nat} {p : Path} (hp : p ∈ (ofEntries disk root maxDepth entries).files) :
    disk.IsCanonical p :=
  (isLeast_files root hentries maxDepth).2 (Disk.importClosed_canonical hentries) hp

end Survey

/-- `settle` settles on canonical paths outside packages. -/
theorem EntryPoints.settle_canonical {candidates : List Path} {e : Path}
    (he : e ∈ settle disk candidates) : disk.IsCanonical e ∧ e.isForeign = false := by
  have hbatch : settle disk candidates =
      (candidates.filterMap disk.canonical?).foldl (Path.addToBatch Path.isForeign) [] := rfl
  rw [hbatch] at he
  rcases Path.mem_foldl_addToBatch he with hnil | ⟨hmem, hown⟩
  · exact absurd hnil List.not_mem_nil
  · obtain ⟨q, _, hq⟩ := List.mem_filterMap.mp hmem
    exact ⟨⟨q, hq⟩, hown⟩

/-- `entries` of a project are canonical paths outside packages. -/
theorem Project.entries_canonical {project : Project} (h : project.entries disk = .ok entries) :
    ∀ e ∈ entries, disk.IsCanonical e ∧ e.isForeign = false := by
  rw [Project.entries, EntryPoints.locate] at h
  cases hglobs : project.settings.excluded with
  | error fault => simp [hglobs, Except.map, Failure.ofSettings] at h
  | ok globs =>
    simp only [hglobs, Except.map, Failure.ofSettings, Except.ok.injEq] at h
    exact fun e he => EntryPoints.settle_canonical (h ▸ he)

/-- `scan` succeeds where the entry points can be located. -/
theorem Project.scan_of_entries {project : Project} (h : project.entries disk = .ok entries) :
    ∃ r, project.scan disk = .ok r ∧ r.entries = entries ∧
      r.files = (Survey.ofEntries disk project.root project.settings.maxDepth entries).files := by
  cases entries with
  | nil => exact ⟨{}, by rw [scan, h]; rfl, rfl, rfl⟩
  | cons e rest => exact ⟨project.scanFrom disk (e :: rest), by rw [scan, h]; rfl, rfl, rfl⟩

/-- `ofEntries` visits the least set that has the entry points and is closed under imports, files of
packages apart, however deep the walks go. `walkFrom` and `sweep` end, from any state and on
any import graph: they give the same however many visits more than the bound they may make. Another
sweep changes nothing. `scan` visits its entry points and no file twice, and what it visits are
canonical paths outside packages, each of them its own canonical path. -/
theorem Survey.files_least_import_closed (disk : Disk) (project : Project) (entries : List Path)
    (hentries : ∀ e ∈ entries, disk.IsCanonical e) :
    (∀ maxDepth, IsLeast {S | ImportClosed (Outline.ofFile disk project.root) entries S}
      {p | p ∈ (ofEntries disk project.root maxDepth entries).files}) ∧
    (∀ maxDepth maxDepth' p, p ∈ (ofEntries disk project.root maxDepth entries).files ↔
      p ∈ (ofEntries disk project.root maxDepth' entries).files) ∧
    (∀ n ≥ disk.visitBound, ∀ maxDepth e s,
      walkFrom (Outline.ofFile disk project.root) maxDepth n e s =
        walkFrom (Outline.ofFile disk project.root) maxDepth disk.visitBound e s) ∧
    (∀ n ≥ disk.visitBound, ∀ s, sweep (Outline.ofFile disk project.root) n s =
      sweep (Outline.ofFile disk project.root) disk.visitBound s) ∧
    (∀ maxDepth n,
      sweep (Outline.ofFile disk project.root) n (ofEntries disk project.root maxDepth entries) =
      ofEntries disk project.root maxDepth entries) ∧
    (project.entries disk = .ok entries → ∃ r, project.scan disk = .ok r ∧ r.entries = entries ∧
      (∀ e ∈ r.entries, e ∈ r.files) ∧ r.files.Pairwise (fun f g => f.same g = false) ∧
      ∀ f ∈ r.files, f.isForeign = false ∧ disk.IsCanonical f ∧ disk.canonical? f = some f) := by
  have hload := Outline.ofFile_importsWithin disk project.root
  have hleast := isLeast_files project.root hentries
  rw [← disk.length_filePaths_add_two]
  refine ⟨hleast, fun d d' p => ?_, fun n hn => walkFrom_stable hload hn,
    fun n hn => sweep_stable hload hn, fun d n => ?_, fun hlocated => ?_⟩
  · -- Least sets are unique, so the depth does not matter.
    exact Set.ext_iff.mp ((hleast d).unique (hleast d')) p
  · rw [ofEntries_eq_explore]
    exact sweep_of_ended (explore_ended hload (Nat.le_of_eq disk.length_filePaths_add_two)) n
  · obtain ⟨r, hscan, hentries', hfiles⟩ := Project.scan_of_entries hlocated
    have hsound := ofEntries_sound disk project.root project.settings.maxDepth entries
    refine ⟨r, hscan, hentries', fun e he => ?_, ?_, fun f hf => ?_⟩
    · rw [hentries'] at he
      rw [hfiles]
      exact (hleast _).1.entry e he (Project.entries_canonical hlocated e he).2
    · rw [hfiles]
      exact List.pairwise_map.mpr hsound.distinct
    · rw [hfiles] at hf
      obtain ⟨v, hv, rfl⟩ := mem_files.mp hf
      have hcanonical := isCanonical_of_mem_files hentries hf
      exact ⟨hsound.own v hv, hcanonical, hcanonical.canonical?_self⟩

/-- A disk with a project of two files that import each other. -/
def Disk.mutualImports : Disk where
  root := .directory [("app", .directory [
    ("server.js", .file (some "const routes = require('./routes');\n")),
    ("routes.js", .file (some "require('./server');\n"))])]
  current := ⟨"/app"⟩

/-- What the two files come to: each of them imports the other. -/
def mutualOutlines (p : Path) : Except FileFault Outline :=
  if p.text = "/app/server.js" then
    .ok { path := p, imports := [⟨{ specifier := "./routes" }, some ⟨"/app/routes.js"⟩⟩] }
  else
    .ok { path := p, imports := [⟨{ specifier := "./server" }, some ⟨"/app/server.js"⟩⟩] }

/-- `mutualOutlines` has imports among the two files. -/
private theorem importsWithin_mutualOutlines :
    Survey.ImportsWithin mutualOutlines [⟨"/app/server.js"⟩, ⟨"/app/routes.js"⟩] := by
  intro p o ho q hq
  rw [mutualOutlines] at ho
  by_cases hserver : p.text = "/app/server.js"
  · rw [if_pos hserver] at ho
    obtain rfl := Except.ok.inj ho
    exact List.mem_cons_of_mem _ hq
  · rw [if_neg hserver] at ho
    obtain rfl := Except.ok.inj ho
    obtain rfl := List.mem_singleton.mp hq
    exact List.mem_cons_self

/-- `scan` of `Disk.mutualImports` visits the server. From `mutualOutlines`, the routes are visited
as well, however deep the walks go, and so is nothing else. -/
theorem Survey.mutualImports_scan_visits_server :
    (∀ e ∈ [Path.mk "/app/server.js"], Disk.mutualImports.IsCanonical e) ∧
      (∃ r, Project.scan ⟨⟨"/app"⟩, { entry? := some "server.js", heuristics := false }⟩
          Disk.mutualImports = .ok r ∧ ⟨"/app/server.js"⟩ ∈ r.files) ∧
      ∀ maxDepth p, p ∈ (explore mutualOutlines maxDepth 4 [⟨"/app/server.js"⟩]).files ↔
        p = ⟨"/app/server.js"⟩ ∨ p = ⟨"/app/routes.js"⟩ := by
  have hentries : ∀ e ∈ [Path.mk "/app/server.js"], Disk.mutualImports.IsCanonical e := by
    intro e he
    obtain rfl := List.mem_singleton.mp he
    exact ⟨⟨"server.js"⟩, by decide +kernel⟩
  obtain ⟨r, hscan, hr, hfiles, _⟩ := (files_least_import_closed Disk.mutualImports
    ⟨⟨"/app"⟩, { entry? := some "server.js", heuristics := false }⟩ [⟨"/app/server.js"⟩]
    hentries).2.2.2.2.2 (by decide +kernel)
  refine ⟨hentries, ⟨r, hscan, hfiles _ (by simp [hr])⟩, fun maxDepth p => ?_⟩
  -- The two files are closed under imports, and there is no smaller set with the server.
  have hclosed : ImportClosed mutualOutlines [⟨"/app/server.js"⟩]
      {p | p = ⟨"/app/server.js"⟩ ∨ p = ⟨"/app/routes.js"⟩} := by
    refine ⟨fun e he _ => Or.inl (List.mem_singleton.mp he), fun _ _ o ho q hq _ => ?_⟩
    simpa using importsWithin_mutualOutlines _ o ho q hq
  have hsame : ∀ p ∈ {p : Path | p = ⟨"/app/server.js"⟩ ∨ p = ⟨"/app/routes.js"⟩},
      ∀ q ∈ {p : Path | p = ⟨"/app/server.js"⟩ ∨ p = ⟨"/app/routes.js"⟩}, p.same q = true →
        p = q := by
    rintro p (rfl | rfl) q (rfl | rfl) <;> decide +kernel
  have hleast : IsLeast {T | ImportClosed mutualOutlines [⟨"/app/server.js"⟩] T}
      {p | p ∈ (explore mutualOutlines maxDepth 4 [⟨"/app/server.js"⟩]).files} :=
    isLeast_files_explore importsWithin_mutualOutlines (Nat.le_refl 4) hclosed hsame
  refine ⟨fun hp => hleast.2 hclosed hp, ?_⟩
  have hserver := hleast.1.entry ⟨"/app/server.js"⟩ List.mem_cons_self (by decide +kernel)
  rintro (rfl | rfl)
  · exact hserver
  · exact hleast.1.imported _ hserver _ rfl _ List.mem_cons_self (by decide +kernel)

end Disk

end RouteAtlas
