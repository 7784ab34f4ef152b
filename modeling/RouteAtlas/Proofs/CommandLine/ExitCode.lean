import RouteAtlas.CommandLine.Run
import RouteAtlas.Proofs.Catalogue.LongestForm
import RouteAtlas.Proofs.Catalogue.WellFormed
import RouteAtlas.Proofs.Project.Handlers
import RouteAtlas.Proofs.Survey.Closure

/-!
# The exit code of a scan

A scan that can be done ends with exit code 0 exactly if one of the files it has visited declares a
route. That the catalogue is not empty then is not obvious, since forms of routes are left out of it
for two reasons; see `Catalogue.ofOutlines_eq_nil_iff`.

## Key results

- `endpoints_scan_eq_nil_iff`: when a scan finds no endpoint
- when the exit code of a scan is 0
-/

namespace RouteAtlas

variable {disk : Disk}

/-! ## What a scan finds -/

/-- `inferred` outlines give an empty catalogue if no outline has a route. -/
private theorem Survey.ofOutlines_inferred_eq_nil_iff (s : Survey) :
    Catalogue.ofOutlines s.inferred = [] ↔ ∀ o ∈ s.outlines, o.routes = [] := by
  rw [Catalogue.ofOutlines_eq_nil_iff, inferred_eq_map_withFacts, List.forall_mem_map]
  simp only [withFacts, List.map_eq_nil_iff]

/-- A `Sound` survey has an outline with routes exactly if it has visited a file that declares
some. -/
private theorem Survey.Sound.exists_routes_iff {load : Path → Except FileFault Outline}
    {entries : List Path} {s : Survey} (hs : Sound load entries s) :
    (∃ o ∈ s.outlines, o.routes ≠ []) ↔ ∃ p ∈ s.files, ∃ o, load p = .ok o ∧ o.routes ≠ [] := by
  constructor
  · rintro ⟨o, ho, hroutes⟩
    obtain ⟨v, hv, rfl⟩ := List.mem_map.mp ho
    refine ⟨v.path, mem_files.mpr ⟨v, hv, rfl⟩, v.outline, ?_, hroutes⟩
    have hload := hs.loaded v hv
    cases hresult : v.result with
    | ok o => rw [← hload, hresult, Visit.outline, hresult]
    | error fault =>
      -- A file that nothing could be learnt of has no routes.
      rw [Visit.outline, hresult] at hroutes
      exact absurd rfl hroutes
  · -- A file that was visited has the outline that loading it gives.
    rintro ⟨p, hp, o, ho, hroutes⟩
    obtain ⟨v, hv, rfl⟩ := mem_files.mp hp
    have houtline : v.outline = o := by rw [Visit.outline, hs.loaded v hv, ho]
    exact ⟨o, List.mem_map.mpr ⟨v, hv, houtline⟩, hroutes⟩

/-- `scanFrom` no entry point finds nothing. -/
private theorem Project.scanFrom_nil (project : Project) : project.scanFrom disk [] = {} := by
  have hsurvey : Survey.ofEntries disk project.root project.settings.maxDepth [] = {} := by
    rw [Survey.ofEntries_eq_explore, Survey.explore, List.foldl_nil, Disk.visitBound, Survey.sweep]
    rfl
  have hempty : Catalogue.ofOutlines [] = [] := Catalogue.ofOutlines_eq_nil_iff.mpr fun _ h =>
    absurd h List.not_mem_nil
  rw [scanFrom, hsurvey]
  exact congrArg (fun endpoints => ({ endpoints } : ScanResult)) hempty

/-- `scan` is `scanFrom` some entry points. -/
private theorem Project.scan_eq_ok {project : Project} {result : ScanResult}
    (h : project.scan disk = .ok result) :
    ∃ entries, project.scanFrom disk entries = result := by
  cases hentries : project.entries disk with
  | error fault =>
    rw [scan, hentries] at h
    exact absurd h (by simp [bind, Except.bind])
  | ok entries =>
    rw [scan, hentries] at h
    cases entries with
    | nil => exact ⟨[], (project.scanFrom_nil).trans (Except.ok.inj h)⟩
    | cons e rest => exact ⟨e :: rest, Except.ok.inj h⟩

/-- `scan` finds no endpoint exactly if no file it has visited declares a route. -/
theorem Project.endpoints_scan_eq_nil_iff {project : Project} {result : ScanResult}
    (h : project.scan disk = .ok result) :
    result.endpoints = [] ↔
      ¬ ∃ p ∈ result.files, ∃ o, Outline.ofFile disk project.root p = .ok o ∧ o.routes ≠ [] := by
  obtain ⟨entries, rfl⟩ := project.scan_eq_ok h
  -- What the scan has visited is what loading the files gives, so the outlines can be told from the
  -- disk.
  have hsound := Survey.ofEntries_sound disk project.root project.settings.maxDepth entries
  rw [scanFrom, Survey.ofOutlines_inferred_eq_nil_iff, ← hsound.exists_routes_iff]
  simp only [not_exists, not_and, not_not]

/-- `scan` finds no endpoint where there is no entry point. -/
private theorem Project.endpoints_eq_nil_of_entries {project : Project} {result : ScanResult}
    (h : project.scan disk = .ok result) (hnil : result.entries = []) : result.endpoints = [] := by
  obtain ⟨entries, rfl⟩ := project.scan_eq_ok h
  obtain rfl : entries = [] := hnil
  rw [scanFrom_nil]

/-! ## The exit code -/

namespace CommandLine

/-- The request asks for a scan that can be done, of the given project and with the given result. -/
structure Request.Scans (r : Request) (disk : Disk) (project : Project) (result : ScanResult) :
    Prop where
  format : (Format.ofName? r.format).isSome
  settings : ∃ s, r.settings disk = .ok s ∧ (r.override disk s).validate = .ok () ∧
    Project.withSettings disk ⟨r.path⟩ (r.override disk s) = .ok project
  scan : project.scan disk = .ok result

/-- `runScan` of a scan that can be done ends with exit code 0 or 1, by whether there are
endpoints. -/
theorem Request.Scans.runScan {r : Request} {project : Project} {result : ScanResult}
    (h : r.Scans disk project result) (colours : Bool) :
    ∃ output, runScan disk colours r =
      .ok ⟨if result.endpoints = [] then 1 else 0, output, none⟩ := by
  obtain ⟨format, hformat⟩ := Option.isSome_iff_exists.mp h.format
  obtain ⟨s, hs, hvalid, hproject⟩ := h.settings
  -- Without entry points there are no endpoints either, so of the two tests one decides.
  have hcode : (result.entries.isEmpty || result.endpoints.isEmpty) =
      decide (result.endpoints = []) := by
    rw [Bool.eq_iff_iff, Bool.or_eq_true, List.isEmpty_iff, List.isEmpty_iff, decide_eq_true_eq]
    exact or_iff_right_of_imp (Project.endpoints_eq_nil_of_entries h.scan)
  refine ⟨scanOutput format colours r.path project.root result, ?_⟩
  unfold CommandLine.runScan
  simp only [hformat, hs, hvalid, Failure.ofSettings, hproject, h.scan, bind, Except.bind, pure,
    Except.pure, hcode, decide_eq_true_eq]

/-- `Catalogue.ofOutlines` is empty exactly if no file declares a route. So `runScan` of a scan that
can be done ends with exit code 0 exactly if some file that it has visited declares one. -/
theorem runScan_exitCode_eq_zero_iff :
    (∀ files, Catalogue.ofOutlines files = [] ↔ ∀ o ∈ files, o.routes = []) ∧
    ∀ (disk : Disk) (colours : Bool) (r : Request) (project : Project) (result : ScanResult),
      r.Scans disk project result → ∃ outcome, runScan disk colours r = .ok outcome ∧
        (outcome.exitCode = 0 ↔
          ∃ p ∈ result.files, ∃ o, Outline.ofFile disk project.root p = .ok o ∧ o.routes ≠ []) := by
  refine ⟨fun files => Catalogue.ofOutlines_eq_nil_iff, fun disk colours r project result h => ?_⟩
  obtain ⟨output, hrun⟩ := h.runScan colours
  refine ⟨_, hrun, ?_⟩
  show (if result.endpoints = [] then 1 else 0) = 0 ↔ _
  have hnone := Project.endpoints_scan_eq_nil_iff h.scan
  -- The code is decided by the endpoints, and these by the routes of the files.
  by_cases hempty : result.endpoints = []
  · rw [if_pos hempty]
    exact iff_of_false Nat.one_ne_zero (hnone.mp hempty)
  · rw [if_neg hempty]
    exact iff_of_true rfl (not_not.mp fun hroute => hempty (hnone.mpr hroute))

/-- A disk with a project that has one file of code. -/
def oneFile (text? : Option String) : Disk where
  root := .directory
    [("a.js", .file text?), ("routescout.yaml", .file (some "heuristics: false\n"))]
  current := ⟨"/"⟩

/-- A request to scan the project from that file. -/
def oneFileScan : Request := { path := "/", entry? := some "a.js", format := "JSON" }

/-- The project that is scanned. -/
def oneFileProject : Project := ⟨⟨"/"⟩, { entry? := some "/a.js", heuristics := false }⟩

/-- `oneFileScan` can be done where the settings and the file are found, and it visits the file. -/
private theorem oneFileScan_scans (hroot : Project.canonicalRoot disk ⟨"/"⟩ = .ok ⟨"/"⟩)
    (hsettings : oneFileScan.settings disk = .ok { heuristics := false })
    (hoverride : oneFileScan.override disk { heuristics := false } = oneFileProject.settings)
    (hentries : oneFileProject.entries disk = .ok [⟨"/a.js"⟩]) :
    ∃ result, oneFileScan.Scans disk oneFileProject result ∧ ⟨"/a.js"⟩ ∈ result.files := by
  obtain ⟨result, hscan, _, hfiles⟩ := Project.scan_of_entries hentries
  have hvalid : oneFileProject.settings.validate = .ok () := by decide +kernel
  refine ⟨result,
    ⟨by decide +kernel, ⟨{ heuristics := false }, hsettings, hoverride ▸ hvalid, ?_⟩, hscan⟩, ?_⟩
  · rw [hoverride]
    exact congrArg (Except.map _) hroot
  · -- The entry point is a file by its canonical path, so the survey visits it.
    have hcanonical := Project.entries_canonical hentries ⟨"/a.js"⟩ List.mem_cons_self
    rw [hfiles]
    exact (Survey.isLeast_files _ (fun e he => List.mem_singleton.mp he ▸ hcanonical.1) _).1.entry _
      List.mem_cons_self hcanonical.2

/-- A mark in a line of source. -/
def mark (start : Nat) (text : String) : Syntax.Node :=
  .mk ⟨.other, false, none, ⟨start, start + text.length, 1⟩, text⟩ []

/-- The tree of a file that registers one route. -/
def rootRouteTree : Syntax.Node :=
  .onLine .program none 0 13 "a.get('/', h)"
    [.onLine .expressionStatement none 0 13 "a.get('/', h)"
      [.onLine .callExpression none 0 13 "a.get('/', h)"
        [.onLine .memberExpression (some .function) 0 5 "a.get"
          [.onLine .identifier (some .object) 0 1 "a", mark 1 ".",
           .onLine .propertyIdentifier (some .property) 2 5 "get"],
         .onLine .arguments (some .arguments) 5 13 "('/', h)"
          [mark 5 "(",
            .onLine .string none 6 9 "'/'" [mark 6 "'", .onLine .other none 7 8 "/", mark 8 "'"],
           mark 9 ",", .onLine .identifier none 11 12 "h", mark 12 ")"]]]]

/-- `oneFileScan` of a file that is not text can be done, and there is nothing to report. Of a file
with a route it ends with exit code 0; the tree of this text is given, so that the tables of the
parser need not be run through. A catalogue of nested mounts is not empty, since one of their files
declares a route. -/
theorem oneFileScan_exitCode :
    (∃ outcome, runScan (oneFile none) false oneFileScan = .ok outcome ∧ outcome.exitCode ≠ 0) ∧
    (Grammar.parse .javaScript "a.get('/', h)" = some rootRouteTree →
      ∃ outcome, runScan (oneFile (some "a.get('/', h)")) false oneFileScan = .ok outcome ∧
        outcome.exitCode = 0) ∧
    Catalogue.ofOutlines Catalogue.nestedMounts ≠ [] := by
  obtain ⟨hempty, hexit⟩ := runScan_exitCode_eq_zero_iff
  refine ⟨?_, fun hparse => ?_, fun hnil =>
    absurd ((hempty Catalogue.nestedMounts).mp hnil) (by decide)⟩
  · have hentries : oneFileProject.entries (oneFile none) = .ok [⟨"/a.js"⟩] := by decide +kernel
    obtain ⟨result, hscans, -⟩ :=
      oneFileScan_scans (by decide +kernel) (by decide +kernel) (by decide +kernel)
      hentries
    obtain ⟨outcome, hrun, hcode⟩ :=
      hexit (oneFile none) false oneFileScan oneFileProject result hscans
    refine ⟨outcome, hrun, fun hzero => ?_⟩
    obtain ⟨p, hp, o, ho, _⟩ := hcode.mp hzero
    obtain ⟨result', hscan, _, hfiles⟩ := Project.scan_of_entries hentries
    obtain rfl : result' = result := Except.ok.inj (hscan.symm.trans hscans.scan)
    -- The file could not be read, so it is all that was visited.
    have hvisited : result'.files = [⟨"/a.js"⟩] := by
      rw [hfiles]
      decide +kernel
    rw [hvisited, List.mem_singleton] at hp
    subst hp
    have hread : (oneFile none).read ⟨"/a.js"⟩ = .error .notText := by decide +kernel
    rw [Outline.ofFile, hread] at ho
    cases ho
  · obtain ⟨result, hscans, hvisited⟩ :=
      @oneFileScan_scans (oneFile (some "a.get('/', h)")) (by decide +kernel)
      (by decide +kernel) (by decide +kernel) (by decide +kernel)
    obtain ⟨outcome, hrun, hcode⟩ :=
      hexit (oneFile (some "a.get('/', h)")) false oneFileScan oneFileProject
      result hscans
    have hread : (oneFile (some "a.get('/', h)")).read ⟨"/a.js"⟩ = .ok "a.get('/', h)" := by
      decide +kernel
    have hlanguage : Language.ofPath? ⟨"/a.js"⟩ = some .javaScript := by decide +kernel
    let source : SourceFile := ⟨⟨"/a.js"⟩, .javaScript, "a.get('/', h)", rootRouteTree⟩
    -- Given the tree, the outline of the file can be worked out, and it has a route.
    have houtline : Outline.ofFile (oneFile (some "a.get('/', h)")) ⟨"/"⟩ ⟨"/a.js"⟩ =
        .ok (Outline.ofSource
          (Resolver.resolve (oneFile (some "a.get('/', h)")) ⟨"/"⟩ · ⟨"/a.js"⟩) source) := by
      rw [Outline.ofFile, hread]
      simp only [Outline.ofText, SourceFile.parse, hlanguage, hparse, source]
    exact ⟨outcome, hrun, hcode.mpr ⟨⟨"/a.js"⟩, hvisited, _, houtline, by decide +kernel⟩⟩

end CommandLine

end RouteAtlas
