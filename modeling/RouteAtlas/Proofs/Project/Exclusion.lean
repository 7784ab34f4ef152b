import RouteAtlas.Proofs.Project.Applications

/-!
# Excluded paths

Patterns of excluded paths are meant for all entry points that are looked for. The search for
applications keeps to them: it finds no file that is excluded. The main file of the package and the
files with usual names are taken wherever they are, so these are just the ones that can be excluded
and detected all the same.

## Key results

- `mem_manifestMain_iff`, `mem_usualFiles_iff`: the files that are looked for by name
- `isExcludedFrom_of_mem_applications`: no application that is found is excluded
- `excluded_candidates_iff`: the candidates that are excluded
-/

namespace RouteAtlas.EntryPoints

variable {disk : Disk} {root p : Path} {settings : Settings} {globs : List Glob}
  {names : List String}

/-- One of the patterns matches the path as it goes on from the root. -/
def isExcludedFrom (globs : List Glob) (root p : Path) : Bool :=
  (p.within? root).any fun rest => isExcluded globs (rest.map Component.text)

/-- The path is that of the file that the package manifest names as its main one. -/
def IsMain (disk : Disk) (root p : Path) : Prop :=
  ∃ text main, disk.read (root.join "package.json") = .ok text ∧
    (JsonValue.read text).bind mainOf? = some main ∧
    p = root.join main

/-- The path is that of a file with a usual name in a usual place. -/
def IsUsual (root p : Path) : Prop :=
  ∃ directory ∈ root :: usualDirectories.map root.join, ∃ name ∈ usualNames,
    ∃ extension ∈ Language.extensions,
    p = directory.join (name ++ "." ++ extension)

/-! ## What is looked for by name -/

/-- `manifestMain` has the main file of the package, if there is such a file. -/
theorem mem_manifestMain_iff :
    p ∈ manifestMain disk root ↔ IsMain disk root p ∧ disk.isFile p = true := by
  unfold manifestMain IsMain
  -- Without a manifest, or a main file named in it, there is nothing on either side.
  cases hread : disk.read (root.join "package.json") with
  | error fault => simp
  | ok text =>
    cases hmain : (JsonValue.read text).bind mainOf? with
    | none => simp [hmain]
    | some main => simp [hmain]

/-- `usualFiles` has the files with usual names in usual places. -/
theorem mem_usualFiles_iff : p ∈ usualFiles disk root ↔ IsUsual root p ∧ disk.isFile p = true := by
  unfold usualFiles IsUsual
  rw [List.mem_filter]
  refine and_congr_left fun _ => ?_
  simp only [List.mem_flatMap, List.mem_map, @eq_comm _ _ p]

/-! ## What is searched for -/

/-- `isExcludedFrom` judges a path below the root by the names along it, as `isExcluded` does. -/
private theorem isExcludedFrom_join (hne : names ≠ []) (hnames : ∀ n ∈ names, Path.IsName n) :
    isExcludedFrom globs root (root.join ("/".intercalate names)) = isExcluded globs names := by
  have htext : (names.map Component.name).map Component.text = names := by
    rw [List.map_map]
    exact List.map_id names
  rw [isExcludedFrom, Path.within?_join_intercalate root hne hnames, Option.any_some, htext]

/-- `applications` finds no file that is excluded. -/
theorem isExcludedFrom_of_mem_applications (hproper : ∀ e, disk.get? root = some e → e.Proper)
    (h : p ∈ applications disk root settings globs) : isExcludedFrom globs root p = false := by
  cases hroot : disk.get? root with
  | none =>
    rw [applications, hroot] at h
    exact absurd h List.not_mem_nil
  | some e =>
    rw [applications_eq_map hroot] at h
    -- The search asks the patterns about the names, and the path gives the same names back.
    obtain ⟨names, hnames, rfl⟩ := List.mem_map.mp h
    have hleads := (mem_applicationsAmong_members_iff hroot (hproper e hroot)).mp hnames
    rw [isExcludedFrom_join hleads.ne_nil (hleads.isName (hproper e hroot))]
    obtain ⟨_, _, file, -, -, happlication⟩ := hleads.application
    exact happlication.notExcluded

/-! ## All candidates -/

/-- `candidates` are files of three kinds, if anything is looked for. -/
private theorem mem_candidates_iff (hentry : settings.entry? = none) :
    p ∈ candidates disk root settings globs ↔
      settings.heuristics = true ∧ (p ∈ manifestMain disk root ∨ p ∈ usualFiles disk root ∨
        p ∈ applications disk root settings globs) := by
  rw [candidates, hentry]
  cases settings.heuristics with
  | false => simp
  | true => simp

/-- Of the `candidates` that are looked for, those that are excluded are the main file of the
package and the files with usual names, as far as there are such files and they are excluded. -/
theorem excluded_candidates_iff (hproper : ∀ e, disk.get? root = some e → e.Proper) :
    (p ∈ candidates disk root { settings with entry? := none } globs ∧
      isExcludedFrom globs root p = true) ↔
      settings.heuristics = true ∧ disk.isFile p = true ∧ (IsMain disk root p ∨ IsUsual root p) ∧
        isExcludedFrom globs root p = true := by
  rw [mem_candidates_iff rfl, mem_manifestMain_iff, mem_usualFiles_iff]
  constructor
  · rintro ⟨⟨hheuristics, hmain | husual | happlication⟩, hexcluded⟩
    · exact ⟨hheuristics, hmain.2, Or.inl hmain.1, hexcluded⟩
    · exact ⟨hheuristics, husual.2, Or.inr husual.1, hexcluded⟩
    · -- The search has left out what is excluded.
      have hkept := isExcludedFrom_of_mem_applications hproper happlication
      exact absurd hexcluded (ne_true_of_eq_false hkept)
  · rintro ⟨hheuristics, hfile, hmain | husual, hexcluded⟩
    · exact ⟨⟨hheuristics, Or.inl ⟨hmain, hfile⟩⟩, hexcluded⟩
    · exact ⟨⟨hheuristics, Or.inr (Or.inl ⟨husual, hfile⟩)⟩, hexcluded⟩

/-- The pattern of everything in the directory `src`. -/
def sourcesPattern : Glob := [.char 's', .char 'r', .char 'c', .anyBack]

/-- The application of `olderVersionKept` is not among the `candidates` when its directory is
excluded. -/
theorem olderVersionKept_excluded :
    isExcludedFrom [sourcesPattern] ⟨"/"⟩ ⟨"/src/web.js"⟩ = true ∧
      ⟨"/src/web.js"⟩ ∉ candidates ⟨.directory olderVersionKept, ⟨"/"⟩⟩ ⟨"/"⟩ {}
        [sourcesPattern] := by
  have hexcluded : isExcludedFrom [sourcesPattern] ⟨"/"⟩ ⟨"/src/web.js"⟩ = true := by decide +kernel
  refine ⟨hexcluded, fun hcandidate => ?_⟩
  have hproper : ∀ e, Disk.get? ⟨.directory olderVersionKept, ⟨"/"⟩⟩ ⟨"/"⟩ = some e → e.Proper := by
    rw [get?_olderVersionKept]
    rintro _ ⟨⟩
    exact proper_olderVersionKept
  obtain ⟨-, -, hmain | husual, -⟩ :=
    (@excluded_candidates_iff _ _ _ {} _ hproper).mp ⟨hcandidate, hexcluded⟩
  · -- There is no manifest.
    obtain ⟨text, main, hread, -, -⟩ := hmain
    have hmissing : Disk.read ⟨.directory olderVersionKept, ⟨"/"⟩⟩
        (Path.join ⟨"/"⟩ "package.json") =
          .error .missing := by decide +kernel
    exact nomatch hread.symm.trans hmissing
  · -- Each of the usual paths is another one.
    revert husual
    unfold IsUsual
    decide +kernel

/-- A project whose only file has a usual name. -/
def serverOnly : Disk := ⟨.directory [("server.js", .file (some ""))], ⟨"/"⟩⟩

/-- Settings that exclude it. -/
def serverExcluded : Settings := { excludedPaths := ["server.js"] }

/-- The pattern of these settings. -/
def serverPattern : Glob := "server.js".toList.map .char

/-- A file with a usual name is among the `candidates` although it is excluded. -/
theorem serverExcluded_detected :
    serverExcluded.excluded = .ok [serverPattern] ∧
      isExcludedFrom [serverPattern] ⟨"/"⟩ ⟨"/server.js"⟩ = true ∧
      ⟨"/server.js"⟩ ∈ candidates serverOnly ⟨"/"⟩ serverExcluded [serverPattern] := by
  have husual : IsUsual ⟨"/"⟩ ⟨"/server.js"⟩ := by
    refine ⟨⟨"/"⟩, List.mem_cons_self, "server", by decide, "js", by decide, ?_⟩
    decide +kernel
  have hfile : serverOnly.isFile ⟨"/server.js"⟩ = true := by decide +kernel
  refine ⟨rfl, by decide +kernel, (mem_candidates_iff rfl).mpr ⟨rfl, ?_⟩⟩
  exact Or.inr (Or.inl (mem_usualFiles_iff.mpr ⟨husual, hfile⟩))

end RouteAtlas.EntryPoints
