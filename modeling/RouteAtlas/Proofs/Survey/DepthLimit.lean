import Mathlib.Data.List.Pairwise
import RouteAtlas.Proofs.Catalogue.FileOrder
import RouteAtlas.Proofs.Project.Handlers
import RouteAtlas.Proofs.Survey.Closure

/-!
# What the depth limit changes

However deep walks may go, a survey visits the same files; only their order differs. What the
handlers of routes read does not depend on it. So catalogues made with different limits have the
same keys, but for those that no file declares and of whose forms some are continued and some are
not.

## Key results

- `Sound.visits_perm`: two surveys of the same files differ in the order of the visits
- `Sound.inferred_perm`: and so do their outlines with what the handlers read
- `exists_renumbers_ofEntries`: with another limit, routers have other numbers
-/

namespace RouteAtlas

namespace Survey

variable {load : Path → Except FileFault Outline} {entries : List Path} {s t : Survey}

/-! ## The same visits in another order -/

/-- The visits of a `Sound` survey are known from its `files`. -/
theorem Sound.visits_eq (hs : Sound load entries s) :
    s.visits = s.files.map fun p => ⟨p, load p⟩ := by
  rw [files, List.map_map]
  refine ((List.map_congr_left fun v hv => ?_).trans (List.map_id _)).symm
  rw [Function.comp_apply, ← hs.loaded v hv]
  rfl

/-- `files` of a `Sound` survey has no path twice. -/
private theorem Sound.nodup_files (hs : Sound load entries s) : s.files.Nodup := by
  refine List.pairwise_map.mpr (hs.distinct.imp fun {v w} hne heq => ?_)
  rw [heq, Path.same_refl] at hne
  exact absurd hne (by decide)

/-- Two `Sound` surveys of the same files have made the same visits. -/
theorem Sound.visits_perm (hs : Sound load entries s) (ht : Sound load entries t)
    (hfiles : ∀ p, p ∈ s.files ↔ p ∈ t.files) : s.visits.Perm t.visits := by
  rw [hs.visits_eq, ht.visits_eq]
  -- Lists without repetitions and with the same members are permutations of each other.
  exact ((List.perm_ext_iff_of_nodup hs.nodup_files ht.nodup_files).mpr fun p => hfiles p).map _

/-! ## The same outlines in another order -/

/-- `find?` by a place finds the one visit to it. -/
theorem Sound.find?_eq_some_iff (hs : Sound load entries s) {p : Path} {v : Visit} :
    s.visits.find? (·.path.same p) = some v ↔ v ∈ s.visits ∧ v.path.same p = true := by
  constructor
  · intro hfound
    exact ⟨List.mem_of_find?_eq_some hfound, by simpa using List.find?_some hfound⟩
  · rintro ⟨hv, hp⟩
    refine find?_visits hs.distinct hv hp fun w hw => ?_
    rw [Path.same_congr hw, Path.same_comm, hp]

/-- `outline?` does not depend on the order of the visits. -/
theorem Sound.outline?_eq (hs : Sound load entries s) (ht : Sound load entries t)
    (hperm : s.visits.Perm t.visits) : s.outline? = t.outline? := by
  funext p
  have hfind : s.visits.find? (·.path.same p) = t.visits.find? (·.path.same p) := by
    refine Option.ext fun v => ?_
    rw [hs.find?_eq_some_iff, ht.find?_eq_some_iff, hperm.mem_iff]
  rw [outline?, outline?, hfind]

/-- `inferRoute` depends on the outlines of files alone. -/
private theorem inferRoute_congr (h : s.outline? = t.outline?) : s.inferRoute = t.inferRoute := by
  -- The survey is looked into in one place only, where an imported name is followed to its file.
  have hfound : s.foundAt? = t.foundAt? := by
    funext p look?
    rw [foundAt?, foundAt?, h]
  have hexports : ExportsAlike t s := ⟨by simp [hfound], by simp [hfound]⟩
  exact funext hexports.inferRoute

/-- `inferred` of two surveys of the same files differs in the order only. -/
theorem Sound.inferred_perm (hs : Sound load entries s) (ht : Sound load entries t)
    (hfiles : ∀ p, p ∈ s.files ↔ p ∈ t.files) : s.inferred.Perm t.inferred := by
  have hperm := hs.visits_perm ht hfiles
  rw [inferred, inferred, inferRoute_congr (hs.outline?_eq ht hperm)]
  exact (hperm.map _).map _

/-- `outline` of a visit is that of the file visited. -/
theorem Sound.path_outline (hs : Sound load entries s) (hpath : ∀ p o, load p = .ok o → o.path = p)
    {v : Visit} (hv : v ∈ s.visits) : v.outline.path = v.path := by
  rw [Visit.outline]
  split
  · rename_i o ho
    exact hpath v.path o ((hs.loaded v hv).symm.trans ho)
  · rfl

/-- `DistinctPaths`: the files that have been outlined are at different places. -/
private theorem Sound.distinctPaths (hs : Sound load entries s)
    (hpath : ∀ p o, load p = .ok o → o.path = p) :
    Catalogue.DistinctPaths s.inferred := by
  rw [Catalogue.DistinctPaths, inferred, outlines, List.map_map, List.pairwise_map]
  refine hs.distinct.imp_of_mem fun {v w} hv hw hne => ?_
  simpa only [Function.comp_apply, hs.path_outline hpath hv, hs.path_outline hpath hw] using hne

end Survey

/-! ## Surveys of a disk with different limits -/

section Disk

variable {disk : Disk} {entries : List Path}

/-- `ofFile` gives an outline of the file itself. -/
theorem Outline.path_ofFile {root p : Path} {o : Outline} (h : Outline.ofFile disk root p = .ok o) :
    o.path = p := by
  obtain ⟨source, hpath, rfl⟩ := Outline.ofFile_eq_ok h
  exact hpath

/-- `Renumbers`: with another limit, the routers of a project have other numbers. -/
theorem Survey.exists_renumbers_ofEntries (root : Path)
    (hentries : ∀ e ∈ entries, disk.IsCanonical e) (maxDepth maxDepth' : Nat) :
    ∃ σ, Catalogue.Renumbers σ (Router.ofOutlines (ofEntries disk root maxDepth entries).inferred)
      (Router.ofOutlines (ofEntries disk root maxDepth' entries).inferred) := by
  have hsound (limit : Nat) := ofEntries_sound disk root limit entries
  -- Either limit leads to the least closed set of files, so to the same files.
  have hfiles :=
    (isLeast_files root hentries maxDepth).unique (isLeast_files root hentries maxDepth')
  exact Catalogue.exists_renumbers ((hsound maxDepth).distinctPaths fun _ _ => Outline.path_ofFile)
    ((hsound maxDepth).inferred_perm (hsound maxDepth') (Set.ext_iff.mp hfiles))

end Disk

namespace Project

/-- The project with another depth limit. -/
def withDepth (project : Project) (maxDepth : Nat) : Project :=
  { project with settings := { project.settings with maxDepth } }

/-- The routers that a scan from some entry points makes its catalogue of. -/
def routers (project : Project) (disk : Disk) (entries : List Path) : List Router :=
  Router.ofOutlines (Survey.ofEntries disk project.root project.settings.maxDepth entries).inferred

/-- `scanFrom` makes its endpoints of the `routers`. -/
private theorem endpoints_scanFrom (project : Project) (disk : Disk) (entries : List Path) :
    (project.scanFrom disk entries).endpoints =
      Catalogue.ofRouters (project.routers disk entries) := rfl

/-- `scanFrom` with two depth limits shows the same keys, but for those that are `Contested`: a key
that no file declares and of whose forms some are continued and some are not. Such a key is shown by
a scan exactly if the form of it that the scan comes to first is not continued. -/
theorem scanFrom_keys_of_depths (project : Project) (disk : Disk) (entries : List Path)
    (hentries : ∀ e ∈ entries, disk.IsCanonical e) (maxDepth maxDepth' : Nat)
    (key : Method × String) :
    let routers := fun limit => (project.withDepth limit).routers disk entries
    let shown := fun limit =>
      key ∈ ((project.withDepth limit).scanFrom disk entries).endpoints.map Endpoint.key
    (¬Catalogue.Contested (routers maxDepth) key → (shown maxDepth ↔ shown maxDepth')) ∧
      (Catalogue.Contested (routers maxDepth) key →
        (shown maxDepth ↔ Catalogue.FirstFullyMounted (routers maxDepth) key) ∧
        (shown maxDepth' ↔ Catalogue.FirstFullyMounted (routers maxDepth') key)) := by
  intro routers shown
  have hshown (limit : Nat) : shown limit ↔
      key ∈ (Catalogue.ofRouters (routers limit)).map Endpoint.key := by
    simp only [shown, routers, endpoints_scanFrom]
  -- The limit only renumbers the routers, and which keys are contested does not depend on that.
  obtain ⟨σ, hσ⟩ : ∃ σ, Catalogue.Renumbers σ (routers maxDepth) (routers maxDepth') :=
    Survey.exists_renumbers_ofEntries project.root hentries maxDepth maxDepth'
  rw [hshown maxDepth, hshown maxDepth']
  refine ⟨fun hkey => (hσ.key_mem hkey).symm, fun hkey => ⟨?_, ?_⟩⟩
  · exact Catalogue.key_mem_ofRouters_of_contested hkey
  · exact Catalogue.key_mem_ofRouters_of_contested (hσ.contested.mpr hkey)

/-- The disk of a project with four files: the first imports the second and the last and has a
route; the second mounts the third below `/w`; the third and the last both mount the first below
`/x`. -/
def crossMounts : Disk where
  root := .directory [
    ("a.js", .file
      (some "require('./b');\nrequire('./d');\nrouter.get('/y', (req, res) => res.end());\n")),
    ("b.js", .file (some "const c = require('./c');\nrouter.use('/w', c);\n")),
    ("c.js", .file (some "const a = require('./a');\nrouter.use('/x', a);\n")),
    ("d.js", .file (some "const a = require('./a');\nrouter.use('/x', a);\n"))]
  current := ⟨"/"⟩

/-- Every key of `crossMounts` that is not contested is shown alike by scans one and two imports
deep. -/
theorem crossMounts_keys_of_depths :
    (∀ e ∈ [Path.mk "/a.js"], crossMounts.IsCanonical e) ∧
      ∀ key, ¬Catalogue.Contested ((withDepth ⟨⟨"/"⟩, {}⟩ 1).routers crossMounts [⟨"/a.js"⟩]) key →
        (key ∈ ((withDepth ⟨⟨"/"⟩, {}⟩ 1).scanFrom crossMounts [⟨"/a.js"⟩]).endpoints.map
          Endpoint.key ↔
          key ∈ ((withDepth ⟨⟨"/"⟩, {}⟩ 2).scanFrom crossMounts [⟨"/a.js"⟩]).endpoints.map
            Endpoint.key) := by
  have hentries : ∀ e ∈ [Path.mk "/a.js"], crossMounts.IsCanonical e := by
    intro e he
    obtain rfl := List.mem_singleton.mp he
    exact ⟨⟨"/a.js"⟩, by decide +kernel⟩
  exact ⟨hentries, fun key hkey =>
    (scanFrom_keys_of_depths ⟨⟨"/"⟩, {}⟩ crossMounts _ hentries 1 2 key).1 hkey⟩

end Project

/-! ## A contested key -/

namespace Survey

/-- Outlines with the imports, the route and the mounts of the files of `crossMounts`. -/
def contestedFiles (p : Path) : Except FileFault Outline :=
  match p.text with
  | "/a.js" => .ok
    { path := p
      imports := [{ specifier := "./b", file? := some ⟨"/b.js"⟩ },
        { specifier := "./d", file? := some ⟨"/d.js"⟩ }]
      routes := [⟨.declare .get "/y", [], ⟨0, 0, 1⟩⟩] }
  | "/b.js" => .ok
    { path := p
      imports := [{ specifier := "./c", file? := some ⟨"/c.js"⟩ }]
      mounts := [⟨"/w", "c", some ⟨"/c.js"⟩⟩] }
  | "/c.js" => .ok
    { path := p
      imports := [{ specifier := "./a", file? := some ⟨"/a.js"⟩ }]
      mounts := [⟨"/x", "a", some ⟨"/a.js"⟩⟩] }
  | "/d.js" => .ok
    { path := p
      imports := [{ specifier := "./a", file? := some ⟨"/a.js"⟩ }]
      mounts := [⟨"/x", "a", some ⟨"/a.js"⟩⟩] }
  | _ => .error (.read .missing)

/-- The third of `contestedFiles` lies two imports deep. If it is put off, the form below the last
file's mount comes first and its key is shown; otherwise the form below the third file's mount comes
first, takes the key and is continued below `/w`, and the key is not shown. -/
theorem contestedFiles_keys_of_depths :
    (explore contestedFiles 1 6 [⟨"/a.js"⟩]).Ended ∧
      (explore contestedFiles 2 6 [⟨"/a.js"⟩]).Ended ∧
      (Method.get, "/x/y") ∈
        (Catalogue.ofOutlines (explore contestedFiles 1 6 [⟨"/a.js"⟩]).inferred).map Endpoint.key ∧
      (Method.get, "/x/y") ∉
        (Catalogue.ofOutlines (explore contestedFiles 2 6 [⟨"/a.js"⟩]).inferred).map
          Endpoint.key := by
  refine ⟨⟨by decide +kernel, by decide +kernel⟩, ⟨by decide +kernel, by decide +kernel⟩, ?_, ?_⟩
  · -- The third file comes last.
    have hrouters : Router.ofOutlines (explore contestedFiles 1 6 [⟨"/a.js"⟩]).inferred =
        [{ routes := [.declare .get "/y"] }, { mounts := [("/w", some 3)] },
          { mounts := [("/x", some 0)] },
          { mounts := [("/x", some 0)] }] := by
      decide +kernel
    rw [Catalogue.ofOutlines, hrouters, Catalogue.key_mem_ofRouters_iff_exists_form]
    decide +kernel
  · -- The third file comes before the last.
    have hrouters : Router.ofOutlines (explore contestedFiles 2 6 [⟨"/a.js"⟩]).inferred =
        [{ routes := [.declare .get "/y"] }, { mounts := [("/w", some 2)] },
          { mounts := [("/x", some 0)] },
          { mounts := [("/x", some 0)] }] := by
      decide +kernel
    rw [Catalogue.ofOutlines, hrouters, Catalogue.key_mem_ofRouters_iff_exists_form]
    decide +kernel

end Survey

end RouteAtlas
