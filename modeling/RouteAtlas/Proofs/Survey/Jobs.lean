import RouteAtlas.Proofs.Survey.Bookkeeping

/-!
# Inference job by job

What handlers read can be worked out in any order, and by several threads: there is one job for each
route, given by the path of a file and the number of the route in it. All jobs look at the survey as
it was before the first of them; their results are then merged into the files, one after the other.
That comes to what `Survey.inferred` says in one line, since no two files have the same path and
each job changes the route that it is for and no other.

## Key results

- `foldl_modify_range`: changing the members of a list by number, one after the other
- `foldl_mergeAt_jobs`: what all jobs together do to one file
- `runJobs_eq_inferred`, `runJobs_ofEntries`: the loop over the jobs
-/

namespace RouteAtlas.Survey

variable {load : Path → Except FileFault Outline} {entries : List Path} {s : Survey} {o : Outline}

/-! ## The loop -/

/-- The jobs of some files: each file, with the number of each of its routes. -/
def jobsOf (files : List Outline) : List (Path × Nat) :=
  files.flatMap fun o => (List.range o.routes.length).map (o.path, ·)

/-- What a job finds out. -/
def jobFacts? (s : Survey) (job : Path × Nat) : Option Facts := do
  let file ← s.outline? job.1
  let route ← file.routes[job.2]?
  s.facts? file route

/-- The route with what has been found out, if anything has. -/
def mergeFacts (facts? : Option Facts) (route : Route) : Route :=
  match facts? with
  | some facts => { route with endpoint := facts.applyTo route.endpoint }
  | none => route

/-- The file with the result of a job merged into the route that it is for. -/
def mergeAt (result : (Path × Nat) × Option Facts) (o : Outline) : Outline :=
  if o.path.same result.1.1 then
    { o with routes := o.routes.modify result.1.2 (mergeFacts result.2) }
  else o

/-- The files of a survey after all jobs: first all results are worked out, then they are merged in
the order of the jobs. -/
def runJobs (s : Survey) : List Outline :=
  ((jobsOf s.outlines).map fun job => (job, s.jobFacts? job)).foldl
    (fun files result => files.map (mergeAt result)) s.outlines

/-! ## One route after the other -/

/-- `modify` by number, one after the other, changes the first members of a list. -/
private theorem getElem?_foldl_modify {α : Type} (change : Nat → α → α) (l : List α) (n j : Nat) :
    ((List.range n).foldl (fun l i => l.modify i (change i)) l)[j]? =
      if j < n then l[j]?.map (change j) else l[j]? := by
  induction n with
  | zero => rfl
  | succ n ih =>
    rw [List.range_succ, List.foldl_append, List.foldl_cons, List.foldl_nil, List.getElem?_modify,
      ih]
    -- The last number changes one member; those before it have had their turn, those after it have
    -- not.
    rcases Nat.lt_trichotomy j n with hlt | rfl | hgt
    · simp [hlt, Nat.lt_succ_of_lt hlt, (Nat.ne_of_lt hlt).symm]
    · simp
    · simp [Nat.lt_asymm hgt, Nat.not_lt.mpr (Nat.succ_le_of_lt hgt), Nat.ne_of_lt hgt]

/-- Once every number has had its turn, `modify` has changed every member. -/
theorem foldl_modify_range {α : Type} {change : Nat → α → α} {f : α → α} (l : List α)
    (h : ∀ i a, l[i]? = some a → change i a = f a) :
    (List.range l.length).foldl (fun l i => l.modify i (change i)) l = l.map f := by
  refine List.ext_getElem? fun j => ?_
  rw [getElem?_foldl_modify, List.getElem?_map]
  cases hj : l[j]? with
  | none => simp
  | some a => simp [(List.getElem?_eq_some_iff.mp hj).1, h j a hj]

/-! ## One file after the other -/

/-- `mergeAt` can go from file to file, with all results merged into each. -/
private theorem foldl_map_mergeAt (results : List ((Path × Nat) × Option Facts))
    (files : List Outline) :
    results.foldl (fun files result => files.map (mergeAt result)) files =
      files.map fun o => results.foldl (fun o result => mergeAt result o) o := by
  induction results generalizing files with
  | nil => exact (List.map_id files).symm
  | cons result results ih =>
    rw [List.foldl_cons, ih, List.map_map]
    rfl

/-- `mergeAt` with jobs of files at other places leaves a file as it is. -/
private theorem foldl_mergeAt_other (s : Survey) {files : List Outline}
    (h : ∀ f ∈ files, o.path.same f.path = false) :
    ((jobsOf files).map fun job => (job, s.jobFacts? job)).foldl (fun o result => mergeAt result o)
      o = o := by
  -- Each of the jobs is for the path of one of the files.
  have hjob : ∀ job ∈ jobsOf files, o.path.same job.1 = false := by
    intro job hjob
    obtain ⟨f, hf, hjob⟩ := List.mem_flatMap.mp hjob
    obtain ⟨i, -, rfl⟩ := List.mem_map.mp hjob
    exact h f hf
  generalize jobsOf files = jobs at hjob
  induction jobs with
  | nil => rfl
  | cons job jobs ih =>
    obtain ⟨hfirst, hrest⟩ := List.forall_mem_cons.mp hjob
    rw [List.map_cons, List.foldl_cons, mergeAt, if_neg (ne_true_of_eq_false hfirst)]
    exact ih hrest

/-- `mergeAt` with results for a file changes its routes and nothing else. -/
private theorem foldl_mergeAt_routes (facts? : Nat → Option Facts) (numbers : List Nat)
    (o : Outline) :
    (numbers.map fun i => ((o.path, i), facts? i)).foldl (fun o result => mergeAt result o) o =
      { o with routes :=
        numbers.foldl (fun routes i => routes.modify i (mergeFacts (facts? i))) o.routes } := by
  -- The path stays while the routes change, so this is shown for any routes.
  have hstep : ∀ routes : List Route,
      (numbers.map fun i => ((o.path, i), facts? i)).foldl (fun o result => mergeAt result o)
        { o with routes } =
      { o with routes :=
        numbers.foldl (fun routes i => routes.modify i (mergeFacts (facts? i))) routes } := by
    induction numbers with
    | nil => exact fun _ => rfl
    | cons i numbers ih =>
      intro routes
      rw [List.map_cons, List.foldl_cons, mergeAt, if_pos (Path.same_refl _), ih, List.foldl_cons]
  exact hstep o.routes

/-- `mergeAt` with the jobs of a file makes it the file with what its handlers read. -/
private theorem foldl_mergeAt_own (hown : s.outline? o.path = some o) :
    ((jobsOf [o]).map fun job => (job, s.jobFacts? job)).foldl
      (fun o result => mergeAt result o) o =
      s.withFacts o := by
  have hjobs : ((jobsOf [o]).map fun job => (job, s.jobFacts? job)) =
      (List.range o.routes.length).map fun i => ((o.path, i), s.jobFacts? (o.path, i)) := by
    rw [jobsOf, List.flatMap_singleton, List.map_map]
    rfl
  -- A job looks its route up in the survey, where the file is as it was before all jobs.
  have hroute : ∀ i route, o.routes[i]? = some route →
      mergeFacts (s.jobFacts? (o.path, i)) route = s.inferRoute o route := by
    intro i route hroute
    have hfacts : s.jobFacts? (o.path, i) = s.facts? o route := by
      simp [jobFacts?, hown, hroute]
    rw [hfacts]
    rfl
  rw [hjobs, foldl_mergeAt_routes, foldl_modify_range o.routes hroute, withFacts]

/-- `mergeAt` with all jobs makes a file the file with what its handlers read. -/
theorem foldl_mergeAt_jobs (hdistinct : s.outlines.Pairwise fun f g => f.path.same g.path = false)
    (ho : o ∈ s.outlines) (hown : s.outline? o.path = some o) :
    ((jobsOf s.outlines).map fun job => (job, s.jobFacts? job)).foldl
      (fun o result => mergeAt result o) o =
      s.withFacts o := by
  -- The jobs of the files before it and after it are for other paths.
  obtain ⟨before, after, hsplit⟩ := List.append_of_mem ho
  rw [hsplit, List.pairwise_append, List.pairwise_cons] at hdistinct
  obtain ⟨-, ⟨hafter, -⟩, hbefore⟩ := hdistinct
  have hothers : ∀ f ∈ before, o.path.same f.path = false := fun f hf => by
    rw [Path.same_comm]
    exact hbefore f hf o List.mem_cons_self
  have hjobs : jobsOf s.outlines = jobsOf before ++ (jobsOf [o] ++ jobsOf after) := by
    rw [hsplit, jobsOf, List.flatMap_append, List.flatMap_cons, jobsOf, jobsOf, jobsOf,
      List.flatMap_singleton]
  rw [hjobs, List.map_append, List.map_append, List.foldl_append, List.foldl_append,
    foldl_mergeAt_other s hothers, foldl_mergeAt_own hown]
  exact foldl_mergeAt_other s
    (show ∀ f ∈ after, (s.withFacts o).path.same f.path = false from hafter)

/-! ## All files -/

/-- `outline?` under the path of an outline of a `Sound` survey gives that outline. -/
private theorem Sound.outline?_path (hs : Sound load entries s)
    (hpath : ∀ p o, load p = .ok o → o.path = p) (ho : o ∈ s.outlines) :
    s.outline? o.path = some o := by
  obtain ⟨v, hv, rfl⟩ := List.mem_map.mp ho
  have hfind : s.visits.find? (·.path.same v.outline.path) = some v := by
    rw [hs.path_outline hpath hv]
    exact hs.find?_eq_some_iff.mpr ⟨hv, Path.same_refl _⟩
  rw [outline?, hfind, Option.map_some]

/-- `runJobs` gives the outlines with what their handlers read, of any survey whose files are at
different places. -/
theorem runJobs_eq_inferred (hs : Sound load entries s)
    (hpath : ∀ p o, load p = .ok o → o.path = p) :
    s.runJobs = s.inferred := by
  -- Outlines have the paths of their visits, which are to different places.
  have hdistinct : s.outlines.Pairwise fun f g => f.path.same g.path = false := by
    refine List.pairwise_map.mpr (hs.distinct.imp_of_mem fun {v w} hv hw hne => ?_)
    rwa [hs.path_outline hpath hv, hs.path_outline hpath hw]
  rw [runJobs, foldl_map_mergeAt, inferred_eq_map_withFacts]
  exact List.map_congr_left fun o ho => foldl_mergeAt_jobs hdistinct ho (hs.outline?_path hpath ho)

/-- `runJobs`, in a scan, gives what the endpoints are made from. -/
theorem runJobs_ofEntries (disk : Disk) (root : Path) (maxDepth : Nat) (entries : List Path) :
    (ofEntries disk root maxDepth entries).runJobs =
      (ofEntries disk root maxDepth entries).inferred :=
  runJobs_eq_inferred (ofEntries_sound disk root maxDepth entries) fun _ _ => Outline.path_ofFile

end RouteAtlas.Survey
