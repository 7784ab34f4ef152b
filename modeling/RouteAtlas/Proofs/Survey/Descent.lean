import RouteAtlas.Proofs.Survey.Closure

/-!
# Walks as a recursion

A walk works through a stack of tasks. It comes to the same as the recursion that visits a file and
then goes on with each of its imports in turn. On the stack there may be several tasks for one file,
at different depths, and tasks for files that have been visited since; but a task for a file that
has been visited does nothing, neither on the stack nor in the recursion, so it does not matter when
it is dropped.

The recursion ends whatever files import, because it goes one level deeper each time.

## Key results

- `descend_of_has`, `foldl_descend_filter`: files that have been visited may be left out
- `performs_descend`: a task on the stack is a call of the recursion
- `walkFrom_eq_descend`: a walk is the recursion, on any import graph and from any survey
-/

namespace RouteAtlas

namespace Survey

/-- Visits a file and then, one after the other, all that it imports. Files too deep are put off,
files of packages and files that have been visited are left alone. -/
def descend (load : Path → Except FileFault Outline) (maxDepth : Nat) (p : Path) (depth : Nat)
    (s : Survey) :
    Survey :=
  if maxDepth < depth then s.putOff p
  else if p.isForeign || s.has p then s
  else
    let v : Visit := ⟨p, load p⟩
    v.imports.foldl (fun s q => descend load maxDepth q (depth + 1) s) (s.record [v])
termination_by maxDepth + 1 - depth

variable {load : Path → Except FileFault Outline} {maxDepth depth : Nat} {s t : Survey} {p : Path}

/-! ## Cases of the recursion -/

/-- `descend` puts off a file that is too deep. -/
private theorem descend_of_lt (h : maxDepth < depth) :
    descend load maxDepth p depth s = s.putOff p := by
  rw [descend, if_pos h]

/-- `descend` leaves a file alone that is of a package or has been visited. -/
private theorem descend_of_skip (h : depth ≤ maxDepth) (hskip : (p.isForeign || s.has p) = true) :
    descend load maxDepth p depth s = s := by
  rw [descend, if_neg (Nat.not_lt.mpr h), if_pos hskip]

/-! ## Files that have been visited -/

private theorem putOff_of_has (h : s.has p = true) : s.putOff p = s := by
  rw [putOff, if_pos h]

/-- `descend` does nothing about a file that has been visited, at whatever depth. -/
theorem descend_of_has (h : s.has p = true) : descend load maxDepth p depth s = s := by
  by_cases hdepth : maxDepth < depth
  · rw [descend_of_lt hdepth, putOff_of_has h]
  · exact descend_of_skip (Nat.not_lt.mp hdepth) (by rw [h, Bool.or_true])

/-- `has` of a survey holds of any that goes on from it. -/
private theorem has_of_prefix_visits (h : s.visits <+: t.visits) (hp : s.has p = true) :
    t.has p = true := by
  obtain ⟨v, hv, hsame⟩ := has_eq_true.mp hp
  exact has_eq_true.mpr ⟨v, h.subset hv, hsame⟩

/-- Visits are added at the end by a fold if they are by each of its steps. -/
private theorem visits_prefix_foldl {step : Survey → Path → Survey}
    (hstep : ∀ s q, s.visits <+: (step s q).visits) (qs : List Path) (s : Survey) :
    s.visits <+: (qs.foldl step s).visits := by
  induction qs generalizing s with
  | nil => exact List.prefix_rfl
  | cons q qs ih => exact (hstep s q).trans (ih (step s q))

/-- `descend` adds visits at the end. -/
private theorem visits_prefix_descend (load : Path → Except FileFault Outline) (maxDepth : Nat)
    (p : Path) (depth : Nat) (s : Survey) :
    s.visits <+: (descend load maxDepth p depth s).visits := by
  fun_induction descend load maxDepth p depth s with
  | case1 p depth s _ => exact (visits_putOff s p).symm ▸ List.prefix_rfl
  | case2 p depth s _ _ => exact List.prefix_rfl
  | case3 p depth s _ _ v ih =>
    have hrecord : s.visits <+: (s.record [v]).visits := List.prefix_append _ _
    exact hrecord.trans (visits_prefix_foldl (fun s q => ih s q) _ _)

/-- `descend` through a list of files may leave out those that have been visited before. -/
theorem foldl_descend_filter (hvisits : s.visits <+: t.visits) (qs : List Path) :
    (qs.filter (!s.has ·)).foldl (fun s q => descend load maxDepth q depth s) t =
      qs.foldl (fun s q => descend load maxDepth q depth s) t := by
  induction qs generalizing t with
  | nil => rfl
  | cons q qs ih =>
    -- A file that was visited at the start still is when its turn comes.
    by_cases hq : s.has q = true
    · have hdone : descend load maxDepth q depth t = t :=
        descend_of_has (has_of_prefix_visits hvisits hq)
      rw [List.filter_cons_of_neg (by simp [hq]), List.foldl_cons, hdone, ih hvisits]
    · rw [List.filter_cons_of_pos (by simp [hq]), List.foldl_cons, List.foldl_cons]
      exact ih (hvisits.trans (visits_prefix_descend load maxDepth q depth t))

/-! ## Tasks -/

/-- Tasks on top of a stack lead from one survey to another: once they are done, the walk goes on
from there with the rest of the stack, and has made as many visits as there are more. -/
def Performs (load : Path → Except FileFault Outline) (maxDepth : Nat) (tasks : List Task)
    (s t : Survey) : Prop :=
  ∃ n, t.visits.length = s.visits.length + n ∧ ∀ k rest,
    walkStack load maxDepth (n + (k + 1)) (tasks ++ rest) s = walkStack load maxDepth (k + 1) rest t

private theorem performs_nil (s : Survey) : Performs load maxDepth [] s s :=
  ⟨0, rfl, fun k rest => by rw [Nat.zero_add, List.nil_append]⟩

/-- `Performs` one after the other is `Performs` of all the tasks together. -/
theorem Performs.append {first second : List Task} {u : Survey}
    (h : Performs load maxDepth first s t) (h' : Performs load maxDepth second t u) :
    Performs load maxDepth (first ++ second) s u := by
  obtain ⟨n, hn, hfirst⟩ := h
  obtain ⟨m, hm, hsecond⟩ := h'
  refine ⟨n + m, by omega, fun k rest => ?_⟩
  calc walkStack load maxDepth (n + m + (k + 1)) (first ++ second ++ rest) s
      = walkStack load maxDepth (n + ((m + k) + 1)) (first ++ (second ++ rest)) s := by
        rw [List.append_assoc, Nat.add_assoc, Nat.add_assoc m]
    _ = walkStack load maxDepth ((m + k) + 1) (second ++ rest) t := hfirst (m + k) (second ++ rest)
    _ = walkStack load maxDepth (m + (k + 1)) (second ++ rest) t := by rw [Nat.add_assoc]
    _ = walkStack load maxDepth (k + 1) rest u := hsecond k rest

/-- `Performs` of tasks for several files at one depth: they are done one after the other. -/
private theorem performs_foldl {step : Survey → Path → Survey}
    (hstep : ∀ s q, Performs load maxDepth [(q, depth)] s (step s q)) (qs : List Path)
    (s : Survey) :
    Performs load maxDepth (qs.map (·, depth)) s (qs.foldl step s) := by
  induction qs generalizing s with
  | nil => exact performs_nil s
  | cons q qs ih => exact (hstep s q).append (ih (step s q))

/-- `Performs` of a task that calls for no visit: the walk goes on with the rest of the stack. -/
private theorem performs_of_nextTask {task : Task} (hlength : t.visits.length = s.visits.length)
    (h : ∀ rest, nextTask maxDepth s (task :: rest) = nextTask maxDepth t rest) :
    Performs load maxDepth [task] s t := by
  refine ⟨0, hlength, fun k rest => ?_⟩
  rw [Nat.zero_add, List.singleton_append, walkStack, walkStack, h rest]

/-- `Performs` of a task that calls for a visit: the tasks that the visit leaves are done before the
rest of the stack. -/
private theorem performs_of_visit (hdepth : ¬ maxDepth < depth)
    (hvisit : ¬ (p.isForeign || s.has p) = true)
    (h : Performs load maxDepth ((s.record [⟨p, load p⟩]).tasksOf ⟨p, load p⟩ depth)
      (s.record [⟨p, load p⟩]) t) :
    Performs load maxDepth [(p, depth)] s t := by
  obtain ⟨n, hn, hwalk⟩ := h
  refine ⟨n + 1, ?_, fun k rest => ?_⟩
  · rw [hn, visits_record, List.length_append, List.length_singleton, Nat.add_assoc, Nat.add_comm 1]
  · have hnext : nextTask maxDepth s ((p, depth) :: rest) = (s, some ((p, depth), rest)) := by
      rw [nextTask, if_neg hdepth, if_neg hvisit]
    rw [List.singleton_append, Nat.add_right_comm, walkStack, hnext]
    exact hwalk k rest

/-- `descend` is what a task on the stack performs. -/
theorem performs_descend (load : Path → Except FileFault Outline) (maxDepth : Nat) (p : Path)
    (depth : Nat) (s : Survey) :
    Performs load maxDepth [(p, depth)] s (descend load maxDepth p depth s) := by
  fun_induction descend load maxDepth p depth s with
  | case1 p depth s hdepth =>
    refine performs_of_nextTask (by rw [visits_putOff]) fun rest => ?_
    rw [nextTask, if_pos hdepth]
  | case2 p depth s hdepth hskip =>
    refine performs_of_nextTask rfl fun rest => ?_
    rw [nextTask, if_neg hdepth, if_pos hskip]
  | case3 p depth s hdepth hvisit v ih =>
    refine performs_of_visit hdepth hvisit ?_
    -- The stack gets the imports that have not been visited, the recursion goes through all of
    -- them.
    rw [← foldl_descend_filter List.prefix_rfl]
    exact performs_foldl (fun s q => ih s q) _ _

/-! ## Walks -/

/-- `walkFrom`, if it may make more visits than `descend` makes, ends where `descend` ends. -/
private theorem walkFrom_eq_of_length_lt {visits : Nat} {entry : Path}
    (h : (descend load maxDepth entry 0 s).visits.length < s.visits.length + visits) :
    walkFrom load maxDepth visits entry s = descend load maxDepth entry 0 s := by
  obtain ⟨n, hn, hwalk⟩ := performs_descend load maxDepth entry 0 s
  obtain ⟨k, rfl⟩ : ∃ k, visits = n + (k + 1) := ⟨visits - n - 1, by omega⟩
  exact hwalk k []

/-- `walkFrom` ends, and ends in the survey that `descend` gives: the same files in the same order
with what came of reading them, and the same files put off in the same order. It does so on
any import graph, from any survey and whatever the depth limit, as long as it may make more visits
than `descend` makes; on a disk, as many visits as walks are given there are enough. -/
theorem walkFrom_eq_descend (maxDepth : Nat) (entry : Path) (s : Survey) :
    (∀ (load : Path → Except FileFault Outline) (visits : Nat),
      (descend load maxDepth entry 0 s).visits.length < s.visits.length + visits →
        walkFrom load maxDepth visits entry s = descend load maxDepth entry 0 s) ∧
    ∀ (disk : Disk) (root : Path),
      walkFrom (Outline.ofFile disk root) maxDepth disk.visitBound entry s =
        descend (Outline.ofFile disk root) maxDepth entry 0 s := by
  refine ⟨fun load visits h => walkFrom_eq_of_length_lt h, fun disk root => ?_⟩
  let load := Outline.ofFile disk root
  -- The walk gives the same with so many visits that the first part applies.
  let visits := (descend load maxDepth entry 0 s).visits.length + disk.visitBound + 1
  have hstable : walkFrom load maxDepth visits entry s =
      walkFrom load maxDepth disk.visitBound entry s := by
    have hbound := disk.length_filePaths_add_two
    rw [← hbound]
    exact walkFrom_stable (Outline.ofFile_importsWithin disk root) (by omega) maxDepth entry s
  rw [← hstable]
  exact walkFrom_eq_of_length_lt (by omega)

/-- Three files that import each other, one of which also imports a file that cannot be read. -/
def sharedImports (p : Path) : Except FileFault Outline :=
  let importing (files : List String) : Except FileFault Outline :=
    .ok { path := p, imports := files.map fun f => { specifier := f, file? := some ⟨f⟩ } }
  match p.text with
  | "/a.js" => importing ["/b.js", "/c.js"]
  | "/b.js" => importing ["/a.js", "/c.js", "/d.js"]
  | "/c.js" => importing ["/b.js"]
  | _ => .error (.read .missing)

/-- One import deep in `sharedImports`, the third file is put off when it is met behind the second,
and visited when the first comes to it. -/
theorem sharedImports_walk_descends :
    (descend sharedImports 1 ⟨"/a.js"⟩ 0 {}).visits.length < ({} : Survey).visits.length + 4 ∧
      walkFrom sharedImports 1 4 ⟨"/a.js"⟩ {} = descend sharedImports 1 ⟨"/a.js"⟩ 0 {} ∧
      (descend sharedImports 1 ⟨"/a.js"⟩ 0 {}).files = [⟨"/a.js"⟩, ⟨"/b.js"⟩, ⟨"/c.js"⟩] ∧
      (descend sharedImports 1 ⟨"/a.js"⟩ 0 {}).pending = [⟨"/c.js"⟩, ⟨"/d.js"⟩] := by
  have hvisits : (descend sharedImports 1 ⟨"/a.js"⟩ 0 {}).visits.length <
      ({} : Survey).visits.length + 4 := by
    decide +kernel
  have hwalk := (walkFrom_eq_descend 1 ⟨"/a.js"⟩ {}).1 sharedImports 4 hvisits
  exact ⟨hvisits, hwalk, hwalk ▸ by decide +kernel, hwalk ▸ by decide +kernel⟩

end Survey

end RouteAtlas
