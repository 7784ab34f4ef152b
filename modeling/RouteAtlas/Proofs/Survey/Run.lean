import Mathlib.Data.List.Pairwise
import Mathlib.Logic.Relation
import RouteAtlas.Project.Survey
import RouteAtlas.Proofs.Path.Names

/-!
# The course of a survey

Walks and sweeps are made of three kinds of steps: a file that is due is visited, a file that is due
is put off, and the files put off are cleared. What every step keeps holds after every run.

## Key results

- `walkStack_run`, `sweep_run`, `explore_run`: walks, sweeps and whole surveys are runs of steps
- `Run.visits_prefix`: visits are only ever added at the end
- `Run.sound`: what holds of the visits and the files put off after every run
-/

namespace RouteAtlas

/-! ## Batches -/

namespace Path

/-- Adds a path to a batch, unless it is to be skipped or names the same place as one of the
batch. -/
def addToBatch (skip : Path → Bool) (batch : List Path) (p : Path) : List Path :=
  if skip p || batch.any (·.same p) then batch else batch ++ [p]

/-- `addToBatch` removes nothing. -/
private theorem foldl_addToBatch_grows {skip : Path → Bool} {ps batch : List Path} :
    batch ⊆ ps.foldl (addToBatch skip) batch := by
  induction ps generalizing batch with
  | nil => exact List.Subset.refl _
  | cons p ps ih =>
    refine List.Subset.trans ?_ ih
    rw [addToBatch]
    split
    · exact List.Subset.refl _
    · exact List.subset_append_left _ _

/-- `addToBatch` adds only what was there to be added and not to be skipped. -/
theorem mem_foldl_addToBatch {skip : Path → Bool} {ps batch : List Path} {p : Path}
    (h : p ∈ ps.foldl (addToBatch skip) batch) : p ∈ batch ∨ p ∈ ps ∧ skip p = false := by
  induction ps generalizing batch with
  | nil => exact Or.inl h
  | cons q ps ih =>
    -- What is in the batch in the end was added later, or it is there after this path.
    rcases ih h with hbatch | ⟨hps, hskip⟩
    · rw [addToBatch] at hbatch
      split at hbatch
      · exact Or.inl hbatch
      · rename_i hnew
        rcases List.mem_append.mp hbatch with hold | hq
        · exact Or.inl hold
        · obtain rfl := List.mem_singleton.mp hq
          simp only [Bool.or_eq_true, not_or, Bool.not_eq_true] at hnew
          exact Or.inr ⟨List.mem_cons_self, hnew.1⟩
    · exact Or.inr ⟨List.mem_cons_of_mem _ hps, hskip⟩

/-- `addToBatch` leaves what is not to be skipped in the batch, or something that names the same
place. -/
private theorem exists_same_foldl_addToBatch (skip : Path → Bool) {ps : List Path}
    (batch : List Path) {p : Path} (hp : p ∈ ps) (hskip : skip p = false) :
    ∃ q ∈ ps.foldl (addToBatch skip) batch, q.same p = true := by
  induction ps generalizing batch with
  | nil => exact absurd hp List.not_mem_nil
  | cons r ps ih =>
    rcases List.mem_cons.mp hp with rfl | hmem
    · -- The path itself is added, or the batch has one for its place already.
      have hadded : ∃ q ∈ addToBatch skip batch p, q.same p = true := by
        rw [addToBatch]
        split
        · rename_i hold
          simpa [hskip] using hold
        · exact ⟨p, by simp, same_refl p⟩
      obtain ⟨q, hq, hsame⟩ := hadded
      have hkept : addToBatch skip batch p ⊆ ps.foldl (addToBatch skip) (addToBatch skip batch p) :=
        foldl_addToBatch_grows
      exact ⟨q, hkept hq, hsame⟩
    · exact ih _ hmem

/-- `addToBatch` never has two paths in the batch that name the same place. -/
private theorem pairwise_foldl_addToBatch {skip : Path → Bool} {ps batch : List Path}
    (h : batch.Pairwise fun p q => p.same q = false) :
    (ps.foldl (addToBatch skip) batch).Pairwise fun p q => p.same q = false := by
  induction ps generalizing batch with
  | nil => exact h
  | cons p ps ih =>
    refine ih ?_
    rw [addToBatch]
    split
    · exact h
    · rename_i hnew
      simp only [Bool.or_eq_true, not_or, Bool.not_eq_true, List.any_eq_false] at hnew
      exact List.pairwise_append.mpr ⟨h, List.pairwise_singleton _ _, by simpa using hnew.2⟩

end Path

namespace Survey

variable {load : Path → Except FileFault Outline} {entries : List Path} {s t : Survey}

/-! ## Visited and missing files -/

theorem has_eq_true {p : Path} : s.has p = true ↔ ∃ v ∈ s.visits, v.path.same p = true :=
    List.any_eq_true

@[simp] theorem visits_record (more : List Visit) : (s.record more).visits = s.visits ++ more := rfl

/-- `record` of visits in two goes is one in one go. -/
theorem record_record (more more' : List Visit) :
    (s.record more).record more' = s.record (more ++ more') := by
  rw [record, record, record, List.append_assoc]

theorem has_record {more : List Visit} {p : Path} :
    (s.record more).has p = (s.has p || more.any (·.path.same p)) := List.any_append

/-- Visits to the same place are one visit, if no two were made to one place. -/
theorem eq_of_same (hdistinct : s.visits.Pairwise fun v w => v.path.same w.path = false)
    {v w : Visit} (hv : v ∈ s.visits) (hw : w ∈ s.visits) (hsame : v.path.same w.path = true) :
    v = w := by
  have hsymm : Std.Symm fun v w : Visit => v.path.same w.path = false :=
    ⟨fun v w h => (Path.same_comm _ _).trans h⟩
  by_contra hne
  have hdiff : v.path.same w.path = false := hdistinct.forall hv hw hne
  rw [hsame] at hdiff
  exact absurd hdiff (by decide)

/-- `find?` finds a visit by what only visits to its place have. -/
theorem find?_visits (hdistinct : s.visits.Pairwise fun v w => v.path.same w.path = false)
    {v : Visit} (hv : v ∈ s.visits) {q : Visit → Bool} (hq : q v = true)
    (hother : ∀ w, q w = true → w.path.same v.path = true) : s.visits.find? q = some v := by
  obtain ⟨w, hw⟩ := Option.isSome_iff_exists.mp (List.find?_isSome.mpr ⟨v, hv, hq⟩)
  have hsame : w.path.same v.path = true := hother w (List.find?_some hw)
  rw [hw, eq_of_same hdistinct (List.mem_of_find?_eq_some hw) hv hsame]

/-- `missing` is a batch of what was put off and what is imported. -/
theorem missing_eq :
    s.missing = (s.pending ++ s.visits.flatMap (·.imports)).foldl
      (Path.addToBatch fun p => p.isForeign || s.has p) [] := by
  rw [missing]
  refine congrArg (fun f => List.foldl f [] _) (funext₂ fun batch p => ?_)
  rw [Path.addToBatch, Bool.or_assoc, Bool.or_comm (batch.any _), ← Bool.or_assoc]

/-- `missing` files were put off or imported, are no files of a package, and have not been
visited. -/
theorem of_mem_missing {p : Path} (h : p ∈ s.missing) :
    (p ∈ s.pending ∨ ∃ v ∈ s.visits, p ∈ v.imports) ∧ p.isForeign = false ∧ s.has p = false := by
  rw [missing_eq] at h
  rcases Path.mem_foldl_addToBatch h with hnil | ⟨hmem, hskip⟩
  · exact absurd hnil List.not_mem_nil
  · rw [List.mem_append, List.mem_flatMap] at hmem
    exact ⟨hmem, Bool.or_eq_false_iff.mp hskip⟩

/-- `missing` has what was put off or imported, unless it belongs to a package or has been
visited. -/
theorem exists_same_mem_missing {p : Path} (hp : p ∈ s.pending ∨ ∃ v ∈ s.visits, p ∈ v.imports)
    (hown : p.isForeign = false) (hnew : s.has p = false) : ∃ q ∈ s.missing, q.same p = true := by
  have hskip : (p.isForeign || s.has p) = false := by rw [hown, hnew]; rfl
  rw [← List.mem_flatMap, ← List.mem_append] at hp
  rw [missing_eq]
  exact Path.exists_same_foldl_addToBatch (fun p => p.isForeign || s.has p) [] hp hskip

/-- Where nothing is `missing`, all that was put off or imported has been visited. -/
theorem has_of_missing_eq_nil {p : Path} (h : s.missing = [])
    (hp : p ∈ s.pending ∨ ∃ v ∈ s.visits, p ∈ v.imports) (hown : p.isForeign = false) :
    s.has p = true := by
  cases hnew : s.has p with
  | true => rfl
  | false =>
    obtain ⟨q, hq, _⟩ := exists_same_mem_missing hp hown hnew
    rw [h] at hq
    exact absurd hq List.not_mem_nil

/-- `missing` has no two files at the same place. -/
theorem pairwise_missing : s.missing.Pairwise fun p q => p.same q = false :=
  missing_eq ▸ Path.pairwise_foldl_addToBatch List.Pairwise.nil

/-! ## Steps -/

/-- The file is due: it is an entry point, or a file that was visited imports it. -/
def Due (entries : List Path) (s : Survey) (p : Path) : Prop :=
  p ∈ entries ∨ ∃ v ∈ s.visits, p ∈ v.imports

/-- One step of a survey. -/
inductive Step (load : Path → Except FileFault Outline) (entries : List Path) : Survey → Survey →
    Prop where
  /-- A file that is due, of the project and not visited yet, is visited. -/
  | visit {s : Survey} {p : Path} (hdue : s.Due entries p) (hown : p.isForeign = false)
      (hnew : s.has p = false) : Step load entries s (s.record [⟨p, load p⟩])
  /-- A file that is due is put off. -/
  | putOff {s : Survey} {p : Path} (hdue : s.Due entries p) :
      Step load entries s { s with pending := s.pending ++ [p] }
  /-- The files put off are forgotten. -/
  | clear {s : Survey} : Step load entries s { s with pending := [] }

/-- Any number of steps of a survey. -/
abbrev Run (load : Path → Except FileFault Outline) (entries : List Path) :
    Survey → Survey → Prop :=
  Relation.ReflTransGen (Step load entries)

/-- A `Step` adds visits at the end, if any. -/
theorem Step.visits_prefix (h : Step load entries s t) : s.visits <+: t.visits := by
  cases h with
  | visit => exact List.prefix_append _ _
  | putOff => exact List.prefix_rfl
  | clear => exact List.prefix_rfl

/-- A `Run` adds visits at the end only. -/
theorem Run.visits_prefix (h : Run load entries s t) : s.visits <+: t.visits := by
  induction h with
  | refl => exact List.prefix_rfl
  | tail _ hstep ih => exact ih.trans hstep.visits_prefix

/-- What is `Due` stays so when more is visited. -/
theorem Due.mono {p : Path} (h : s.Due entries p) (hle : s.visits ⊆ t.visits) : t.Due entries p :=
  h.imp_right fun ⟨v, hv, hp⟩ => ⟨v, hle hv, hp⟩

/-- `record` of several files that are due is a `Run`: they are visited one after the other. -/
private theorem record_run {batch : List Path} (hdue : ∀ p ∈ batch, s.Due entries p)
    (hown : ∀ p ∈ batch, p.isForeign = false) (hnew : ∀ p ∈ batch, s.has p = false)
    (hpair : batch.Pairwise fun p q => p.same q = false) :
    Run load entries s (s.record (batch.map fun p => ⟨p, load p⟩)) := by
  induction batch generalizing s with
  | nil => rw [record, List.map_nil, List.append_nil]
  | cons p rest ih =>
    obtain ⟨hp, hrest⟩ := List.pairwise_cons.mp hpair
    rw [List.map_cons, ← List.singleton_append, ← record_record]
    -- After the first visit the other files are still due, and still not visited.
    refine .head (.visit (hdue p List.mem_cons_self) (hown p List.mem_cons_self)
      (hnew p List.mem_cons_self)) (ih ?_ ?_ ?_ hrest)
    · exact fun q hq => (hdue q (List.mem_cons_of_mem _ hq)).mono (List.subset_append_left _ _)
    · exact fun q hq => hown q (List.mem_cons_of_mem _ hq)
    · intro q hq
      rw [has_record, hnew q (List.mem_cons_of_mem _ hq)]
      simpa using hp q hq

/-! ## Walks -/

theorem visits_putOff (s : Survey) (p : Path) : (s.putOff p).visits = s.visits := by
  unfold putOff
  split <;> rfl

theorem nextTask_visits (maxDepth : Nat) (s : Survey) (stack : List Task) :
    (nextTask maxDepth s stack).1.visits = s.visits := by
  fun_induction nextTask maxDepth s stack with
  | case1 => rfl
  | case2 s p depth rest _ ih => rw [ih, visits_putOff]
  | case3 s p depth rest _ _ ih => exact ih
  | case4 => rfl

/-- `nextTask` is a `Run`, if the tasks are due: all it does is to put off files. -/
private theorem nextTask_run {maxDepth : Nat} {stack : List Task}
    (hdue : ∀ task ∈ stack, s.Due entries task.1) :
    Run load entries s (nextTask maxDepth s stack).1 := by
  fun_induction nextTask maxDepth s stack with
  | case1 => exact .refl
  | case2 s p depth rest _ ih =>
    rw [putOff] at ih ⊢
    -- A file that is too deep is put off only if it has not been visited.
    split
    · rename_i hhas
      rw [if_pos hhas] at ih
      exact ih fun task htask => hdue task (List.mem_cons_of_mem _ htask)
    · rename_i hnew
      rw [if_neg hnew] at ih
      exact .head (.putOff (hdue _ List.mem_cons_self))
        (ih fun task htask => (hdue task (List.mem_cons_of_mem _ htask)).mono (List.Subset.refl _))
  | case3 s p depth rest _ _ ih =>
    exact ih fun task htask => hdue task (List.mem_cons_of_mem _ htask)
  | case4 => exact .refl

/-- `nextTask` finds a task of the stack that calls for a visit, and leaves the tasks after it. -/
theorem nextTask_eq_some {maxDepth depth : Nat} {stack rest : List Task} {p : Path}
    (h : (nextTask maxDepth s stack).2 = some ((p, depth), rest)) :
    (∃ before, stack = before ++ (p, depth) :: rest) ∧ depth ≤ maxDepth ∧ p.isForeign = false ∧
      s.has p = false := by
  fun_induction nextTask maxDepth s stack with
  | case1 => exact nomatch h
  | case2 s q d tasks _ ih =>
    obtain ⟨⟨before, hsplit⟩, hdepth, hown, hnew⟩ := ih h
    -- A file that is put off is passed over, and no visit is added by it.
    refine ⟨⟨(q, d) :: before, by rw [hsplit]; rfl⟩, hdepth, hown, ?_⟩
    rw [← hnew, putOff]
    split <;> rfl
  | case3 s q d tasks _ _ ih =>
    obtain ⟨⟨before, hsplit⟩, hrest⟩ := ih h
    exact ⟨⟨(q, d) :: before, by rw [hsplit]; rfl⟩, hrest⟩
  | case4 s q d tasks hdepth hskip =>
    obtain ⟨⟨rfl, rfl⟩, rfl⟩ : (q = p ∧ d = depth) ∧ tasks = rest := by simpa using h
    simp only [Bool.or_eq_true, not_or, Bool.not_eq_true] at hskip
    exact ⟨⟨[], rfl⟩, by omega, hskip⟩

/-- `tasksOf` a visit are for files that it imports. -/
theorem mem_tasksOf {v : Visit} {depth : Nat} {task : Task} (h : task ∈ s.tasksOf v depth) :
    task.1 ∈ v.imports := by
  obtain ⟨q, hq, rfl⟩ := List.mem_map.mp h
  exact (List.mem_filter.mp hq).1

/-- `walkStack` is a `Run`, if the tasks are due. -/
theorem walkStack_run {maxDepth visits : Nat} {stack : List Task}
    (hdue : ∀ task ∈ stack, s.Due entries task.1) :
    Run load entries s (walkStack load maxDepth visits stack s) := by
  -- The tasks stay due: those that were left because visits are never undone, the new ones because
  -- the file just visited imports them.
  induction visits generalizing stack s with
  | zero => exact .refl
  | succ visits ih =>
    have hrun : Run load entries s (nextTask maxDepth s stack).1 := nextTask_run hdue
    have hvisits := nextTask_visits maxDepth s stack
    have hfound := @nextTask_eq_some s maxDepth
    rw [walkStack]
    cases hnext : nextTask maxDepth s stack with
    | mk s' next =>
      rw [hnext] at hrun hvisits
      cases next with
      | none => exact hrun
      | some found =>
        obtain ⟨⟨p, depth⟩, rest⟩ := found
        obtain ⟨⟨before, hsplit⟩, _, hown, hnew⟩ := hfound (congrArg Prod.snd hnext)
        have hmono : s.visits ⊆ s'.visits := hvisits ▸ List.Subset.refl _
        have hp : s'.Due entries p := (hdue (p, depth) (by simp [hsplit])).mono hmono
        have hnew' : s'.has p = false := by rw [has, hvisits]; exact hnew
        refine hrun.trans (.head (.visit hp hown hnew') (ih ?_))
        intro task htask
        rcases List.mem_append.mp htask with himport | hrest
        · exact Or.inr ⟨⟨p, load p⟩, by simp, mem_tasksOf himport⟩
        · refine (hdue task (by simp [hsplit, hrest])).mono (List.Subset.trans hmono ?_)
          exact List.subset_append_left _ _

/-- `walkFrom` an entry point is a `Run`. -/
theorem walkFrom_run {maxDepth visits : Nat} {e : Path} (he : e ∈ entries) :
    Run load entries s (walkFrom load maxDepth visits e s) := by
  refine walkStack_run fun task htask => Or.inl ?_
  obtain rfl := List.mem_singleton.mp htask
  exact he

/-! ## Sweeps -/

/-- `sweep` is a `Run` if what was put off is due: each round clears what was put off and visits
what is missing. -/
theorem sweep_run {rounds : Nat} (hpending : ∀ p ∈ s.pending, s.Due entries p) :
    Run load entries s (sweep load rounds s) := by
  induction rounds generalizing s with
  | zero => exact .refl
  | succ rounds ih =>
    rw [sweep]
    split
    · exact .single .clear
    · -- What is missing is due: it was put off, or a visit imports it.
      have hround : Run load entries { s with pending := [] }
          ({ s with pending := [] }.record (s.missing.map fun p => ⟨p, load p⟩)) := by
        refine record_run (fun p hp => ?_) (fun p hp => (of_mem_missing hp).2.1)
          (fun p hp => (of_mem_missing hp).2.2) pairwise_missing
        rcases (of_mem_missing hp).1 with hput | himport
        · exact (hpending p hput).mono (List.Subset.refl _)
        · exact Or.inr himport
      exact .head .clear (hround.trans (ih fun p hp => absurd hp List.not_mem_nil))

/-! ## What every run keeps -/

/-- What holds of a survey at any time: the files visited are different files of the project, each
with what came of reading it, and the files put off are due. -/
structure Sound (load : Path → Except FileFault Outline) (entries : List Path) (s : Survey) :
    Prop where
  distinct : s.visits.Pairwise fun v w => v.path.same w.path = false
  loaded : ∀ v ∈ s.visits, v.result = load v.path
  own : ∀ v ∈ s.visits, v.path.isForeign = false
  pendingDue : ∀ p ∈ s.pending, s.Due entries p

theorem sound_empty : Sound load entries {} where
  distinct := List.Pairwise.nil
  loaded _ hv := absurd hv List.not_mem_nil
  own _ hv := absurd hv List.not_mem_nil
  pendingDue _ hp := absurd hp List.not_mem_nil

/-- Every `Step` keeps the survey `Sound`. -/
theorem Step.sound (hs : Sound load entries s) (h : Step load entries s t) :
    Sound load entries t := by
  cases h with
  | visit hdue hown hnew =>
    -- A new visit is to a place that has none, so the places stay different.
    refine ⟨?_, ?_, ?_, ?_⟩
    · refine List.pairwise_append.mpr ⟨hs.distinct, List.pairwise_singleton _ _, ?_⟩
      simpa [has, List.any_eq_false] using hnew
    · intro v hv
      rcases List.mem_append.mp hv with hold | hlast
      · exact hs.loaded v hold
      · obtain rfl := List.mem_singleton.mp hlast
        rfl
    · intro v hv
      rcases List.mem_append.mp hv with hold | hlast
      · exact hs.own v hold
      · obtain rfl := List.mem_singleton.mp hlast
        exact hown
    · exact fun q hq => (hs.pendingDue q hq).mono (List.subset_append_left _ _)
  | putOff hdue =>
    refine ⟨hs.distinct, hs.loaded, hs.own, fun q hq => ?_⟩
    rcases List.mem_append.mp hq with hold | hlast
    · exact (hs.pendingDue q hold).mono (List.Subset.refl _)
    · obtain rfl := List.mem_singleton.mp hlast
      exact hdue.mono (List.Subset.refl _)
  | clear => exact ⟨hs.distinct, hs.loaded, hs.own, fun q hq => absurd hq List.not_mem_nil⟩

/-- Every `Run` keeps the survey `Sound`. -/
theorem Run.sound (hs : Sound load entries s) (h : Run load entries s t) :
    Sound load entries t := by
  induction h with
  | refl => exact hs
  | tail _ hstep ih => exact hstep.sound ih

/-- `walkFrom` entry points, one after the other, is a `Run`. -/
theorem foldl_walkFrom_run {maxDepth visits : Nat} {some : List Path} (hsome : some ⊆ entries) :
    Run load entries s (some.foldl (fun s e => walkFrom load maxDepth visits e s) s) := by
  induction some generalizing s with
  | nil => exact .refl
  | cons e rest ih =>
    have hwalk : Run load entries s (walkFrom load maxDepth visits e s) :=
      walkFrom_run (hsome List.mem_cons_self)
    exact hwalk.trans (ih (List.Subset.trans (List.subset_cons_self e rest) hsome))

/-- `explore` is a `Run` from nothing. -/
theorem explore_run {maxDepth visits : Nat} :
    Run load entries {} (explore load maxDepth visits entries) := by
  have hwalks : Run load entries {}
      (entries.foldl (fun s e => walkFrom load maxDepth visits e s) {}) :=
    foldl_walkFrom_run (List.Subset.refl _)
  -- What the walks have put off is due, and that is what the sweep starts from.
  exact hwalks.trans (sweep_run (hwalks.sound sound_empty).pendingDue)

/-- `explore` leads to a `Sound` survey. -/
theorem explore_sound {maxDepth visits : Nat} :
    Sound load entries (explore load maxDepth visits entries) := Run.sound sound_empty explore_run

end Survey

end RouteAtlas
