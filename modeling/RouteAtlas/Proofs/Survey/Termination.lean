import RouteAtlas.Proofs.Survey.Run

/-!
# Walks and sweeps end

There are only finitely many files that imports can lead to, and every visit but the first of a walk
is to another one of them. So a walk or a sweep that may make enough visits gives the same however
many more it may make, whatever has been visited before and however files import each other.

## Key results

- `walkFrom_stable`: walks end
- `sweep_ended`, `sweep_stable`: sweeps end, and then nothing is missing and nothing put off
- `sweep_of_ended`: after that, another sweep changes nothing
-/

namespace RouteAtlas

namespace Survey

variable {load : Path → Except FileFault Outline} {all : List Path} {s : Survey}

/-- Whatever file is read, its imports are among the given files. -/
def ImportsWithin (load : Path → Except FileFault Outline) (all : List Path) : Prop :=
  ∀ p o, load p = .ok o → ∀ q ∈ o.importedFiles, q ∈ all

/-- `imports` of a visit: a file that could not be read imports nothing. -/
theorem mem_imports_iff {p q : Path} :
    q ∈ (Visit.mk p (load p)).imports ↔ ∃ o, load p = .ok o ∧ q ∈ o.importedFiles := by
  rw [Visit.imports, Visit.outline]
  cases load p with
  | ok o => simp
  | error fault => simp [Outline.importedFiles]

/-- `imports` of a visit are among the given files. -/
theorem ImportsWithin.mem (h : ImportsWithin load all) {p q : Path}
    (hq : q ∈ (Visit.mk p (load p)).imports) : q ∈ all := by
  obtain ⟨o, ho, hmem⟩ := mem_imports_iff.mp hq
  exact h p o ho q hmem

/-! ## Counting what is left -/

/-- How many of the given files have not been visited. -/
def unvisited (all : List Path) (s : Survey) : Nat := all.countP fun p => !s.has p

private theorem unvisited_le_length : s.unvisited all ≤ all.length := List.countP_le_length

/-- `unvisited` depends on the visits only. -/
private theorem unvisited_congr {t : Survey} (h : t.visits = s.visits) :
    t.unvisited all = s.unvisited all := by
  simp only [unvisited, has, h]

/-- `unvisited` does not grow by visits. -/
private theorem unvisited_record_le (more : List Visit) :
    (s.record more).unvisited all ≤ s.unvisited all := by
  refine List.countP_mono_left fun p _ hp => ?_
  rw [has_record] at hp
  simp_all

/-- `unvisited` gets less by a visit to one of the files that has not been visited. -/
private theorem unvisited_record_lt {more : List Visit} {v : Visit} (hv : v ∈ more)
    (hmem : v.path ∈ all) (hnew : s.has v.path = false) :
    (s.record more).unvisited all < s.unvisited all := by
  have hvisited : (s.record more).has v.path = true := by
    rw [has_record, List.any_eq_true.mpr ⟨v, hv, Path.same_refl _⟩, Bool.or_true]
  -- The file itself is counted no more, and of the files before and after it no more than before.
  obtain ⟨before, after, rfl⟩ := List.append_of_mem hmem
  have hbefore : (s.record more).unvisited before ≤ s.unvisited before := unvisited_record_le more
  have hafter : (s.record more).unvisited after ≤ s.unvisited after := unvisited_record_le more
  simp only [unvisited] at hbefore hafter
  simp only [unvisited, List.countP_append, List.countP_cons, hvisited, hnew, Bool.not_true,
    Bool.not_false, if_true]
  simp only [Bool.false_eq_true, if_false]
  omega

/-! ## Walks -/

/-- `walkStack` along the given files gives the same for any number of visits that covers what is
left. -/
private theorem walkStack_congr {maxDepth n m : Nat} {stack : List Task}
    (hload : ImportsWithin load all) (hstack : ∀ task ∈ stack, task.1 ∈ all)
    (hn : s.unvisited all < n) (hm : s.unvisited all < m) :
    walkStack load maxDepth n stack s = walkStack load maxDepth m stack s := by
  -- Both walks find the same next task, and its visit leaves one file fewer for either.
  induction n generalizing m stack s with
  | zero => exact absurd hn (Nat.not_lt_zero _)
  | succ n ih =>
    cases m with
    | zero => exact absurd hm (Nat.not_lt_zero _)
    | succ m =>
      have hvisits := nextTask_visits maxDepth s stack
      have hfound := @nextTask_eq_some s maxDepth
      rw [walkStack, walkStack]
      cases hnext : nextTask maxDepth s stack with
      | mk s' next =>
        rw [hnext] at hvisits
        cases next with
        | none => rfl
        | some found =>
          obtain ⟨⟨p, depth⟩, rest⟩ := found
          obtain ⟨⟨before, hsplit⟩, _, _, hnew⟩ := hfound (congrArg Prod.snd hnext)
          have hp : p ∈ all := hstack (p, depth) (by simp [hsplit])
          have hfewer : (s'.record [⟨p, load p⟩]).unvisited all < s.unvisited all := by
            rw [← unvisited_congr hvisits]
            refine unvisited_record_lt List.mem_cons_self hp ?_
            rw [has, hvisits]
            exact hnew
          refine ih (fun task htask => ?_) (by omega) (by omega)
          rcases List.mem_append.mp htask with himport | hrest
          · exact hload.mem (mem_tasksOf himport)
          · exact hstack task (by simp [hsplit, hrest])

/-- `walkFrom` ends, from anywhere: two visits more than there are files to be imported are as good
as any greater number. -/
theorem walkFrom_stable (hload : ImportsWithin load all) {n : Nat} (hn : all.length + 2 ≤ n)
    (maxDepth : Nat) (entry : Path) (s : Survey) :
    walkFrom load maxDepth n entry s = walkFrom load maxDepth (all.length + 2) entry s := by
  obtain ⟨n, rfl⟩ : ∃ k, n = k + 1 := ⟨n - 1, by omega⟩
  rw [walkFrom, walkFrom, walkStack, walkStack]
  by_cases hskip : (entry.isForeign || s.has entry) = true
  · simp [nextTask, hskip]
  · -- The entry point need not be among the files that are imported, all that comes after it is.
    simp only [nextTask, Nat.not_lt_zero, if_false, hskip]
    have hleft : (s.record [⟨entry, load entry⟩]).unvisited all ≤ all.length := unvisited_le_length
    refine walkStack_congr hload (fun task htask => ?_) (by omega) (by omega)
    rw [List.append_nil] at htask
    exact hload.mem (mem_tasksOf htask)

/-! ## Sweeps -/

/-- The survey is at its end: nothing is missing and nothing put off. -/
def Ended (s : Survey) : Prop := s.missing = [] ∧ s.pending = []

/-- The survey after all that is missing has been visited. -/
def sweepRound (load : Path → Except FileFault Outline) (s : Survey) : Survey :=
  { s with pending := [] }.record (s.missing.map fun p => ⟨p, load p⟩)

/-- `sweep` makes a round if anything is missing. -/
private theorem sweep_succ (rounds : Nat) :
    sweep load (rounds + 1) s =
      if s.missing = [] then { s with pending := [] }
      else sweep load rounds (s.sweepRound load) := by
  rw [sweep, sweepRound]
  cases s.missing with
  | nil => rfl
  | cons p rest => rfl

/-- Clearing what was put off makes nothing `missing`. -/
private theorem ended_of_missing_eq_nil (h : s.missing = []) : Ended { s with pending := [] } := by
  refine ⟨List.eq_nil_iff_forall_not_mem.mpr fun p hp => ?_, rfl⟩
  obtain ⟨hdue, hown, hnew⟩ := of_mem_missing hp
  -- What was put off is gone, and what is imported was not missing before.
  rcases hdue with hput | himport
  · exact absurd hput List.not_mem_nil
  · have hvisited : s.has p = true := has_of_missing_eq_nil h (Or.inr himport) hown
    have : s.has p = false := hnew
    simp_all

/-- `sweep` changes nothing after the end. -/
theorem sweep_of_ended (h : s.Ended) (rounds : Nat) : sweep load rounds s = s := by
  cases rounds with
  | zero => rfl
  | succ rounds =>
    rw [sweep_succ, if_pos h.1, ← h.2]

/-- `sweep` can be made in two parts. -/
private theorem sweep_add (n m : Nat) : sweep load (n + m) s = sweep load m (sweep load n s) := by
  induction n generalizing s with
  | zero => rw [Nat.zero_add]; rfl
  | succ n ih =>
    rw [Nat.add_right_comm, sweep_succ, sweep_succ]
    split
    · rename_i hnil
      exact (sweep_of_ended (ended_of_missing_eq_nil hnil) m).symm
    · exact ih

/-- What is `missing` after a round was found in it. -/
private theorem mem_of_mem_missing_sweepRound (hload : ImportsWithin load all) {p : Path}
    (h : p ∈ (s.sweepRound load).missing) : p ∈ all := by
  obtain ⟨hdue, hown, hnew⟩ := of_mem_missing h
  rw [sweepRound, has_record, Bool.or_eq_false_iff] at hnew
  rcases hdue with hput | ⟨v, hv, hp⟩
  · exact absurd hput List.not_mem_nil
  · rcases List.mem_append.mp hv with hold | hbatch
    · -- An import of a file visited before was missing already, so this round has visited it.
      have hmissing : ∃ q ∈ s.missing, q.same p = true :=
        exists_same_mem_missing (Or.inr ⟨v, hold, hp⟩) hown hnew.1
      obtain ⟨q, hq, hsame⟩ := hmissing
      have hnot := List.any_eq_false.mp hnew.2 ⟨q, load q⟩ (List.mem_map_of_mem hq)
      exact absurd hsame hnot
    · obtain ⟨q, _, rfl⟩ := List.mem_map.mp hbatch
      exact hload.mem hp

/-- `sweep` ends where all that is missing is among the given files: each round visits one of
them. -/
private theorem sweep_ended_of_missing (hload : ImportsWithin load all) {rounds : Nat}
    (hmissing : ∀ p ∈ s.missing, p ∈ all) (hrounds : s.unvisited all < rounds) :
    (sweep load rounds s).Ended := by
  induction rounds generalizing s with
  | zero => exact absurd hrounds (Nat.not_lt_zero _)
  | succ rounds ih =>
    rw [sweep_succ]
    split
    · rename_i hnil
      exact ended_of_missing_eq_nil hnil
    · rename_i hne
      obtain ⟨p, hp⟩ := List.exists_mem_of_ne_nil _ hne
      -- A round visits all that is missing, and so at least one of the files.
      have hfewer : (s.sweepRound load).unvisited all < s.unvisited all :=
        unvisited_record_lt (List.mem_map_of_mem hp) (hmissing p hp) (of_mem_missing hp).2.2
      exact ih (fun q hq => mem_of_mem_missing_sweepRound hload hq) (by omega)

/-- `sweep` ends, from anywhere. The first round may be to files that nothing known imports. -/
theorem sweep_ended (hload : ImportsWithin load all) {n : Nat} (hn : all.length + 2 ≤ n)
    (s : Survey) :
    (sweep load n s).Ended := by
  obtain ⟨n, rfl⟩ : ∃ k, n = k + 1 := ⟨n - 1, by omega⟩
  rw [sweep_succ]
  split
  · rename_i hnil
    exact ended_of_missing_eq_nil hnil
  · have hleft : (s.sweepRound load).unvisited all ≤ all.length := unvisited_le_length
    exact sweep_ended_of_missing hload (fun q hq => mem_of_mem_missing_sweepRound hload hq)
      (by omega)

/-- `sweep` gives the same for any number of rounds that is not less than the bound. -/
theorem sweep_stable (hload : ImportsWithin load all) {n : Nat} (hn : all.length + 2 ≤ n)
    (s : Survey) :
    sweep load n s = sweep load (all.length + 2) s := by
  obtain ⟨k, rfl⟩ := Nat.exists_eq_add_of_le hn
  -- The rounds beyond the bound start from a survey at its end.
  rw [sweep_add, sweep_of_ended (sweep_ended hload (Nat.le_refl _) s)]

end Survey

end RouteAtlas
