import RouteAtlas.Project.Ledger
import RouteAtlas.Proofs.Survey.Run

/-!
# What the books of a survey come to

The four collections of a ledger are written at different moments, so between a claim and the store
that follows it they do not agree: there are files that are taken and have no outline yet. `Records`
says how far a ledger has got. It records a survey, in which a visit is one step, and has some more
files taken, in the order in which they will be stored. A claim adds a file at the end of those, and
a store turns the first of them into a visit. Walks and sweeps begin and end with nothing taken, and
there the collections agree.

## Key results

- `Records.claim`, `Records.store`, `Records.claimAll`, `Records.storeAll`: what one step does
- `Records.walkFrom`, `Records.sweep`: walks and sweeps of the ledger are those of the survey
- `Records.survey_eq`: the survey that is recorded is the one that the books come to
- `Survey.ofEntries_eq_explore`: the survey of a project
-/

namespace RouteAtlas

/-- The report of a visit, if the file could not be read or parsed. -/
def Visit.report? (v : Visit) : Option Diagnostic :=
  match v.result with
  | .ok _ => none
  | .error fault => some ⟨v.path, fault⟩

/-- `report?` names the file that was visited, and says what came of reading the file. -/
private theorem Visit.report?_eq_some {v : Visit} {d : Diagnostic} (h : v.report? = some d) :
    d.path = v.path ∧ v.result = .error d.fault := by
  unfold Visit.report? at h
  cases hresult : v.result with
  | ok o => simp [hresult] at h
  | error fault =>
    rw [hresult] at h
    obtain rfl := Option.some.inj h
    exact ⟨rfl, rfl⟩

/-- `report?` has nothing of a file that has an outline. -/
private theorem Visit.report?_eq_none {v : Visit} (h : v.report? = none) :
    v.result = .ok v.outline := by
  unfold Visit.report? at h
  unfold Visit.outline
  cases hresult : v.result with
  | ok o => rfl
  | error fault => simp [hresult] at h

/-- `diagnostics` are the reports of the visits. -/
private theorem Survey.diagnostics_eq_filterMap (s : Survey) :
    s.diagnostics = s.visits.filterMap Visit.report? := rfl

namespace Ledger

/-- The ledger records the survey and has the files `taken` claimed besides, which will be stored in
that order. -/
structure Records (l : Ledger) (s : Survey) (taken : List Path) : Prop where
  claimed : l.claimed = (s.files ++ taken).reverse
  order : l.order = s.files ++ taken
  outlines : l.outlines = s.visits.map fun v => (v.path, v.outline)
  diagnostics : l.diagnostics = s.diagnostics
  pending : l.pending = s.pending
  distinct : (s.files ++ taken).Pairwise fun p q => p.same q = false

variable {l l' : Ledger} {s : Survey} {p : Path} {taken : List Path}

/-- At first nothing is recorded: `Records` holds of the empty ledger and survey. -/
theorem records_empty : Records {} {} [] where
  claimed := rfl
  order := rfl
  outlines := rfl
  diagnostics := rfl
  pending := rfl
  distinct := List.Pairwise.nil

/-- `Records` of one survey hold of one ledger only. -/
theorem Records.unique (h : Records l s taken) (h' : Records l' s taken) : l = l' := by
  obtain ⟨claimed, order, outlines, diagnostics, pending⟩ := l
  obtain ⟨claimed', order', outlines', diagnostics', pending'⟩ := l'
  obtain ⟨rfl, rfl, rfl, rfl, rfl, -⟩ := h
  obtain ⟨rfl, rfl, rfl, rfl, rfl, -⟩ := h'
  rfl

/-! ## What is recorded -/

/-- `has` tells the files visited and those taken. -/
private theorem Records.has_eq (h : Records l s taken) (p : Path) :
    l.has p = (s.has p || taken.any (·.same p)) := by
  rw [Ledger.has, h.claimed, List.any_reverse, List.any_append, Survey.files, List.any_map]
  rfl

/-- With nothing taken, `has` tells the files visited. -/
theorem Records.has_eq_has (h : Records l s []) (p : Path) : l.has p = s.has p := by
  rw [h.has_eq, List.any_nil, Bool.or_false]

/-- `outline?` tells the outlines of the files visited. -/
theorem Records.outline?_eq (h : Records l s taken) (p : Path) : l.outline? p = s.outline? p := by
  rw [Ledger.outline?, h.outlines, List.find?_map, Option.map_map]
  rfl

/-- The visits that are recorded are to different places. -/
private theorem Records.distinct_visits (h : Records l s taken) :
    s.visits.Pairwise fun v w => v.path.same w.path = false :=
  List.pairwise_map.mp (List.pairwise_append.mp h.distinct).1

/-- A file that is taken has not been visited. -/
private theorem Records.has_of_taken (h : Records l s (p :: taken)) : s.has p = false := by
  have hbetween := (List.pairwise_append.mp h.distinct).2.2
  rw [Survey.has, List.any_eq_false]
  intro v hv
  rw [hbetween v.path (List.mem_map_of_mem hv) p List.mem_cons_self]
  exact Bool.false_ne_true

/-! ## Claiming and storing -/

private theorem claim_of_has (h : l.has p = true) : l.claim p = (l, false) := by
  rw [claim, if_pos h]

/-- `claim` of any other file adds it to `claimed` and to `order`. -/
private theorem claim_of_not_has (h : l.has p = false) :
    l.claim p = ({ l with claimed := p :: l.claimed, order := l.order ++ [p] }, true) := by
  rw [claim, if_neg (ne_true_of_eq_false h)]

/-- `claim` adds the file to those taken. -/
theorem Records.claim (h : Records l s taken) (hnew : l.has p = false) :
    Records (l.claim p).1 s (taken ++ [p]) := by
  -- The file is free, so it is at another place than all that is claimed.
  have hdistinct : ((s.files ++ taken) ++ [p]).Pairwise fun p q => p.same q = false := by
    refine List.pairwise_append.mpr ⟨h.distinct, List.pairwise_singleton _ _, fun q hq r hr => ?_⟩
    obtain rfl := List.mem_singleton.mp hr
    have hother : ∀ q ∈ l.claimed, ¬ q.same r = true := List.any_eq_false.mp hnew
    refine Bool.eq_false_iff.mpr (hother q ?_)
    rw [h.claimed]
    exact List.mem_reverse.mpr hq
  rw [claim_of_not_has hnew]
  constructor
  · show p :: l.claimed = _
    rw [h.claimed, ← List.append_assoc, List.reverse_concat]
  · show l.order ++ [p] = _
    rw [h.order, List.append_assoc]
  · exact h.outlines
  · exact h.diagnostics
  · exact h.pending
  · rwa [← List.append_assoc]

/-- `putOutline` puts an outline under a file that has none at the end. -/
private theorem putOutline_of_new {o : Outline} {outlines : List (Path × Outline)}
    (h : ∀ e ∈ outlines, e.1.same p = false) : putOutline p o outlines = outlines ++ [(p, o)] := by
  induction outlines with
  | nil => rfl
  | cons e rest ih =>
    obtain ⟨hfirst, hrest⟩ := List.forall_mem_cons.mp h
    rw [putOutline, if_neg (ne_true_of_eq_false hfirst), ih hrest, List.cons_append]

/-- `store` in one line: the outline of the visit is put under the file, and its report, if there is
one, is added. -/
private theorem store_eq (l : Ledger) (p : Path) (result : Except FileFault Outline) :
    l.store p result =
      { l with
        outlines := putOutline p (Visit.mk p result).outline l.outlines
        diagnostics := l.diagnostics ++ (Visit.mk p result).report?.toList } := by
  cases result with
  | ok o => simp [store, Visit.outline, Visit.report?]
  | error fault => simp [store, Visit.outline, Visit.report?]

/-- `store` turns the first file taken into a visit. -/
theorem Records.store (h : Records l s (p :: taken)) (result : Except FileFault Outline) :
    Records (l.store p result) (s.record [⟨p, result⟩]) taken := by
  -- One more visit and one file less that is taken leave `claimed` and `order` as they are.
  have hfiles : (s.record [⟨p, result⟩]).files ++ taken = s.files ++ p :: taken := by
    simp [Survey.files, Survey.record]
  -- A file that is taken has no outline yet.
  have hnew : ∀ e ∈ l.outlines, e.1.same p = false := by
    intro e he
    rw [h.outlines] at he
    obtain ⟨v, hv, rfl⟩ := List.mem_map.mp he
    exact Bool.eq_false_iff.mpr (List.any_eq_false.mp h.has_of_taken v hv)
  rw [store_eq]
  constructor
  · rw [hfiles]
    exact h.claimed
  · rw [hfiles]
    exact h.order
  · show putOutline p _ l.outlines = _
    rw [putOutline_of_new hnew, h.outlines, Survey.visits_record, List.map_append]
    rfl
  · show l.diagnostics ++ _ = _
    rw [h.diagnostics, Survey.diagnostics_eq_filterMap, Survey.diagnostics_eq_filterMap,
      Survey.visits_record, List.filterMap_append]
    cases hreport : (Visit.mk p result).report? with
    | none => rw [List.filterMap_cons_none hreport, List.filterMap_nil, Option.toList_none]
    | some d => rw [List.filterMap_cons_some hreport, List.filterMap_nil, Option.toList_some]
  · exact h.pending
  · rw [hfiles]
    exact h.distinct

/-- `claimAll` claims files that are free and at different places, one after the other. -/
theorem Records.claimAll {batch : List Path} (h : Records l s taken)
    (hnew : ∀ p ∈ batch, l.has p = false) (hpair : batch.Pairwise fun p q => p.same q = false) :
    Records (l.claimAll batch) s (taken ++ batch) := by
  induction batch generalizing l taken with
  | nil => rwa [List.append_nil]
  | cons p rest ih =>
    obtain ⟨hp, hrest⟩ := List.pairwise_cons.mp hpair
    obtain ⟨hfree, hfrees⟩ := List.forall_mem_cons.mp hnew
    have hclaim := h.claim hfree
    -- The files after the first are still free, as they are at other places.
    have hstill : ∀ q ∈ rest, (l.claim p).1.has q = false := by
      intro q hq
      rw [hclaim.has_eq, List.any_append, ← Bool.or_assoc, ← h.has_eq, hfrees q hq, Bool.false_or,
        List.any_cons, List.any_nil, Bool.or_false]
      exact hp q hq
    have hall := ih hclaim hstill hrest
    rwa [List.append_assoc, List.singleton_append] at hall

/-- `storeAll` turns all files taken into visits, in the same order. -/
theorem Records.storeAll {load : Path → Except FileFault Outline} {batch : List Path}
    (h : Records l s batch) :
    Records (l.storeAll (batch.map fun p => (p, load p)))
      (s.record (batch.map fun p => ⟨p, load p⟩)) [] := by
  induction batch generalizing l s with
  | nil =>
    rw [List.map_nil, List.map_nil, Survey.record, List.append_nil]
    exact h
  | cons p rest ih =>
    have hall := ih (h.store (load p))
    rwa [Survey.record_record, List.singleton_append] at hall

-- Between the claims of a round and its stores the collections do not agree.
example :
    let l := claimAll [⟨"/a.js"⟩, ⟨"/b.js"⟩] {}
    l.order = [⟨"/a.js"⟩, ⟨"/b.js"⟩] ∧ l.outlines.map (·.1) = [] := by
  decide +kernel

/-- `putOff` puts off the same file in both. -/
theorem Records.putOff (h : Records l s []) (p : Path) : Records (l.putOff p) (s.putOff p) [] := by
  rw [Ledger.putOff, Survey.putOff, h.has_eq_has]
  by_cases hvisited : s.has p = true
  · rwa [if_pos hvisited, if_pos hvisited]
  · rw [if_neg hvisited, if_neg hvisited]
    exact ⟨h.claimed, h.order, h.outlines, h.diagnostics, congrArg (· ++ [p]) h.pending, h.distinct⟩

/-- What was put off may be cleared in both. -/
theorem Records.clear (h : Records l s []) :
    Records { l with pending := [] } { s with pending := [] } [] :=
  ⟨h.claimed, h.order, h.outlines, h.diagnostics, rfl, h.distinct⟩

/-! ## Walks -/

/-- `nextTask` of the ledger and of the survey come to the same task. The ledger has claimed its
file by then. -/
theorem Records.nextTask (h : Records l s []) (maxDepth : Nat) (stack : List Survey.Task) :
    (l.nextTask maxDepth stack).2 = (Survey.nextTask maxDepth s stack).2 ∧
      Records (l.nextTask maxDepth stack).1 (Survey.nextTask maxDepth s stack).1
        ((Survey.nextTask maxDepth s stack).2.map (·.1.1)).toList := by
  induction stack generalizing l s with
  | nil => exact ⟨rfl, h⟩
  | cons task rest ih =>
    obtain ⟨p, depth⟩ := task
    rw [Ledger.nextTask, Survey.nextTask]
    -- The two loops ask the same of a task, in the same order; the claim is the last question.
    by_cases hdeep : maxDepth < depth
    · rw [if_pos hdeep, if_pos hdeep]
      exact ih (h.putOff p)
    rw [if_neg hdeep, if_neg hdeep]
    cases hforeign : p.isForeign with
    | true => exact ih h
    | false =>
      cases hvisited : s.has p with
      | true =>
        rw [claim_of_has ((h.has_eq_has p).trans hvisited)]
        exact ih h
      | false =>
        have hfree : l.has p = false := (h.has_eq_has p).trans hvisited
        have hclaim := h.claim hfree
        rw [claim_of_not_has hfree] at hclaim ⊢
        exact ⟨rfl, hclaim⟩

/-- `importsOf` the result of a visit are its imports. -/
private theorem importsOf_eq (p : Path) (result : Except FileFault Outline) :
    importsOf result = (Visit.mk p result).imports := by
  cases result <;> rfl

/-- `tasksOf` are the same for both. -/
private theorem Records.tasksOf_eq (h : Records l s []) (p : Path)
    (result : Except FileFault Outline) (depth : Nat) :
    l.tasksOf (importsOf result) depth = s.tasksOf ⟨p, result⟩ depth := by
  rw [Ledger.tasksOf, Survey.tasksOf, importsOf_eq p, funext h.has_eq_has]

/-- `walkStack` of the ledger is that of the survey. -/
theorem Records.walkStack {load : Path → Except FileFault Outline} {maxDepth visits : Nat}
    {stack : List Survey.Task} (h : Records l s []) :
    Records (l.walkStack load maxDepth visits stack) (Survey.walkStack load maxDepth visits stack s)
      [] := by
  induction visits generalizing l s stack with
  | zero => exact h
  | succ visits ih =>
    obtain ⟨hsame, hnext⟩ := h.nextTask maxDepth stack
    rw [Ledger.walkStack, Survey.walkStack]
    cases hledger : l.nextTask maxDepth stack with
    | mk l' found =>
      cases hsurvey : Survey.nextTask maxDepth s stack with
      | mk s' found' =>
        rw [hledger, hsurvey] at hsame hnext
        obtain rfl : found = found' := hsame
        cases found with
        | none => exact hnext
        | some found =>
          obtain ⟨⟨p, depth⟩, rest⟩ := found
          -- Only the file of the task is taken here, and it is stored at once.
          have hstored : Records (l'.store p (load p)) (s'.record [⟨p, load p⟩]) [] :=
            hnext.store (load p)
          have htasks := hstored.tasksOf_eq p (load p) depth
          simp only [htasks]
          exact ih hstored

/-- `walkFrom` of the ledger is that of the survey. -/
theorem Records.walkFrom (h : Records l s []) (load : Path → Except FileFault Outline)
    (maxDepth visits : Nat) (entry : Path) :
    Records (l.walkFrom load maxDepth visits entry) (s.walkFrom load maxDepth visits entry) [] :=
  h.walkStack

/-! ## Sweeps -/

/-- `analyses` of the files claimed are the outlines of the files visited. -/
private theorem Records.analyses_eq (h : Records l s []) : l.analyses = s.outlines := by
  rw [analyses, h.order, List.append_nil, Survey.files, List.filterMap_map, Survey.outlines,
    ← List.filterMap_eq_map]
  -- Each file has an outline of its own, as no two are at the same place.
  refine List.filterMap_congr fun v hv => ?_
  rw [Function.comp_apply, h.outline?_eq, Survey.outline?,
    Survey.find?_visits h.distinct_visits hv (Path.same_refl _) fun _ hw => hw]
  rfl

/-- `missing` is the same for both. -/
theorem Records.missing_eq (h : Records l s []) : l.missing = s.missing := by
  rw [Ledger.missing, Survey.missing, h.pending, h.analyses_eq, Survey.outlines, List.flatMap_map]
  refine congrArg (fun f => List.foldl f [] _) (funext₂ fun batch p => ?_)
  rw [h.has_eq_has]
  cases p.isForeign || batch.any (·.same p) <;> rfl

/-- `sweep` of the ledger is that of the survey. -/
theorem Records.sweep (h : Records l s []) (load : Path → Except FileFault Outline) (rounds : Nat) :
    Records (l.sweep load rounds) (s.sweep load rounds) [] := by
  induction rounds generalizing l s with
  | zero => exact h
  | succ rounds ih =>
    have hpair : s.missing.Pairwise fun p q => p.same q = false := Survey.pairwise_missing
    have hfree : ∀ p ∈ s.missing, l.has p = false := by
      intro p hp
      rw [h.has_eq_has]
      exact (Survey.of_mem_missing hp).2.2
    rw [Ledger.sweep, Survey.sweep, h.missing_eq]
    cases hbatch : s.missing with
    | nil => exact h.clear
    | cons first rest =>
      rw [hbatch] at hpair hfree
      -- All files of the round are taken between the claims and the stores.
      have htaken : Records (Ledger.claimAll (first :: rest) { l with pending := [] })
          { s with pending := [] } (first :: rest) := h.clear.claimAll hfree hpair
      exact ih htaken.storeAll

/-! ## Whole surveys -/

/-- `walkFrom` some entry points, one after the other, is the same for both. -/
private theorem Records.foldl_walkFrom (h : Records l s []) (load : Path → Except FileFault Outline)
    (maxDepth visits : Nat) (entries : List Path) :
    Records (entries.foldl (fun l e => l.walkFrom load maxDepth visits e) l)
      (entries.foldl (fun s e => s.walkFrom load maxDepth visits e) s) [] := by
  induction entries generalizing l s with
  | nil => exact h
  | cons e rest ih => exact ih (h.walkFrom load maxDepth visits e)

/-- `explore` of the ledger records that of the survey. -/
private theorem records_explore (load : Path → Except FileFault Outline) (maxDepth visits : Nat)
    (entries : List Path) :
    Records (explore load maxDepth visits entries) (Survey.explore load maxDepth visits entries)
      [] :=
  (records_empty.foldl_walkFrom load maxDepth visits entries).sweep load visits

/-- `diagnostics` has, under a file, the report of the visit to it, if that has one. -/
private theorem Records.find?_diagnostics (h : Records l s []) {v : Visit} (hv : v ∈ s.visits) :
    l.diagnostics.find? (·.path.same v.path) = v.report? := by
  have hplace : ∀ w : Visit, w.report?.any (·.path.same v.path) = true →
      w.path.same v.path = true := by
    intro w hw
    obtain ⟨d, hd, hsame⟩ := (Option.any_eq_true _ _).mp hw
    rwa [← (Visit.report?_eq_some hd).1]
  rw [h.diagnostics, Survey.diagnostics_eq_filterMap, List.find?_filterMap]
  cases hreport : v.report? with
  | some d =>
    have hown : v.report?.any (·.path.same v.path) = true := by
      rw [hreport, Option.any_some, (Visit.report?_eq_some hreport).1, Path.same_refl]
    rw [Survey.find?_visits h.distinct_visits hv hown hplace]
    exact hreport
  | none =>
    -- Another visit with a report for this file would be to the same place, and so the visit
    -- itself.
    have hnone : s.visits.find? (fun w => w.report?.any (·.path.same v.path)) = none := by
      refine List.find?_eq_none.mpr fun w hw hreported => ?_
      obtain rfl := Survey.eq_of_same h.distinct_visits hw hv (hplace w hreported)
      rw [hreport] at hreported
      exact Bool.false_ne_true hreported
    rw [hnone]
    rfl

/-- `result`, by the books, is what came of the visit to the file. -/
private theorem Records.result_eq (h : Records l s []) {v : Visit} (hv : v ∈ s.visits) :
    l.result v.path = v.result := by
  rw [Ledger.result, h.find?_diagnostics hv]
  cases hreport : v.report? with
  | some d => exact (Visit.report?_eq_some hreport).2.symm
  | none =>
    rw [Visit.report?_eq_none hreport, h.outline?_eq, Survey.outline?,
      Survey.find?_visits h.distinct_visits hv (Path.same_refl _) fun _ hw => hw]
    rfl

/-- `survey` reads the survey that is recorded off the books. -/
theorem Records.survey_eq (h : Records l s []) : l.survey = s := by
  -- The visits are read off file by file, in the order of the claims.
  have hvisits : l.order.map (fun p => ⟨p, l.result p⟩) = s.visits := by
    rw [h.order, List.append_nil, Survey.files, List.map_map]
    refine (List.map_congr_left fun v hv => ?_).trans (List.map_id _)
    rw [Function.comp_apply, h.result_eq hv]
    rfl
  rw [survey, hvisits, h.pending]

end Ledger

/-- `ofEntries` is the survey made of single visits. -/
theorem Survey.ofEntries_eq_explore (disk : Disk) (root : Path) (maxDepth : Nat)
    (entries : List Path) :
    ofEntries disk root maxDepth entries =
      explore (Outline.ofFile disk root) maxDepth disk.visitBound entries :=
  (Ledger.records_explore _ _ _ _).survey_eq

/-- `ofEntries` is a `Sound` survey. -/
theorem Survey.ofEntries_sound (disk : Disk) (root : Path) (maxDepth : Nat) (entries : List Path) :
    Sound (Outline.ofFile disk root) entries (ofEntries disk root maxDepth entries) := by
  rw [ofEntries_eq_explore]
  exact explore_sound

end RouteAtlas
