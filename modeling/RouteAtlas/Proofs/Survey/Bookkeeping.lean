import RouteAtlas.Proofs.Survey.DepthLimit

/-!
# The books are balanced

Whatever walks and sweeps are made, in whatever order and from whatever paths, the four collections
that a `Ledger` keeps agree once the calls have returned. What the survey can be asked is shown of
`Survey` first, where a visit is one step; `Ledger.records_afterCalls` carries it over to the
collections, which are written at different moments.

## Key results

- `Survey.isSome_outline?`, `Survey.Sound.outline?_of_same`: the files with an outline are the files
  visited
- `Survey.Sound.diagnostics_eq`: what is reported is known from the files visited, in order
- `Survey.foldl_make_run`: any sequence of walks and sweeps is a run
- `Ledger.records_afterCalls`: the same calls to the ledger record that run
- `Ledger.afterCalls_stable`: all calls end
-/

namespace RouteAtlas

/-- What is to be reported of a file: nothing, if it has an outline. -/
def Diagnostic.ofFile? (load : Path → Except FileFault Outline) (p : Path) : Option Diagnostic :=
  match load p with
  | .ok _ => none
  | .error fault => some ⟨p, fault⟩

/-- `ofFile?` reports the file itself. -/
private theorem Diagnostic.path_of_ofFile? {load : Path → Except FileFault Outline} {p : Path}
    {d : Diagnostic} (h : ofFile? load p = some d) :
    d.path = p := by
  rw [ofFile?] at h
  cases hload : load p with
  | ok o => simp [hload] at h
  | error fault =>
    rw [hload] at h
    exact (Option.some.inj h) ▸ rfl

namespace Survey

variable {load : Path → Except FileFault Outline} {entries : List Path} {s t : Survey}

/-! ## One set of files -/

/-- No two of the `files` visited are at the same place. -/
theorem Sound.pairwise_files (hs : Sound load entries s) :
    s.files.Pairwise fun p q => p.same q = false :=
  List.pairwise_map.mpr hs.distinct

/-- `has` looks among the `files` visited. -/
private theorem has_iff_exists_file {p : Path} :
    s.has p = true ↔ ∃ q ∈ s.files, q.same p = true := by
  rw [has_eq_true]
  constructor
  · rintro ⟨v, hv, hsame⟩
    exact ⟨v.path, mem_files.mpr ⟨v, hv, rfl⟩, hsame⟩
  · rintro ⟨q, hq, hsame⟩
    obtain ⟨v, hv, rfl⟩ := mem_files.mp hq
    exact ⟨v, hv, hsame⟩

/-- `outline?` has something for exactly the files visited. -/
theorem isSome_outline? (s : Survey) (p : Path) : (s.outline? p).isSome = s.has p := by
  rw [outline?, Option.isSome_map, List.isSome_find?, has]

/-- `outline?` has, under each of its names, one and the same outline for a file visited, its
own. -/
private theorem Sound.outline?_of_same (hs : Sound load entries s)
    (hpath : ∀ p o, load p = .ok o → o.path = p) {p q : Path} (hq : q ∈ s.files)
    (hsame : q.same p = true) :
    ∃ o, s.outline? p = some o ∧ o.path = q := by
  obtain ⟨v, hv, rfl⟩ := mem_files.mp hq
  have hfind : s.visits.find? (·.path.same p) = some v := hs.find?_eq_some_iff.mpr ⟨hv, hsame⟩
  refine ⟨v.outline, ?_, hs.path_outline hpath hv⟩
  rw [outline?, hfind, Option.map_some]

/-! ## What is reported -/

/-- `diagnostics` are those of the files visited that have no outline, in the order of the
visits. -/
theorem Sound.diagnostics_eq (hs : Sound load entries s) :
    s.diagnostics = s.files.filterMap (Diagnostic.ofFile? load) := by
  rw [diagnostics, hs.visits_eq, List.filterMap_map]
  rfl

/-- `diagnostics` has nothing twice. -/
private theorem Sound.pairwise_diagnostics (hs : Sound load entries s) :
    s.diagnostics.Pairwise fun d e => d.path.same e.path = false := by
  rw [hs.diagnostics_eq, List.pairwise_filterMap]
  -- Each report names its file, and the files are different.
  refine hs.pairwise_files.imp fun {p q} hne d hd e he => ?_
  rw [Diagnostic.path_of_ofFile? hd, Diagnostic.path_of_ofFile? he]
  exact hne

/-! ## Any sequence of calls -/

/-- What a survey can be called on to do. -/
inductive Call where
  | walk (entry : Path)
  | sweep
deriving DecidableEq, Repr

/-- Does what the survey is called on to do. -/
def make (load : Path → Except FileFault Outline) (maxDepth visits : Nat) (s : Survey) :
    Call → Survey
  | .walk entry => walkFrom load maxDepth visits entry s
  | .sweep => sweep load visits s

/-- The survey after some calls. -/
def afterCalls (load : Path → Except FileFault Outline) (maxDepth visits : Nat)
    (calls : List Call) : Survey :=
  calls.foldl (make load maxDepth visits) {}

/-- `make` of any sequence of calls is a `Run`. -/
private theorem foldl_make_run {maxDepth visits : Nat} {calls : List Call}
    (hwalks : ∀ e, .walk e ∈ calls → e ∈ entries) (hs : Sound load entries s) :
    Run load entries s (calls.foldl (make load maxDepth visits) s) := by
  -- A sweep is a run only if what was put off is due, so soundness goes along.
  induction calls generalizing s with
  | nil => exact .refl
  | cons call calls ih =>
    have hcall : Run load entries s (make load maxDepth visits s call) := by
      cases call with
      | walk e => exact walkFrom_run (hwalks e List.mem_cons_self)
      | sweep => exact sweep_run hs.pendingDue
    refine hcall.trans (ih (fun e he => hwalks e (List.mem_cons_of_mem _ he)) (hcall.sound hs))

/-- The paths that some calls walk from. -/
def walked (calls : List Call) : List Path :=
  calls.filterMap fun
    | .walk entry => some entry
    | .sweep => none

/-- `walked` has the path of every walk. -/
private theorem mem_walked {calls : List Call} {e : Path} (h : Call.walk e ∈ calls) :
    e ∈ walked calls :=
  List.mem_filterMap.mpr ⟨.walk e, h, rfl⟩

/-- `afterCalls` is a `Sound` survey. -/
theorem afterCalls_sound {maxDepth visits : Nat} {calls : List Call} :
    Sound load (walked calls) (afterCalls load maxDepth visits calls) :=
  (foldl_make_run (fun _ => mem_walked) sound_empty).sound sound_empty

/-- `afterCalls` of more calls adds files at the end. -/
private theorem files_prefix_afterCalls (load : Path → Except FileFault Outline)
    (maxDepth visits : Nat) (calls more : List Call) :
    (afterCalls load maxDepth visits calls).files <+:
      (afterCalls load maxDepth visits (calls ++ more)).files := by
  -- The paths of all calls count as entry points, so that both parts are runs of one survey.
  have hsound : Sound load (walked (calls ++ more)) (afterCalls load maxDepth visits calls) :=
    (foldl_make_run (fun e he => mem_walked (List.mem_append_left _ he)) sound_empty).sound
      sound_empty
  have hrun : Run load (walked (calls ++ more)) (afterCalls load maxDepth visits calls)
      (more.foldl (make load maxDepth visits) (afterCalls load maxDepth visits calls)) :=
    foldl_make_run (fun e he => mem_walked (List.mem_append_right _ he)) hsound
  rw [afterCalls, afterCalls, List.foldl_append]
  exact hrun.visits_prefix.map _

end Survey

/-! ## The four collections -/

namespace Ledger

variable {load : Path → Except FileFault Outline} {entries : List Path} {l : Ledger} {s : Survey}

/-- Does what the survey is called on to do, in the books. -/
def make (load : Path → Except FileFault Outline) (maxDepth visits : Nat) (l : Ledger) :
    Survey.Call → Ledger
  | .walk entry => walkFrom load maxDepth visits entry l
  | .sweep => sweep load visits l

/-- The books after some calls. -/
def afterCalls (load : Path → Except FileFault Outline) (maxDepth visits : Nat)
    (calls : List Survey.Call) : Ledger :=
  calls.foldl (make load maxDepth visits) {}

/-- `make` of a call to the ledger is that to the survey which it records. -/
private theorem Records.make (h : Records l s []) (maxDepth visits : Nat) (call : Survey.Call) :
    Records (l.make load maxDepth visits call) (s.make load maxDepth visits call) [] := by
  cases call with
  | walk entry => exact h.walkFrom load maxDepth visits entry
  | sweep => exact h.sweep load visits

/-- `make` of any calls, one after the other, is the same for both. -/
private theorem Records.foldl_make (h : Records l s []) (maxDepth visits : Nat)
    (calls : List Survey.Call) :
    Records (calls.foldl (Ledger.make load maxDepth visits) l)
      (calls.foldl (Survey.make load maxDepth visits) s) [] := by
  induction calls generalizing l s with
  | nil => exact h
  | cons call calls ih => exact ih (h.make maxDepth visits call)

/-- `afterCalls` of the ledger records that of the survey. -/
private theorem records_afterCalls (load : Path → Except FileFault Outline) (maxDepth visits : Nat)
    (calls : List Survey.Call) :
    Records (afterCalls load maxDepth visits calls) (Survey.afterCalls load maxDepth visits calls)
      [] :=
  records_empty.foldl_make maxDepth visits calls

/-- With nothing taken, `order` holds the files visited. -/
private theorem Records.order_eq (h : Records l s []) : l.order = s.files :=
  h.order.trans (List.append_nil _)

/-- With nothing taken, `claimed` holds the files of `order`. -/
private theorem Records.perm_claimed (h : Records l s []) : l.claimed.Perm l.order := by
  rw [h.claimed, h.order]
  exact List.reverse_perm _

/-- With nothing taken, there is an outline under each file of `order` and under no other. -/
private theorem Records.keys_outlines (h : Records l s []) : l.outlines.map (·.1) = l.order := by
  rw [h.outlines, h.order_eq, List.map_map]
  rfl

/-- Every outline is of the file that it is stored under. -/
private theorem Records.path_of_mem_outlines (h : Records l s []) (hs : Survey.Sound load entries s)
    (hpath : ∀ p o, load p = .ok o → o.path = p) {p : Path} {o : Outline}
    (ho : (p, o) ∈ l.outlines) :
    o.path = p := by
  rw [h.outlines] at ho
  obtain ⟨v, hv, hentry⟩ := List.mem_map.mp ho
  obtain ⟨rfl, rfl⟩ := Prod.mk.inj hentry
  exact hs.path_outline hpath hv

/-- `afterCalls` comes to the same with any number of visits that is not less than the bound: walks
and sweeps end. -/
private theorem afterCalls_stable {all : List Path} (hload : Survey.ImportsWithin load all)
    {n : Nat} (hn : all.length + 2 ≤ n) (maxDepth : Nat) (calls : List Survey.Call) :
    afterCalls load maxDepth n calls = afterCalls load maxDepth (all.length + 2) calls := by
  -- Each call alone comes to the same, from whatever survey it starts.
  have hmake : Survey.make load maxDepth n = Survey.make load maxDepth (all.length + 2) := by
    funext s call
    cases call with
    | walk entry => exact Survey.walkFrom_stable hload hn maxDepth entry s
    | sweep => exact Survey.sweep_stable hload hn s
  have hsurvey : Survey.afterCalls load maxDepth n calls =
      Survey.afterCalls load maxDepth (all.length + 2) calls := by
    rw [Survey.afterCalls, Survey.afterCalls, hmake]
  -- A survey is recorded in one way only.
  exact (records_afterCalls load maxDepth n calls).unique
    (hsurvey ▸ records_afterCalls load maxDepth (all.length + 2) calls)

/-- After any walks and sweeps on a disk, with any limit for the depth: the files in `order` are at
different places and none is of a package; they are the files in `claimed` and the files under which
`outlines` has something, which is the outline of that file, under whatever name it is asked for;
more calls add to `order` only at its end; and `diagnostics` has those files of `order` that could
not be read or parsed, in order and each once. The calls end: more visits than there can be on the
disk make no difference. -/
theorem afterCalls_books (disk : Disk) (root : Path) (maxDepth visits : Nat)
    (calls : List Survey.Call) :
    let load := Outline.ofFile disk root
    let l := afterCalls load maxDepth visits calls
    (l.order.Pairwise fun p q => p.same q = false) ∧
    l.claimed.Perm l.order ∧
    (l.outlines.map (·.1)).Perm l.order ∧
    (∀ p, l.has p = true ↔ ∃ q ∈ l.order, q.same p = true) ∧
    (∀ p, (l.outline? p).isSome = l.has p) ∧
    (∀ p o, (p, o) ∈ l.outlines → o.path = p) ∧
    (∀ q ∈ l.order, ∀ p, q.same p = true → ∃ o, l.outline? p = some o ∧ o.path = q) ∧
    (∀ p ∈ l.order, p.isForeign = false) ∧
    (∀ more, l.order <+: (afterCalls load maxDepth visits (calls ++ more)).order) ∧
    l.diagnostics = l.order.filterMap (Diagnostic.ofFile? load) ∧
    (l.diagnostics.Pairwise fun d e => d.path.same e.path = false) ∧
    ∀ n, disk.visitBound ≤ n →
      afterCalls load maxDepth n calls = afterCalls load maxDepth disk.visitBound calls := by
  intro load l
  have hr : Records l (Survey.afterCalls load maxDepth visits calls) [] :=
    records_afterCalls load maxDepth visits calls
  have hs : Survey.Sound load (Survey.walked calls)
      (Survey.afterCalls load maxDepth visits calls) := Survey.afterCalls_sound
  have hpath : ∀ p o, load p = .ok o → o.path = p := fun _ _ => Outline.path_ofFile
  -- What is asked of the books has been shown of the survey that they record.
  refine ⟨?_, hr.perm_claimed, hr.keys_outlines ▸ .refl _, ?_, ?_, ?_, ?_, ?_, ?_, ?_, ?_, ?_⟩
  · rw [hr.order_eq]
    exact hs.pairwise_files
  · intro p
    rw [hr.has_eq_has, hr.order_eq]
    exact Survey.has_iff_exists_file
  · intro p
    rw [hr.has_eq_has, hr.outline?_eq]
    exact Survey.isSome_outline? _ p
  · intro p o ho
    exact hr.path_of_mem_outlines hs hpath ho
  · intro q hq p hsame
    rw [hr.outline?_eq]
    rw [hr.order_eq] at hq
    exact hs.outline?_of_same hpath hq hsame
  · intro p hp
    rw [hr.order_eq] at hp
    obtain ⟨v, hv, rfl⟩ := Survey.mem_files.mp hp
    exact hs.own v hv
  · intro more
    rw [hr.order_eq, (records_afterCalls load maxDepth visits (calls ++ more)).order_eq]
    exact Survey.files_prefix_afterCalls load maxDepth visits calls more
  · rw [hr.diagnostics, hr.order_eq]
    exact hs.diagnostics_eq
  · rw [hr.diagnostics]
    exact hs.pairwise_diagnostics
  · intro n hn
    rw [← disk.length_filePaths_add_two] at hn ⊢
    exact afterCalls_stable (Outline.ofFile_importsWithin disk root) hn maxDepth calls

/-- A disk with one file, which is not text. -/
def unreadable : Disk where
  root := .directory [("a.js", .file none)]
  current := ⟨"/"⟩

/-- Walks from the file under two names, from a file of a package and from a file that is not there,
with a sweep in between. -/
def repeatedCalls : List Survey.Call :=
  [.walk ⟨"/a.js"⟩, .sweep, .walk ⟨"//a.js"⟩, .walk ⟨"/node_modules/b.js"⟩, .walk ⟨"/gone.js"⟩]

/-- After `repeatedCalls` two files are claimed, the first has its outline under both names, and
both are reported. -/
theorem repeatedCalls_books :
    let load := Outline.ofFile unreadable ⟨"/"⟩
    let l := afterCalls load 0 3 repeatedCalls
    l.order = [⟨"/a.js"⟩, ⟨"/gone.js"⟩] ∧
      l.claimed.Perm [⟨"/a.js"⟩, ⟨"/gone.js"⟩] ∧
      (l.outlines.map (·.1)).Perm [⟨"/a.js"⟩, ⟨"/gone.js"⟩] ∧
      (∃ o, l.outline? ⟨"//a.js"⟩ = some o ∧ o.path = ⟨"/a.js"⟩) ∧
      l.diagnostics = [Path.mk "/a.js", ⟨"/gone.js"⟩].filterMap (Diagnostic.ofFile? load) ∧
      l.diagnostics.map (·.path) = [⟨"/a.js"⟩, ⟨"/gone.js"⟩] := by
  intro load l
  have horder : l.order = [⟨"/a.js"⟩, ⟨"/gone.js"⟩] := by decide +kernel
  obtain ⟨_, hclaimed, hkeys, _, _, _, houtline, _, _, hreported, _⟩ :=
    afterCalls_books unreadable ⟨"/"⟩ 0 3 repeatedCalls
  -- Only the order is worked out; the other collections follow from it.
  refine ⟨horder, horder ▸ hclaimed, horder ▸ hkeys,
    houtline ⟨"/a.js"⟩ ?_ ⟨"//a.js"⟩ (by decide +kernel), horder ▸ hreported,
    by decide +kernel⟩
  rw [horder]
  exact List.mem_cons_self

end Ledger

end RouteAtlas
