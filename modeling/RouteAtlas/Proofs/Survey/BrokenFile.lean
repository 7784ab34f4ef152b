import RouteAtlas.Proofs.Survey.Bookkeeping

/-!
# A broken file harms only itself

A file that cannot be read or parsed is taken for one with nothing in it. Had it been a file with
nothing in it, the survey would have taken the same course, every other file would have the same
outline, and the catalogue would be the same; only the report of the file would be missing.

## Key results

- `explore_course_congr`: the course of a survey depends only on what files import
- `Sound.outline?_eq_find?`, `Sound.inferred_eq`: a survey is known from its files and what they
  hold
- `explore_mend`: a survey with a broken file and one with an empty file in its place
-/

namespace RouteAtlas

namespace Survey

variable {load load' : Path → Except FileFault Outline} {entries : List Path} {s t : Survey}

/-! ## The course of a survey -/

/-- The course that a survey has taken: the files visited, each with the files it imports, and the
files put off. -/
def course (s : Survey) : List (Path × List Path) × List Path :=
  (s.visits.map fun v => (v.path, v.imports), s.pending)

/-- Files import the same, whichever way they are read. -/
def ImportsAlike (load load' : Path → Except FileFault Outline) : Prop :=
  ∀ p, (⟨p, load' p⟩ : Visit).imports = (⟨p, load p⟩ : Visit).imports

/-- `files` can be read off the `course`. -/
private theorem files_eq_course (s : Survey) : s.files = s.course.1.map Prod.fst := by
  rw [files, course, List.map_map]
  rfl

/-- `has` can be answered from the `course`. -/
private theorem has_eq_course (s : Survey) (p : Path) : s.has p = s.course.1.any (·.1.same p) := by
  rw [has, course, List.any_map]
  rfl

/-- `has` is the same for surveys of the same `course`. -/
private theorem has_congr (h : t.course = s.course) : t.has = s.has := by
  funext p
  rw [has_eq_course, has_eq_course, h]

/-- A `course` is the same if the visits and the files put off are. -/
private theorem course_eq_iff : t.course = s.course ↔
    (t.visits.map fun v => (v.path, v.imports)) = (s.visits.map fun v => (v.path, v.imports)) ∧
      t.pending = s.pending := Prod.ext_iff

/-- `putOff` continues the course of two surveys alike. -/
private theorem putOff_course_congr (h : t.course = s.course) (p : Path) :
    (t.putOff p).course = (s.putOff p).course := by
  rw [putOff, putOff, has_congr h]
  split
  · exact h
  · obtain ⟨hvisits, hpending⟩ := course_eq_iff.mp h
    exact course_eq_iff.mpr ⟨hvisits, congrArg (· ++ [p]) hpending⟩

/-- `nextTask` continues the course of two surveys alike, and finds the same task. -/
private theorem nextTask_course_congr (h : t.course = s.course) (maxDepth : Nat)
    (stack : List Task) :
    (nextTask maxDepth t stack).1.course = (nextTask maxDepth s stack).1.course ∧
      (nextTask maxDepth t stack).2 = (nextTask maxDepth s stack).2 := by
  induction stack generalizing s t with
  | nil => exact ⟨h, rfl⟩
  | cons task rest ih =>
    obtain ⟨p, depth⟩ := task
    -- What is asked of a task depends on the course alone.
    rw [nextTask, nextTask, has_congr h]
    split
    · exact ih (putOff_course_congr h p)
    · split
      · exact ih h
      · exact ⟨h, rfl⟩

/-- `record` of visits to the same files, read in two ways, continues the course alike. -/
private theorem record_course_congr (himports : ImportsAlike load load') (h : t.course = s.course)
    (batch : List Path) :
    (t.record (batch.map fun p => ⟨p, load' p⟩)).course =
      (s.record (batch.map fun p => ⟨p, load p⟩)).course := by
  have hbatch : (batch.map fun p => (⟨p, load' p⟩ : Visit)).map (fun v => (v.path, v.imports)) =
      (batch.map fun p => (⟨p, load p⟩ : Visit)).map fun v => (v.path, v.imports) := by
    rw [List.map_map, List.map_map]
    exact List.map_congr_left fun p _ => Prod.ext rfl (himports p)
  obtain ⟨hvisits, hpending⟩ := course_eq_iff.mp h
  refine course_eq_iff.mpr ⟨?_, hpending⟩
  rw [visits_record, visits_record, List.map_append, List.map_append, hvisits, hbatch]

/-- `walkStack` takes the same course, whichever of the two ways files are read. -/
private theorem walkStack_course_congr (himports : ImportsAlike load load')
    (h : t.course = s.course) (maxDepth visits : Nat) (stack : List Task) :
    (walkStack load' maxDepth visits stack t).course =
      (walkStack load maxDepth visits stack s).course := by
  induction visits generalizing stack s t with
  | zero => exact h
  | succ visits ih =>
    obtain ⟨hcourse, hfound⟩ := nextTask_course_congr h maxDepth stack
    rw [walkStack, walkStack]
    cases hs : nextTask maxDepth s stack with
    | mk s' next =>
      cases ht : nextTask maxDepth t stack with
      | mk t' next' =>
        rw [hs, ht] at hcourse hfound
        obtain rfl : next' = next := hfound
        cases next' with
        | none => exact hcourse
        | some found =>
          obtain ⟨⟨p, depth⟩, rest⟩ := found
          -- The file is visited in both walks, and the same imports come before the tasks left.
          have hnext : (t'.record [⟨p, load' p⟩]).course = (s'.record [⟨p, load p⟩]).course :=
            record_course_congr himports hcourse [p]
          simp only [tasksOf, himports p, has_congr hnext]
          exact ih hnext _

/-- `missing` is the same for surveys of the same `course`. -/
private theorem missing_congr (h : t.course = s.course) : t.missing = s.missing := by
  -- The imports of the visits are part of the course.
  have hflat (s : Survey) : s.visits.flatMap (·.imports) = s.course.1.flatMap Prod.snd := by
    rw [course, List.flatMap_map]
  rw [missing_eq, missing_eq, hflat, hflat, (course_eq_iff.mp h).2, has_congr h, h]

/-- `sweep` takes the same course, whichever of the two ways files are read. -/
private theorem sweep_course_congr (himports : ImportsAlike load load') (h : t.course = s.course)
    (rounds : Nat) :
    (sweep load' rounds t).course = (sweep load rounds s).course := by
  induction rounds generalizing s t with
  | zero => exact h
  | succ rounds ih =>
    have hcleared : { t with pending := [] }.course = { s with pending := [] }.course :=
      course_eq_iff.mpr ⟨(course_eq_iff.mp h).1, rfl⟩
    -- The same files are missing, so both rounds visit them.
    rw [sweep, sweep, missing_congr h]
    split
    · exact hcleared
    · exact ih (record_course_congr himports hcleared _)

/-- `walkFrom` all entry points takes the same course, whichever of the two ways files are read. -/
private theorem foldl_walkFrom_course_congr (himports : ImportsAlike load load')
    (h : t.course = s.course) (maxDepth visits : Nat) (entries : List Path) :
    (entries.foldl (fun t e => walkFrom load' maxDepth visits e t) t).course =
      (entries.foldl (fun s e => walkFrom load maxDepth visits e s) s).course := by
  induction entries generalizing s t with
  | nil => exact h
  | cons e rest ih => exact ih (walkStack_course_congr himports h maxDepth visits [(e, 0)])

/-- `explore` takes a course that depends on what files import, and on nothing else that they
hold. -/
theorem explore_course_congr (himports : ImportsAlike load load') (maxDepth visits : Nat)
    (entries : List Path) :
    (explore load' maxDepth visits entries).course =
      (explore load maxDepth visits entries).course :=
  sweep_course_congr himports (foldl_walkFrom_course_congr himports rfl maxDepth visits entries)
    visits

/-! ## Known from the files -/

/-- `outline?` of a `Sound` survey, from its files and what they hold. -/
theorem Sound.outline?_eq_find? (hs : Sound load entries s) (p : Path) :
    s.outline? p = (s.files.find? (·.same p)).map fun q => (⟨q, load q⟩ : Visit).outline := by
  rw [outline?, hs.visits_eq, List.find?_map, Option.map_map]
  rfl

/-- `inferred` of a `Sound` survey, from its files and what they hold. -/
theorem Sound.inferred_eq (hs : Sound load entries s) :
    s.inferred = s.files.map fun p => s.withFacts (⟨p, load p⟩ : Visit).outline := by
  rw [inferred_eq_map_withFacts, outlines, hs.visits_eq, List.map_map, List.map_map]
  rfl

end Survey

/-- `ofOutlines` makes the same routers of files with the same paths, endpoints and mounts. -/
private theorem Router.ofOutlines_map_congr {files : List Path} {outline outline' : Path → Outline}
    (hpath : ∀ p, (outline' p).path = (outline p).path)
    (hroutes : ∀ p, (outline' p).routes.map (·.endpoint) = (outline p).routes.map (·.endpoint))
    (hmounts : ∀ p, (outline' p).mounts = (outline p).mounts) :
    ofOutlines (files.map outline') = ofOutlines (files.map outline) := by
  have hnumber (q : Path) : (files.map outline').findIdx? (·.path.same q) =
      (files.map outline).findIdx? (·.path.same q) := by
    rw [List.findIdx?_map, List.findIdx?_map]
    simp only [Function.comp_def, hpath]
  simp only [ofOutlines, List.map_map, Function.comp_def, hroutes, hmounts, hnumber]

/-! ## An empty file in place of a broken one -/

/-- The outline of a file that has nothing in it. -/
def Outline.blank (path : Path) (source? : Option SourceFile) : Outline := { path, source? }

/-- `exportedFunction?` finds nothing in a `blank` file. -/
private theorem Outline.exportedFunction?_blank (path : Path) (source? : Option SourceFile)
    (name : String) :
    (blank path source?).exportedFunction? name = none := by
  unfold exportedFunction?
  split <;> rfl

/-- `exportedMember?` finds nothing in a `blank` file. -/
private theorem Outline.exportedMember?_blank (path : Path) (source? : Option SourceFile)
    (exported property : String) : (blank path source?).exportedMember? exported property =
    none := by
  -- Neither the default export nor any other is there to start from.
  have hnothing : (if exported = "default" then (blank path source?).default?
      else (blank path source?).exports.find? exported) = none := by
    split <;> rfl
  rw [exportedMember?, hnothing]
  simp [exportedFunction?_blank]

/-- `boundFunction?` finds nothing in a `blank` file. -/
private theorem Outline.boundFunction?_blank (path : Path) (source? : Option SourceFile)
    (binding : ImportBinding) :
    (blank path source?).boundFunction? binding = none := by
  cases binding with
  | named exported => exact exportedFunction?_blank path source? exported
  | default => rfl
  | wholeModule => rfl

/-- `boundMember?` finds nothing in a `blank` file. -/
private theorem Outline.boundMember?_blank (path : Path) (source? : Option SourceFile)
    (property : String) (binding : ImportBinding) :
    (blank path source?).boundMember? property binding = none := by
  cases binding with
  | named exported => exact exportedMember?_blank path source? exported property
  | default => exact exportedMember?_blank path source? "default" property
  | wholeModule => exact exportedFunction?_blank path source? property

namespace Survey

/-- Reads files, but takes the broken ones for files that have nothing in them. -/
def mend (load : Path → Except FileFault Outline) (broken : Path → Bool)
    (source? : Option SourceFile) (p : Path) :
    Except FileFault Outline :=
  if broken p then .ok (.blank p source?) else load p

/-- Paths that all name one file, and under which it cannot be read or parsed. -/
structure Broken (load : Path → Except FileFault Outline) (f : Path) (broken : Path → Bool) :
    Prop where
  place : ∀ p, broken p = true → p.same f = true
  fails : ∀ p, broken p = true → ∃ fault, load p = .error fault

section Mended

variable {f : Path} {broken : Path → Bool} {source? : Option SourceFile}

/-- A `Broken` file is taken for a `blank` one without a source. -/
theorem Broken.outline (h : Broken load f broken) {p : Path} (hp : broken p = true) :
    (⟨p, load p⟩ : Visit).outline = .blank p none := by
  obtain ⟨fault, hfault⟩ := h.fails p hp
  rw [Visit.outline, hfault]
  rfl

/-- `mend` gives a `blank` outline of a broken file. -/
private theorem outline_mend {p : Path} (hp : broken p = true) :
    (⟨p, mend load broken source? p⟩ : Visit).outline = .blank p source? := by
  rw [Visit.outline, mend, if_pos hp]

/-- `mend` reads any other file as it is. -/
private theorem mend_of_not_broken {p : Path} (hp : broken p = false) :
    mend load broken source? p = load p := by
  rw [mend, hp]
  exact if_neg Bool.false_ne_true

/-- A file at another place is not `Broken`. -/
private theorem Broken.eq_false (h : Broken load f broken) {p : Path} (hp : p.same f = false) :
    broken p = false := by
  cases hbroken : broken p with
  | false => rfl
  | true =>
    rw [h.place p hbroken] at hp
    exact absurd hp (by decide)

/-- `ofFile?` reports the same of a file that is not broken. -/
private theorem ofFile?_mend {p : Path} (hp : broken p = false) :
    Diagnostic.ofFile? (mend load broken source?) p = Diagnostic.ofFile? load p := by
  rw [Diagnostic.ofFile?, Diagnostic.ofFile?, mend_of_not_broken hp]

/-- `mend` changes no imports: a broken file and an empty one both import nothing. -/
private theorem Broken.importsAlike (h : Broken load f broken) :
    ImportsAlike load (mend load broken source?) := by
  intro p
  cases hp : broken p with
  | false => rw [mend_of_not_broken hp]
  | true =>
    rw [Visit.imports, Visit.imports, outline_mend hp, h.outline hp]
    rfl

/-- `explore` visits the same files, with the broken file and with an empty one. -/
private theorem Broken.files_explore (h : Broken load f broken) (maxDepth visits : Nat)
    (entries : List Path) :
    (explore (mend load broken source?) maxDepth visits entries).files =
      (explore load maxDepth visits entries).files := by
  -- The files are part of the course, and the course depends on imports only.
  rw [files_eq_course, files_eq_course, explore_course_congr h.importsAlike]

/-- `diagnostics` of surveys of the same files are the same if none of the files is broken. -/
private theorem diagnostics_of_not_mem (hs : Sound load entries s)
    (ht : Sound (mend load broken source?) entries t) (hfiles : t.files = s.files)
    (hnone : ∀ p ∈ s.files, broken p = false) :
    t.diagnostics = s.diagnostics := by
  rw [ht.diagnostics_eq, hs.diagnostics_eq, hfiles]
  exact List.filterMap_congr fun p hp => ofFile?_mend (hnone p hp)

variable (h : Broken load f broken) (hs : Sound load entries s)
  (ht : Sound (mend load broken source?) entries t) (hfiles : t.files = s.files)

include h hs ht hfiles

/-- `foundAt?` gives the same in surveys of the same files, for what is not found in an empty
file. -/
private theorem Broken.foundAt?_congr {look? : Outline → Option Syntax.Span}
    (hblank : ∀ q source?, look? (.blank q source?) = none) (p : Path) :
    t.foundAt? p look? = s.foundAt? p look? := by
  rw [foundAt?, foundAt?, ht.outline?_eq_find?, hs.outline?_eq_find?, hfiles]
  cases hfind : s.files.find? (·.same p) with
  | none => rfl
  | some q =>
    rw [Option.map_some, Option.map_some, Option.bind_some, Option.bind_some]
    -- In the broken file nothing is found either way.
    cases hq : broken q with
    | false => rw [mend_of_not_broken hq]
    | true => rw [outline_mend hq, h.outline hq, hblank, hblank, Option.map_none, Option.map_none]

/-- `ExportsAlike`: an empty file exports nothing, just as a broken one. -/
private theorem Broken.exportsAlike : ExportsAlike s t where
  function p binding :=
    h.foundAt?_congr hs ht hfiles
      (fun q source? => Outline.boundFunction?_blank q source? binding) p
  member p property binding :=
    h.foundAt?_congr hs ht hfiles
      (fun q source? => Outline.boundMember?_blank q source? property binding) p

/-! ## What a broken file leaves alone -/

/-- `outline?` is the same for every file but the broken one. -/
private theorem Broken.outline?_congr {p : Path} (hp : p.same f = false) :
    t.outline? p = s.outline? p := by
  rw [ht.outline?_eq_find?, hs.outline?_eq_find?, hfiles]
  cases hfind : s.files.find? (·.same p) with
  | none => rfl
  | some q =>
    -- The file found is the one asked for, so it is not the broken one.
    have hqp : q.same p = true := by simpa using List.find?_some hfind
    have hq : q.same f = false := by rw [Path.same_congr hqp, hp]
    rw [Option.map_some, Option.map_some, mend_of_not_broken (h.eq_false hq)]

/-- `withFacts` is the same for every file but the broken one. -/
private theorem Broken.withFacts_congr {p : Path} (hp : broken p = false) :
    t.withFacts (⟨p, mend load broken source? p⟩ : Visit).outline =
      s.withFacts (⟨p, load p⟩ : Visit).outline := by
  rw [mend_of_not_broken hp, (h.exportsAlike hs ht hfiles).withFacts]

/-- `ofOutlines` makes the same routers of both surveys. -/
private theorem Broken.routers_congr :
    Router.ofOutlines t.inferred = Router.ofOutlines s.inferred := by
  rw [ht.inferred_eq, hs.inferred_eq, hfiles]
  -- The broken file declares nothing and mounts nothing in either survey.
  refine Router.ofOutlines_map_congr (fun p => ?_) (fun p => ?_) (fun p => ?_) <;>
    cases hp : broken p with
    | false => rw [h.withFacts_congr hs ht hfiles hp]
    | true =>
      rw [outline_mend hp, h.outline hp]
      rfl

/-! ## What is reported of a broken file -/

/-- `diagnostics` lose the report of a broken file that was visited, and nothing else, by an empty
file in its place. -/
private theorem Broken.diagnostics_of_mem {p : Path} (hp : p ∈ s.files)
    (hbroken : broken p = true) :
    ∃ fault before after, load p = .error fault ∧ s.diagnostics = before ++ ⟨p, fault⟩ :: after ∧
      t.diagnostics = before ++ after := by
  obtain ⟨fault, hfault⟩ := h.fails p hbroken
  obtain ⟨before, after, hsplit⟩ := List.append_of_mem hp
  -- No other file visited is at the place of this one, so all others are reported alike.
  have hdistinct := hs.pairwise_files
  rw [hsplit, List.pairwise_append, List.pairwise_cons] at hdistinct
  obtain ⟨-, ⟨hafter, -⟩, hbefore⟩ := hdistinct
  have halike {q : Path} (hq : q.same p = false) :
      Diagnostic.ofFile? (mend load broken source?) q = Diagnostic.ofFile? load q := by
    refine ofFile?_mend (h.eq_false ?_)
    rw [Path.same_comm, ← Path.same_congr (h.place p hbroken), Path.same_comm, hq]
  have hreported : Diagnostic.ofFile? load p = some ⟨p, fault⟩ := by rw [Diagnostic.ofFile?, hfault]
  have hmended : Diagnostic.ofFile? (mend load broken source?) p = none := by
    rw [Diagnostic.ofFile?, mend, if_pos hbroken]
  refine ⟨fault, before.filterMap (Diagnostic.ofFile? load),
    after.filterMap (Diagnostic.ofFile? load), hfault, ?_, ?_⟩
  · rw [hs.diagnostics_eq, hsplit, List.filterMap_append, List.filterMap_cons_some hreported]
  · rw [ht.diagnostics_eq, hfiles, hsplit, List.filterMap_append, List.filterMap_cons_none hmended]
    congr 1
    · exact List.filterMap_congr fun q hq => halike (hbefore q hq p List.mem_cons_self)
    · refine List.filterMap_congr fun q hq => halike ?_
      rw [Path.same_comm]
      exact hafter q hq

end Mended

/-- Of two surveys, let one find a file broken that the other finds empty, which is what `mend`
does. Both visit the same files in the same order, every other file has the same outline, also after
the handlers have been read, and the catalogues are the same. If the broken file was visited, its
report is the one thing that the other survey does not report; if not, nothing differs in the
reports. -/
theorem explore_mend (load : Path → Except FileFault Outline) (maxDepth visits : Nat)
    (entries : List Path) (f : Path) (broken : Path → Bool) (source? : Option SourceFile)
    (h : Broken load f broken) :
    let s := explore load maxDepth visits entries
    let t := explore (mend load broken source?) maxDepth visits entries
    t.files = s.files ∧
    (∀ p, p.same f = false → t.outline? p = s.outline? p) ∧
    (∀ (i : Nat) p, s.files[i]? = some p → broken p = false → t.inferred[i]? = s.inferred[i]?) ∧
    Catalogue.ofOutlines t.inferred = Catalogue.ofOutlines s.inferred ∧
    (∀ p ∈ s.files, broken p = true → ∃ fault before after, load p = .error fault ∧
      s.diagnostics = before ++ ⟨p, fault⟩ :: after ∧ t.diagnostics = before ++ after) ∧
    ((∀ p ∈ s.files, broken p = false) → t.diagnostics = s.diagnostics) := by
  intro s t
  have hs : Sound load entries s := explore_sound
  have ht : Sound (mend load broken source?) entries t := explore_sound
  have hfiles : t.files = s.files := h.files_explore maxDepth visits entries
  refine ⟨hfiles, fun p hp => h.outline?_congr hs ht hfiles hp, ?_, ?_, ?_,
    diagnostics_of_not_mem hs ht hfiles⟩
  · intro i p hi hp
    rw [ht.inferred_eq, hs.inferred_eq, hfiles, List.getElem?_map, List.getElem?_map, hi,
      Option.map_some, Option.map_some, h.withFacts_congr hs ht hfiles hp]
  · rw [Catalogue.ofOutlines, Catalogue.ofOutlines, h.routers_congr hs ht hfiles]
  · intro p hp hbroken
    exact h.diagnostics_of_mem hs ht hfiles hp hbroken

/-- A server with a route whose handler comes from a file that is no program, and with a router that
it mounts. -/
def brokenHandlers (p : Path) : Except FileFault Outline :=
  match p.text with
  | "/server.js" => .ok
    { path := p
      imports :=
        [{ specifier := "./handlers", whole? := some "handlers", file? := some ⟨"/handlers.js"⟩ },
          { specifier := "./users", default? := some "users", file? := some ⟨"/users.js"⟩ }]
      routes := [⟨.declare .post "/login", [.member "handlers" "login"], ⟨0, 0, 1⟩⟩]
      mounts := [⟨"/users", "users", some ⟨"/users.js"⟩⟩] }
  | "/handlers.js" => .error (.parse .malformed)
  | "/users.js" => .ok
    { path := p
      routes := [⟨.declare .get "/:id", [], ⟨0, 0, 1⟩⟩] }
  | _ => .error (.read .missing)

/-- In `brokenHandlers`, the file with the handlers is visited and alone reported, and with an empty
file in its place nothing is reported and the catalogue is the same. -/
theorem brokenHandlers_mend :
    let s := explore brokenHandlers 3 5 [⟨"/server.js"⟩]
    let t := explore (mend brokenHandlers (· == ⟨"/handlers.js"⟩) none) 3 5 [⟨"/server.js"⟩]
    Broken brokenHandlers ⟨"/handlers.js"⟩ (· == ⟨"/handlers.js"⟩) ∧
      s.files = [⟨"/server.js"⟩, ⟨"/handlers.js"⟩, ⟨"/users.js"⟩] ∧
      (∃ fault before after, brokenHandlers ⟨"/handlers.js"⟩ = .error fault ∧
        s.diagnostics = before ++ ⟨⟨"/handlers.js"⟩, fault⟩ :: after ∧
          t.diagnostics = before ++ after) ∧
      t.outline? ⟨"/users.js"⟩ = s.outline? ⟨"/users.js"⟩ ∧
      Catalogue.ofOutlines t.inferred = Catalogue.ofOutlines s.inferred := by
  intro s t
  -- One path names the broken file, so both conditions are about that path.
  have h : Broken brokenHandlers ⟨"/handlers.js"⟩ (· == ⟨"/handlers.js"⟩) := by
    constructor <;> intro p hp <;> obtain rfl := eq_of_beq hp
    · exact Path.same_refl _
    · exact ⟨_, rfl⟩
  have hfiles : s.files = [⟨"/server.js"⟩, ⟨"/handlers.js"⟩, ⟨"/users.js"⟩] := by decide +kernel
  obtain ⟨_, houtline, _, hcatalogue, hreport, _⟩ :=
    explore_mend brokenHandlers 3 5 [⟨"/server.js"⟩]
    ⟨"/handlers.js"⟩ (· == ⟨"/handlers.js"⟩) none h
  exact ⟨h, hfiles, hreport ⟨"/handlers.js"⟩ (by simp [s, hfiles]) (by decide +kernel),
    houtline ⟨"/users.js"⟩ (by decide +kernel), hcatalogue⟩

end Survey

end RouteAtlas
