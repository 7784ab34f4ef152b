import RouteAtlas.Project.Survey

/-!
# The books of a survey

While a survey is made, four collections are kept up: the set of the files taken, the same files in
the order in which they were taken, the outlines by file, and the diagnostics. They are written at
different moments. A file is claimed before it is read and stored once it has been.
`Ledger.walkFrom` claims and stores one file after the other; `Ledger.sweep` claims all files of a
round before it stores the first.

`Ledger.survey` is the survey that the books come to.
-/

namespace RouteAtlas

/-- The collections that are kept while a survey is made. -/
structure Ledger where
  /-- The set of the files claimed. -/
  claimed : List Path := []
  /-- The files claimed, in the order in which they were. -/
  order : List Path := []
  /-- The outlines stored, each under its file. -/
  outlines : List (Path × Outline) := []
  /-- The files that nothing could be learnt of, in the order in which that was found out. -/
  diagnostics : List Diagnostic := []
  /-- The files put off. -/
  pending : List Path := []

namespace Ledger

/-- The file has been claimed. -/
def has (l : Ledger) (p : Path) : Bool := l.claimed.any (·.same p)

/-- The outline stored under a file. -/
def outline? (l : Ledger) (p : Path) : Option Outline :=
  (l.outlines.find? (·.1.same p)).map (·.2)

/-- The outlines stored, in the order in which their files were claimed. -/
def analyses (l : Ledger) : List Outline := l.order.filterMap l.outline?

/-- Claims a file, and tells whether it was free. -/
def claim (l : Ledger) (p : Path) : Ledger × Bool :=
  if l.has p then (l, false)
    else ({ l with claimed := p :: l.claimed, order := l.order ++ [p] }, true)

/-- Puts an outline under a file, in place of the one that was there. -/
def putOutline (p : Path) (o : Outline) : List (Path × Outline) → List (Path × Outline)
  | [] => [(p, o)]
  | (q, old) :: rest => if q.same p then (q, o) :: rest else (q, old) :: putOutline p o rest

/-- Stores what came of reading a file. One that could not be read or parsed is reported, and has an
outline with nothing in it. -/
def store (l : Ledger) (p : Path) (result : Except FileFault Outline) : Ledger :=
  match result with
  | .ok o => { l with outlines := putOutline p o l.outlines }
  | .error fault =>
    { l with
      diagnostics := l.diagnostics ++ [⟨p, fault⟩]
      outlines := putOutline p { path := p } l.outlines }

/-- Puts a file off, unless it has been claimed. -/
def putOff (l : Ledger) (p : Path) : Ledger :=
  if l.has p then l else { l with pending := l.pending ++ [p] }

/-! ## Depth first -/

/-- Goes through tasks up to the first whose file can be claimed, which is given with the tasks
after it. Files too deep are put off on the way. -/
def nextTask (maxDepth : Nat) (l : Ledger) :
    List Survey.Task → Ledger × Option (Survey.Task × List Survey.Task)
  | [] => (l, none)
  | (p, depth) :: rest =>
    if maxDepth < depth then nextTask maxDepth (l.putOff p) rest
    else if p.isForeign then nextTask maxDepth l rest
    else
      match l.claim p with
      | (l, true) => (l, some ((p, depth), rest))
      | (l, false) => nextTask maxDepth l rest

/-- The files that a file imports, from what came of reading it. -/
def importsOf (result : Except FileFault Outline) : List Path :=
  match result with
  | .ok o => o.importedFiles
  | .error _ => []

/-- The tasks that a file leaves to be done: those for its imports that have not been claimed. -/
def tasksOf (l : Ledger) (imports : List Path) (depth : Nat) : List Survey.Task :=
  (imports.filter (!l.has ·)).map (·, depth + 1)

/-- Works through a stack of tasks with at most the given number of visits. -/
def walkStack (load : Path → Except FileFault Outline) (maxDepth : Nat) :
    Nat → List Survey.Task → Ledger → Ledger
  | 0, _, l => l
  | visits + 1, stack, l =>
    match nextTask maxDepth l stack with
    | (l, none) => l
    | (l, some ((p, depth), rest)) =>
      let result := load p
      let l := l.store p result
      walkStack load maxDepth visits (l.tasksOf (importsOf result) depth ++ rest) l

/-- Claims and stores everything that can be reached from an entry point without going too deep. -/
def walkFrom (load : Path → Except FileFault Outline) (maxDepth visits : Nat) (entry : Path)
    (l : Ledger) :
    Ledger :=
  walkStack load maxDepth visits [(entry, 0)] l

/-! ## The rest -/

/-- The files that are still to be claimed: those put off and those imported, each once. -/
def missing (l : Ledger) : List Path :=
  (l.pending ++ l.analyses.flatMap (·.importedFiles)).foldl (fun batch p =>
    if p.isForeign || batch.any (·.same p) then batch
    else if l.has p then batch
    else batch ++ [p]) []

/-- Claims some files, one after the other. -/
def claimAll (batch : List Path) (l : Ledger) : Ledger :=
  batch.foldl (fun l p => (l.claim p).1) l

/-- Stores what came of reading some files, one after the other. -/
def storeAll (results : List (Path × Except FileFault Outline)) (l : Ledger) : Ledger :=
  results.foldl (fun l r => l.store r.1 r.2) l

/-- Claims what is missing and then stores it, at most the given number of times. -/
def sweep (load : Path → Except FileFault Outline) : Nat → Ledger → Ledger
  | 0, l => l
  | rounds + 1, l =>
    match l.missing with
    | [] => { l with pending := [] }
    | batch =>
      let l := claimAll batch { l with pending := [] }
      sweep load rounds (storeAll (batch.map fun p => (p, load p)) l)

/-- The books of a survey from some entry points: a walk from each of them, and then the rest. -/
def explore (load : Path → Except FileFault Outline) (maxDepth visits : Nat) (entries : List Path) :
    Ledger :=
  sweep load visits (entries.foldl (fun l e => walkFrom load maxDepth visits e l) {})

/-! ## What the books come to -/

/-- What came of reading a file, by the books. -/
def result (l : Ledger) (p : Path) : Except FileFault Outline :=
  match l.diagnostics.find? (·.path.same p) with
  | some d => .error d.fault
  | none => .ok ((l.outline? p).getD { path := p })

/-- The survey that the books come to: the files in order, each with what came of reading it. -/
def survey (l : Ledger) : Survey where
  visits := l.order.map fun p => ⟨p, l.result p⟩
  pending := l.pending

end Ledger

/-- The survey of a project from its entry points. -/
def Survey.ofEntries (disk : Disk) (root : Path) (maxDepth : Nat) (entries : List Path) : Survey :=
  (Ledger.explore (Outline.ofFile disk root) maxDepth disk.visitBound entries).survey

end RouteAtlas
