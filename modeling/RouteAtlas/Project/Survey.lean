import RouteAtlas.Project.Reading

/-!
# Surveying a project

A survey visits every file that can be reached by imports, each once, and has the outlines in the
order of the visits. `walkFrom` goes depth first from an entry point; files that lie deeper than
allowed are put off. `sweep` visits what was put off, round after round, until no import leads to a
file that has not been visited. Files below `node_modules` are left out.

Here a visit is one step, and a survey is the list of its visits. `Ledger` has the collections that
are kept while a survey is made, in which a visit is written down in two steps.
-/

namespace RouteAtlas

/-- A file that was visited, and what came of it. -/
structure Visit where
  path : Path
  result : Except FileFault Outline

namespace Visit

/-- The outline of the file. A file that could not be read or parsed has one with nothing in it. -/
def outline (v : Visit) : Outline :=
  match v.result with
  | .ok o => o
  | .error _ => { path := v.path }

/-- The files that the file imports. -/
def imports (v : Visit) : List Path := v.outline.importedFiles

end Visit

/-- A file that nothing could be learnt of, and why. -/
structure Diagnostic where
  path : Path
  fault : FileFault

namespace Diagnostic

/-- What went wrong, in two words. -/
def kind (d : Diagnostic) : String :=
  match d.fault with
  | .read _ => "read failure"
  | .parse _ => "parse failure"

/-- The diagnostic as one line of text. -/
def display (d : Diagnostic) : String :=
  d.path.text ++ ": " ++ d.kind ++ ": " ++ d.fault.message

end Diagnostic

/-- The file belongs to an installed package. -/
def Path.isForeign (p : Path) : Bool := p.hasComponent "node_modules"

/-- The visits made so far, in order, and the files put off. -/
structure Survey where
  visits : List Visit := []
  pending : List Path := []

namespace Survey

/-- The file has been visited. -/
def has (s : Survey) (p : Path) : Bool := s.visits.any (·.path.same p)

/-- Adds visits. -/
def record (s : Survey) (more : List Visit) : Survey := { s with visits := s.visits ++ more }

/-- Puts a file off, unless it has been visited. -/
def putOff (s : Survey) (p : Path) : Survey :=
  if s.has p then s else { s with pending := s.pending ++ [p] }

/-- The files visited, in order. -/
def files (s : Survey) : List Path := s.visits.map (·.path)

/-- The outlines of the files visited, in order. -/
def outlines (s : Survey) : List Outline := s.visits.map (·.outline)

/-- The outline of a file. -/
def outline? (s : Survey) (p : Path) : Option Outline :=
  (s.visits.find? (·.path.same p)).map (·.outline)

/-- The files that nothing could be learnt of, in the order of the visits. -/
def diagnostics (s : Survey) : List Diagnostic :=
  s.visits.filterMap fun v =>
    match v.result with
    | .ok _ => none
    | .error fault => some ⟨v.path, fault⟩

/-! ## Depth first -/

/-- A file to be visited, and how many imports away from the entry point it is. -/
abbrev Task := Path × Nat

/-- Goes through tasks up to the first that calls for a visit, which is given with the tasks after
it. Files too deep are put off on the way. -/
def nextTask (maxDepth : Nat) (s : Survey) : List Task → Survey × Option (Task × List Task)
  | [] => (s, none)
  | (p, depth) :: rest =>
    if maxDepth < depth then nextTask maxDepth (s.putOff p) rest
    else if p.isForeign || s.has p then nextTask maxDepth s rest
    else (s, some ((p, depth), rest))

/-- What a visit leaves to be done: the files it imports that have not been visited. -/
def tasksOf (s : Survey) (v : Visit) (depth : Nat) : List Task :=
  (v.imports.filter (!s.has ·)).map (·, depth + 1)

/-- Works through a stack of tasks with at most the given number of visits. What a file imports
comes before the tasks that were left. -/
def walkStack (load : Path → Except FileFault Outline) (maxDepth : Nat) :
    Nat → List Task → Survey → Survey
  | 0, _, s => s
  | visits + 1, stack, s =>
    match nextTask maxDepth s stack with
    | (s, none) => s
    | (s, some ((p, depth), rest)) =>
      let v : Visit := ⟨p, load p⟩
      let s := s.record [v]
      walkStack load maxDepth visits (s.tasksOf v depth ++ rest) s

/-- Visits everything that can be reached from an entry point without going too deep. -/
def walkFrom (load : Path → Except FileFault Outline) (maxDepth visits : Nat) (entry : Path)
    (s : Survey) :
    Survey :=
  walkStack load maxDepth visits [(entry, 0)] s

/-! ## The rest -/

/-- The files that are still to be visited: those put off and those imported, each once. -/
def missing (s : Survey) : List Path :=
  (s.pending ++ s.visits.flatMap (·.imports)).foldl (fun batch p =>
    if p.isForeign || batch.any (·.same p) || s.has p then batch else batch ++ [p]) []

/-- Visits what is missing, at most the given number of times. -/
def sweep (load : Path → Except FileFault Outline) : Nat → Survey → Survey
  | 0, s => s
  | rounds + 1, s =>
    match s.missing with
    | [] => { s with pending := [] }
    | batch => sweep load rounds ({ s with pending := [] }.record (batch.map fun p => ⟨p, load p⟩))

/-- The survey from some entry points: a walk from each of them, and then the rest. -/
def explore (load : Path → Except FileFault Outline) (maxDepth visits : Nat) (entries : List Path) :
    Survey :=
  sweep load visits (entries.foldl (fun s e => walkFrom load maxDepth visits e s) {})

end Survey

mutual
/-- The number of files of an entry. -/
def Entry.fileCount : Entry → Nat
  | .file _ => 1
  | .link _ => 0
  | .directory members => fileCounts members
/-- The number of files of some members. -/
def Entry.fileCounts : List (String × Entry) → Nat
  | [] => 0
  | (_, e) :: rest => e.fileCount + fileCounts rest
end

/-- More visits than a survey of the disk can make from one entry point: each visit but the first is
to another file of the disk, and one more finds nothing left to do. -/
def Disk.visitBound (d : Disk) : Nat := d.root.fileCount + 2

end RouteAtlas
