import RouteAtlas.Catalogue
import RouteAtlas.Failure
import RouteAtlas.Project.EntryPoints
import RouteAtlas.Project.Handlers
import RouteAtlas.Project.Ledger
import RouteAtlas.Settings.Discovery

/-!
# Scanning a project

A scan locates the entry points, surveys everything they import, finds out what the handlers of
routes read and puts the catalogue together.
-/

namespace RouteAtlas

/-- A project to be scanned: the canonical path of its root, and its settings. -/
structure Project where
  root : Path
  settings : Settings

/-- What a scan has found. -/
structure ScanResult where
  endpoints : List Endpoint := []
  entries : List Path := []
  /-- The files visited, in order. -/
  files : List Path := []
  diagnostics : List Diagnostic := []

namespace Project

/-- The canonical path of a directory that is to be the root of a project. -/
def canonicalRoot (disk : Disk) (path : Path) : Except Failure Path :=
  match disk.canonical? path with
  | some root => if disk.isDirectory root then .ok root else .error (.badRoot path)
  | none => .error (.badRoot path)

/-- The project at a path, with settings that are given. -/
def withSettings (disk : Disk) (path : Path) (settings : Settings) : Except Failure Project :=
  (canonicalRoot disk path).map (⟨·, settings⟩)

/-- The project at a path, with its own settings. -/
def openAt (disk : Disk) (path : Path) : Except Failure Project := do
  let root ← canonicalRoot disk path
  return ⟨root, ← Settings.discover disk root⟩

/-- The entry points of a project. -/
def entries (p : Project) (disk : Disk) : Except Failure (List Path) :=
  Failure.ofSettings p.root (EntryPoints.locate disk p.root p.settings)

/-- What is found from some entry points. -/
def scanFrom (p : Project) (disk : Disk) (entries : List Path) : ScanResult :=
  let survey := Survey.ofEntries disk p.root p.settings.maxDepth entries
  { endpoints := Catalogue.ofOutlines survey.inferred
    entries
    files := survey.files
    diagnostics := survey.diagnostics }

/-- What there is to be found in a project. Without an entry point there is nothing. -/
def scan (p : Project) (disk : Disk) : Except Failure ScanResult := do
  match ← p.entries disk with
  | [] => return {}
  | entries => return p.scanFrom disk entries

end Project

end RouteAtlas
