import RouteAtlas.CommandLine.Arguments
import RouteAtlas.Json.Catalogue
import RouteAtlas.Report

/-!
# Running commands

What a command writes and the exit code it ends with: 0 if there is something to report, 1 if there
is nothing, and 2 if it could not be done.
-/

namespace RouteAtlas

/-- The path as an absolute one, from the given directory if it is relative. Parts that count for
nothing are left out, but a slash at the end is kept. -/
def Path.absolute (p current : Path) : Path :=
  let parts := p.components.filterMap fun
    | .root | .current => none
    | c => some c.text
  let whole := parts.foldl Path.join (if p.isAbsolute then ⟨"/"⟩ else current)
  if p.text.endsWith "/" then whole.join "" else whole

namespace CommandLine

/-- What comes of a command that could be run. -/
structure Outcome where
  exitCode : Nat
  output : String := ""
  /-- A complaint about what was asked for. -/
  complaint? : Option String := none
deriving DecidableEq, Repr

/-- The formats of a scan's output. -/
inductive Format where
  | pretty
  | json
deriving DecidableEq, Repr

/-- The format with a name, in capital letters or small ones. -/
def Format.ofName? (name : String) : Option Format :=
  match name.toLower with
  | "pretty" => some .pretty
  | "json" => some .json
  | _ => none

/-- The settings for a request: those of a file that it names, or else the project's own. -/
def Request.settings (r : Request) (disk : Disk) : Except Failure Settings :=
  match r.config? with
  | some path => Settings.readFile disk ⟨path⟩
  | none => Settings.discover disk ⟨r.path⟩

/-- Settings with what a request says over them. -/
def Request.override (r : Request) (disk : Disk) (s : Settings) : Settings :=
  { s with
    entry? := (r.entry?.map fun e => ((Path.mk e).absolute disk.current).text).or s.entry?
    maxDepth := r.maxDepth?.getD s.maxDepth }

/-- What a scan writes. -/
def scanOutput (format : Format) (colours : Bool) (named : String) (root : Path) (r : ScanResult) :
    String :=
  match format with
  | .json => Catalogue.toText r.endpoints ++ "\n"
  | .pretty => (Report.scan named root r).render colours

/-- Scans a project. -/
def runScan (disk : Disk) (colours : Bool) (r : Request) : Except Failure Outcome := do
  match Format.ofName? r.format with
  | none => return ⟨2, "", some ("invalid format '" ++ r.format ++ "' (use pretty or json)")⟩
  | some format =>
    let settings := r.override disk (← r.settings disk)
    match Failure.ofSettings ⟨"command line"⟩ settings.validate with
    | .error failure => return ⟨2, "", some failure.message⟩
    | .ok () =>
      let project ← Project.withSettings disk ⟨r.path⟩ settings
      let result ← project.scan disk
      let code := if result.entries.isEmpty || result.endpoints.isEmpty then 1 else 0
      return ⟨code, scanOutput format colours r.path project.root result, none⟩

/-- Lists the entry points of a project. -/
def runEntries (disk : Disk) (colours : Bool) (r : Request) : Except Failure Outcome := do
  let project ← Project.withSettings disk ⟨r.path⟩ (← r.settings disk)
  let entries ← project.entries disk
  return ⟨if entries.isEmpty then 1 else 0,
    (Report.entries r.path project.root entries).render colours, none⟩

/-- Runs a command. -/
def Command.run (disk : Disk) (colours : Bool) : Command → Except Failure Outcome
  | scan r => runScan disk colours r
  | entries r => runEntries disk colours r

end CommandLine

end RouteAtlas
