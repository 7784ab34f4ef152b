import RouteAtlas.CommandLine.Run

/-!
# The program

Reads the project from the machine, runs the command that the arguments ask for, and writes what
comes of it. A scan sees the project, and the files that the arguments name.
-/

namespace RouteAtlas.CommandLine

/-- How the program is used. -/
def usageText : String :=
  "Usage: " ++ Report.programName ++ " <COMMAND>\n\n" ++
  "  scan [PATH]     Discover the endpoints of a project\n" ++
  "  entries [PATH]  List entry point candidates, best first\n\n" ++
  "Options:\n" ++
  "  -e, --entry <FILE>     Entry file to start from (scan)\n" ++
  "  -f, --format <FORMAT>  Output format: pretty or json (scan)\n" ++
  "  -c, --config <FILE>    Configuration file\n" ++
  "      --max-depth <N>    How many imports deep to follow before deferring files (scan)\n" ++
  "  -v, --verbose          Increase log verbosity\n" ++
  "  -h, --help             Print help\n" ++
  "  -V, --version          Print version\n"

/-- The names that lead to a path from the root of the machine. -/
def namesTo (current p : Path) : List String :=
  (p.absolute current).components.foldl (fun names c =>
    match c with
    | .name text => names ++ [text]
    | .parent => names.dropLast
    | _ => names) []

/-- A directory of the machine and everything below it, installed packages apart. -/
partial def loadDirectory (path : String) : IO Entry := do
  let mut members := []
  for d in ← (← IO.FS.realPath path).readDir do
    match (← d.path.symlinkMetadata).type with
    | .dir =>
      unless d.fileName == "node_modules" do
        members := (d.fileName, ← loadDirectory d.path.toString) :: members
    | .file => members := (d.fileName, .ofBytes (← IO.FS.readBinFile d.path)) :: members
    | .symlink =>
      let target ← try pure (← IO.FS.realPath d.path).toString catch _ => pure ""
      members := (d.fileName, .link target) :: members
    | .other => pure ()
  return .directory members

/-- What is at a path of the machine that has no links in it. -/
def loadEntry (path : String) : IO Entry := do
  match (← (← IO.FS.realPath path).metadata).type with
  | .dir => loadDirectory path
  | _ => return .ofBytes (← IO.FS.readBinFile path)

/-- A disk with what is at a path of the machine added to it. Nothing is added for a path that leads
nowhere. -/
def addPath (disk : Disk) (path : String) : IO Disk := do
  try
    let real := (← IO.FS.realPath path).toString
    let realNames := namesTo disk.current ⟨real⟩
    let names := namesTo disk.current ⟨path⟩
    let tree := (← loadEntry real).put realNames disk.root
    return { disk with root :=
      if names = realNames then tree else (Entry.link real).put names tree }
  catch _ => return disk

/-- The disk that a request is about. -/
def loadDisk (r : Request) : IO Disk := do
  let current : Path := ⟨(← IO.currentDir).toString⟩
  let empty : Disk := ⟨Entry.put (.directory []) (namesTo current current) (.directory []), current⟩
  (r.path :: r.config?.toList ++ r.entry?.toList).foldlM addPath empty

/-- Colours are wanted: the output goes to a terminal, and the user has not asked for none. -/
def wantsColours : IO Bool := do
  if (← IO.getEnv "NO_COLOR").isSome then return false
  (← IO.getStdout).isTty

/-- Runs a command and writes what comes of it. -/
def perform (command : Command) : IO UInt32 := do
  let request := match command with
    | .scan r | .entries r => r
  match command.run (← loadDisk request) (← wantsColours) with
  | .error failure =>
    IO.eprintln ("Error: " ++ failure.message)
    return 2
  | .ok outcome =>
    IO.print outcome.output
    for complaint in outcome.complaint? do
      IO.eprintln ("Error: " ++ complaint)
    return outcome.exitCode.toUInt32

/-- Says how the program is used. -/
def explain (usage : Usage) : IO UInt32 := do
  match usage with
  | .help => IO.print usageText
  | .version => IO.println (Report.programName ++ " " ++ Report.programVersion)
  | _ => IO.eprint usageText
  return usage.exitCode.toUInt32

end RouteAtlas.CommandLine

/-- The program. -/
def main (args : List String) : IO UInt32 :=
  match RouteAtlas.CommandLine.parse args with
  | .ok command => RouteAtlas.CommandLine.perform command
  | .error usage => RouteAtlas.CommandLine.explain usage
