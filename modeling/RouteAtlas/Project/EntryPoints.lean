import RouteAtlas.Json.Reader
import RouteAtlas.Project.Survey
import RouteAtlas.Settings.Basic
import RouteAtlas.Signature

/-!
# Entry points

The files that a scan starts from, the best first: the one in the settings, the main file of the
package, files with the usual names in the usual places, and every file whose text looks like an
application.
-/

namespace RouteAtlas

mutual
/-- An entry with the members of all directories by name. -/
def Entry.sorted : Entry → Entry
  | .directory members => .directory ((sortedMembers members).mergeSort fun a b => a.1 ≤ b.1)
  | e => e
/-- Members, each with the members of its directories by name. -/
def Entry.sortedMembers : List (String × Entry) → List (String × Entry)
  | [] => []
  | (name, e) :: rest => (name, e.sorted) :: sortedMembers rest
end

namespace EntryPoints

/-- Directories with usual places for entry points, after the root. -/
def usualDirectories : List String := ["src", "server", "backend", "api"]

/-- Usual names of entry points. -/
def usualNames : List String := ["server", "index", "app", "main"]

/-- Directories that are never searched. -/
def skippedDirectories : List String :=
  ["node_modules", "dist", "build", "coverage", ".nyc_output", "logs", "tmp", "temp", ".cache",
    "public",
    "static", "assets", "uploads", "__pycache__", ".vscode", ".idea"]

/-- The file that a package manifest names as its main one. -/
def mainOf? (manifest : JsonValue) : Option String := do
  match ← manifest.fields? ["main"] with
  | [some v] => v.text?
  | _ => none

/-- The main file of the package. -/
def manifestMain (disk : Disk) (root : Path) : List Path :=
  match disk.read (root.join "package.json") with
  | .error _ => []
  | .ok text =>
    match (JsonValue.read text).bind mainOf? with
    | none => []
    | some main => [root.join main].filter disk.isFile

/-- The files with usual names in usual places. -/
def usualFiles (disk : Disk) (root : Path) : List Path :=
  let candidates := (root :: usualDirectories.map root.join).flatMap fun directory =>
    usualNames.flatMap fun name => Language.extensions.map fun e =>
      directory.join (name ++ "." ++ e)
  candidates.filter disk.isFile

/-- A path below the root, given by names, is excluded by one of the patterns. -/
def isExcluded (globs : List Glob) (names : List String) : Bool :=
  globs.any (·.matchesPath ("/".intercalate names))

/-- A directory below the root is searched, given the name of it and the names that lead to it. -/
def isSearched (settings : Settings) (globs : List Glob) (name : String) (names : List String) :
    Bool :=
  !(name.startsWith "." || skippedDirectories.contains name || settings.skipsDirectory name
    || isExcluded globs names)

/-- The file that names lead to from the root can be read, and its text is that of an
application. -/
def readsAsApplication (disk : Disk) (root : Path) (names : List String) : Bool :=
  match disk.read (root.join ("/".intercalate names)) with
  | .ok text => isApplicationText text
  | .error _ => false

mutual
/-- The files in an entry that look like applications, given by the names that lead to them. -/
def applicationsIn (disk : Disk) (root : Path) (settings : Settings) (globs : List Glob)
    (names : List String) (name : String) : Entry → List (List String)
  | .file _ =>
    if (Path.mk name).isSource && !isExcluded globs names &&
      readsAsApplication disk root names then [names]
    else []
  | .directory members =>
    if isSearched settings globs name names then applicationsAmong disk root settings globs names
      members
    else []
  | .link _ => []
/-- The files among some members that look like applications. -/
def applicationsAmong (disk : Disk) (root : Path) (settings : Settings) (globs : List Glob)
    (names : List String) : List (String × Entry) → List (List String)
  | [] => []
  | (name, e) :: rest =>
    applicationsIn disk root settings globs (names ++ [name]) name e ++
      applicationsAmong disk root settings globs names rest
end

/-- The files of the project that look like applications, by name. -/
def applications (disk : Disk) (root : Path) (settings : Settings) (globs : List Glob) :
    List Path :=
  match disk.get? root with
  | some e =>
    (applicationsAmong disk root settings globs [] e.sorted.members).map fun names =>
      root.join ("/".intercalate names)
  | none => []

/-- All candidates, the best first. -/
def candidates (disk : Disk) (root : Path) (settings : Settings) (globs : List Glob) : List Path :=
  let configured := (settings.entry?.map root.join).toList.filter disk.isFile
  if settings.heuristics then
    configured ++ manifestMain disk root ++ usualFiles disk root ++
      applications disk root settings globs
  else configured

/-- The canonical paths of some candidates, each once, without those of installed packages. -/
def settle (disk : Disk) (candidates : List Path) : List Path :=
  (candidates.filterMap disk.canonical?).foldl (fun entries p =>
    if p.isForeign || entries.any (·.same p) then entries else entries ++ [p]) []

/-- The entry points of a project. -/
def locate (disk : Disk) (root : Path) (settings : Settings) : Except SettingsFault (List Path) :=
  settings.excluded.map fun globs => settle disk (candidates disk root settings globs)

end EntryPoints

end RouteAtlas
