import RouteAtlas.Failure
import RouteAtlas.Settings.Document

/-!
# Settings of a project

The settings of a project are in a file with a fixed name in its root. A project without such a file
has the default settings.
-/

namespace RouteAtlas.Settings

/-- The names of settings files, in the order in which they are looked for. -/
def fileNames : List String := ["routescout.yaml", ".routescout.yaml"]

/-- The settings in a file. -/
def readFile (disk : Disk) (path : Path) : Except Failure Settings :=
  match disk.read path with
  | .error fault => .error (.unreadable path fault)
  | .ok text => Failure.ofSettings path (parse text)

/-- The settings file of a project. -/
def find? (disk : Disk) (root : Path) : Option Path :=
  (fileNames.map root.join).find? disk.isFile

/-- The settings of a project. -/
def discover (disk : Disk) (root : Path) : Except Failure Settings :=
  match find? disk root with
  | some path => readFile disk path
  | none => .ok {}

end RouteAtlas.Settings
