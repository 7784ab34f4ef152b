import RouteAtlas.Module.Outlining
import RouteAtlas.Project.Resolver

/-!
# Reading a file of a project

From a path to the outline of the file there, or the reason why there is none.
-/

namespace RouteAtlas

/-- Why a file has no outline. -/
inductive FileFault where
  | read (fault : ReadFault)
  | parse (fault : ParseFault)
deriving DecidableEq, Repr

/-- What is said about a file without an outline. -/
def FileFault.message : FileFault → String
  | read fault => fault.message
  | parse fault => fault.message

namespace Outline

/-- The outline of a text at a path of a project. -/
def ofText (disk : Disk) (root path : Path) (text : String) : Except FileFault Outline :=
  match SourceFile.parse path text with
  | .error fault => .error (.parse fault)
  | .ok source => .ok (ofSource (Resolver.resolve disk root · path) source)

/-- The outline of the file at a path of a project. -/
def ofFile (disk : Disk) (root path : Path) : Except FileFault Outline :=
  match disk.read path with
  | .error fault => .error (.read fault)
  | .ok text => ofText disk root path text

end Outline

end RouteAtlas
