import RouteAtlas.Disk
import RouteAtlas.Settings.Basic

/-!
# Failures

What makes a scan impossible as a whole. A file of the project that cannot be read or parsed is no
such failure; it is reported and left out.
-/

namespace RouteAtlas

/-- Why a scan is impossible. -/
inductive Failure where
  /-- The root of the project is no directory. -/
  | badRoot (path : Path)
  | unreadable (path : Path) (fault : ReadFault)
  /-- Settings that come from the given place are wrong. -/
  | badSettings (origin : Path) (fault : SettingsFault)
deriving DecidableEq, Repr

/-- What is said about a failure. -/
def Failure.message : Failure → String
  | badRoot path => "project root " ++ Text.quoted path.text ++ " is not a readable directory"
  | unreadable path fault => "reading " ++ Text.quoted path.text ++ ": " ++ fault.message
  | badSettings origin fault =>
    "invalid configuration " ++ Text.quoted origin.text ++ ": " ++ fault.message

/-- Settings faults as failures of a scan. -/
def Failure.ofSettings {α : Type} (origin : Path) : Except SettingsFault α → Except Failure α
  | .ok a => .ok a
  | .error fault => .error (.badSettings origin fault)

end RouteAtlas
