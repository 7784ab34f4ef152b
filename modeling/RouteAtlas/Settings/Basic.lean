import RouteAtlas.Settings.Glob
import RouteAtlas.Text.Quoted

/-!
# Settings of a scan

What a project can say about how it is scanned: where to start, which directories to leave out, and
how deep to follow imports before going on with the rest.
-/

namespace RouteAtlas

/-- The settings of a scan. -/
structure Settings where
  /-- The file to start from, before any that is found. -/
  entry? : Option String := none
  /-- Entry points are looked for. -/
  heuristics : Bool := true
  /-- Names of directories that are not searched, besides those that never are. -/
  extraSkipDirs : List String := []
  /-- Patterns of paths below the root that are not searched. -/
  excludedPaths : List String := []
  /-- How many imports deep to go before files are put off. -/
  maxDepth : Nat := 64
  /-- Work may be shared out among several threads. It makes no difference to the result. -/
  parallel : Bool := true
deriving DecidableEq, Repr, Inhabited

/-- What is wrong with settings. -/
inductive SettingsFault where
  /-- They are not written in the way settings are. -/
  | malformed
  | zeroDepth
  | badPattern (pattern : String) (fault : GlobFault)
deriving DecidableEq, Repr

/-- What is said about wrong settings. -/
def SettingsFault.message : SettingsFault → String
  | malformed => "malformed settings"
  | zeroDepth => "max_depth must be at least 1"
  | badPattern pattern fault =>
    "invalid excluded path " ++ Text.quoted pattern ++ ": error parsing glob '" ++ pattern ++
      "': " ++
      fault.message

namespace Settings

/-- The patterns of excluded paths. -/
def excluded (s : Settings) : Except SettingsFault (List Glob) :=
  s.excludedPaths.mapM fun text =>
    match Glob.read text with
    | .ok glob => .ok glob
    | .error fault => .error (.badPattern text fault)

/-- The settings make sense. -/
def validate (s : Settings) : Except SettingsFault Unit :=
  if s.maxDepth = 0 then .error .zeroDepth
  else s.excluded.map fun _ => ()

/-- Directories of the given name are not searched. -/
def skipsDirectory (s : Settings) (name : String) : Bool := name ∈ s.extraSkipDirs

end Settings

end RouteAtlas
