import RouteAtlas.Settings.Basic
import RouteAtlas.Text.Blank
import RouteAtlas.Yaml.Node

/-!
# Settings as documents

Settings are written as a YAML mapping. Every member may be left out, and members that are not known
are passed over.
-/

namespace RouteAtlas

namespace Yaml.Node

/-- The words for nothing. -/
def isNull (text : String) : Bool := text ∈ ["null", "Null", "NULL", "~"]

/-- The tag of YAML's own kind of scalars with the given name. -/
def coreTag (name : String) : String := "tag:yaml.org,2002:" ++ name

/-- The text of a scalar. -/
def text? : Node → Option String
  | scalar text _ _ => some text
  | _ => none

/-- The text of a scalar that is not quoted, or that is written as a block with the given tag. -/
def bare? (tag : String) : Node → Option String
  | scalar text .plain _ => some text
  | scalar text .literal tag? => if tag? = some (coreTag tag) then some text else none
  | _ => none

/-- The text of a scalar, if it is not a word for nothing. -/
def optionalText? : Node → Option (Option String)
  | scalar text .plain tag? =>
    match tag? with
    | some tag =>
      if tag = coreTag "null" then if isNull text then some none else none else some (some text)
    | none => if text = "" ∨ isNull text then some none else some (some text)
  | scalar text _ _ => some (some text)
  | _ => none

/-- The truth value of a scalar. -/
def bool? (n : Node) : Option Bool := do
  let text ← n.bare? "bool"
  if text ∈ ["true", "True", "TRUE"] then some true
  else if text ∈ ["false", "False", "FALSE"] then some false
  else none

/-- The number that digits of a base spell, if it fits into 64 bits. -/
def number? (base : Nat) (digits : List Char) : Option Nat := do
  guard (!digits.isEmpty)
  let n ← digits.foldlM (fun n c => do
    let d ← hexValue? c
    guard (d < base)
    return base * n + d) 0
  guard (n < UInt64.size)
  return n

/-- The digits start with a zero that should not be there. -/
def hasLeadingZero : List Char → Bool
  | '0' :: d :: rest => (d :: rest).all Char.isDigit
  | _ => false

/-- The number that a text spells: a plus sign may stand in front, and a base after a zero. -/
def unsigned? (text : String) : Option Nat :=
  let digits := match text.toList with
    | '+' :: rest => rest
    | cs => cs
  match digits with
  | '0' :: 'x' :: rest => number? 16 rest
  | '0' :: 'o' :: rest => number? 8 rest
  | '0' :: 'b' :: rest => number? 2 rest
  | digits => if hasLeadingZero digits then none else number? 10 digits

/-- The number that a scalar spells. -/
def nat? (n : Node) : Option Nat := (n.bare? "int").bind unsigned?

/-- The texts of a sequence. A member without a value is an empty one. -/
def texts? : Node → Option (List String)
  | sequence items => items.mapM text?
  | scalar "" .plain _ => some []
  | _ => none

/-- The members of a mapping by name. A document without a value has none. -/
def members? : Node → Option (List (String × Node))
  | mapping entries => entries.mapM fun (key, value) => (text? key).map (·, value)
  | scalar "" .plain _ => some []
  | _ => none

end Yaml.Node

namespace Settings

/-- The value of a member that may be left out but not be given twice. -/
def member {α : Type} (members : List (String × Yaml.Node)) (name : String) (fallback : α)
    (read : Yaml.Node → Option α) : Option α :=
  match members.filter (·.1 == name) with
  | [] => some fallback
  | [(_, n)] => read n
  | _ => none

/-- The settings that members of a document give. -/
def ofMembers? (members : List (String × Yaml.Node)) : Option Settings := do
  let standard : Settings := {}
  return {
    entry? := ← member members "entry" standard.entry? Yaml.Node.optionalText?
    heuristics := ← member members "heuristics" standard.heuristics Yaml.Node.bool?
    extraSkipDirs := ← member members "extra_skip_dirs" standard.extraSkipDirs Yaml.Node.texts?
    excludedPaths := ← member members "excluded_paths" standard.excludedPaths Yaml.Node.texts?
    maxDepth := ← member members "max_depth" standard.maxDepth Yaml.Node.nat?
    parallel := ← member members "parallel" standard.parallel Yaml.Node.bool? }

/-- The settings that a document gives. -/
def ofText? (text : String) : Option Settings := do
  match ← Yaml.parse text with
  | none => return {}
  | some n => ofMembers? (← n.members?)

/-- The settings that a document gives, if they make sense. -/
def parse (text : String) : Except SettingsFault Settings :=
  if text.toList.all Text.isBlank then .ok {}
  else
    match ofText? text with
    | none => .error .malformed
    | some s => s.validate.map fun _ => s

end Settings

end RouteAtlas
