import RouteAtlas.Json.Value

/-!
# Writing JSON

`JsonValue.pretty` writes a value over several lines, each level of nesting two blanks further in.
Empty lists are written on one line. Only quotes, backslashes and control characters are escaped.
-/

namespace RouteAtlas.JsonValue

/-- The lower case hexadecimal digit of a number below sixteen. -/
def hexChar (n : Nat) : Char :=
  if n < 10 then Char.ofNat ('0'.toNat + n) else Char.ofNat ('a'.toNat + (n - 10))

/-- How a character is written in a string. -/
def writeChar (c : Char) : List Char :=
  match c with
  | '\x22' => ['\\', '\x22']
  | '\\' => ['\\', '\\']
  | '\x08' => ['\\', 'b']
  | '\x0c' => ['\\', 'f']
  | '\n' => ['\\', 'n']
  | '\r' => ['\\', 'r']
  | '\t' => ['\\', 't']
  | c =>
    if c.toNat < 0x20 then ['\\', 'u', '0', '0', hexChar (c.toNat / 16), hexChar (c.toNat % 16)]
      else [c]

/-- A text in quotes. -/
def writeText (s : String) : List Char :=
  '\x22' :: s.toList.flatMap writeChar ++ ['\x22']

/-- A string that is no text. -/
def brokenText : List Char := '\x22' :: '\\' :: "ud800".toList ++ ['\x22']

/-- A new line at the given level. -/
def newLine (level : Nat) : List Char := '\n' :: List.replicate (2 * level) ' '

/-- Items between two marks, each on a line of its own one level below the given one. -/
def writeList (opening closing : Char) (level : Nat) : List (List Char) → List Char
  | [] => [opening, closing]
  | items =>
    opening :: newLine (level + 1) ++ ([',' ] ++ newLine (level + 1)).intercalate items
      ++ newLine level ++ [closing]

mutual
/-- A value at a level. -/
def write (level : Nat) : JsonValue → List Char
  | null => "null".toList
  | bool true => "true".toList
  | bool false => "false".toList
  | number digits => digits.toList
  | text s => writeText s
  | broken => brokenText
  | array items => writeList '[' ']' level (writeItems (level + 1) items)
  | object members => writeList '\x7b' '\x7d' level (writeMembers (level + 1) members)
/-- Each of some values at a level. -/
def writeItems (level : Nat) : List JsonValue → List (List Char)
  | [] => []
  | v :: rest => write level v :: writeItems level rest
/-- Each of some members at a level. -/
def writeMembers (level : Nat) : List (Option String × JsonValue) → List (List Char)
  | [] => []
  | (name, v) :: rest =>
    ((name.map writeText).getD brokenText ++ [':', ' '] ++ write level v) :: writeMembers level rest
end

/-- The value over several lines. -/
def pretty (v : JsonValue) : String := String.ofList (write 0 v)

end RouteAtlas.JsonValue
