import RouteAtlas.Json.Value

/-!
# Reading JSON

`JsonValue.read` reads a whole text as one value. Strings are read in two steps: first into
characters and UTF-16 units, as they are written, and then into text, where surrogates have to come
in pairs.
-/

namespace RouteAtlas.JsonValue

/-- The characters between tokens. -/
def isJsonBlank (c : Char) : Bool := c == ' ' || c == '\n' || c == '\t' || c == '\r'

/-- The text without the blanks in front. -/
def skipBlanks (cs : List Char) : List Char := cs.dropWhile isJsonBlank

/-! ## Strings -/

/-- A character of a string, or a unit of UTF-16 given by its number. -/
inductive StringUnit where
  | char (c : Char)
  | unit (n : Nat)
deriving DecidableEq, Repr

/-- The value of a hexadecimal digit. -/
def hexDigit? (c : Char) : Option Nat :=
  if '0' ≤ c ∧ c ≤ '9' then some (c.toNat - '0'.toNat)
  else if 'a' ≤ c ∧ c ≤ 'f' then some (c.toNat - 'a'.toNat + 10)
  else if 'A' ≤ c ∧ c ≤ 'F' then some (c.toNat - 'A'.toNat + 10)
  else none

/-- The character that a letter after a backslash stands for. -/
def escaped? : Char → Option Char
  | '\x22' => some '\x22'
  | '\\' => some '\\'
  | '/' => some '/'
  | 'b' => some '\x08'
  | 'f' => some '\x0c'
  | 'n' => some '\n'
  | 'r' => some '\r'
  | 't' => some '\t'
  | _ => none

/-- The units of a string up to its closing quote, and what comes after. -/
def readUnits : List Char → Option (List StringUnit × List Char)
  | [] => none
  | '\x22' :: rest => some ([], rest)
  | '\\' :: 'u' :: a :: b :: c :: d :: rest => do
    let n := 4096 * (← hexDigit? a) + 256 * (← hexDigit? b) + 16 * (← hexDigit? c) + (← hexDigit? d)
    let (units, rest) ← readUnits rest
    return (.unit n :: units, rest)
  | '\\' :: e :: rest => do
    let c ← escaped? e
    let (units, rest) ← readUnits rest
    return (.char c :: units, rest)
  | c :: rest => do
    guard (0x20 ≤ c.toNat && c != '\\')
    let (units, rest) ← readUnits rest
    return (.char c :: units, rest)

/-- The unit is the first half of a pair. -/
def isHigh (n : Nat) : Bool := 0xd800 ≤ n && n ≤ 0xdbff

/-- The unit is the second half of a pair. -/
def isLow (n : Nat) : Bool := 0xdc00 ≤ n && n ≤ 0xdfff

/-- The text that some units spell, if all surrogates come in pairs. -/
def decodeUnits : List StringUnit → Option (List Char)
  | [] => some []
  | .char c :: rest => (decodeUnits rest).map (c :: ·)
  | .unit n :: .unit m :: rest =>
    if isHigh n then
      if isLow m then (decodeUnits rest).map
        (Char.ofNat (0x10000 + (n - 0xd800) * 0x400 + (m - 0xdc00)) :: ·)
      else none
    else if isLow n then none
    else (decodeUnits (.unit m :: rest)).map (Char.ofNat n :: ·)
  | .unit n :: rest =>
    if isHigh n || isLow n then none else (decodeUnits rest).map (Char.ofNat n :: ·)

/-- The text of a string up to its closing quote, if it is one, and what comes after. -/
def readText (cs : List Char) : Option (Option String × List Char) := do
  let (units, rest) ← readUnits cs
  return ((decodeUnits units).map String.ofList, rest)

/-! ## Numbers -/

/-- The digits in front, of which there is at least one, and what comes after. -/
def readDigits (cs : List Char) : Option (List Char × List Char) :=
  match cs.takeWhile Char.isDigit with
  | [] => none
  | ds => some (ds, cs.dropWhile Char.isDigit)

/-- A whole number without superfluous zeros. -/
def readInteger : List Char → Option (List Char × List Char)
  | '0' :: rest =>
    match rest with
    | c :: _ => if c.isDigit then none else some (['0'], rest)
    | [] => some (['0'], [])
  | cs => readDigits cs

/-- The fraction of a number, if there is one. -/
def readFraction : List Char → Option (List Char × List Char)
  | '.' :: rest => (readDigits rest).map fun (ds, rest) => ('.' :: ds, rest)
  | cs => some ([], cs)

/-- The exponent of a number, if there is one. -/
def readExponent : List Char → Option (List Char × List Char)
  | e :: rest =>
    if e == 'e' || e == 'E' then
      match rest with
      | s :: more =>
        if s == '+' || s == '-' then (readDigits more).map fun (ds, rest) => (e :: s :: ds, rest)
        else (readDigits rest).map fun (ds, rest) => (e :: ds, rest)
      | [] => none
    else some ([], e :: rest)
  | [] => some ([], [])

/-- A number. -/
def readNumber (cs : List Char) : Option (JsonValue × List Char) := do
  let (sign, cs) := match cs with
    | '-' :: rest => (['-'], rest)
    | _ => ([], cs)
  let (whole, cs) ← readInteger cs
  let (fraction, cs) ← readFraction cs
  let (exponent, cs) ← readExponent cs
  return (.number (String.ofList (sign ++ whole ++ fraction ++ exponent)), cs)

/-! ## Values -/

/-- A reader of something at the start of a text, which also gives what comes after. -/
abbrev Reads (α : Type) := List Char → Option (α × List Char)

/-- The items of a list up to the closing mark, separated by commas; there is at least one. -/
def readItems {α : Type} (item : Reads α) (close : Char) : Nat → Reads (List α)
  | 0, _ => none
  | n + 1, cs => do
    let (first, cs) ← item cs
    match skipBlanks cs with
    | ',' :: rest =>
      let (more, cs) ← readItems item close n rest
      return (first :: more, cs)
    | c :: rest => if c = close then return ([first], rest) else none
    | [] => none

/-- A list that may be empty, after its opening mark. -/
def readList {α : Type} (item : Reads α) (close : Char) (n : Nat) : Reads (List α) := fun cs =>
  match skipBlanks cs with
  | c :: rest => if c = close then some ([], rest) else readItems item close n (c :: rest)
  | [] => none

/-- A member of an object, with a reader for its value. -/
def readMember (value : Reads JsonValue) : Reads (Option String × JsonValue) := fun cs =>
  match skipBlanks cs with
  | '\x22' :: rest => do
    let (name, rest) ← readText rest
    match skipBlanks rest with
    | ':' :: rest =>
      let (v, rest) ← value rest
      return ((name, v), rest)
    | _ => none
  | _ => none

/-- A value that nests no deeper than the given number. -/
def readValue : Nat → Reads JsonValue
  | 0, _ => none
  | n + 1, cs =>
    match skipBlanks cs with
    | '\x22' :: rest => do
      let (s, rest) ← readText rest
      return ((s.map text).getD broken, rest)
    | '[' :: rest =>
      (readList (readValue n) ']' rest.length rest).map fun (items, cs) => (.array items, cs)
    | '\x7b' :: rest =>
      (readList (readMember (readValue n)) '\x7d' rest.length rest).map fun (ms, cs) =>
        (.object ms, cs)
    | 't' :: 'r' :: 'u' :: 'e' :: rest => some (.bool true, rest)
    | 'f' :: 'a' :: 'l' :: 's' :: 'e' :: rest => some (.bool false, rest)
    | 'n' :: 'u' :: 'l' :: 'l' :: rest => some (.null, rest)
    | cs => readNumber cs

/-- The value that a whole text is. -/
def readChars (cs : List Char) : Option JsonValue := do
  let (v, rest) ← readValue (cs.length + 1) cs
  guard (skipBlanks rest).isEmpty
  return v

/-- The value that a whole text is. -/
def read (text : String) : Option JsonValue := readChars text.toList

end RouteAtlas.JsonValue
