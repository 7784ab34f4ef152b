import RouteAtlas.Yaml.Scalar

/-!
# YAML tokens

The tokens of a YAML text, and those that are read by themselves: tags, anchors and directives.
-/

namespace RouteAtlas.Yaml

/-- A token of a YAML text. -/
inductive Token where
  | versionDirective (major minor : Nat)
  | tagDirective (handle front : String)
  | documentStart | documentEnd
  | blockSequenceStart | blockMappingStart | blockEnd
  | flowSequenceStart | flowSequenceEnd | flowMappingStart | flowMappingEnd
  | blockEntry | flowEntry | key | value
  | reference (name : String)
  | anchor (name : String)
  | tag (handle suffix : String)
  | scalar (text : String) (style : Style)
deriving DecidableEq, Repr, Inhabited

/-! ## Anchors -/

/-- The name of an anchor or alias after its mark. -/
def readAnchor (s : Spot) : Option (String × Spot) := do
  let name := s.next.run isWordChar
  let s := s.next.skip name.length
  guard (!name.isEmpty)
  guard (isGap s.char || ['?', ':', ',', ']', '\x7d', '%', '@', '\x60'].contains s.char)
  return (String.ofList name, s)

/-! ## Tags -/

/-- The characters of tags that need no escape; some only between angle brackets. -/
def isTagChar (verbatim : Bool) (c : Char) : Bool :=
  isWordChar c ||
    [';', '/', '?', ':', '@', '&', '=', '+', '$', '.', '!', '~', '*', '\x27', '(', ')'].contains c
    || (verbatim && [',', '[', ']'].contains c)

/-- The byte that an escape such as `%2c` stands for. -/
def readByte (s : Spot) : Option (Nat × Spot) := do
  guard (s.char == '%')
  let a ← hexValue? (s.ahead 1)
  let b ← hexValue? (s.ahead 2)
  return (16 * a + b, s.skip 3)

/-- The bytes of a character that go on from its first byte. -/
def readMoreBytes : Nat → Spot → Option (List Nat × Spot)
  | 0, s => some ([], s)
  | n + 1, s => do
    let (b, s) ← readByte s
    guard (b / 64 == 2)
    let (bs, s) ← readMoreBytes n s
    return (b :: bs, s)

/-- The character that one or more escapes stand for. -/
def readEscapedChar (s : Spot) : Option (List Char × Spot) := do
  let (b, s) ← readByte s
  let width := if b < 128 then 1 else if b / 32 == 6 then 2 else if b / 16 == 14 then 3
    else if b / 8 == 30 then 4 else 0
  guard (width != 0)
  let (bs, s) ← readMoreBytes (width - 1) s
  let text ← String.fromUTF8? ⟨((b :: bs).map UInt8.ofNat).toArray⟩
  return (text.toList, s)

/-- The characters of a tag. -/
def readTagChars (verbatim : Bool) : Nat → List Char → Spot → Option (List Char × Spot)
  | 0, acc, s => some (acc, s)
  | n + 1, acc, s =>
    if s.char == '%' then do
      let (cs, s) ← readEscapedChar s
      readTagChars verbatim n (acc ++ cs) s
    else if isTagChar verbatim s.char then readTagChars verbatim n (acc ++ [s.char]) s.next
    else some (acc, s)

/-- The handle of a tag: a mark, a name and perhaps another mark. -/
def readHandle (s : Spot) : Option (List Char × Spot) := do
  guard (s.char == '!')
  let name := s.next.run isWordChar
  let s := s.next.skip name.length
  if s.char == '!' then return ('!' :: name ++ ['!'], s.next) else return ('!' :: name, s)

/-- A tag in angle brackets. -/
def readVerbatimTag (s : Spot) : Option (Token × Spot) := do
  let (suffix, s) ← readTagChars true s.rest.length [] (s.skip 2)
  guard (!suffix.isEmpty && s.char == '>')
  return (.tag "" (String.ofList suffix), s.next)

/-- A tag that starts with a handle. -/
def readShortTag (s : Spot) : Option (Token × Spot) := do
  let (handle, s) ← readHandle s
  if 1 < handle.length && handle.getLast? == some '!' then
    let (suffix, s) ← readTagChars false s.rest.length [] s
    guard (!suffix.isEmpty)
    return (.tag (String.ofList handle) (String.ofList suffix), s)
  else
    let (suffix, s) ← readTagChars false s.rest.length (handle.drop 1) s
    if suffix.isEmpty then return (.tag "" "!", s) else return (.tag "!" (String.ofList suffix), s)

/-- A tag. -/
def readTag (flow : Bool) (s : Spot) : Option (Token × Spot) := do
  let (t, s) ← if s.ahead 1 == '<' then readVerbatimTag s else readShortTag s
  guard (isGap s.char || (flow && s.char == ','))
  return (t, s)

/-! ## Directives -/

/-- A number in a version. -/
def readVersionNumber (s : Spot) : Option (Nat × Spot) := do
  let digits := s.run Char.isDigit
  guard (0 < digits.length && digits.length ≤ 9)
  return (digits.foldl (fun n c => 10 * n + (c.toNat - '0'.toNat)) 0, s.skip digits.length)

/-- The version in a directive. -/
def readVersion (s : Spot) : Option (Token × Spot) := do
  let (major, s) ← readVersionNumber (s.skipWhile isSpace)
  guard (s.char == '.')
  let (minor, s) ← readVersionNumber s.next
  return (.versionDirective major minor, s)

/-- The handle and what it stands for in a directive. -/
def readTagRule (s : Spot) : Option (Token × Spot) := do
  let (handle, s) ← readHandle (s.skipWhile isSpace)
  guard (handle == ['!'] || handle.getLast? == some '!')
  guard (isSpace s.char)
  let s := s.skipWhile isSpace
  let (front, s) ← readTagChars true s.rest.length [] s
  guard (!front.isEmpty && isGap s.char)
  return (.tagDirective (String.ofList handle) (String.ofList front), s)

/-- A directive, up to the end of its line. -/
def readDirective (s : Spot) : Option (Token × Spot) := do
  let name := s.next.run isWordChar
  let s := s.next.skip name.length
  guard (isGap s.char)
  let (t, s) ←
    match String.ofList name with
    | "YAML" => readVersion s
    | "TAG" => readTagRule s
    | _ => none
  let s := s.skipWhile isSpace
  let s := if s.char == '#' then s.skipWhile (!isLineEnd ·) else s
  guard (isLineEnd s.char)
  return (t, if isBreak s.char then s.nextLine else s)

end RouteAtlas.Yaml
