import RouteAtlas.Yaml.Token

/-!
# From YAML text to tokens

Indentation and simple keys make the tokens of a YAML text depend on what comes later: a scalar
turns out to be a key when a colon follows on its line. Where a key may start is noted down, and the
tokens for it are put there once the colon is found.
-/

namespace RouteAtlas.Yaml

/-- A place where a simple key may have started. -/
structure KeyStart where
  /-- The number of the token that would be the key. -/
  number : Nat
  /-- There has to be a key, since the place is where the mapping is indented to. -/
  required : Bool
  spot : Spot

/-- What is known while tokens are read. -/
structure LexState where
  spot : Spot
  tokens : Array Token := #[]
  /-- Where a simple key may have started, for each level of brackets, the innermost first. -/
  keys : List (Option KeyStart) := [none]
  /-- A simple key may start here. -/
  keyAllowed : Bool := true
  indent : Int := -1
  /-- The indentations around the current one, the innermost first. -/
  outer : List Int := []

namespace LexState

/-- The text is inside brackets. -/
def inFlow (s : LexState) : Bool := 1 < s.keys.length

/-- Adds a token. -/
def push (s : LexState) (t : Token) : LexState := { s with tokens := s.tokens.push t }

/-- Puts a token before the one with the given number. -/
def insert (s : LexState) (number : Nat) (t : Token) : LexState :=
  { s with tokens := s.tokens.extract 0 number ++ #[t] ++ s.tokens.extract number s.tokens.size }

/-- The key start of the innermost level. -/
def key? (s : LexState) : Option KeyStart := s.keys.head?.join

/-- Sets the key start of the innermost level. -/
def setKey (s : LexState) (k : Option KeyStart) : LexState := { s with keys := k :: s.keys.drop 1 }

/-- Gives up the key start of the innermost level. A key that has to be there must not be given
up. -/
def dropKey (s : LexState) : Option LexState :=
  if s.key?.any (·.required) then none else some (s.setKey none)

/-- Notes down that a simple key may start here. -/
def noteKey (s : LexState) : Option LexState :=
  if s.keyAllowed then do
    let required := !s.inFlow && s.indent == (s.spot.column : Int)
    let s ← s.dropKey
    return s.setKey (some ⟨s.tokens.size, required, s.spot⟩)
  else some s

/-- The longest simple key, in bytes. -/
def maxKeyLength : Nat := 1024

/-- The key start is still good: on the same line, and not too far back. -/
def isCurrent (s : LexState) (k : KeyStart) : Bool :=
  k.spot.line == s.spot.line && s.spot.index ≤ k.spot.index + maxKeyLength

/-- Starts a block collection at a column that is further in than the current indentation. -/
def indentTo (s : LexState) (column : Nat) (number : Option Nat) (t : Token) : LexState :=
  if !s.inFlow && s.indent < (column : Int) then
    let s := { s with outer := s.indent :: s.outer, indent := column }
    match number with
    | none => s.push t
    | some n => s.insert n t
  else s

/-- Ends the block collections that are further in than a column. -/
def dedentTo (column : Int) : List Int → LexState → LexState
  | [], s => s
  | outer :: rest, s =>
    if column < s.indent then
      dedentTo column rest { s.push .blockEnd with indent := outer, outer := rest }
    else s

/-- Ends the block collections that are further in than a column. -/
def dedent (s : LexState) (column : Int) : LexState :=
  if s.inFlow then s else dedentTo column s.outer s

/-- The place after blanks, comments and line breaks. A line break allows a simple key to start, and
a line may start with a byte order mark. -/
def skipBlanks : Nat → LexState → LexState
  | 0, s => s
  | n + 1, s =>
    let spot := if s.spot.column == 0 && s.spot.char == '\ufeff' then s.spot.next else s.spot
    let tabs := s.inFlow || !s.keyAllowed
    let spot := spot.skipWhile fun c => c == ' ' || (tabs && c == '\t')
    let spot := if spot.char == '#' then spot.skipWhile (!isLineEnd ·) else spot
    if isBreak spot.char then
      skipBlanks n { s with spot := spot.nextLine, keyAllowed := s.keyAllowed || !s.inFlow }
    else { s with spot }

/-! ## Tokens by their first characters -/

/-- Takes a token of the given number of characters. -/
def take (s : LexState) (t : Token) (length : Nat) : LexState :=
  { s.push t with spot := s.spot.skip length }

/-- A mark that starts or ends a document. -/
def documentMark (s : LexState) (t : Token) : Option LexState := do
  let s ← (s.dedent (-1)).dropKey
  return { s with keyAllowed := false }.take t 3

/-- A directive. -/
def directive (s : LexState) : Option LexState := do
  let s ← (s.dedent (-1)).dropKey
  let (t, spot) ← readDirective s.spot
  return { s.push t with keyAllowed := false, spot }

/-- An opening bracket. -/
def openFlow (s : LexState) (t : Token) : Option LexState := do
  let s ← s.noteKey
  return { s with keys := none :: s.keys, keyAllowed := true }.take t 1

/-- A closing bracket. -/
def closeFlow (s : LexState) (t : Token) : Option LexState := do
  let s ← s.dropKey
  let keys := if s.inFlow then s.keys.drop 1 else s.keys
  return { s with keys, keyAllowed := false }.take t 1

/-- A comma in brackets. -/
def flowEntry (s : LexState) : Option LexState := do
  let s ← s.dropKey
  return { s with keyAllowed := true }.take .flowEntry 1

/-- A dash before an entry of a sequence. -/
def blockEntry (s : LexState) : Option LexState := do
  guard (s.inFlow || s.keyAllowed)
  let s ← (s.indentTo s.spot.column none .blockSequenceStart).dropKey
  return { s with keyAllowed := true }.take .blockEntry 1

/-- A question mark before a key. -/
def complexKey (s : LexState) : Option LexState := do
  guard (s.inFlow || s.keyAllowed)
  let s ← (s.indentTo s.spot.column none .blockMappingStart).dropKey
  return { s with keyAllowed := !s.inFlow }.take .key 1

/-- A colon after a simple key. -/
def simpleValue (s : LexState) (k : KeyStart) : LexState :=
  let s := (s.insert k.number .key).indentTo k.spot.column (some k.number) .blockMappingStart
  { s.setKey none with keyAllowed := false }.take .value 1

/-- A colon after any other key, or after none. -/
def complexValue (s : LexState) : Option LexState := do
  guard (s.inFlow || s.keyAllowed)
  let s := s.indentTo s.spot.column none .blockMappingStart
  return { s with keyAllowed := !s.inFlow }.take .value 1

/-- A colon before a value. -/
def value (s : LexState) : Option LexState :=
  match s.key? with
  | some k =>
    if s.isCurrent k then some (s.simpleValue k)
    else if k.required then none
    else (s.setKey none).complexValue
  | none => s.complexValue

/-- A token that is read by itself and may be a simple key. -/
def keyToken (s : LexState) (read : Spot → Option (Token × Spot)) : Option LexState := do
  let s ← s.noteKey
  let (t, spot) ← read s.spot
  return { s.push t with keyAllowed := false, spot }

/-- A block scalar. -/
def blockScalar (s : LexState) (literal : Bool) : Option LexState := do
  let s ← s.dropKey
  let (text, spot) ← readBlock literal s.indent s.spot
  let style : Style := if literal then .literal else .folded
  return { s.push (.scalar (String.ofList text) style) with keyAllowed := true, spot }

/-- A plain scalar. -/
def plainScalar (s : LexState) : Option LexState := do
  let s ← s.noteKey
  let (text, broken, spot) ← readPlain s.inFlow (s.indent + 1) s.spot
  return { s.push (.scalar (String.ofList text) .plain) with keyAllowed := broken, spot }

/-- Characters that no plain scalar starts with. -/
def indicators : List Char :=
  ['-', '?', ':', ',', '[', ']', '\x7b', '\x7d', '#', '&', '*', '!', '|', '>', '\x27', '\x22', '%',
    '@', '\x60']

/-- A plain scalar starts here. -/
def atPlain (s : LexState) : Bool :=
  let c := s.spot.char
  let following := s.spot.ahead 1
  !(isGap c || indicators.contains c) || (c == '-' && !isSpace following)
    || (!s.inFlow && (c == '?' || c == ':') && !isGap following)

/-- Reads one token that is not the end of the text. -/
def token (s : LexState) : Option LexState :=
  let spot := s.spot
  let c := spot.char
  let gap := isGap (spot.ahead 1)
  if spot.column == 0 && c == '%' then s.directive
  else if spot.isDocumentMark then s.documentMark
    (if c == '-' then .documentStart else .documentEnd)
  else
    match c with
    | '[' => s.openFlow .flowSequenceStart
    | '\x7b' => s.openFlow .flowMappingStart
    | ']' => s.closeFlow .flowSequenceEnd
    | '\x7d' => s.closeFlow .flowMappingEnd
    | ',' => s.flowEntry
    | '*' => s.keyToken fun p => (readAnchor p).map fun (name, p) => (.reference name, p)
    | '&' => s.keyToken fun p => (readAnchor p).map fun (name, p) => (.anchor name, p)
    | '!' => s.keyToken (readTag s.inFlow)
    | '\x27' => s.keyToken fun p => (readQuoted true p).map fun (t, p) =>
        (.scalar (String.ofList t) .quoted, p)
    | '\x22' => s.keyToken fun p => (readQuoted false p).map fun (t, p) =>
        (.scalar (String.ofList t) .quoted, p)
    | _ =>
      if c == '-' && gap then s.blockEntry
      else if c == '?' && (s.inFlow || gap) then s.complexKey
      else if c == ':' && (s.inFlow || gap) then s.value
      else if (c == '|' || c == '>') && !s.inFlow then s.blockScalar (c == '|')
      else if s.atPlain then s.plainScalar
      else none

/-- The end of the text. -/
def finish (s : LexState) : Option LexState := (s.dedent (-1)).dropKey

/-- Reads tokens up to the end of the text, at most the given number. -/
def run : Nat → LexState → Option LexState
  | 0, _ => none
  | n + 1, s =>
    let s := skipBlanks (s.spot.rest.length + 1) s
    let s := s.dedent s.spot.column
    if isFinish s.spot.char then s.finish
    else
      match s.token with
      | none => none
      | some s => run n s

end LexState

/-- The tokens of a text. -/
def tokens? (text : String) : Option (List Token) := do
  let chars := text.toList
  guard (chars.all isPrintable)
  let s ← LexState.run (chars.length + 2) { spot := { rest := chars } }
  return s.tokens.toList

end RouteAtlas.Yaml
