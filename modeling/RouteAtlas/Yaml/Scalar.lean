import RouteAtlas.Yaml.Spot

/-!
# YAML scalars

Plain, quoted and block scalars, read from the place where they start. Lines of plain and quoted
scalars are folded: a single line break reads as a space, and of several the first is dropped.
-/

namespace RouteAtlas.Yaml

/-- How a scalar is written. -/
inductive Style where
  | plain | quoted | literal | folded
deriving DecidableEq, Repr, Inhabited

/-! ## Blanks between the parts of a scalar -/

/-- Blanks between two parts of a scalar: spaces of one line, or line breaks. -/
structure Blanks where
  spaces : List Char := []
  /-- The first line break. -/
  first : List Char := []
  /-- The line breaks after the first. -/
  more : List Char := []
  /-- There was a line break. -/
  broken : Bool := false

/-- What blanks between two parts read as. -/
def Blanks.text (b : Blanks) : List Char :=
  if b.broken then
    if b.first.head? == some '\n' then if b.more.isEmpty then [' '] else b.more
    else b.first ++ b.more
  else b.spaces

/-- Reads blanks. Where `indent` is given, a tab in a later line that stands before that column is
refused. -/
def readBlanks (indent : Int) : Nat → Blanks → Spot → Option (Blanks × Spot)
  | 0, b, s => some (b, s)
  | n + 1, b, s =>
    if isSpace s.char then
      if b.broken && (s.column : Int) < indent && s.char == '\t' then none
      else if b.broken then readBlanks indent n b s.next
      else readBlanks indent n { b with spaces := b.spaces ++ [s.char] } s.next
    else if isBreak s.char then
      if b.broken then readBlanks indent n { b with more := b.more ++ s.breakChars } s.nextLine
      else readBlanks indent n { b with spaces := [], first := s.breakChars, broken := true }
        s.nextLine
    else some (b, s)

/-! ## Plain scalars -/

/-- Marks that end a plain scalar inside brackets. -/
def flowMarks : List Char := [',', '[', ']', '\x7b', '\x7d']

/-- The characters of a plain scalar up to the next blank or mark that ends it. A colon in brackets
must not stand directly before a mark. -/
def readPlainRun (flow : Bool) : Nat → List Char → Spot → Option (List Char × Spot)
  | 0, acc, s => some (acc.reverse, s)
  | n + 1, acc, s =>
    let c := s.char
    if isGap c then some (acc.reverse, s)
    else if flow && c == ':' && ('?' :: flowMarks).contains (s.ahead 1) then none
    else if (c == ':' && isGap (s.ahead 1)) || (flow && flowMarks.contains c) then some
      (acc.reverse, s)
    else readPlainRun flow n (c :: acc) s.next

/-- Reads the lines of a plain scalar, given what has been read and the blanks after that. The last
part of the answer says whether the scalar was followed by a line break. -/
def readPlainParts (flow : Bool) (indent : Int) : Nat → List Char → Blanks → Spot →
    Option (List Char × Bool × Spot)
  | 0, _, _, _ => none
  | n + 1, acc, b, s =>
    if s.isDocumentMark || s.char == '#' then some (acc, b.broken, s)
    else do
      let (part, s') ← readPlainRun flow s.rest.length [] s
      let acc := if part.isEmpty then acc else acc ++ b.text ++ part
      let b := if part.isEmpty then b else {}
      if isSpace s'.char || isBreak s'.char then
        let (b, s') ← readBlanks indent s'.rest.length b s'
        if !flow && (s'.column : Int) < indent then some (acc, b.broken, s')
        else readPlainParts flow indent n acc b s'
      else some (acc, b.broken, s')

/-- A plain scalar, whether it was followed by a line break, and the place after it. -/
def readPlain (flow : Bool) (indent : Int) (s : Spot) : Option (List Char × Bool × Spot) :=
  readPlainParts flow indent (s.rest.length + 1) [] {} s

/-! ## Quoted scalars -/

/-- The character that a letter after a backslash stands for. -/
def escaped? : Char → Option Char
  | '0' => some '\x00'
  | 'a' => some '\x07'
  | 'b' => some '\x08'
  | 't' => some '\t'
  | '\t' => some '\t'
  | 'n' => some '\n'
  | 'v' => some '\x0b'
  | 'f' => some '\x0c'
  | 'r' => some '\r'
  | 'e' => some '\x1b'
  | ' ' => some ' '
  | '\x22' => some '\x22'
  | '/' => some '/'
  | '\\' => some '\\'
  | 'N' => some '\u0085'
  | '_' => some '\u00a0'
  | 'L' => some '\u2028'
  | 'P' => some '\u2029'
  | _ => none

/-- The number of hexadecimal digits after a letter after a backslash. -/
def escapeLength? : Char → Option Nat
  | 'x' => some 2
  | 'u' => some 4
  | 'U' => some 8
  | _ => none

/-- The value of a hexadecimal digit. -/
def hexValue? (c : Char) : Option Nat :=
  if '0' ≤ c ∧ c ≤ '9' then some (c.toNat - '0'.toNat)
  else if 'a' ≤ c ∧ c ≤ 'f' then some (c.toNat - 'a'.toNat + 10)
  else if 'A' ≤ c ∧ c ≤ 'F' then some (c.toNat - 'A'.toNat + 10)
  else none

/-- The number that hexadecimal digits spell. -/
def hexNumber? (digits : List Char) : Option Nat :=
  digits.foldlM (fun n c => (hexValue? c).map (16 * n + ·)) 0

/-- The character with the given number, if there is one. -/
def charOfNumber? (n : Nat) : Option Char :=
  if (0xd800 ≤ n ∧ n ≤ 0xdfff) ∨ 0x10ffff < n then none else some (Char.ofNat n)

/-- An escape sequence in a double quoted scalar, and the place after it. -/
def readEscape (s : Spot) : Option (Char × Spot) :=
  match escapeLength? (s.ahead 1) with
  | some n => do
    let digits := (s.rest.drop 2).take n
    guard (digits.length == n)
    return (← charOfNumber? (← hexNumber? digits), s.skip (n + 2))
  | none => (escaped? (s.ahead 1)).map (·, s.skip 2)

/-- The characters of a quoted scalar up to the next blank, the closing quote or an escaped line
break. The last part of the answer says whether a line break was escaped. -/
def readQuotedRun (single : Bool) : Nat → List Char → Spot → Option (List Char × Bool × Spot)
  | 0, acc, s => some (acc.reverse, false, s)
  | n + 1, acc, s =>
    let c := s.char
    if isGap c then some (acc.reverse, false, s)
    else if single && c == '\x27' && s.ahead 1 == '\x27' then readQuotedRun single n (c :: acc)
      (s.skip 2)
    else if c == (if single then '\x27' else '\x22') then some (acc.reverse, false, s)
    else if !single && c == '\\' then
      if isBreak (s.ahead 1) then some (acc.reverse, true, s.next.nextLine)
      else
        match readEscape s with
        | none => none
        | some (e, s) => readQuotedRun single n (e :: acc) s
    else readQuotedRun single n (c :: acc) s.next

/-- Reads the lines of a quoted scalar after its opening quote. -/
def readQuotedParts (single : Bool) : Nat → List Char → Spot → Option (List Char × Spot)
  | 0, _, _ => none
  | n + 1, acc, s =>
    if s.isDocumentMark || isFinish s.char then none
    else do
      let (part, escaped, s) ← readQuotedRun single s.rest.length [] s
      let acc := acc ++ part
      if s.char == (if single then '\x27' else '\x22') then return (acc, s.next)
      else
        let (b, s) ← readBlanks (-1) s.rest.length { broken := escaped } s
        readQuotedParts single n (acc ++ b.text) s

/-- A quoted scalar, and the place after it. -/
def readQuoted (single : Bool) (s : Spot) : Option (List Char × Spot) :=
  readQuotedParts single (s.rest.length + 1) [] s.next

/-! ## Block scalars -/

/-- What happens to the line breaks at the end of a block scalar: by default one is kept. -/
inductive Chomping where
  | strip | clip | keep
deriving DecidableEq, Repr

/-- The sign that says what happens to the line breaks at the end. -/
def chomping? : Char → Option Chomping
  | '+' => some .keep
  | '-' => some .strip
  | _ => none

/-- The indentation that a digit asks for; it is not zero. -/
def increment? (c : Char) : Option Nat :=
  if c.isDigit && c != '0' then some (c.toNat - '0'.toNat) else none

/-- The signs after the mark of a block scalar, in either order. -/
def readHeader (s : Spot) : Option (Chomping × Nat × Spot) :=
  match chomping? s.char with
  | some ch =>
    if (s.ahead 1).isDigit then (increment? (s.ahead 1)).map (ch, ·, s.skip 2) else some
      (ch, 0, s.next)
  | none =>
    if s.char.isDigit then do
      let n ← increment? s.char
      match chomping? (s.ahead 1) with
      | some ch => return (ch, n, s.skip 2)
      | none => return (.clip, n, s.next)
    else some (.clip, 0, s)

/-- Reads indentation and empty lines. An indentation of zero is not known yet; `widest` is the
widest one seen. -/
def readIndent (indent : Nat) : Nat → Nat → List Char → Spot → Option (List Char × Nat × Spot)
  | 0, widest, acc, s => some (acc, widest, s)
  | n + 1, widest, acc, s =>
    let blanks := (s.run (· == ' ')).length
    let s := s.skip (if indent == 0 then blanks else min blanks (indent - s.column))
    let widest := max widest s.column
    if (indent == 0 || s.column < indent) && s.char == '\t' then none
    else if isBreak s.char then readIndent indent n widest (acc ++ s.breakChars) s.nextLine
    else some (acc, widest, s)

/-- The lines of a block scalar: `acc` is what has been read, `lead` the line break after it,
`trail` the empty lines after that, and `wasBlank` whether the line before started with a blank. -/
def readBlockLines (literal : Bool) (indent : Nat) : Nat → List Char → List Char → List Char →
    Bool → Spot →
    Option (List Char × List Char × List Char × Spot)
  | 0, _, _, _, _, _ => none
  | n + 1, acc, lead, trail, wasBlank, s =>
    if s.column == indent && !isFinish s.char then do
      let isBlank := isSpace s.char
      let joined :=
        if !literal && lead.head? == some '\n' && !wasBlank && !isBlank then
          if trail.isEmpty then [' '] else []
        else lead
      let line := s.run (!isLineEnd ·)
      let s := s.skip line.length
      let lead := s.breakChars
      let s := if isBreak s.char then s.nextLine else s
      let (breaks, _, s') ← readIndent indent s.rest.length 0 [] s
      readBlockLines literal indent n (acc ++ joined ++ trail ++ line) lead breaks isBlank s'
    else some (acc, lead, trail, s)

/-- A block scalar, and the place after it. `outer` is the indentation of what it is in. -/
def readBlock (literal : Bool) (outer : Int) (s : Spot) : Option (List Char × Spot) := do
  let (chomping, increment, s) ← readHeader s.next
  let s := s.skipWhile isSpace
  let s := if s.char == '#' then s.skipWhile (!isLineEnd ·) else s
  guard (isLineEnd s.char)
  let s := if isBreak s.char then s.nextLine else s
  let asked := if increment == 0 then 0 else (max outer 0).toNat + increment
  let (breaks, widest, s) ← readIndent asked (s.rest.length + 1) 0 [] s
  let indent := if asked == 0 then max (max widest (outer + 1).toNat) 1 else asked
  let (text, lead, trail, s) ← readBlockLines literal indent (s.rest.length + 1) [] []
    breaks false s
  return (text ++ (if chomping == .strip then [] else lead) ++
    (if chomping == .keep then trail else []), s)

end RouteAtlas.Yaml
