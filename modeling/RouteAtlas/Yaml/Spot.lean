/-!
# Positions in a YAML text

A spot is a place in a text: what is still to be read, the bytes before it, and the line and column
of the next character. The end of the text reads as the character zero, which no text holds.
-/

namespace RouteAtlas.Yaml

/-- The characters that a text may hold. -/
def isPrintable (c : Char) : Bool :=
  let n := c.toNat
  n == 0x09 || n == 0x0a || n == 0x0d || (0x20 ≤ n && n ≤ 0x7e) || n == 0x85 ||
    (0xa0 ≤ n && n ≤ 0xfffd)
    || 0x10000 ≤ n

/-- The next character is nowhere: the end of the text. -/
def isFinish (c : Char) : Bool := c == '\x00'

/-- A character that ends a line. -/
def isBreak (c : Char) : Bool :=
  c == '\r' || c == '\n' || c == '\u0085' || c == '\u2028' || c == '\u2029'

/-- A space or a tab. -/
def isSpace (c : Char) : Bool := c == ' ' || c == '\t'

/-- The end of a line or of the text. -/
def isLineEnd (c : Char) : Bool := isBreak c || isFinish c

/-- A space, a tab, or the end of a line or of the text. -/
def isGap (c : Char) : Bool := isSpace c || isLineEnd c

/-- A character of names. -/
def isWordChar (c : Char) : Bool := c.isAlphanum || c == '_' || c == '-'

/-- A place in a text. -/
structure Spot where
  rest : List Char
  /-- The number of bytes before the place. -/
  index : Nat := 0
  line : Nat := 0
  column : Nat := 0
deriving Inhabited

namespace Spot

/-- The character the given number of characters ahead. -/
def ahead (s : Spot) (n : Nat) : Char := (s.rest[n]?).getD '\x00'

/-- The next character. -/
def char (s : Spot) : Char := s.ahead 0

/-- The number of bytes of some characters. -/
def width (cs : List Char) : Nat := cs.foldl (fun n c => n + c.utf8Size) 0

/-- The place after several characters of one line. -/
def skip (s : Spot) (n : Nat) : Spot :=
  ⟨s.rest.drop n, s.index + width (s.rest.take n), s.line, s.column + n⟩

/-- The place after the next character. -/
def next (s : Spot) : Spot := s.skip 1

/-- The place after a line break. A carriage return and a line feed are one break. -/
def nextLine (s : Spot) : Spot :=
  match s.rest with
  | '\r' :: '\n' :: rest => ⟨rest, s.index + 2, s.line + 1, 0⟩
  | c :: rest => ⟨rest, s.index + c.utf8Size, s.line + 1, 0⟩
  | [] => s

/-- What the line break at the place stands for. -/
def breakChars (s : Spot) : List Char :=
  match s.rest with
  | c :: _ =>
    if c == '\u2028' || c == '\u2029' then [c] else if isBreak c then ['\n'] else []
  | [] => []

/-- The place after all characters of the line that satisfy a test. -/
def skipWhile (s : Spot) (p : Char → Bool) : Spot := s.skip (s.rest.takeWhile p).length

/-- The characters ahead that satisfy a test. -/
def run (s : Spot) (p : Char → Bool) : List Char := s.rest.takeWhile p

/-- The next characters are the given ones. -/
def startsWith (s : Spot) (front : String) : Bool := front.toList.isPrefixOf s.rest

/-- A line starts here that starts or ends a document. -/
def isDocumentMark (s : Spot) : Bool :=
  s.column == 0 && (s.startsWith "---" || s.startsWith "...") && isGap (s.ahead 3)

end Spot

end RouteAtlas.Yaml
