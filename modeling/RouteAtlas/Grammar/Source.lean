import RouteAtlas.Syntax.Node
import RouteAtlas.Text.Blank

/-!
# Source texts

A source is read by character index. Spans of nodes are given in bytes and lines, so both are worked
out once for every index.
-/

namespace RouteAtlas.Grammar

open Syntax

/-- A text that can be read by character index. -/
structure Source where
  text : String
  chars : Array Char
  /-- For every index, the end included, the bytes before it. -/
  offsets : Array Nat
  /-- For every index, the end included, the line it is on, counted from one. -/
  lines : Array Nat
deriving Inhabited

namespace Source

/-- The source with the given text. -/
def ofText (text : String) : Source :=
  let chars := text.toList.toArray
  let offsets := chars.foldl (fun acc c => acc.push (acc.back! + c.utf8Size)) #[0]
  let lines :=
    chars.foldl (fun acc c => acc.push (if c == '\n' then acc.back! + 1 else acc.back!)) #[1]
  { text, chars, offsets, lines }

/-- The number of characters. -/
def size (s : Source) : Nat := s.chars.size

/-- The character at an index; past the end, the null character, which no token holds. -/
def char (s : Source) (i : Nat) : Char := s.chars.getD i '\x00'

/-- There is no character at the index. -/
def isEnd (s : Source) (i : Nat) : Bool := s.size ≤ i

/-- The span between two indices. -/
def span (s : Source) (start stop : Nat) : Span :=
  ⟨s.offsets.getD start 0, s.offsets.getD stop 0, s.lines.getD start 1⟩

/-- The text between two byte offsets. -/
def cut (s : Source) (start stop : Nat) : String :=
  String.Pos.Raw.extract s.text ⟨start⟩ ⟨stop⟩

/-- The characters between two indices. -/
def slice (s : Source) (start stop : Nat) : String :=
  s.cut (s.offsets.getD start 0) (s.offsets.getD stop 0)

/-- The first index from `i` on whose character does not satisfy the test. -/
def skipWhile (s : Source) (p : Char → Bool) (i : Nat) : Nat :=
  if h : i < s.chars.size then
    if p s.chars[i] then s.skipWhile p (i + 1) else i
  else i
termination_by s.chars.size - i

/-- The text stands at the index. -/
def startsWith (s : Source) (i : Nat) (text : List Char) : Bool :=
  match text with
  | [] => true
  | c :: cs => !s.isEnd i && s.char i == c && s.startsWith (i + 1) cs

end Source

/-! ## Character classes -/

/-- The characters between tokens. -/
def isSpace (c : Char) : Bool :=
  (Text.isBlank c && c != '\u0085') || c == '\ufeff' || c == '\u2060' || c == '\u200b'

/-- The white space of ASCII. -/
def isPlainSpace (c : Char) : Bool :=
  c == ' ' || ('\t' ≤ c && c ≤ '\r')

/-- The characters that end a line, the carriage return apart. -/
def isBreak (c : Char) : Bool :=
  c == '\n' || c == '\u2028' || c == '\u2029'

/-- There is a character, and none of those that no token holds. -/
def isPresent (c : Char) : Bool := c != '\x00'

/-- The ASCII characters that stand in no name. -/
def isPunctuation (c : Char) : Bool :=
  c ∈ [':', ';', '\x60', '\x22', '\x27', '@', '#', '.', ',', '|', '^', '&', '<', '=', '>', '+', '-',
    '*', '/',
    '\\', '%', '?', '!', '~', '(', ')', '[', ']', '\x7b', '\x7d']

/-- The characters that a name can hold. -/
def isWordPart (c : Char) : Bool :=
  0x20 ≤ c.toNat && !isSpace c && !isPunctuation c

/-- The characters that a name can start with. -/
def isWordStart (c : Char) : Bool :=
  isWordPart c && !c.isDigit

/-- A hexadecimal digit. -/
def isHexDigit (c : Char) : Bool :=
  c.isDigit || ('a' ≤ c && c ≤ 'f') || ('A' ≤ c && c ≤ 'F')

/-- An octal digit. -/
def isOctalDigit (c : Char) : Bool :=
  '0' ≤ c && c ≤ '7'

/-- A binary digit. -/
def isBinaryDigit (c : Char) : Bool :=
  c == '0' || c == '1'

end RouteAtlas.Grammar
