import RouteAtlas.Grammar.Rule
import RouteAtlas.Grammar.Source

/-!
# Tokens that are told by their form

For every such token, where it ends when it starts at an index. Each is the longest text of its
form.
-/

namespace RouteAtlas.Grammar

namespace Source

variable (s : Source)

/-- The index after the characters from `i` on that satisfy the test, if there are any. -/
def run? (p : Char → Bool) (i : Nat) : Option Nat :=
  let j := s.skipWhile (fun c => isPresent c && p c) i
  if i < j then some j else none

/-- The index after the characters from `i` on that satisfy the test, at most a number of them. -/
def runUpTo (p : Char → Bool) : Nat → Nat → Nat
  | 0, i => i
  | n + 1, i => if p (s.char i) then runUpTo p n (i + 1) else i

/-- The larger of two indices, if there are any. -/
def farther (a b : Option Nat) : Option Nat :=
  match a, b with
  | some i, some j => some (max i j)
  | some i, none => some i
  | none, b => b

/-! ## Names -/

/-- The index after an escaped character of a name. -/
def nameEscape? (i : Nat) : Option Nat :=
  if s.char i == '\\' && s.char (i + 1) == 'u' then
    if s.char (i + 2) == '\x7b' then
      (s.run? isHexDigit (i + 3)).bind fun j => if s.char j == '\x7d' then some (j + 1) else none
    else if s.runUpTo isHexDigit 4 (i + 2) == i + 6 then some (i + 6)
    else none
  else none

/-- The index after the later characters of a name. -/
def nameRest : Nat → Nat → Nat
  | 0, i => i
  | fuel + 1, i =>
    let j := s.skipWhile isWordPart i
    match s.nameEscape? j with
    | some k => nameRest fuel k
    | none => j

/-- The index after a name. -/
def name? (i : Nat) : Option Nat :=
  if isWordStart (s.char i) then some (s.nameRest s.size (i + 1))
  else (s.nameEscape? i).map (s.nameRest s.size)

/-- The index after a private name. -/
def privateName? (i : Nat) : Option Nat :=
  if s.char i == '#' then s.name? (i + 1) else none

/-- The index after a name with dashes in it. -/
def dashedName? (i : Nat) : Option Nat :=
  let starts : Char → Bool := fun c => c.isAlpha || c == '_' || c == '$'
  let goesOn : Char → Bool := fun c => starts c || c.isDigit
  if starts (s.char i) then
    let j := s.skipWhile goesOn (i + 1)
    if s.char j == '-' then some (s.skipWhile (fun c => goesOn c || c == '-') (j + 1)) else none
  else none

/-! ## Numbers -/

/-- The index after digits; single underscores may stand between them. -/
def digitRest (p : Char → Bool) : Nat → Nat → Nat
  | 0, i => i
  | fuel + 1, i =>
    if p (s.char i) then digitRest p fuel (i + 1)
    else if s.char i == '_' && p (s.char (i + 1)) then digitRest p fuel (i + 2)
    else i

/-- The index after one or more digits. -/
def digits? (p : Char → Bool) (i : Nat) : Option Nat :=
  if p (s.char i) then some (s.digitRest p s.size (i + 1)) else none

/-- The index after an exponent. -/
def exponent? (i : Nat) : Option Nat :=
  if s.char i == 'e' || s.char i == 'E' then
    let j := if s.char (i + 1) == '+' || s.char (i + 1) == '-' then i + 2 else i + 1
    s.digits? Char.isDigit j
  else none

/-- The index after the mark of a big integer, or the index itself. -/
def bigMark (i : Nat) : Nat := if s.char i == 'n' then i + 1 else i

/-- The index after an integer whose base is marked. -/
def basedNumber? (i : Nat) : Option Nat :=
  if s.char i == '0' then
    let p? : Option (Char → Bool) :=
      match s.char (i + 1) with
      | 'x' | 'X' => some isHexDigit
      | 'o' | 'O' => some isOctalDigit
      | 'b' | 'B' => some isBinaryDigit
      | _ => none
    p?.bind fun p => (s.digits? p (i + 2)).map s.bigMark
  else none

/-- The index after the integer part of a decimal fraction. Before a point or an exponent, a zero is
followed by no digit but one that is not zero. -/
def wholePart? (i : Nat) : Option Nat :=
  if s.char i == '0' && !('1' ≤ s.char (i + 1) && s.char (i + 1) ≤ '9') then some (i + 1)
  else s.digits? Char.isDigit i

/-- The index after what follows the integer part of a decimal fraction. -/
def fraction? (i : Nat) : Option Nat :=
  if s.char i == '.' then
    let j := (s.digits? Char.isDigit (i + 1)).getD (i + 1)
    some ((s.exponent? j).getD j)
  else s.exponent? i

/-- The index after a number. -/
def number? (i : Nat) : Option Nat :=
  let plain := (s.digits? Char.isDigit i).map s.bigMark
  let decimal := (s.wholePart? i).bind s.fraction?
  let pointed := if s.char i == '.' && (s.char (i + 1)).isDigit then s.fraction? i else none
  farther (s.basedNumber? i) (farther plain (farther decimal pointed))

/-! ## Comments -/

/-- The index after a block comment whose body goes on at `i`. -/
def blockRest? (i : Nat) : Option Nat :=
  if h : i < s.chars.size then
    if s.chars[i] == '\x00' then none
    else if s.chars[i] == '*' && s.char (i + 1) == '/' then some (i + 2)
    else blockRest? (i + 1)
  else none
termination_by s.chars.size - i

/-- The index after a comment. -/
def comment? (i : Nat) : Option Nat :=
  if s.char i == '/' then
    if s.char (i + 1) == '/' then
      some (s.skipWhile (fun c => isPresent c && !isBreak c && c != '\r') (i + 2))
    else if s.char (i + 1) == '*' then s.blockRest? (i + 2)
    else none
  else none

/-- The index after the line that names the interpreter. -/
def hashBang? (i : Nat) : Option Nat :=
  if s.char i == '#' && s.char (i + 1) == '!' then
    some (s.skipWhile (fun c => isPresent c && c != '\n') (i + 2))
  else none

/-! ## Strings -/

/-- The index after an escape sequence. -/
def escape? (i : Nat) : Option Nat :=
  let c := s.char (i + 1)
  if s.char i != '\\' || c == '\x00' then none
  else if isOctalDigit c then some (s.runUpTo isOctalDigit 3 (i + 1))
  else if c == 'x' then
    if isHexDigit (s.char (i + 2)) && isHexDigit (s.char (i + 3)) then some (i + 4) else none
  else if c == 'u' then s.nameEscape? i
  else if (c == '\r' || c == '?') && isBreak (s.char (i + 2)) then some (i + 3)
  else some (i + 2)

/-- The index after the text of a string, up to a quote, a backslash or the end of the line. -/
def stringText? (quote : Char) (i : Nat) : Option Nat :=
  s.run? (fun c => c != quote && c != '\\' && c != '\r' && c != '\n') i

/-- The index after the text of a quoted attribute, up to the quote or a character reference. -/
def attributeRest (quote : Char) : Nat → Nat → Nat
  | 0, i => i
  | fuel + 1, i =>
    let j := s.skipWhile (fun c => isPresent c && c != quote && c != '&') i
    let c := s.char (j + 1)
    if s.char j == '&' && isPresent c && c != '#' && !c.isAlpha then attributeRest quote fuel
      (j + 2)
    else j

/-- The index after the text of a quoted attribute, if there is any. -/
def attributeText? (quote : Char) (i : Nat) : Option Nat :=
  let j := s.attributeRest quote (s.size + 1) i
  if i < j then some j else none

/-- The index after a character reference. -/
def characterReference? (i : Nat) : Option Nat :=
  if s.char i == '&' then
    let (start, stop) :=
      if s.char (i + 1) == '#' then
        if s.char (i + 2) == 'x' || s.char (i + 2) ==
          'X' then (i + 3, s.runUpTo isHexDigit 6 (i + 3))
        else (i + 2, s.runUpTo Char.isDigit 5 (i + 2))
      else (i + 1, s.runUpTo Char.isAlpha 30 (i + 1))
    if start < stop && s.char stop == ';' then some (stop + 1) else none
  else none

/-! ## Regular expressions -/

/-- The index after an escaped character of a regular expression. -/
def regexEscape? (i : Nat) : Option Nat :=
  if s.char i == '\\' && isPresent (s.char (i + 1)) && s.char (i + 1) != '\n' then some (i + 2)
    else none

/-- The index of the bracket that ends a class of characters. -/
def regexClass? : Nat → Nat → Option Nat
  | 0, _ => none
  | fuel + 1, i =>
    let c := s.char i
    if c == ']' then some i
    else if c == '\\' then (s.regexEscape? i).bind (regexClass? fuel)
    else if c == '\x00' || c == '\n' then none
    else regexClass? fuel (i + 1)

/-- The index after what is left of the body of a regular expression. -/
def regexRest : Nat → Nat → Nat
  | 0, i => i
  | fuel + 1, i =>
    let c := s.char i
    if c == '\x00' || c == '\n' || c == '/' then i
    else if c == '\\' then
      match s.regexEscape? i with
      | some j => regexRest fuel j
      | none => i
    else if c == '[' then
      match s.regexClass? (s.size + 1) (i + 1) with
      | some j => regexRest fuel (j + 1)
      | none => i
    else regexRest fuel (i + 1)

/-- The index after the body of a regular expression, if there is any. -/
def regexBody? (i : Nat) : Option Nat :=
  let j := s.regexRest (s.size + 1) i
  if i < j then some j else none

/-! ## Words on two lines -/

/-- The index after the words `static` and `get`, the last line end of the blanks after them
included. -/
def staticGet? (i : Nat) : Option Nat :=
  if s.startsWith i "static".toList then
    (s.run? isPlainSpace (i + 6)).bind fun j =>
      if s.startsWith j "get".toList then
        let stop := s.skipWhile isPlainSpace (j + 3)
        ((List.range (stop - (j + 3))).reverse.find? fun k => s.char (j + 3 + k) == '\n').map
          fun k => j + 3 + k + 1
      else none
  else none

end Source

namespace Lexeme

/-- The index after the token, if it stands at index `i`. -/
def read? (s : Source) (i : Nat) : Lexeme → Option Nat
  | hashBang => s.hashBang? i
  | characterReference => s.characterReference? i
  | dashedName => s.dashedName? i
  | doubleAttributeText => s.attributeText? '\x22' i
  | singleAttributeText => s.attributeText? '\x27' i
  | doubleText => s.stringText? '\x22' i
  | singleText => s.stringText? '\x27' i
  | escape => s.escape? i
  | comment => s.comment? i
  | regexBody => s.regexBody? i
  | regexEnd => if s.char i == '/' then some (i + 1) else none
  | regexFlags => s.run? (fun c => 'a' ≤ c && c ≤ 'z') i
  | number => s.number? i
  | name => s.name? i
  | privateName => s.privateName? i
  | staticGet => s.staticGet? i

/-- The token can start with the character. -/
def canStart (c : Char) : Lexeme → Bool
  | hashBang | privateName => c == '#'
  | characterReference => c == '&'
  | dashedName => c.isAlpha || c == '_' || c == '$'
  | doubleAttributeText => c != '\x22'
  | singleAttributeText => c != '\x27'
  | doubleText => c != '\x22' && c != '\\'
  | singleText => c != '\x27' && c != '\\'
  | escape => c == '\\'
  | comment | regexEnd => c == '/'
  | regexBody => c != '/'
  | regexFlags => c.isLower
  | number => c.isDigit || c == '.'
  | name => isWordStart c || c == '\\'
  | staticGet => c == 's'

/-- No blanks may stand before the token. -/
def isImmediate : Lexeme → Bool
  | doubleAttributeText | singleAttributeText | doubleText | singleText | escape | regexBody | regexEnd
  | regexFlags => true
  | _ => false

/-- Of several tokens that can be read, the most urgent ones are. -/
def urgency : Lexeme → Int
  | doubleAttributeText | singleAttributeText | doubleText | singleText | regexEnd => 1
  | regexBody => -1
  | _ => 0

/-- Of several tokens with one text, the most special one is read. Fixed texts have the speciality
two. -/
def speciality : Lexeme → Nat
  | regexEnd => 3
  | l => if l.isImmediate then 1 else 0

end Lexeme

end RouteAtlas.Grammar
