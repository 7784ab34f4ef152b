import RouteAtlas.Grammar.Rule
import RouteAtlas.Grammar.Source

/-!
# Tokens that are told by their surroundings

A statement may end without a semicolon where a line ends, where a block ends and at the end of the
source. Whether it does depends on what follows: a line that starts with an operator goes on with
the statement. The question mark of a conditional expression, the text of templates and of markup,
and comments of markup are told apart here as well. The rules of typed and of plain sources differ.
-/

namespace RouteAtlas.Grammar

/-- What is expected where a token is to be read. -/
structure Wanted where
  lineEnd : Bool
  templateText : Bool
  ternaryMark : Bool
  markupText : Bool
  signatureEnd : Bool
  /-- An operator between operands. -/
  operator : Bool
  /-- An escape sequence. -/
  escape : Bool
  /-- The body of a regular expression. -/
  regexBody : Bool

/-- How far some blanks and comments reach. -/
structure Passage where
  /-- The index after them. -/
  stop : Nat
  /-- No slash follows them that starts no comment. -/
  isClear : Bool
  /-- They end with a block comment in which no line ends. -/
  isInline : Bool
  /-- A comment is among them. -/
  hasComment : Bool

/-- Whether a statement ends, and how far the source has been looked at. -/
structure Ending where
  ends : Bool
  stop : Nat
  /-- A comment has been passed. -/
  hasComment : Bool

namespace Source

variable (s : Source)

/-- The index after a block comment whose body goes on at `i`, or the end of the source, whether it
holds the end of a line, and whether it is closed. -/
def passBlock : Nat → Bool → Nat → Nat × Bool × Bool
  | 0, broken, i => (i, broken, false)
  | fuel + 1, broken, i =>
    let c := s.char i
    if c == '\x00' then (i, broken, false)
    else if c == '*' then
      if s.char (i + 1) == '/' then (i + 2, broken, true) else passBlock fuel broken (i + 1)
    else passBlock fuel (broken || isBreak c) (i + 1)

/-! ## Plain sources -/

/-- Passes blanks and comments. Unless all are to be passed, it stops after a block comment that no
other comment follows at once. -/
def passPlain (all : Bool) : Nat → Bool → Bool → Nat → Passage
  | 0, _, seen, i => ⟨i, true, false, seen⟩
  | fuel + 1, broken, seen, i =>
    let i := s.skipWhile isPlainSpace i
    if s.char i != '/' then ⟨i, true, false, seen⟩
    else if s.char (i + 1) == '/' then
      passPlain all fuel broken true (s.skipWhile (fun c => isPresent c && !isBreak c) (i + 2))
    else if s.char (i + 1) == '*' then
      let (j, broken, closed) := s.passBlock (s.size + 1) broken (i + 2)
      if closed && s.char j != '/' && !all then ⟨j, true, !broken, true⟩
      else passPlain all fuel broken (seen || closed) j
    else ⟨i + 1, false, false, seen⟩

/-- A line that starts with the letter `i` at an index ends the statement before it unless it starts
with one of the operators `in` and `instanceof`. -/
def relationEnding (i : Nat) : Bool × Nat :=
  if s.char (i + 1) != 'n' then (true, i + 1)
  else if !(s.char (i + 2)).isAlpha then (false, i + 2)
  else if s.startsWith (i + 2) "stanceof".toList then ((s.char (i + 10)).isAlpha, i + 10)
  else (true, i + 2)

/-- A line that starts at an index ends the statement before it, as far as plain and typed sources
agree, and the index up to which it has been looked at. -/
def lineEnding (i : Nat) : Bool × Nat :=
  match s.char i with
  | '+' => (s.char (i + 1) == '+', i + 1)
  | '-' => (s.char (i + 1) == '-', i + 1)
  | '!' => (s.char (i + 1) != '=', i + 1)
  | 'i' => s.relationEnding i
  | _ => (true, i)

/-- A line that starts at an index ends the statement before it in a plain source. -/
def plainLineEnding (i : Nat) : Bool × Nat :=
  let c := s.char i
  if c ∈ ['\x60', ',', ':', ';', '*', '%', '>', '<', '=', '[', '(', '?', '^', '|', '&', '/']
    then (false, i)
  else if c == '.' then ((s.char (i + 1)).isDigit, i + 1)
  else s.lineEnding i

/-- A statement ends at an index of a plain source. `operator` says whether an operator could
follow. -/
def plainEnding (operator : Bool) : Nat → Bool → Nat → Ending
  | 0, seen, i => ⟨false, i, seen⟩
  | fuel + 1, seen, i =>
    if s.char i == '\x00' then ⟨true, i, seen⟩
    else
      let p : Passage :=
        if s.char i == '/' then s.passPlain false (s.size + 1)
          false seen i else ⟨i, true, true, seen⟩
      let c := s.char p.stop
      if !p.isClear then ⟨false, p.stop, p.hasComment⟩
      else if !p.isInline && !operator && c != ',' && c != '=' then ⟨true, p.stop, p.hasComment⟩
      else if c == '\x7d' then ⟨true, p.stop, p.hasComment⟩
      else if isBreak c then
        let q := s.passPlain true (s.size + 1) false p.hasComment (p.stop + 1)
        if q.isClear then
          let (ends, stop) := s.plainLineEnding q.stop
          ⟨ends, stop, q.hasComment⟩
        else ⟨false, q.stop, q.hasComment⟩
      else if isPlainSpace c then plainEnding operator fuel p.hasComment (p.stop + 1)
      else ⟨false, p.stop, p.hasComment⟩

/-- The index after the question mark of a conditional expression in a plain source. -/
def plainTernary? (i : Nat) : Option (Nat × Nat) :=
  let i := s.skipWhile isPlainSpace i
  if s.char i != '?' || s.char (i + 1) == '?' then none
  else if s.char (i + 1) == '.' && !(s.char (i + 2)).isDigit then none
  else some (i, i + 1)

/-! ## Typed sources -/

/-- Passes blanks and comments. Only comments up to the end of a line count as comments. -/
def passTyped : Nat → Bool → Nat → Passage
  | 0, seen, i => ⟨i, true, false, seen⟩
  | fuel + 1, seen, i =>
    let i := s.skipWhile isPlainSpace i
    if s.char i != '/' then ⟨i, true, false, seen⟩
    else if s.char (i + 1) == '/' then
      passTyped fuel true (s.skipWhile (fun c => isPresent c && c != '\n') (i + 2))
    else if s.char (i + 1) == '*' then
      passTyped fuel seen (s.passBlock (s.size + 1) false (i + 2)).1
    else ⟨i + 1, false, false, seen⟩

/-- A line that starts at an index ends the statement before it in a typed source. -/
def typedLineEnding (operator signature : Bool) (i : Nat) : Bool × Nat :=
  let c := s.char i
  if c ∈ ['\x60', ',', '.', ';', '*', '%', '>', '<', '=', '?', '^', '|', '&', '/', ':']
    then (false, i)
  else if c == '\x7b' then (!signature, i)
  else if c == '(' || c == '[' then (!operator, i)
  else s.lineEnding i

/-- A statement ends at an index of a typed source. `signature` says whether a function without a
body has just been declared. A brace before a colon ends a statement only where an operator could
follow. -/
def typedEnding (operator signature : Bool) (i : Nat) : Ending :=
  let j := s.skipWhile (fun c => isPlainSpace c && c != '\n') i
  let c := s.char j
  if c == '\x00' then ⟨true, j, false⟩
  else if c == '\x7d' then
    let k := s.skipWhile isPlainSpace (j + 1)
    ⟨s.char k != ':' || operator, k, false⟩
  else if c == '\n' then
    let p := s.passTyped (s.size + 1) false (j + 1)
    if p.isClear then
      let (ends, stop) := s.typedLineEnding operator signature p.stop
      ⟨ends, stop, p.hasComment⟩
    else ⟨false, p.stop, p.hasComment⟩
  else ⟨false, j, false⟩

/-- The index after the question mark of a conditional expression in a typed source, where a
question mark can also stand behind a name. -/
def typedTernary? (i : Nat) : Option (Nat × Nat) :=
  let i := s.skipWhile isPlainSpace i
  if s.char i != '?' || s.char (i + 1) == '?' || s.char (i + 1) == '.' then none
  else
    let j := s.skipWhile isPlainSpace (i + 1)
    let c := s.char j
    if c == ':' || c == ')' || c == ',' then none
    else if c == '.' && !(s.char (j + 1)).isDigit then none
    else some (i, i + 1)

/-! ## Templates and markup -/

/-- The index after the text of a template, up to the closing quote, a substitution or an escape
sequence. -/
def templateRest? : Nat → Nat → Option Nat
  | 0, _ => none
  | fuel + 1, i =>
    let c := s.char i
    if c == '\x00' then none
    else if c == '\x60' || c == '\\' then some i
    else if c == '$' && s.char (i + 1) == '\x7b' then some i
    else templateRest? fuel (i + 1)

/-- The index after the text of a template, if there is any. -/
def templateText? (i : Nat) : Option Nat :=
  (s.templateRest? (s.size + 1) i).bind fun j => if i < j then some j else none

/-- Whether blanks alone do not make the text of an element, and the index after it: blanks after
the end of a line do not count. -/
def markupRest : Nat → Bool → Bool → Nat → Bool × Nat
  | 0, seen, _, i => (seen, i)
  | fuel + 1, seen, broken, i =>
    let c := s.char i
    if c ∈ ['\x00', '<', '>', '\x7b', '\x7d', '&'] then (seen, i)
    else if c == '\n' then markupRest fuel seen true (i + 1)
    else
      let broken := broken && isPlainSpace c
      markupRest fuel (seen || !broken) broken (i + 1)

/-- Where a comment of markup starts and the index after it. -/
def markupComment? (i : Nat) : Option (Nat × Nat) :=
  let i := s.skipWhile (fun c => isPlainSpace c || isBreak c) i
  let rest := fun j => s.skipWhile (fun c => isPresent c && !isBreak c) j
  if s.startsWith i "<!--".toList then some (i, rest (i + 4))
  else if s.startsWith i "-->".toList then some (i, rest (i + 3))
  else none

end Source

namespace Contextual

/-- The question mark of a conditional expression, with its place. -/
def ternary? (typed : Bool) (s : Source) (i : Nat) : Option (Contextual × Nat × Nat) :=
  (if typed then s.typedTernary? i else s.plainTernary? i).map fun p => (ternaryMark, p)

/-- The contextual token at an index, with its place. -/
def read? (typed : Bool) (s : Source) (w : Wanted) (i : Nat) : Option (Contextual × Nat × Nat) :=
  if w.templateText then
    if w.lineEnd then none else (s.templateText? i).map fun j => (templateText, i, j)
  else
    let (isText, j) := if w.markupText then s.markupRest (s.size + 1) false false i else (false, i)
    if isText then some (markupText, i, j)
    else if w.lineEnd || (typed && w.signatureEnd) then
      let e := if typed then s.typedEnding w.operator w.signatureEnd j
        else s.plainEnding w.operator (s.size + 1) false j
      if e.ends then some (lineEnd, j, j)
      else if !e.hasComment && w.ternaryMark && s.char e.stop == '?' then ternary? typed s e.stop
      else none
    else if w.ternaryMark then ternary? typed s j
    else if !w.operator && !w.escape && !w.regexBody then
      (s.markupComment? j).map fun (start, stop) =>
        (markupComment, if start == j then i else start, stop)
    else none

end Contextual

end RouteAtlas.Grammar
