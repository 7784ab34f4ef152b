import RouteAtlas.Grammar.Context
import RouteAtlas.Grammar.Lexeme
import RouteAtlas.Grammar.Table

/-!
# Reading tokens

Which token stands at an index depends on what is expected there. Contextual tokens come first. Of
the others, blanks before them passed, the most urgent is read, of these the longest, and of these
the most special. A name that spells an expected keyword is that keyword.
-/

namespace RouteAtlas.Grammar

/-- How the tokens of a grammar are read. -/
structure Lexicon where
  /-- The punctuation marks and operator words by the codes of their first characters. -/
  marks : Std.HashMap Nat (List (Nat × List Char))
  keywords : Std.HashMap String Nat
  /-- The set of the keywords. -/
  keywordSet : TokenSet
  lexemes : List (Nat × Lexeme)
  name : Nat
  comment : Nat
  finish : Nat
  contextual : Std.HashMap Contextual Nat
  /-- The operator by which one knows that operators are expected. -/
  operator : Nat
  escape : Nat
  regexBody : Nat
  typed : Bool

/-- A token in a source. -/
structure Lexed where
  symbol : Nat
  /-- The index after the token before it. -/
  before : Nat
  start : Nat
  stop : Nat
  /-- The token is a keyword that could also be a name. -/
  isKeyword : Bool
deriving Repr, Inhabited

namespace Lexicon

/-- The text is a word. -/
def isWord (text : String) : Bool := text.toList.all fun c => c.isAlpha || c == '_'

/-- How the tokens of a grammar are read. -/
def ofDefinition (d : Definition) (v : Vocabulary) : Lexicon :=
  let texts := v.tokens.toList.zipIdx.filterMap fun (t, i) =>
    match t with
    | .text text => some (text, i)
    | _ => none
  let (words, marks) := texts.partition fun (text, _) =>
    isWord text && !d.operatorWords.contains text
  { marks := marks.foldl (fun m (text, i) =>
      let c := (text.toList.headD ' ').toNat
      m.insert c (m.getD c [] ++ [(i, text.toList)])) ∅
    keywords := .ofList words
    keywordSet := TokenSet.ofList (words.map (·.2))
    lexemes := v.tokens.toList.zipIdx.filterMap fun (t, i) =>
      match t with
      | .lexeme l => some (i, l)
      | _ => none
    name := v.token (.lexeme .name)
    comment := v.token (.lexeme .comment)
    finish := v.finish
    contextual := .ofList (Contextual.all.map fun c => (c, v.token (.contextual c)))
    operator := v.token (.text "||")
    escape := v.token (.lexeme .escape)
    regexBody := v.token (.lexeme .regexBody)
    typed := d.typed }

variable (x : Lexicon)

/-- The number of a contextual token. -/
def number (c : Contextual) : Nat := x.contextual.getD c x.finish

/-- The token may stand anywhere. -/
def isExtra (symbol : Nat) : Bool := symbol == x.comment || symbol == x.number .markupComment

/-- What is expected, as far as contextual tokens depend on it. -/
def wanted (expected : TokenSet) : Wanted where
  lineEnd := expected.has (x.number .lineEnd)
  templateText := expected.has (x.number .templateText)
  ternaryMark := expected.has (x.number .ternaryMark)
  markupText := expected.has (x.number .markupText)
  signatureEnd := expected.has (x.number .signatureEnd)
  operator := expected.has x.operator
  escape := expected.has x.escape
  regexBody := expected.has x.regexBody

/-- A token that could be read. -/
structure Candidate where
  symbol : Nat
  start : Nat
  stop : Nat
  urgency : Int
  speciality : Nat

/-- The first candidate is to be read rather than the second. -/
def Candidate.beats (a b : Candidate) : Bool :=
  if a.urgency != b.urgency then b.urgency < a.urgency
  else if a.stop != b.stop then b.stop < a.stop
  else if a.speciality != b.speciality then b.speciality < a.speciality
  else a.symbol < b.symbol

/-- The better of a candidate and the best so far. -/
def Candidate.better (best : Option Candidate) (c : Candidate) : Option Candidate :=
  match best with
  | some b => if c.beats b then some c else some b
  | none => some c

/-- The best token that can be read, at `i` or, after the blanks, at `j`. -/
def best? (s : Source) (expectation : Expectation) (i j : Nat) : Option Candidate :=
  let expected := expectation.tokens
  let marks := (x.marks.getD (s.char j).toNat []).foldl (fun best (symbol, text) =>
    if expected.has symbol && s.startsWith j text then
      Candidate.better best ⟨symbol, j, j + text.length, 0, 2⟩
    else best) none
  let names := expectation.wholeNames || expected.has x.name || expected.meet x.keywordSet != 0
  x.lexemes.foldl (fun best (symbol, l) =>
    if expected.has symbol || symbol == x.comment || (symbol == x.name && names) then
      let start := if l.isImmediate then i else j
      match l.read? s start with
      | some stop => Candidate.better best ⟨symbol, start, stop, l.urgency, l.speciality⟩
      | none => best
    else best) marks

/-- The token at an index, if what stands there is one. -/
def read? (s : Source) (expectation : Expectation) (i : Nat) : Option Lexed :=
  match Contextual.read? x.typed s (x.wanted expectation.tokens) i with
  | some (c, start, stop) => some ⟨x.number c, i, start, stop, false⟩
  | none =>
    let j := s.skipWhile isSpace i
    match x.best? s expectation i j with
    | none => if s.isEnd j then some ⟨x.finish, i, j, j, false⟩ else none
    | some c =>
      if c.symbol == x.name then
        match x.keywords[s.slice c.start c.stop]? with
        | some k =>
          if expectation.tokens.has k then some ⟨k, i, c.start, c.stop, true⟩
          else some ⟨c.symbol, i, c.start, c.stop, false⟩
        | none => some ⟨c.symbol, i, c.start, c.stop, false⟩
      else some ⟨c.symbol, i, c.start, c.stop, false⟩

end Lexicon

end RouteAtlas.Grammar
