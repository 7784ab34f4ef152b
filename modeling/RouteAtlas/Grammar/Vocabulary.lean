import RouteAtlas.Grammar.Production

/-!
# The symbols of a grammar

Tokens are numbered in the order in which the rules mention them; those that are told by their
surroundings and the end of the source come last. A phrase whose rule is a token that stands nowhere
else is that token. The other phrases follow in the order of their rules.
-/

namespace RouteAtlas.Grammar

open Syntax

/-- The numbers of the tokens and phrases of a grammar. -/
structure Vocabulary where
  tokens : Array Token
  tokenNumbers : Std.HashMap Token Nat
  /-- The phrases that are more than a token. -/
  phrases : Array Phrase
  /-- The numbers of all phrases. -/
  phraseNumbers : Std.HashMap Phrase Nat
  /-- The phrases that are no more than a token, by the number of the token. -/
  lexical : Std.HashMap Nat Phrase

/-- The tokens that are told by their surroundings, in the order of their numbers. -/
def Contextual.all : List Contextual :=
  [lineEnd, templateText, ternaryMark, markupComment, markupText, signatureEnd]

namespace Vocabulary

/-- The vocabulary of a grammar. -/
def ofDefinition (d : Definition) : Vocabulary :=
  let mentioned := (d.rules.flatMap (·.2.tokens)).filter fun t =>
    match t with
    | .contextual _ => false
    | _ => true
  let counts : Std.HashMap Token Nat := mentioned.foldl (fun m t => m.insert t (m.getD t 0 + 1)) ∅
  let tokens :=
    (distinct mentioned ++ Contextual.all.map Token.contextual ++ [Token.finish]).toArray
  let tokenNumbers : Std.HashMap Token Nat := .ofList tokens.toList.zipIdx
  let isLexical : Phrase × Rule → Bool := fun (_, r) =>
    match r with
    | .token t => counts.getD t 0 == 1
    | _ => false
  let phrases := ((d.rules.filter fun r => !isLexical r).map (·.1)).toArray
  let lexical := (d.rules.filter isLexical).filterMap fun (p, r) =>
    match r with
    | .token t => (tokenNumbers[t]?).map fun i => (i, p)
    | _ => none
  let phraseNumbers := (phrases.toList.zipIdx tokens.size) ++ lexical.map fun (i, p) => (p, i)
  { tokens, tokenNumbers, phrases, phraseNumbers := .ofList phraseNumbers, lexical :=
    .ofList lexical }

/-- The number of a token. -/
def token (v : Vocabulary) (t : Token) : Nat := v.tokenNumbers.getD t v.tokens.size

/-- The number of a phrase. -/
def phrase (v : Vocabulary) (p : Phrase) : Nat := v.phraseNumbers.getD p v.tokens.size

/-- The number of the first repetition. -/
def repetition (v : Vocabulary) : Nat := v.tokens.size + v.phrases.size

/-- The number of the end of the source. -/
def finish (v : Vocabulary) : Nat := v.tokens.size - 1

/-- The numbers of all symbols. -/
def numbering (v : Vocabulary) : Numbering := ⟨v.token, v.phrase, v.repetition⟩

/-- How a token that is no phrase shows in the tree. -/
def tokenGuise? : Token → Option Guise
  | .text _ | .lexeme _ => some .mark
  | .contextual .markupComment | .contextual .markupText => some (.node .other)
  | .contextual _ | .finish => none

/-- How a symbol shows in the tree where a rule does not say otherwise, or nothing if its parts
stand there without it. -/
def guise? (v : Vocabulary) (symbol : Nat) : Option Guise :=
  if symbol < v.tokens.size then
    match v.lexical[symbol]? with
    | some p => p.kind?.map .node
    | none => tokenGuise? (v.tokens.getD symbol .finish)
  else
    (v.phrases[symbol - v.tokens.size]?).bind fun p => p.kind?.map .node

end Vocabulary

end RouteAtlas.Grammar
