import RouteAtlas.Grammar.Lexeme
import RouteAtlas.Grammar.Vocabulary

/-!
# Items

An item is a production with a dot: what is left of the dot has been read. Items that have the same
phrase, the same way to show what has been read and the same steps still to come are one item,
whatever symbols have been read. The table of a grammar holds its items, the tokens with which every
symbol can start, and for every phrase the items with which it can begin.
-/

namespace RouteAtlas.Grammar

/-- A set of tokens, one bit for each. -/
abbrev TokenSet := Nat

namespace TokenSet

/-- The set of one token. -/
def single (t : Nat) : TokenSet := 1 <<< t

/-- The token is in the set. -/
def has (s : TokenSet) (t : Nat) : Bool := s.testBit t

/-- The tokens of either set. -/
def union (a b : TokenSet) : TokenSet := a ||| b

/-- The tokens of both sets. -/
def meet (a b : TokenSet) : TokenSet := a &&& b

/-- The tokens of the first set that are not in the second. -/
def minus (a b : TokenSet) : TokenSet := a ^^^ (a &&& b)

/-- The set of some tokens. -/
def ofList (ts : List Nat) : TokenSet := ts.foldl (fun s t => s ||| single t) 0

/-- The tokens of a set, as far as they are below a bound. -/
def below (s : TokenSet) (bound : Nat) : List Nat := (List.range bound).filter s.has

end TokenSet

/-- A production together with the number of its phrase. -/
structure Alternative where
  phrase : Nat
  steps : Array Step
  weight : Int
deriving Inhabited

/-- A production with a dot. -/
structure Item where
  alternative : Nat
  phrase : Nat
  /-- Something has been read. -/
  begun : Bool
  /-- The symbol after the dot. -/
  next : Option Nat
  /-- The tokens that can start what comes after that symbol, unless it is the last. -/
  follow : Option TokenSet
  /-- The rank of what has been read. -/
  rank : Option Rank
  /-- The side to which what has been read groups. -/
  side : Option Side
  /-- The item with the dot after that symbol. -/
  advanced : Nat
deriving Inhabited

/-- An item with which a phrase can begin, after its first symbol. -/
structure Start where
  item : Nat
  /-- The tokens that can follow whatever follows the phrase. -/
  lookahead : TokenSet
  /-- The tokens that can follow the phrase can follow the item as well. -/
  inherits : Bool
deriving Inhabited

/-- What is expected at some place of a source. -/
structure Expectation where
  tokens : TokenSet
  /-- Names are read whole there, whether or not one is expected. -/
  wholeNames : Bool
deriving Inhabited

/-- What is worked out once for a grammar. -/
structure Table where
  vocabulary : Vocabulary
  /-- The numbers of the phrases and repetitions end here. -/
  symbols : Nat
  alternatives : Array Alternative
  /-- For every symbol the tokens with which it can start. -/
  first : Array TokenSet
  items : Array Item
  /-- The item from which the program is read. -/
  origin : Nat
  /-- For every phrase and repetition the items with which it can begin, by their first symbols. -/
  starts : Array (Std.HashMap Nat (List Start))
  orders : List (List (Rank ⊕ Nat))
  /-- The phrases at whose end names are read whole. -/
  boundaries : List Nat
  /-- The phrases at whose end names are read whole where a statement can end with them. -/
  statementBoundaries : List Nat
  /-- The end of a line as the end of a statement. -/
  lineEnd : Nat
  /-- The tokens that the reading of contextual tokens takes into account. -/
  sensitive : TokenSet
  /-- For every token those that would not be read as before if the token could be read as well. -/
  clashing : Array TokenSet

namespace Table

/-! ## Alternatives -/

/-- The productions of phrases that have numbers. -/
def namedProductions (n : Numbering) :
    List (Nat × Rule) → StateM Repetitions (List (Nat × List Production))
  | [] => return []
  | (i, r) :: rules => do
    let ps ← r.productions n true
    return (i, distinct ps) :: (← namedProductions n rules)

/-- The productions of all phrases and repetitions, the inlined phrases put in place. -/
def alternativesOf (d : Definition) (v : Vocabulary) : List (Nat × List Production) :=
  let rules := d.rules.filterMap fun (p, r) =>
    if v.tokens.size ≤ v.phrase p then some (v.phrase p, r) else none
  let (named, repetitions) := (namedProductions v.numbering rules).run #[]
  let repeated := repetitions.toList.zipIdx.map fun (content, i) =>
    (v.repetition + i, repetitionProductions (v.repetition + i) content)
  let isInlined : Nat → Bool := fun i => d.inlined.any fun p => v.phrase p == i
  let bodies : Std.HashMap Nat (List Production) := .ofList (named.filter fun (i, _) => isInlined i)
  let depth := d.inlined.length
  (named ++ repeated).map fun (i, ps) =>
    (i, if isInlined i then [] else distinct (ps.flatMap (Production.inlined bodies depth)))

/-! ## Tokens at the edges -/

/-- The tokens at an edge of every symbol, once more phrases have been taken into account. -/
def growEdge (edge : Array Step → Option Step) (alternatives : Array Alternative)
    (known : Array TokenSet) : Array TokenSet :=
  alternatives.foldl (fun acc a =>
    match edge a.steps with
    | none => acc
    | some s => acc.modify a.phrase (TokenSet.union (acc.getD s.symbol 0))) known

/-- Grows the sets of tokens until nothing is added, or up to the number of times. -/
def closeEdge (edge : Array Step → Option Step) (alternatives : Array Alternative) :
    Nat → Array TokenSet → Array TokenSet
  | 0, known => known
  | fuel + 1, known =>
    let grown := growEdge edge alternatives known
    if grown == known then known else closeEdge edge alternatives fuel grown

/-- The tokens at an edge of every symbol. -/
def edgeOf (edge : Array Step → Option Step) (tokens symbols : Nat)
    (alternatives : Array Alternative) :
    Array TokenSet :=
  closeEdge edge alternatives symbols
    (Array.ofFn fun (i : Fin (symbols + 1)) => if i.val < tokens then TokenSet.single i.val else 0)

/-- The tokens with which every symbol can start. -/
def firstOf (tokens symbols : Nat) (alternatives : Array Alternative) : Array TokenSet :=
  edgeOf (·[0]?) tokens symbols alternatives

/-- The tokens with which every symbol can end. -/
def lastOf (tokens symbols : Nat) (alternatives : Array Alternative) : Array TokenSet :=
  edgeOf (·.back?) tokens symbols alternatives

/-- For every token the tokens that can come after it within a phrase. -/
def followingOf (tokens symbols : Nat) (alternatives : Array Alternative) (first : Array TokenSet) :
    Array TokenSet :=
  let last := lastOf tokens symbols alternatives
  let neighbours := alternatives.foldl (fun (acc : Std.HashSet (Nat × Nat)) a =>
    let symbols := a.steps.toList.map (·.symbol)
    (symbols.zip symbols.tail).foldl .insert acc) ∅
  neighbours.fold (fun acc (left, right) =>
    ((last.getD left 0).below tokens).foldl
      (fun acc token => acc.modify token (TokenSet.union (first.getD right 0))) acc)
    (Array.replicate tokens 0)

/-! ## Items -/

/-- What tells items apart. The shape of what has been read and the steps still to come are given by
the numbers under which they have been met. -/
structure ItemKey where
  dot : Nat
  phrase : Nat
  weight : Int
  shape : Nat
  rank : Option Rank
  side : Option Side
  rest : Nat
deriving DecidableEq, Hashable

/-- Numbers given to values in the order in which they are met. -/
structure Interned (α : Type) [BEq α] [Hashable α] where
  numbers : Std.HashMap α Nat

namespace Interned

variable {α : Type} [BEq α] [Hashable α]

/-- No value has been met. -/
def empty : Interned α := ⟨∅⟩

/-- The number of a value; zero is not given. -/
def number (i : Interned α) (x : α) : Nat × Interned α :=
  match i.numbers[x]? with
  | some n => (n, i)
  | none =>
    let n := i.numbers.size + 1
    (n, ⟨i.numbers.insert x n⟩)

end Interned

/-- The numbers of the rests of a production, from the whole to the empty one. -/
def restNumbers (known : Interned (Step × Nat)) : List Step → List Nat × Interned (Step × Nat)
  | [] => ([0], known)
  | s :: steps =>
    let (rests, known) := restNumbers known steps
    let (n, known) := known.number (s, rests.headD 0)
    (n :: rests, known)

/-- The numbers of the shapes of what has been read, from nothing to the whole. -/
def shapeNumbers (known : Interned (Nat × Option Guise × Option Syntax.Role)) (shape : Nat) :
    List Step → List Nat × Interned (Nat × Option Guise × Option Syntax.Role)
  | [] => ([shape], known)
  | s :: steps =>
    let (n, known) := known.number (shape, s.guise, s.role)
    let (shapes, known) := shapeNumbers known n steps
    (shape :: shapes, known)

/-- The keys of the items of every production, by the place of the dot. -/
def itemKeys (alternatives : Array Alternative) : Array (Array ItemKey) :=
  let go := fun (acc : Array (Array ItemKey) × Interned (Step × Nat) ×
      Interned (Nat × Option Guise × Option Syntax.Role)) (a : Alternative) =>
    let (keys, rests, shapes) := acc
    let (rest, rests) := restNumbers rests a.steps.toList
    let (shape, shapes) := shapeNumbers shapes 0 a.steps.toList
    let before := none :: a.steps.toList.map some
    let made := ((rest.zip shape).zip before).zipIdx.map fun (((r, h), s), dot) =>
      ({ dot, phrase := a.phrase, weight := a.weight, shape := h, rank := s.bind (·.rank),
         side := s.bind (·.side), rest := r } : ItemKey)
    (keys.push made.toArray, rests, shapes)
  (alternatives.foldl go (#[], .empty, .empty)).1

/-- The items, those with fewer steps read first, and the number of every key. -/
def itemsOf (alternatives : Array Alternative) (first : Array TokenSet)
    (keys : Array (Array ItemKey)) :
    Array Item × Std.HashMap ItemKey Nat :=
  let longest := alternatives.foldl (fun n a => max n a.steps.size) 0
  let places := (List.range (longest + 1)).flatMap fun dot =>
    (keys.toList.zipIdx).filterMap fun (ks, i) => (ks[dot]?).map fun k => (k, i, dot)
  let numbered :=
    places.foldl (fun (acc : Array (Nat × Nat) × Std.HashMap ItemKey Nat) (k, i, dot) =>
    if acc.2.contains k then acc else (acc.1.push (i, dot), acc.2.insert k acc.1.size)) (#[], ∅)
  let items := numbered.1.map fun (i, dot) =>
    let a := alternatives.getD i default
    let before := if dot == 0 then none else a.steps[dot - 1]?
    let next := (a.steps[dot]?).map (·.symbol)
    let follow := (a.steps[dot + 1]?).map fun s => first.getD s.symbol 0
    let advanced := (((keys.getD i #[])[dot + 1]?).bind (numbered.2[·]?)).getD 0
    { alternative := i, phrase := a.phrase, begun := 0 < dot, next, follow,
      rank := before.bind (·.rank), side := before.bind (·.side), advanced }
  (items, numbered.2)

/-! ## Beginnings -/

/-- A phrase that another phrase can begin with: its symbol, and the tokens that can follow it
there, or nothing if it is all of the production. -/
abbrev Edge := Nat × Option TokenSet

/-- For every symbol the phrases it can begin with at once. -/
def edgesOf (tokens symbols : Nat) (alternatives : Array Alternative) (first : Array TokenSet) :
    Array (List Edge) :=
  let all := alternatives.foldl (fun (acc : Array (List Edge)) a =>
    match a.steps[0]? with
    | none => acc
    | some s =>
      if s.symbol < tokens then acc
      else acc.modify a.phrase ((s.symbol, (a.steps[1]?).map fun t => first.getD t.symbol 0) :: ·))
    (Array.replicate (symbols + 1) [])
  all.map distinct

/-- The phrases that a phrase can begin with, with what can follow them there. A phrase is looked at
again when more can follow it than had been known. -/
def closeEdges (edges : Array (List Edge)) :
    Nat → List (Nat × TokenSet × Bool) → Std.HashMap Nat (TokenSet × Bool) →
      Std.HashMap Nat (TokenSet × Bool)
  | 0, _, found => found
  | _, [], found => found
  | fuel + 1, (symbol, lookahead, inherits) :: pending, found =>
    let (l, i) := found.getD symbol (0, false)
    let all := TokenSet.union l lookahead
    let any := i || inherits
    if found.contains symbol && all == l && any == i then closeEdges edges fuel pending found
    else
      let pending := (edges.getD symbol []).foldl (fun acc (s, follow) =>
        match follow with
        | some f => (s, f, false) :: acc
        | none => (s, all, any) :: acc) pending
      closeEdges edges fuel pending (found.insert symbol (all, any))

/-- For every symbol the items of its own productions after their first symbols, by these
symbols. -/
def openings (symbols : Nat) (alternatives : Array Alternative) (keys : Array (Array ItemKey))
    (numbers : Std.HashMap ItemKey Nat) : Array (List (Nat × Nat)) :=
  let all := alternatives.toList.zipIdx.foldl (fun (acc : Array (List (Nat × Nat))) (a, i) =>
    match a.steps[0]?, (keys.getD i #[])[1]? with
    | some s, some k => acc.modify a.phrase ((s.symbol, numbers.getD k 0) :: ·)
    | _, _ => acc) (Array.replicate (symbols + 1) [])
  all.map distinct

/-- The items with which a phrase can begin. -/
def startsOf (tokens symbols : Nat) (edges : Array (List Edge)) (opening : Array (List (Nat × Nat)))
    (symbol : Nat) : Std.HashMap Nat (List Start) :=
  let begun := closeEdges edges (symbols * (tokens + 2) * symbols) [(symbol, 0, true)] ∅
  begun.fold (fun acc s (lookahead, inherits) =>
    (opening.getD s []).foldl (fun acc (x, item) =>
      acc.insert x ((⟨item, lookahead, inherits⟩ : Start) :: acc.getD x [])) acc) ∅

/-! ## Tokens that are read together -/

/-- The token can start with the character. -/
def canStart (c : Char) : Token → Bool
  | .text text => text.toList.head? == some c
  | .lexeme l => l.canStart c
  | _ => false

/-- Where the second token can be read and then one of those that follow it, the first one would be
read instead of them. -/
def clash (d : Definition) (following : List Token) : Token → Token → Bool
  | .text text, .text other =>
    other.toList.isPrefixOf text.toList &&
      (text.toList.drop other.length).head?.any fun c => following.any (canStart c)
  | .text text, .lexeme .regexFlags => text.toList.all Char.isLower
  | .text text, .lexeme .name => d.operatorWords.contains text
  | .lexeme .name, .text other => d.operatorWords.contains other
  | _, _ => false

/-- The reading of contextual tokens takes the token into account. -/
def isSensitive : Token → Bool
  | .contextual _ => true
  | t => t == .text "||" || t == .lexeme .escape || t == .lexeme .regexBody

/-- The set of the tokens with a property. -/
def tokensWith (v : Vocabulary) (p : Token → Bool) : TokenSet :=
  TokenSet.ofList ((v.tokens.toList.zipIdx.filter fun (t, _) => p t).map (·.2))

/-- For every token those that it clashes with. A comment may follow any token. -/
def clashingOf (d : Definition) (v : Vocabulary) (following : Array TokenSet) : Array TokenSet :=
  let after := following.map fun f =>
    Token.lexeme .comment :: (f.below v.tokens.size).map fun i => v.tokens.getD i .finish
  v.tokens.map fun t => TokenSet.ofList <|
    (v.tokens.toList.zipIdx.filter fun (other, i) =>
      t != other && clash d (after.getD i []) t other).map (·.2)

/-! ## The whole -/

/-- The table of a grammar. -/
def ofDefinition (d : Definition) : Table :=
  let v := Vocabulary.ofDefinition d
  let tokens := v.tokens.size
  let productions := alternativesOf d v
  let symbols := tokens + productions.length
  let program : Alternative := ⟨symbols, #[⟨tokens, none, none, none, none⟩], 0⟩
  let alternatives := (productions.flatMap fun (i, ps) =>
    ps.map fun p => (⟨i, p.steps.toArray, p.weight⟩ : Alternative)).toArray.push program
  let first := firstOf tokens symbols alternatives
  let keys := itemKeys alternatives
  let (items, numbers) := itemsOf alternatives first keys
  let edges := edgesOf tokens symbols alternatives first
  let opening := openings symbols alternatives keys numbers
  { vocabulary := v, symbols, alternatives, first, items,
    origin := ((keys.getD (alternatives.size - 1) #[])[0]?.bind (numbers[·]?)).getD 0
    starts := ((List.range productions.length).map fun i =>
      startsOf tokens symbols edges opening (tokens + i)).toArray
    orders := d.orders.map fun order => order.map fun placed =>
      match placed with
      | .level l => .inl (.level l)
      | .phrase p => .inr (v.phrase p)
    boundaries := d.boundaries.map v.phrase
    statementBoundaries := d.statementBoundaries.map v.phrase
    lineEnd := v.token (.contextual .lineEnd)
    sensitive := tokensWith v isSensitive
    clashing := clashingOf d v (followingOf tokens symbols alternatives first) }

end Table

end RouteAtlas.Grammar
