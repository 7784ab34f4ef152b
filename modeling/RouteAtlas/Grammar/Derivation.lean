import RouteAtlas.Grammar.Lexer

/-!
# Derivations

How a part of a source has been read: the productions, down to the tokens. Of two derivations of the
same part one is kept: the heavier, or else the one that is smaller at the first difference. The
derivation of a program becomes a syntax tree when the phrases that do not show are left out.
-/

namespace RouteAtlas.Grammar

open Syntax

/-- What is known of a derivation besides its parts. -/
structure Extent where
  symbol : Nat
  /-- The index after the token before it. -/
  before : Nat
  start : Nat
  stop : Nat
  /-- It may stand anywhere and belongs to no production. -/
  isExtra : Bool
  weight : Int
  /-- The production that has been read, unless it is a token. -/
  alternative : Nat
deriving Repr, Inhabited

/-- How a part of a source has been read. -/
inductive Derivation where
  | mk (extent : Extent) (parts : List Derivation)
deriving Inhabited

namespace Derivation

/-- What is known of the derivation besides its parts. -/
def extent : Derivation → Extent
  | mk e _ => e

/-- The parts, in source order. -/
def parts : Derivation → List Derivation
  | mk _ ps => ps

/-- The derivation of a token. -/
def ofToken (t : Lexed) (isExtra : Bool) : Derivation :=
  mk ⟨t.symbol, t.before, t.start, t.stop, isExtra, 0, 0⟩ []

/-- The derivation of a phrase from its parts. A phrase without parts stands at the index. -/
def ofParts (symbol alternative index : Nat) (parts : List Derivation) : Derivation :=
  match parts.head?, parts.getLast? with
  | some a, some b =>
    mk ⟨symbol, a.extent.before, a.extent.start, b.extent.stop, false,
      parts.foldl (fun w p => w + p.extent.weight) 0, alternative⟩ parts
  | _, _ => mk ⟨symbol, index, index, index, false, 0, alternative⟩ []

/-- The derivation with a weight added. -/
def addWeight (w : Int) : Derivation → Derivation
  | mk e ps => mk { e with weight := e.weight + w } ps

/-! ## Choice -/

/-- The place of a symbol in the order of symbols: the end of the source and names come first. -/
def order (x : Lexicon) (symbol : Nat) : Nat :=
  if symbol == x.finish then 0 else if symbol == x.name then 1 else symbol + 2

mutual
/-- Compares derivations by their symbols and the numbers of their parts, from the root on. -/
def comparison (x : Lexicon) : Derivation → Derivation → Ordering
  | mk e ps, d =>
    (compare (order x e.symbol) (order x d.extent.symbol)).then
      ((compare ps.length d.parts.length).then (comparisons x ps d.parts))
/-- Compares derivations one after the other. -/
def comparisons (x : Lexicon) : List Derivation → List Derivation → Ordering
  | [], _ => .eq
  | _ :: _, [] => .eq
  | a :: as, b :: bs => (comparison x a b).then (comparisons x as bs)
end

/-- The second derivation is to be kept rather than the first. -/
def yields (x : Lexicon) (a b : Derivation) : Bool :=
  if a.extent.weight < b.extent.weight then true
  else if b.extent.weight < a.extent.weight then false
  else comparison x a b == .gt

/-- The derivations look the same from outside. -/
def resembles (a b : Derivation) : Bool :=
  let x := a.extent
  let y := b.extent
  x.symbol == y.symbol && x.start - x.before == y.start - y.before &&
    x.stop - x.start == y.stop - y.start && a.parts.length == b.parts.length && x.isExtra ==
      y.isExtra

/-! ## Syntax trees -/

/-- What shows of a derivation, put before some nodes. -/
def shown (source : Source) (extent : Extent) (guise : Option Guise) (role : Option Role)
    (parts : List Node) (rest : List Node) : List Node :=
  match guise with
  | some g =>
    let span := source.span extent.start extent.stop
    let (kind, named) :=
      match g with
      | .node k => (k, true)
      | .mark => (.other, false)
    .mk ⟨kind, named, role, span, source.cut span.start span.stop⟩ parts :: rest
  | none =>
    match role, parts with
    | some r, .mk l cs :: more => .mk { l with role := l.role <|> some r } cs :: more ++ rest
    | _, _ => parts ++ rest

mutual
/-- The nodes of a derivation. Where it does not show, its parts do, and the first of them plays its
role. -/
def nodes (source : Source) (t : Table) (guise : Option Guise) (role : Option Role) :
    Derivation → List Node → List Node
  | mk e ps, rest =>
    let own :=
      if e.isExtra then t.vocabulary.guise? e.symbol else guise <|> t.vocabulary.guise? e.symbol
    let steps := (t.alternatives.getD e.alternative default).steps.toList
    match own, role with
    | none, none => partNodes source t steps ps rest
    | _, _ => shown source e own role (partNodes source t steps ps []) rest
/-- The nodes of the parts of a derivation. The steps of the production say how they show. -/
def partNodes (source : Source) (t : Table) : List Step → List Derivation → List Node → List Node
  | _, [], rest => rest
  | steps, d :: ds, rest =>
    if d.extent.isExtra then
      nodes source t none none d (partNodes source t steps ds rest)
    else
      match steps with
      | [] => nodes source t none none d (partNodes source t [] ds rest)
      | s :: steps => nodes source t s.guise s.role d (partNodes source t steps ds rest)
end

end Derivation

end RouteAtlas.Grammar
