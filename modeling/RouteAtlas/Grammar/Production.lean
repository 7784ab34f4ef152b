import RouteAtlas.Grammar.Rule
import Std.Data.HashMap
import Std.Data.HashSet

/-!
# Productions

A rule is a compact way to write a number of productions, plain sequences of symbols. Symbols are
numbers: first those of the tokens, then those of the phrases, last those of the repetitions, which
are phrases without a name. Where two rules repeat the same thing they share one repetition.
-/

namespace RouteAtlas.Grammar

open Syntax

/-- A symbol in a production, and what the rule says about it there. -/
structure Step where
  symbol : Nat
  rank : Option Rank
  side : Option Side
  guise : Option Guise
  role : Option Role
deriving DecidableEq, Hashable, Repr, Inhabited

/-- One of the sequences that a phrase stands for. -/
structure Production where
  steps : List Step
  weight : Int
deriving DecidableEq, Hashable, Repr, Inhabited

/-- The weight that is farther from zero, and the first if they are equally far. -/
def heavier (a b : Int) : Int :=
  if a.natAbs < b.natAbs then b else a

/-- The elements without repetitions, in the order of their first places. -/
def distinct {α : Type} [BEq α] [Hashable α] (xs : List α) : List α :=
  (xs.foldl (fun (acc : List α × Std.HashSet α) x =>
    if acc.2.contains x then acc else (x :: acc.1, acc.2.insert x)) ([], ∅)).1.reverse

namespace Production

/-- The production of nothing. -/
def nothing : Production := ⟨[], 0⟩

/-- The production of one symbol. -/
def single (symbol : Nat) : Production := ⟨[⟨symbol, none, none, none, none⟩], 0⟩

/-- One production after the other. -/
def append (a b : Production) : Production := ⟨a.steps ++ b.steps, heavier a.weight b.weight⟩

/-- The production with every step changed. -/
def mapSteps (f : Step → Step) (p : Production) : Production := { p with steps := p.steps.map f }

/-- The production with every step changed; unless the production ends the whole rule, its last step
is left alone. The rank of a part is thus not that of what follows the part. -/
def mapInner (atEnd : Bool) (f : Step → Step) (p : Production) : Production :=
  if atEnd then p.mapSteps f
  else { p with steps := p.steps.dropLast.map f ++ p.steps.getLast?.toList }

end Production

/-- The repetitions that have been met, each with the productions of what is repeated. -/
abbrev Repetitions := Array (List Production)

/-- The numbers of the symbols of a grammar. -/
structure Numbering where
  token : Token → Nat
  phrase : Phrase → Nat
  /-- The number of the first repetition. -/
  repetition : Nat

/-- The productions of a rule. `atEnd` says that the rule is the end of the rule of its phrase. -/
def Rule.productions (n : Numbering) : Bool → Rule → StateM Repetitions (List Production)
  | _, .blank => return [.nothing]
  | _, .token t => return [.single (n.token t)]
  | _, .phrase p => return [.single (n.phrase p)]
  | atEnd, .sequence a b => do
    let xs ← a.productions n false
    let ys ← b.productions n atEnd
    return xs.flatMap fun x => ys.map x.append
  | atEnd, .either a b => do
    let xs ← a.productions n atEnd
    let ys ← b.productions n atEnd
    return xs ++ ys
  | _, .many1 r => do
    let content := distinct (← r.productions n true)
    let known ← get
    match known.findIdx? (· == content) with
    | some i => return [.single (n.repetition + i)]
    | none =>
      set (known.push content)
      return [.single (n.repetition + known.size)]
  | atEnd, .ranked k r => do
    let xs ← r.productions n atEnd
    return xs.map (.mapInner atEnd fun s => { s with rank := s.rank <|> some k })
  | atEnd, .sided d r => do
    let xs ← r.productions n atEnd
    return xs.map (.mapInner atEnd fun s => { s with side := s.side <|> some d })
  | atEnd, .weigh w r => do
    let xs ← r.productions n atEnd
    return xs.map fun x => { x with weight := heavier w x.weight }
  | atEnd, .disguised g r => do
    let xs ← r.productions n atEnd
    return xs.map (.mapSteps fun s => { s with guise := s.guise <|> some g })
  | atEnd, .part q r => do
    let xs ← r.productions n atEnd
    return xs.map (.mapSteps fun s => { s with role := s.role <|> some q })

/-- The productions of a repetition: two of it, or what is repeated. -/
def repetitionProductions (self : Nat) (content : List Production) : List Production :=
  distinct ((Production.single self).append (.single self) :: content)

/-! ## Inlining -/

/-- What is put in the place of a step. What the step says about how it shows goes for all of it;
its rank and its side are those of the last part, unless that has its own. -/
def Step.replacement (s : Step) (body : List Step) : List Step :=
  let shown := body.map fun t => { t with guise := s.guise <|> t.guise, role := s.role <|> t.role }
  match shown.getLast? with
  | none => []
  | some t => shown.dropLast ++ [{ t with rank := t.rank <|> s.rank, side := t.side <|> s.side }]

/-- The productions that a sequence of steps stands for when inlined phrases are replaced by what
they stand for, down to a depth. -/
def inlineSteps (bodies : Std.HashMap Nat (List Production)) : Nat → List Step → List Production
  | 0, steps => [⟨steps, 0⟩]
  | depth + 1, steps =>
    steps.foldr (fun s rest =>
      match bodies[s.symbol]? with
      | none => rest.map (Production.append ⟨[s], 0⟩)
      | some body =>
        let parts := body.flatMap fun b =>
          (inlineSteps bodies depth (s.replacement b.steps)).map
            fun p => { p with weight := heavier b.weight p.weight }
        parts.flatMap fun p => rest.map p.append) [.nothing]

/-- The production with inlined phrases replaced. -/
def Production.inlined (bodies : Std.HashMap Nat (List Production)) (depth : Nat) (p : Production) :
    List Production :=
  (inlineSteps bodies depth p.steps).map fun q => { q with weight := heavier p.weight q.weight }

end RouteAtlas.Grammar
