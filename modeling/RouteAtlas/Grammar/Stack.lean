import RouteAtlas.Grammar.Derivation

/-!
# Stacks with shared parts

Where a source can be read in several ways, as many stacks grow side by side. They share what they
have in common: a place of a stack has links to the places below it, each with the derivation that
lies between the two. The stacks that still grow are the heads, in the order of preference.
-/

namespace RouteAtlas.Grammar

/-- The way from a place of a stack to one below it. -/
structure Link where
  below : Nat
  derivation : Derivation
deriving Inhabited

/-- A place of a stack. -/
structure Place where
  state : Nat
  /-- The index in the source up to which has been read. -/
  index : Nat
  links : Array Link
  /-- The weight of all that lies below. -/
  weight : Int
deriving Inhabited

/-- What has become of a stack. -/
inductive Status where
  | active
  /-- Nothing can be done with the next token. -/
  | stuck
  /-- The program has been read. -/
  | complete
deriving DecidableEq, Repr, Inhabited

/-- The top of a stack. -/
structure Head where
  place : Nat
  status : Status
deriving Inhabited

/-- All stacks, and the derivation of the whole program that has been found. -/
structure Stacks where
  places : Array Place
  heads : Array Head
  found : Option Derivation
deriving Inhabited

/-- A way down a stack and what it has passed, in source order. -/
structure Descent where
  place : Nat
  passed : List Derivation
  /-- The number of passed parts of the production. -/
  count : Nat
deriving Inhabited

/-- A way down one link further. -/
def Descent.follow (d : Descent) (l : Link) : Descent :=
  ⟨l.below, l.derivation :: d.passed, if l.derivation.extent.isExtra then d.count else d.count + 1⟩

/-- The ways down to one place. -/
structure Landing where
  place : Nat
  ways : List (List Derivation)
deriving Inhabited

/-- Bounds on how many stacks are kept, how many more may come up for a moment, how many links a
place has and how many ways down are followed. -/
structure Limits where
  heads : Nat
  overflow : Nat
  links : Nat
  descents : Nat

/-- The bounds that are used. -/
def limits : Limits := ⟨6, 4, 8, 64⟩

namespace Stacks

/-- The stack of which nothing has been read. -/
def initial (state : Nat) : Stacks :=
  ⟨#[⟨state, 0, #[], 0⟩], #[⟨0, .active⟩], none⟩

variable (s : Stacks)

/-- The place with a number. -/
def place (i : Nat) : Place := s.places.getD i default

/-- The head with a number. -/
def head (version : Nat) : Head := s.heads.getD version default

/-- The place at the top of a stack. -/
def top (version : Nat) : Place := s.place (s.head version).place

/-- The stack with a derivation put on it. -/
def push (version : Nat) (d : Derivation) (state : Nat) : Stacks :=
  let h := s.head version
  let weight := (s.place h.place).weight + d.extent.weight
  let ⟨places, heads, found⟩ := s
  let heads := heads.setIfInBounds version ⟨places.size, h.status⟩
  ⟨places.push ⟨state, d.extent.stop, #[⟨h.place, d⟩], weight⟩, heads, found⟩

/-- The stack with another status. -/
def setStatus (version : Nat) (status : Status) : Stacks :=
  { s with heads := s.heads.modify version fun h => { h with status } }

/-- The stacks without one of them. -/
def remove (version : Nat) : Stacks :=
  { s with heads := s.heads.eraseIdxIfInBounds version }

/-- The stacks with one put in the place of another. -/
def renumber (source target : Nat) : Stacks :=
  { s with heads := (s.heads.setIfInBounds target (s.head source)).eraseIdxIfInBounds source }

/-! ## The way down -/

/-- Ways down, in the order in which they have been found: those at their end, those that go on and
those that have been added, each in reverse, and the number of ways that are followed. -/
structure Descents where
  ended : List Descent
  kept : List Descent
  added : List Descent
  live : Nat

/-- Follows a way down one link further. Where the place has several links, the way goes on with the
first, and ways along the others are added. -/
def Descents.step (places : Array Place) (count : Nat) (ds : Descents) (d : Descent) : Descents :=
  if d.count == count then { ds with ended := d :: ds.ended, live := ds.live - 1 }
  else
    match (places.getD d.place default).links.toList with
    | [] => { ds with live := ds.live - 1 }
    | first :: others =>
      let ds := others.foldl (fun (ds : Descents) l =>
        if limits.descents ≤ ds.live then ds
        else { ds with added := d.follow l :: ds.added, live := ds.live + 1 }) ds
      { ds with kept := d.follow first :: ds.kept }

/-- Follows ways down until a number of parts have been passed. -/
def descend (places : Array Place) (count : Nat) : Nat → List Descent → List Descent → List Descent
  | 0, _, ended => ended.reverse
  | _, [], ended => ended.reverse
  | fuel + 1, ds, ended =>
    let next := ds.foldl (Descents.step places count) ⟨ended, [], [], ds.length⟩
    descend places count fuel (next.kept.reverse ++ next.added.reverse) next.ended

/-- The ways, by the places they lead to. -/
def landings (ds : List Descent) : List Landing :=
  ds.foldl (fun acc d =>
    if acc.any (·.place == d.place) then
      acc.map fun l => if l.place == d.place then { l with ways := l.ways ++ [d.passed] } else l
    else acc ++ [⟨d.place, [d.passed]⟩]) []

/-- The ways down from the top of a stack past a number of parts. -/
def pop (version count : Nat) : List Landing :=
  landings (descend s.places count (s.places.size + 1) [⟨(s.head version).place, [], 0⟩] [])

/-- The ways down from the top of a stack to the bottom. -/
def popAll (places : Array Place) : Nat → List Descent → List (List Derivation)
  | 0, _ => []
  | _, [] => []
  | fuel + 1, d :: ds =>
    match (places.getD d.place default).links.toList with
    | [] => d.passed :: popAll places fuel ds
    | links => popAll places fuel (ds ++ links.map d.follow)

end Stacks

end RouteAtlas.Grammar
