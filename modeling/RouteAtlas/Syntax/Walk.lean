import RouteAtlas.Syntax.Cursor

/-!
# Walking a tree

A walk enters the nodes of a subtree, parents before children and left before right, and threads a
state through. On entering a node the visitor says whether to go on into its children. The walk
moves one cursor and counts how far it is below its start, so it needs no stack of its own.
-/

namespace RouteAtlas.Syntax

/-- Where a walk goes after it has entered a node. -/
inductive Onward where
  | into | past
deriving DecidableEq, Repr

/-- What is done on entering a node. -/
abbrev Visitor (σ : Type) := σ → Cursor → σ × Onward

namespace Cursor

/-- The node to be entered after everything below the cursor, which is the given number of levels
below the start of the walk. -/
def leave? : Nat → Cursor → Option (Nat × Cursor)
  | 0, _ => none
  | depth + 1, c =>
    match c.next? with
    | some s => some (depth + 1, s)
    | none =>
      match c.parent? with
      | some p => leave? depth p
      | none => none

/-- A walk that still may enter the given number of nodes. -/
def walkSteps {σ : Type} (visit : Visitor σ) : Nat → Nat → Cursor → σ → σ
  | 0, _, _, s => s
  | steps + 1, depth, c, s =>
    match visit s c with
    | (s, onward) =>
      match onward, c.first? with
      | .into, some child => walkSteps visit steps (depth + 1) child s
      | _, _ =>
        match leave? depth c with
        | some (depth, next) => walkSteps visit steps depth next s
        | none => s

/-- The state after a walk through the subtree at the cursor. No node is entered twice, so the
number of nodes bounds the number of steps. -/
def walk {σ : Type} (visit : Visitor σ) (c : Cursor) (s : σ) : σ :=
  walkSteps visit c.node.size 0 c s

end Cursor

end RouteAtlas.Syntax
