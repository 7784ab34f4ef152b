import RouteAtlas.Syntax.Cursor

/-!
# Finding a node by its place

A span can be kept in place of a node. `Cursor.locate?` finds the function with the span again: it
goes down to a smallest node that covers the span, and from there up to a function with exactly that
span.
-/

namespace RouteAtlas.Syntax

namespace Cursor

mutual
/-- From a node down to a smallest one that covers the bytes from `lo` to `hi`. -/
def descend (lo hi : Nat) (above : List Frame) : Node → Cursor
  | .mk l cs => descendRow lo hi l above ⟨.mk l cs, above⟩ [] cs
/-- Down from the first node in a row that covers the bytes, or else the given cursor. -/
def descendRow (lo hi : Nat) (l : Label) (above : List Frame) (fallback : Cursor)
    (left : List Node) :
    List Node → Cursor
  | [] => fallback
  | n :: ns =>
    if n.span.stop < hi || n.span.stop ≤ lo then descendRow lo hi l above fallback (n :: left) ns
    else if lo < n.span.start then fallback
    else descend lo hi (⟨l, left, ns⟩ :: above) n
end

/-- The nearest node, from the given one upwards, that is a function with the span. The way ends
where a node sticks out of the span. -/
def climbTo (s : Span) (n : Node) (above : List Frame) : Option Cursor :=
  if n.kind.isFunction && n.span.start == s.start && n.span.stop == s.stop then some ⟨n, above⟩
  else if n.span.start < s.start || s.stop < n.span.stop then none
  else
    match above with
    | [] => none
    | f :: fs => climbTo s (f.fill n) fs

/-- The function with the given span below a cursor. -/
def locate? (c : Cursor) (s : Span) : Option Cursor :=
  let found := descend s.start s.stop c.above c.node
  climbTo s found.node found.above

end Cursor

end RouteAtlas.Syntax
