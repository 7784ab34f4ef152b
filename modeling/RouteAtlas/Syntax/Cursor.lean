import RouteAtlas.Syntax.Node

/-!
# Positions in a tree

A cursor is a node together with the way back to the root, so that one can ask for a parent or a
sibling. It is kept as the node and, for each ancestor, the ancestor's label with the children to
the left and to the right; the ancestors themselves are put together again when they are asked for.
-/

namespace RouteAtlas.Syntax

/-- An ancestor with one child left out. -/
structure Frame where
  label : Label
  /-- The siblings to the left, the nearest first. -/
  left : List Node
  right : List Node
deriving Repr, Inhabited

/-- The ancestor with a node put in the gap. -/
def Frame.fill (f : Frame) (n : Node) : Node :=
  .mk f.label (f.left.reverse ++ n :: f.right)

/-- A node in its tree. -/
structure Cursor where
  node : Node
  /-- The ancestors, the parent first. -/
  above : List Frame
deriving Repr, Inhabited

namespace Cursor

/-- The cursor at the root of a tree. -/
def ofRoot (n : Node) : Cursor := ⟨n, []⟩

/-- The kind of the node at the cursor. -/
abbrev kind (c : Cursor) : Kind := c.node.kind

/-- The parent. -/
def parent? (c : Cursor) : Option Cursor :=
  match c.above with
  | [] => none
  | f :: fs => some ⟨f.fill c.node, fs⟩

/-- The sibling to the right. -/
def next? (c : Cursor) : Option Cursor :=
  match c.above with
  | [] => none
  | f :: fs =>
    match f.right with
    | [] => none
    | n :: ns => some ⟨n, { f with left := c.node :: f.left, right := ns } :: fs⟩

/-- The cursors at some nodes that stand in a row under a common parent. -/
def row (l : Label) (above : List Frame) (left : List Node) : List Node → List Cursor
  | [] => []
  | n :: ns => ⟨n, ⟨l, left, ns⟩ :: above⟩ :: row l above (n :: left) ns

/-- The children, in source order. -/
def children (c : Cursor) : List Cursor :=
  row c.node.label c.above [] c.node.children

/-- The leftmost child. -/
def first? (c : Cursor) : Option Cursor :=
  match c.node with
  | .mk _ [] => none
  | .mk l (n :: ns) => some ⟨n, ⟨l, [], ns⟩ :: c.above⟩

/-- The first child that plays the given part. -/
def child? (c : Cursor) (r : Role) : Option Cursor :=
  c.children.find? (·.node.role == some r)

/-- The siblings to the left, the nearest first. -/
def leftSiblings (c : Cursor) : List Node :=
  match c.above with
  | [] => []
  | f :: _ => f.left

/-- The node is what its parent gives for the part: no sibling to the left plays it too. -/
def plays (c : Cursor) (r : Role) : Bool :=
  c.node.role == some r && c.leftSiblings.all (·.role != some r)

/-- The node is its parent's first named child that is no comment. -/
def isFirstContent (c : Cursor) : Bool :=
  c.node.isContent && c.leftSiblings.all (!·.isContent)

/-- The way up from the cursor through wrappers that do not change a value: the outermost such
wrapper, or the node itself. -/
def climbWrappers (n : Node) : List Frame → Cursor
  | [] => ⟨n, []⟩
  | f :: fs => if f.label.kind.isTransparent then climbWrappers (f.fill n) fs else ⟨n, f :: fs⟩

/-- The outermost wrapper around the node that does not change its value, or the node itself. -/
def wrapped (c : Cursor) : Cursor := climbWrappers c.node c.above

mutual
/-- The expression inside parentheses, type assertions and the like, seen from a wrapper. -/
def unwrapNode (above : List Frame) : Node → Cursor
  | .mk l cs =>
    if l.kind.isTransparent then unwrapRow l above ⟨.mk l cs, above⟩ [] cs else ⟨.mk l cs, above⟩
/-- The first named node in a row, unwrapped, or else the given cursor. -/
def unwrapRow (l : Label) (above : List Frame) (fallback : Cursor) (left : List Node) :
    List Node → Cursor
  | [] => fallback
  | n :: ns =>
    if n.label.named then unwrapNode (⟨l, left, ns⟩ :: above) n
    else unwrapRow l above fallback (n :: left) ns
end

/-- The expression inside parentheses, type assertions and the like: as long as the node is such a
wrapper, its first named child. -/
def unwrap (c : Cursor) : Cursor := unwrapNode c.above c.node

end Cursor

end RouteAtlas.Syntax
