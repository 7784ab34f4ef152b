import RouteAtlas.Syntax.Kind

/-!
# Syntax trees

A node has a kind, the part of the source it covers and its children in source order. Punctuation
and keywords are nodes too; they are the ones that are not `named`. Comments are named nodes that
may stand between any two other nodes. The part a child plays in its parent is its `role`.
-/

namespace RouteAtlas.Syntax

/-- A part of a source: where it starts and stops, in bytes, and the line it starts on, counted
from one. -/
structure Span where
  start : Nat
  stop : Nat
  line : Nat
deriving DecidableEq, Repr, Inhabited

/-- The part that a child plays in its parent. -/
inductive Role where
  | name | newName | value | parameters | parameter | body | function | arguments | object | property
  | index | left | right | operator | argument | key | source | declaration | pattern
  | condition | consequence | alternative | initializer | increment | kind | label | handler | finalizer
  | decorator | attribute | opening | closing | optionalMark | constructed | flags | member
  | typing | typeArguments | typeParameters | returnType | moduleName | constraint | indexType | sign
deriving DecidableEq, Hashable, Repr, Inhabited

/-- All there is to a node, its children apart. -/
structure Label where
  kind : Kind
  named : Bool
  role : Option Role
  span : Span
  text : String
deriving DecidableEq, Repr, Inhabited

/-- A syntax tree. -/
inductive Node where
  | mk (label : Label) (children : List Node)
deriving Repr, Inhabited

namespace Node

/-- All there is to the node, its children apart. -/
def label : Node → Label
  | mk l _ => l

/-- The children, in source order. -/
def children : Node → List Node
  | mk _ cs => cs

/-- The kind of the node. -/
abbrev kind (n : Node) : Kind := n.label.kind

/-- The source that the node covers. -/
abbrev text (n : Node) : String := n.label.text

/-- The place of the node in the source. -/
abbrev span (n : Node) : Span := n.label.span

/-- The part the node plays in its parent. -/
abbrev role (n : Node) : Option Role := n.label.role

mutual
/-- The number of nodes of a tree. -/
def size : Node → Nat
  | mk _ cs => sizes cs + 1
/-- The number of nodes of some trees. -/
def sizes : List Node → Nat
  | [] => 0
  | n :: ns => n.size + sizes ns
end

/-- The node is a comment. -/
def isComment (n : Node) : Bool := n.kind == .comment

/-- The node is named and no comment. -/
def isContent (n : Node) : Bool := n.label.named && !n.isComment

/-- The first child that plays the given part. -/
def child? (n : Node) (r : Role) : Option Node :=
  n.children.find? (·.role == some r)

/-- The named children that are no comments. -/
def content (n : Node) : List Node :=
  n.children.filter isContent

/-- The first named child that is no comment. -/
def firstContent? (n : Node) : Option Node :=
  n.children.find? isContent

mutual
/-- The expression inside parentheses, type assertions and the like: as long as the node is such a
wrapper, its first named child. A comment is a named child as well. -/
def unwrap : Node → Node
  | mk l cs => if l.kind.isTransparent then unwrapAmong (mk l cs) cs else mk l cs
/-- The first named node among some, unwrapped, or else the given one. -/
def unwrapAmong (fallback : Node) : List Node → Node
  | [] => fallback
  | n :: ns => if n.label.named then n.unwrap else unwrapAmong fallback ns
end

end Node

end RouteAtlas.Syntax
