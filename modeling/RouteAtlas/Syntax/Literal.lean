import RouteAtlas.Syntax.Node
import RouteAtlas.Text.Bytes

/-!
# Literals and destructuring patterns

What a string or template literal says, and the names that an object pattern binds. Escape sequences
are left as they are written.
-/

namespace RouteAtlas.Syntax

/-- What stands for a substitution in the text of a template. -/
def placeholder : String := "$\x7b...\x7d"

namespace Node

/-- The text between the quotes of a string literal. -/
def stringValue? (n : Node) : Option String :=
  if n.kind == .string then
    match n.text.toList with
    | _ :: c :: cs => some (String.ofList (c :: cs).dropLast)
    | _ => none
  else none

/-- The parts of a template around its substitutions, which are given by their spans. `start` is
where the next part starts and `stop` where the last one ends, both counted in bytes of the
template. -/
def templateParts (cs : List Char) (base stop : Nat) : Nat → List Span → List (List Char)
  | start, [] => [Text.sliceBytes cs start stop]
  | start, s :: ss =>
    Text.sliceBytes cs start (s.start - base) :: templateParts cs base stop (s.stop - base) ss

/-- The literal parts of a template: one more than it has substitutions. -/
def fragments (n : Node) : List String :=
  let holes := n.children.filter (·.kind == .templateSubstitution)
  let length := n.span.stop - n.span.start
  (templateParts n.text.toList n.span.start (length - 1) 1 (holes.map (·.span))).map String.ofList

/-- The text of a template literal, with a placeholder for each substitution. -/
def templateValue? (n : Node) : Option String :=
  if n.kind == .templateString && n.span.start + 2 ≤ n.span.stop then
    some (placeholder.intercalate n.fragments)
  else none

/-- The text of a string or template literal. -/
def literalValue? (n : Node) : Option String :=
  n.stringValue?.or n.templateValue?

/-- One name that an object pattern binds. -/
structure Binding where
  /-- The property that is read. -/
  key : String
  /-- The name it is bound to. -/
  name : String
  /-- The value bound when there is no such property. -/
  default? : Option Node

/-- The property named by a key in a pattern. -/
def propertyKey? (n : Node) : Option String :=
  match n.kind with
  | .string => n.stringValue?
  | .propertyIdentifier => some n.text
  | _ => none

/-- The name and default that a pattern's value binds. -/
def target? (n : Node) : Option (String × Option Node) :=
  match n.kind with
  | .identifier => some (n.text, none)
  | .assignmentPattern => do
    let left ← n.child? .left
    guard (left.kind == .identifier)
    return (left.text, n.child? .right)
  | _ => none

/-- What one member of an object pattern binds. Nested patterns and rest elements bind nothing
here. -/
def binding? (n : Node) : Option Binding :=
  match n.kind with
  | .shorthandPropertyIdentifierPattern => some ⟨n.text, n.text, none⟩
  | .objectAssignmentPattern => do
    let left ← n.child? .left
    guard (left.kind == .shorthandPropertyIdentifierPattern)
    return ⟨left.text, left.text, n.child? .right⟩
  | .pairPattern => do
    let key ← n.child? .key
    let value ← n.child? .value
    let property ← key.propertyKey?
    let (name, fallback) ← value.target?
    return ⟨property, name, fallback⟩
  | _ => none

/-- The names that an object pattern binds, in source order. -/
def bindings (n : Node) : List Binding :=
  n.content.filterMap binding?

end Node

end RouteAtlas.Syntax
