import RouteAtlas.Field
import RouteAtlas.Syntax.Cursor

/-!
# Use as a number

Whether the place where a value stands makes a number of it, and which type a default value
suggests.
-/

namespace RouteAtlas

open Syntax

namespace Syntax.Node

/-- Functions that make a number of their first argument. -/
def numericFunctions : List String := ["parseInt", "parseFloat", "Number"]

/-- The node is a function that makes a number of its first argument. -/
def isNumericFunction (n : Node) : Bool :=
  match n.kind with
  | .identifier => n.text ∈ numericFunctions
  | .memberExpression =>
    (n.child? .object).any (·.text == "Number") &&
      (n.child? .property).any (fun p => p.text == "parseInt" || p.text == "parseFloat")
  | _ => false

/-- Operators that take numbers only. -/
def arithmeticOperators : List String := ["-", "*", "/", "%", "**"]

/-- The type that a default value suggests. -/
def literalType (n : Node) : FieldType :=
  let inner := n.unwrap
  match inner.kind with
  | .number => .number
  | .trueLiteral | .falseLiteral => .boolean
  | .array => .array
  | .object => .object
  | .unaryExpression =>
    if (inner.child? .argument).any (·.kind == .number) then .number else .string
  | _ => .string

end Syntax.Node

namespace Syntax.Cursor

/-- The operand on the other side of a binary expression. -/
def otherOperand? (operand parent : Cursor) : Option Node :=
  if operand.plays .left then parent.node.child? .right else parent.node.child? .left

/-- The value at the cursor is used as a number: it is the first argument of a function that makes a
number of it, the operand of a sign, or an operand in arithmetic; in a sum the other operand has to
be a number literal, since sums of strings are strings. -/
def isUsedAsNumber (c : Cursor) : Bool :=
  let outer := c.wrapped
  match outer.parent? with
  | none => false
  | some parent =>
    match parent.kind with
    | .arguments =>
      outer.isFirstContent &&
        match parent.parent? with
        | none => false
        | some call => (call.node.child? .function).any (·.unwrap.isNumericFunction)
    | .unaryExpression =>
      (parent.node.child? .operator).any (fun o => o.text == "+" || o.text == "-")
    | .binaryExpression =>
      match parent.node.child? .operator with
      | none => false
      | some o =>
        o.text ∈ Node.arithmeticOperators ||
          (o.text == "+" && (otherOperand? outer parent).any (·.unwrap.kind == .number))
    | _ => false

end Syntax.Cursor

end RouteAtlas
