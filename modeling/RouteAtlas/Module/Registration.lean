import RouteAtlas.Endpoint
import RouteAtlas.Syntax.Literal

/-!
# Routes and mounts

A route is registered by a call such as `app.get('/users', list)`, and a router is mounted below a
prefix by a call such as `app.use('/api', users)`. Which object the method is called on does not
matter.
-/

namespace RouteAtlas

open Syntax

/-- What stands in a registration in the place of a handler. -/
inductive HandlerArg where
  /-- A function, or one that is handed to a wrapper such as `asyncHandler`. -/
  | inline (span : Span)
  | name (text : String)
  /-- A member of a named object, such as `controller.create`. -/
  | member (object property : String)
  | other
deriving DecidableEq, Repr, Inhabited

/-- A route as a file registers it. -/
structure Route where
  endpoint : Endpoint
  /-- What follows the URL, in source order. -/
  handlers : List HandlerArg
  /-- The place of the call. -/
  span : Span
deriving DecidableEq, Repr, Inhabited

/-- Where in its file the route is. -/
def Route.place (r : Route) : String := "line " ++ toString r.span.line

namespace Syntax.Node

/-- The method and the arguments of a call such as `receiver.method(...)`. -/
def methodCall? (call : Node) : Option (String × List Node) := do
  let callee := (← call.child? .function).unwrap
  guard (callee.kind == .memberExpression)
  let property ← callee.child? .property
  guard (property.kind == .propertyIdentifier)
  let args ← call.child? .arguments
  return (property.text, args.content)

/-- The function that a call hands to a wrapper as its last argument. The wrapper is a plain name,
so `items.map(f)` is none. -/
def wrappedFunction? (call : Node) : Option Node := do
  guard (call.kind == .callExpression)
  let callee ← call.child? .function
  guard (callee.kind == .identifier)
  let args ← call.child? .arguments
  let last ← args.content.getLast?
  guard last.unwrap.kind.isFunction
  return last.unwrap

/-- The member of a named object that the node reads. -/
def namedMember? (n : Node) : Option (String × String) := do
  let object := (← n.child? .object).unwrap
  let property ← n.child? .property
  guard (object.kind == .identifier && property.kind == .propertyIdentifier)
  return (object.text, property.text)

/-- What the node is as a handler. -/
def handlerArg (n : Node) : HandlerArg :=
  let inner := n.unwrap
  if inner.kind.isFunction then .inline inner.span
  else
    match inner.kind with
    | .identifier => .name inner.text
    | .memberExpression =>
      match inner.namedMember? with
      | some (object, property) => .member object property
      | none => .other
    | .callExpression =>
      match inner.wrappedFunction? with
      | some f => .inline f.span
      | none => .other
    | _ => .other

/-- The route that a call registers. Its URL is a string or a template and not empty. -/
def route? (call : Node) : Option Route := do
  let (property, args) ← call.methodCall?
  let method ← Method.ofRouter? property
  match args with
  | first :: handler :: more =>
    let url ← first.literalValue?
    guard (url != "")
    return ⟨.declare method url, (handler :: more).map handlerArg, call.span⟩
  | _ => none

/-- The prefix of a mount and the name of the router that is mounted. -/
def mount? (call : Node) : Option (String × String) := do
  let (property, args) ← call.methodCall?
  guard (property == "use")
  match args with
  | first :: router :: _ =>
    let front ← first.stringValue?
    guard (router.unwrap.kind == .identifier)
    return (front, router.unwrap.text)
  | _ => none

end Syntax.Node

end RouteAtlas
