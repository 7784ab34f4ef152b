import RouteAtlas.Project.Survey
import RouteAtlas.Request.Inference
import RouteAtlas.Syntax.Locate

/-!
# The handlers of routes

A route names its handler among the arguments of its registration: in place, by a name, or as a
member of an object. Names and objects may come from other files. What the handler reads of its
request is merged into the route's endpoint.
-/

namespace RouteAtlas

open Syntax

namespace Survey

/-- The file that a name is imported from, and how the import binds the name. -/
def importedFrom? (s : Survey) (file : Outline) (name : String) :
    Option (Outline × ImportBinding) := do
  let (i, binding) ← file.import? name
  let target ← s.outline? (← i.file?)
  return (target, binding)

/-- The function with a name: one of the file itself, or one that it imports. -/
def namedHandler? (s : Survey) (file : Outline) (name : String) : Option (Outline × Span) :=
  match file.functions.find? name with
  | some span => some (file, span)
  | none => do
    let (target, binding) ← s.importedFrom? file name
    let span ←
      match binding with
      | .named exported => target.exportedFunction? exported
      | .default => target.defaultFunction?
      | .wholeModule => none
    return (target, span)

/-- The function that an object has as a property: an object of the file itself, or an imported
one. -/
def memberHandler? (s : Survey) (file : Outline) (object property : String) :
    Option (Outline × Span) :=
  match file.localMember? object property with
  | some span => some (file, span)
  | none => do
    let (target, binding) ← s.importedFrom? file object
    let span ←
      match binding with
      | .wholeModule => target.exportedFunction? property
      | .default => target.exportedMember? "default" property
      | .named exported => target.exportedMember? exported property
    return (target, span)

/-- The function that an argument of a registration stands for. -/
def handlerOf? (s : Survey) (file : Outline) : HandlerArg → Option (Outline × Span)
  | .inline span => some (file, span)
  | .name text => s.namedHandler? file text
  | .member object property => s.memberHandler? file object property
  | .other => none

/-- The handler of a route: the last argument that stands for a function. -/
def handler? (s : Survey) (file : Outline) (route : Route) : Option (Outline × Span) :=
  route.handlers.reverse.findSome? (s.handlerOf? file)

/-- What the handler of a route reads. -/
def facts? (s : Survey) (file : Outline) (route : Route) : Option Facts := do
  let (target, span) ← s.handler? file route
  let source ← target.source?
  let function ← source.root.locate? span
  return function.handlerFacts

/-- The route with what its handler reads. -/
def inferRoute (s : Survey) (file : Outline) (route : Route) : Route :=
  match s.facts? file route with
  | some facts => { route with endpoint := facts.applyTo route.endpoint }
  | none => route

/-- The outlines of the survey, each route with what its handler reads. -/
def inferred (s : Survey) : List Outline :=
  s.outlines.map fun o => { o with routes := o.routes.map (s.inferRoute o) }

end Survey

end RouteAtlas
