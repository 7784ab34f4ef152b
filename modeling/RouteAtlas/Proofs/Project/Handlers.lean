import RouteAtlas.Project.Handlers

/-!
# What the search for a handler looks at

Of the file that has the route, the search for its handler looks at the imports, the functions and
the variables; of other files, at the functions they export. Nothing else can change what is found:
not the routes and mounts of any file, and not whether a file that exports nothing could be read.

## Key results

- `located_namedHandler?`, `located_memberHandler?`: what the two ways to look a function up depend
  on
- `facts?_congr`: what is found out about a route, for surveys that export the same functions
-/

namespace RouteAtlas

open Syntax

namespace Outline

/-- The function that a name stands for which an import binds in the given way. -/
def boundFunction? (o : Outline) : ImportBinding → Option Span
  | .named exported => o.exportedFunction? exported
  | .default => o.defaultFunction?
  | .wholeModule => none

/-- The function that an object has as a property whose name an import binds in the given way. -/
def boundMember? (o : Outline) (property : String) : ImportBinding → Option Span
  | .wholeModule => o.exportedFunction? property
  | .default => o.exportedMember? "default" property
  | .named exported => o.exportedMember? exported property

end Outline

namespace Survey

variable {s t : Survey} {o o' : Outline}

/-! ## Where a function is looked up -/

/-- A handler as its function is read: the source, if there is one, and the place in it. -/
def located (handler : Outline × Span) : Option SourceFile × Span := (handler.1.source?, handler.2)

/-- The function that is found by a look at the outline of the file at a path. -/
def foundAt? (s : Survey) (p : Path) (look? : Outline → Option Span) :
    Option (Option SourceFile × Span) :=
  (s.outline? p).bind fun target => (look? target).map (target.source?, ·)

/-- The function that is found by a look at the file that a name is imported from. -/
def foundByImport? (s : Survey) (o : Outline) (name : String)
    (look? : Outline → ImportBinding → Option Span) :
    Option (Option SourceFile × Span) :=
  (o.import? name).bind fun found => found.1.file?.bind fun p => s.foundAt? p (look? · found.2)

/-- A look at the file that `importedFrom?` gives is one of `foundByImport?`. -/
private theorem located_importedFrom? (s : Survey) (o : Outline) (name : String)
    (look? : Outline → ImportBinding → Option Span) :
    ((s.importedFrom? o name).bind fun found => (look? found.1 found.2).map (found.1, ·)).map
      located =
      s.foundByImport? o name look? := by
  -- Both follow the import to a path and the path to an outline; either step may fail.
  unfold importedFrom? foundByImport? foundAt?
  cases o.import? name with
  | none => rfl
  | some found =>
    obtain ⟨i, binding⟩ := found
    cases hfile : i.file? with
    | none => simp [hfile]
    | some p =>
      cases htarget : s.outline? p with
      | none => simp [hfile, htarget]
      | some target => simp [hfile, htarget, Function.comp_def, located]

/-- `namedHandler?` of a name that the file has no function for looks at what it is imported
from. -/
theorem namedHandler?_of_import {name : String} (hlocal : o.functions.find? name = none) :
    s.namedHandler? o name =
      (s.importedFrom? o name).bind fun found =>
        (found.1.boundFunction? found.2).map (found.1, ·) := by
  unfold namedHandler?
  rw [hlocal]
  cases s.importedFrom? o name with
  | none => rfl
  | some found =>
    obtain ⟨target, binding⟩ := found
    -- Each kind of binding has its own look, and a whole module is no function.
    cases binding with
    | named exported => exact Option.map_eq_bind.symm
    | default => exact Option.map_eq_bind.symm
    | wholeModule => rfl

/-- `memberHandler?` of an object that the file has no such member for looks at what it is imported
from. -/
theorem memberHandler?_of_import {object property : String}
    (hlocal : o.localMember? object property = none) :
    s.memberHandler? o object property =
      (s.importedFrom? o object).bind fun found =>
        (found.1.boundMember? property found.2).map (found.1, ·) := by
  unfold memberHandler?
  rw [hlocal]
  cases s.importedFrom? o object with
  | none => rfl
  | some found =>
    obtain ⟨target, binding⟩ := found
    cases binding with
    | wholeModule => exact Option.map_eq_bind.symm
    | default => exact Option.map_eq_bind.symm
    | named exported => exact Option.map_eq_bind.symm

/-- `namedHandler?` looks a function up by name in the file itself, and then where the name is
imported from. -/
theorem located_namedHandler? (s : Survey) (o : Outline) (name : String) :
    (s.namedHandler? o name).map located =
      ((o.functions.find? name).map (o.source?, ·)).or
        (s.foundByImport? o name Outline.boundFunction?) := by
  rw [← located_importedFrom?]
  cases hlocal : o.functions.find? name with
  | some span =>
    rw [namedHandler?, hlocal]
    rfl
  | none =>
    rw [namedHandler?_of_import hlocal]
    rfl

/-- `memberHandler?` looks a property up in an object of the file itself, and then where the object
is imported from. -/
theorem located_memberHandler? (s : Survey) (o : Outline) (object property : String) :
    (s.memberHandler? o object property).map located =
      ((o.localMember? object property).map (o.source?, ·)).or
        (s.foundByImport? o object (Outline.boundMember? · property)) := by
  rw [← located_importedFrom?]
  cases hlocal : o.localMember? object property with
  | some span =>
    rw [memberHandler?, hlocal]
    rfl
  | none =>
    rw [memberHandler?_of_import hlocal]
    rfl

/-! ## Alike for the search -/

/-- Files of two surveys export the same functions, read from the same sources. -/
structure ExportsAlike (s t : Survey) : Prop where
  function : ∀ p binding, t.foundAt? p (·.boundFunction? binding) =
    s.foundAt? p (·.boundFunction? binding)
  member : ∀ p property binding,
    t.foundAt? p (·.boundMember? property binding) = s.foundAt? p (·.boundMember? property binding)

/-- Two outlines are the same for the search that starts in them. -/
structure ScopeAlike (o o' : Outline) : Prop where
  source? : o'.source? = o.source?
  imports : o'.imports = o.imports
  functions : o'.functions = o.functions
  vars : o'.vars = o.vars

theorem ScopeAlike.refl (o : Outline) : ScopeAlike o o := ⟨rfl, rfl, rfl, rfl⟩

/-- `foundByImport?` does not tell two outlines apart that are alike in scope. -/
private theorem ScopeAlike.foundByImport? (h : ScopeAlike o o')
    {look? : Outline → ImportBinding → Option Span}
    (hlook : ∀ p binding, t.foundAt? p (look? · binding) = s.foundAt? p (look? · binding))
    (name : String) :
    t.foundByImport? o' name look? = s.foundByImport? o name look? := by
  unfold Survey.foundByImport? Outline.import?
  simp only [h.imports, hlook]

/-- `localMember?` does not tell two outlines apart that are alike in scope. -/
theorem ScopeAlike.localMember? (h : ScopeAlike o o') (object property : String) :
    o'.localMember? object property = o.localMember? object property := by
  -- A member may be named only, and then it is looked up among the functions.
  have hvalue : o'.functionOf? = o.functionOf? := by
    funext value
    cases value with
    | function span => rfl
    | named name => rw [Outline.functionOf?, Outline.functionOf?, h.functions]
  rw [Outline.localMember?, Outline.localMember?, h.vars, hvalue]

/-- `handlerOf?` finds the same function for every argument, if scopes and exports are alike. -/
private theorem located_handlerOf?_congr (hexports : ExportsAlike s t) (hscope : ScopeAlike o o')
    (argument : HandlerArg) :
    (t.handlerOf? o' argument).map located = (s.handlerOf? o argument).map located := by
  -- Each form of the argument is looked up in its own way.
  cases argument with
  | inline span =>
    simp only [handlerOf?, Option.map_some, located]
    rw [hscope.source?]
  | name text =>
    simp only [handlerOf?, located_namedHandler?]
    rw [hscope.functions, hscope.source?, hscope.foundByImport? hexports.function]
  | member object property =>
    simp only [handlerOf?, located_memberHandler?]
    rw [hscope.localMember?, hscope.source?,
      hscope.foundByImport? fun p => hexports.member p property]
  | other => rfl

/-! ## What is found out -/

/-- What the handler at a place reads. -/
def factsAt? (handler : Option SourceFile × Span) : Option Facts := do
  let source ← handler.1
  let function ← source.root.locate? handler.2
  return function.handlerFacts

/-- `facts?` reads the function that is found for the last argument that one is found for. -/
private theorem facts?_eq (s : Survey) (o : Outline) (route : Route) :
    s.facts? o route =
      (route.handlers.reverse.findSome? (Option.map located ∘ s.handlerOf? o)).bind factsAt? := by
  rw [← List.map_findSome?, Option.bind_map]
  rfl

/-- `facts?` of a route depends on what its own file has in scope, on what other files export, and
on the arguments of its registration. -/
theorem facts?_congr (hexports : ExportsAlike s t) (hscope : ScopeAlike o o') {route route' : Route}
    (hhandlers : route'.handlers = route.handlers) : t.facts? o' route' = s.facts? o route := by
  -- Only the place of a function is read, not the outline it was found by.
  have hlocated : Option.map located ∘ t.handlerOf? o' = Option.map located ∘ s.handlerOf? o :=
    funext fun argument => located_handlerOf?_congr hexports hscope argument
  rw [facts?_eq, facts?_eq, hhandlers, hlocated]

/-- `inferRoute` does not tell two surveys apart whose exports are alike. -/
theorem ExportsAlike.inferRoute (h : ExportsAlike s t) (o : Outline) :
    t.inferRoute o = s.inferRoute o := by
  funext route
  rw [Survey.inferRoute, Survey.inferRoute, facts?_congr h (.refl o) rfl]

/-- An outline with what the handlers of its routes read. -/
def withFacts (s : Survey) (o : Outline) : Outline :=
    { o with routes := o.routes.map (s.inferRoute o) }

theorem inferred_eq_map_withFacts (s : Survey) : s.inferred = s.outlines.map s.withFacts := rfl

/-- `withFacts` does not tell two surveys apart whose exports are alike. -/
theorem ExportsAlike.withFacts (h : ExportsAlike s t) (o : Outline) :
    t.withFacts o = s.withFacts o := by
  rw [Survey.withFacts, Survey.withFacts, h.inferRoute]

end Survey

end RouteAtlas
