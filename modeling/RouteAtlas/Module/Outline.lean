import RouteAtlas.Dictionary
import RouteAtlas.Module.Import
import RouteAtlas.Module.Registration
import RouteAtlas.SourceFile

/-!
# Outlines of files

The outline of a file is what the rest of the analysis needs to know of it: what it imports and
exports, its functions and variables, and the routes and mounts that it registers.
-/

namespace RouteAtlas

open Syntax

/-- What an exported name or a property of an object refers to. -/
inductive Value where
  | function (span : Span)
  /-- Whatever function the file has under the name. -/
  | named (name : String)
deriving DecidableEq, Repr, Inhabited

/-- What a variable was declared with. -/
inductive Variable where
  | function (span : Span)
  /-- A module, by a call of `require`. -/
  | required (specifier : String)
  /-- An object literal, by property. -/
  | object (members : Dictionary Value)
  | other
deriving DecidableEq, Repr, Inhabited

/-- An import, and the file it was found to stand for. -/
structure ResolvedImport extends Import where
  file? : Option Path
deriving DecidableEq, Repr, Inhabited

/-- A router mounted below a prefix. -/
structure Mount where
  front : String
  /-- The name of the router in the file that mounts it. -/
  router : String
  /-- The file that the router comes from. -/
  file? : Option Path
deriving DecidableEq, Repr, Inhabited

/-- What is known of one file. -/
structure Outline where
  path : Path
  /-- The parsed source; there is none if the file could not be read or parsed. -/
  source? : Option SourceFile := none
  imports : List ResolvedImport := []
  exportedNames : List String := []
  exports : Dictionary Value := {}
  default? : Option Value := none
  functions : Dictionary Span := {}
  vars : Dictionary Variable := {}
  routes : List Route := []
  mounts : List Mount := []

namespace Outline

/-- The files that the file imports, in import order. -/
def importedFiles (o : Outline) : List Path := o.imports.filterMap (·.file?)

/-- The first of some imports that binds a name, and how it does. -/
def bindingIn? (imports : List ResolvedImport) (name : String) :
    Option (ResolvedImport × ImportBinding) :=
  imports.findSome? fun i => (i.binding? name).map (i, ·)

/-- The import that binds a name, and how it does. -/
def import? (o : Outline) (name : String) : Option (ResolvedImport × ImportBinding) :=
  bindingIn? o.imports name

/-- The function that a value refers to. -/
def functionOf? (o : Outline) : Value → Option Span
  | .function span => some span
  | .named name => o.functions.find? name

/-- The function that is the default export. -/
def defaultFunction? (o : Outline) : Option Span := o.default?.bind o.functionOf?

/-- The function exported under a name; `default` is the default export. -/
def exportedFunction? (o : Outline) (name : String) : Option Span :=
  if name = "default" then o.defaultFunction? else (o.exports.find? name).bind o.functionOf?

/-- The function that a local object literal has as a property. -/
def localMember? (o : Outline) (object property : String) : Option Span :=
  match o.vars.find? object with
  | some (.object members) => (members.find? property).bind o.functionOf?
  | _ => none

/-- The function that an exported object has as a property. A file that exports an object literal as
its default has no default value, but the members as exports. -/
def exportedMember? (o : Outline) (exported property : String) : Option Span :=
  match if exported = "default" then o.default? else o.exports.find? exported with
  | some (.named name) => o.localMember? name property
  | some (.function _) => none
  | none => if exported = "default" then o.exportedFunction? property else none

end Outline

end RouteAtlas
