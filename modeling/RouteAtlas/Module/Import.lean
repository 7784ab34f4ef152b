/-!
# Imports

What one import statement, or one call of `require`, brings into a file.
-/

namespace RouteAtlas

/-- A name brought in by an import: what it is called here and in the module it comes from. -/
structure ImportedName where
  name : String
  exported : String
deriving DecidableEq, Repr, Inhabited

/-- An import. -/
structure Import where
  /-- The module as it is written. -/
  specifier : String
  names : List ImportedName := []
  default? : Option String := none
  whole? : Option String := none
deriving DecidableEq, Repr, Inhabited

/-- How an import binds a name. -/
inductive ImportBinding where
  /-- To what the module exports under the given name. -/
  | named (exported : String)
  | default
  | wholeModule
deriving DecidableEq, Repr, Inhabited

/-- How the import binds a name, if it does. -/
def Import.binding? (i : Import) (name : String) : Option ImportBinding :=
  if i.default? = some name then some .default
  else if i.whole? = some name then some .wholeModule
  else (i.names.find? (·.name == name)).map (.named ·.exported)

end RouteAtlas
