/-!
# Source languages

The languages whose files are analysed, and the file name extensions that select them.
-/

namespace RouteAtlas

/-- The language of a source file. -/
inductive Language where
  | javaScript | typeScript | tsx
deriving DecidableEq, Repr, Inhabited

namespace Language

/-- The name of a language. -/
def name : Language → String
  | javaScript => "JavaScript"
  | typeScript => "TypeScript"
  | tsx => "Tsx"

/-- The extensions of source files, in the order in which an import tries them. -/
def extensions : List String :=
  ["js", "ts", "mjs", "cjs", "jsx", "tsx", "mts", "cts"]

/-- The language of files with the given extension. -/
def ofExtension? (extension : String) : Option Language :=
  if extension ∈ ["js", "mjs", "cjs", "jsx"] then some javaScript
  else if extension ∈ ["ts", "mts", "cts"] then some typeScript
  else if extension == "tsx" then some tsx
  else none

end Language

end RouteAtlas
