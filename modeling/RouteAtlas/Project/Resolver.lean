import RouteAtlas.Disk
import RouteAtlas.Language

/-!
# Modules to files

The file that a module specifier stands for. Relative specifiers start from the directory of the
file that imports them, and those with a slash at the front from the root of the project. Names of
packages stand for no file of the project.
-/

namespace RouteAtlas

namespace Resolver

/-- The specifier is relative to the file it is written in. -/
def isRelative (specifier : String) : Bool :=
  specifier == "." || specifier == ".." || specifier.startsWith "./" || specifier.startsWith "../"

/-- The path that a specifier names, before it is completed. -/
def base? (root : Path) (specifier : String) (importer : Path) : Option Path :=
  if isRelative specifier then importer.parent?.map (·.join specifier)
  else if specifier.startsWith "/" then some (root.join (String.ofList (specifier.toList.drop 1)))
  else none

/-- The extensions of sources that are compiled to files with the given extension. -/
def compiledFrom (extension : String) : List String :=
  match extension with
  | "js" => ["ts", "tsx"]
  | "mjs" => ["mts"]
  | "cjs" => ["cts"]
  | "jsx" => ["tsx"]
  | _ => []

/-- The files that a path may stand for, the most specific first: itself, with an extension, the
source it is compiled from, and the index file of a directory. -/
def candidates (base : Path) : List Path :=
  base :: Language.extensions.map (fun e => ⟨base.text ++ "." ++ e⟩) ++
    ((base.extension?.map compiledFrom).getD []).map base.withExtension ++
    Language.extensions.map fun e => base.join ("index." ++ e)

/-- The canonical path of the file that a specifier stands for in a file of the project. -/
def resolve (disk : Disk) (root : Path) (specifier : String) (importer : Path) : Option Path := do
  let base ← base? root specifier importer
  let file ← (candidates base).find? disk.isFile
  disk.canonical? file

end Resolver

end RouteAtlas
