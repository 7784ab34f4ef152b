import RouteAtlas.Grammar.Program
import RouteAtlas.Path
import RouteAtlas.Syntax.Cursor
import RouteAtlas.Text.Quoted

/-!
# Source files

The text of a source file together with its syntax tree. Only complete trees are kept: a text that
is not a program of the language its path selects is refused.
-/

namespace RouteAtlas

/-- The language that the extension of a path selects. -/
def Language.ofPath? (path : Path) : Option Language :=
  path.extension?.bind ofExtension?

/-- The path is that of a source file. -/
def Path.isSource (path : Path) : Bool := (Language.ofPath? path).isSome

/-- Why a text could not be parsed. -/
inductive ParseFault where
  | unsupported
  | malformed
deriving DecidableEq, Repr

/-- What is said about a text that could not be parsed. -/
def ParseFault.message : ParseFault → String
  | unsupported => "unsupported file extension"
  | malformed => "syntax error"

/-- A source file that has been parsed. -/
structure SourceFile where
  path : Path
  language : Language
  text : String
  tree : Syntax.Node

namespace SourceFile

/-- The text as a source file at the path. -/
def parse (path : Path) (text : String) : Except ParseFault SourceFile :=
  match Language.ofPath? path with
  | none => .error .unsupported
  | some language =>
    match Grammar.parse language text with
    | none => .error .malformed
    | some tree => .ok ⟨path, language, text, tree⟩

/-- A short description of the file. -/
def describe (f : SourceFile) : String :=
  "ParsedFile \x7b path: " ++ Text.quoted f.path.text ++ ", language: " ++ f.language.name ++
    ", bytes: " ++ toString f.text.utf8ByteSize ++ " \x7d"

/-- The cursor at the root of the tree. -/
def root (f : SourceFile) : Syntax.Cursor := .ofRoot f.tree

end SourceFile

end RouteAtlas
