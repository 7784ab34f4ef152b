/-!
# Byte offsets

Positions in a source are counted in bytes of its UTF-8 form. These functions cut a text at such
positions; an offset inside a character counts that character as passed.
-/

namespace RouteAtlas.Text

/-- The text after the given number of bytes. -/
def dropBytes : Nat → List Char → List Char
  | 0, cs => cs
  | _, [] => []
  | n + 1, c :: cs => dropBytes (n + 1 - c.utf8Size) cs

/-- The text before the given number of bytes. -/
def takeBytes : Nat → List Char → List Char
  | 0, _ => []
  | _, [] => []
  | n + 1, c :: cs => c :: takeBytes (n + 1 - c.utf8Size) cs

/-- The text between two byte offsets. -/
def sliceBytes (cs : List Char) (start stop : Nat) : List Char :=
  takeBytes (stop - start) (dropBytes start cs)

end RouteAtlas.Text
