/-!
# Styled text

Text in pieces, each with a style. On a terminal with colours a style is switched on before its
piece and everything is switched off after it; elsewhere only the text is shown.
-/

namespace RouteAtlas

/-- A colour of a terminal. -/
inductive Colour where
  | red
  | green
  | yellow
  | blue
  | magenta
  | cyan
deriving DecidableEq, Repr

/-- The code that switches a colour on. -/
def Colour.code : Colour → String
  | red => "31"
  | green => "32"
  | yellow => "33"
  | blue => "34"
  | magenta => "35"
  | cyan => "36"

/-- How a piece of text looks. -/
structure Style where
  bold : Bool := false
  dim : Bool := false
  colour? : Option Colour := none
deriving DecidableEq, Repr, Inhabited

namespace Style

/-- The codes that switch the style on. -/
def codes (s : Style) : List String :=
  (if s.bold then ["1"] else []) ++ (if s.dim then ["2"] else []) ++
    (s.colour?.map Colour.code).toList

/-- What switches all styles off. -/
def off : String := "\x1b[0m"

/-- What switches the style on. -/
def on (s : Style) : String := "\x1b[" ++ ";".intercalate s.codes ++ "m"

end Style

/-- A piece of text with a style. -/
structure Piece where
  text : String
  style : Style := {}
deriving DecidableEq, Repr, Inhabited

namespace Piece

/-- Text as it is. -/
def plain (text : String) : Piece := { text }

/-- Text that stands back. -/
def dim (text : String) : Piece := { text, style := { dim := true } }

/-- Text in bold type. -/
def bold (text : String) : Piece := { text, style := { bold := true } }

/-- Text in a colour. -/
def coloured (colour : Colour) (text : String) : Piece :=
    { text, style := { colour? := some colour } }

/-- Bold text in a colour. -/
def boldIn (colour : Colour) (text : String) : Piece :=
  { text, style := { bold := true, colour? := some colour } }

/-- The piece as it is written, with or without colours. A piece that switches styles off itself has
its own style switched on again after that. -/
def render (colours : Bool) (p : Piece) : String :=
  if colours && !p.style.codes.isEmpty then
    p.style.on ++ p.text.replace Style.off (Style.off ++ p.style.on) ++ Style.off
  else p.text

end Piece

/-- The lines of a text, each of several pieces. -/
abbrev Page := List (List Piece)

/-- The page as it is written, with or without colours. Every line is ended. -/
def Page.render (colours : Bool) (page : Page) : String :=
  String.join (page.map fun line => String.join (line.map (Piece.render colours)) ++ "\n")

end RouteAtlas
