import RouteAtlas.Text.Blank

/-!
# Signatures of applications

A text that belongs to a web application is told by a few signatures, such as `require('express')`
or `.listen(`. A signature is a sequence of pieces, each of which takes one character or any number
of them; a text carries it if some part of the text is taken by the pieces, one after the other. The
text is read once, character by character, and what is still to come of every signature that may
have begun is kept.
-/

namespace RouteAtlas

/-- A piece of a signature. -/
inductive SignaturePiece where
  /-- The given character. -/
  | char (c : Char)
  /-- A white space character. -/
  | blank
  /-- Any amount of white space. -/
  | blanks
  /-- A single or double quote. -/
  | quote
  /-- Any characters but semicolons. -/
  | clause
deriving DecidableEq, Repr, Inhabited

namespace SignaturePiece

/-- The piece takes any number of characters, and not just one. -/
def isRepeated : SignaturePiece → Bool
  | blanks | clause => true
  | char _ | blank | quote => false

/-- The piece takes the character. -/
def takes : SignaturePiece → Char → Bool
  | char a, c => c == a
  | blank, c | blanks, c => Text.isBlank c
  | quote, c => c == '\x22' || c == '\x27'
  | clause, c => c != ';'

end SignaturePiece

/-- Pieces, one after the other. -/
abbrev Signature := List SignaturePiece

namespace Signature

/-- Nothing more has to come: all pieces that are left can take nothing. -/
def isOver (s : Signature) : Bool := s.all SignaturePiece.isRepeated

/-- What can be still to come after a character. -/
def after (c : Char) : Signature → List Signature
  | [] => []
  | p :: ps =>
    if p.isRepeated then (if p.takes c then [p :: ps] else []) ++ after c ps
    else if p.takes c then [ps]
    else []

/-- The signature, or one of those that are still to come, is found in a text. -/
def occursFrom (s : Signature) : List Signature → List Char → Bool
  | pending, [] => (s :: pending).any isOver
  | pending, c :: cs =>
    (s :: pending).any isOver || occursFrom s ((s :: pending).flatMap (after c)).eraseDups cs

/-- Some part of the text is the signature. -/
def occursIn (s : Signature) (text : List Char) : Bool := s.occursFrom [] text

open SignaturePiece

/-- The given characters. -/
def exactly (text : String) : Signature := text.toList.map char

/-- A call of the given function or method. -/
def callOf (name : String) : Signature := exactly name ++ [blanks] ++ exactly "("

/-- The name of the framework in quotes. -/
def quotedName : Signature := [quote] ++ exactly "express" ++ [quote]

/-- The framework is required. -/
def requirement : Signature := callOf "require" ++ [blanks] ++ quotedName ++ [blanks] ++ exactly ")"

/-- The framework is imported. -/
def importation : Signature :=
  exactly "import" ++ [blank, blanks, clause, blank, blanks] ++ exactly "from" ++ [blank, blanks] ++
    quotedName

/-- What marks a text as part of an application. -/
def all : List Signature :=
  [requirement, importation, callOf "express" ++ [blanks] ++ exactly ")",
    callOf ".get", callOf ".post", callOf ".put", callOf ".patch", callOf ".delete", callOf ".use",
    callOf ".listen", callOf "Router"]

end Signature

/-- The text carries the signature of an application. -/
def isApplicationText (text : String) : Bool :=
  Signature.all.any (·.occursIn text.toList)

end RouteAtlas
