/-!
# URL patterns

A URL pattern is a text in which `:name` marks a parameter. Two things are done with patterns: a
router's pattern is joined to the prefix it is mounted under, and the parameter names are read off.

Both are defined on lists of characters; the versions on `String` only convert.
-/

namespace RouteAtlas.Url

/-! ## Joining -/

/-- The text without the slashes it ends in. -/
def dropTrailingSlashes (cs : List Char) : List Char :=
  (cs.reverse.dropWhile (· == '/')).reverse

/-- The text with a slash in front, unless it has one. -/
def withLeadingSlash : List Char → List Char
  | '/' :: rest => '/' :: rest
  | cs => '/' :: cs

/-- A path mounted under a prefix. A prefix of slashes alone leaves the path as it is; otherwise
prefix and path are separated by at least one slash, and the path `/` adds nothing. -/
def joinChars (mount path : List Char) : List Char :=
  match dropTrailingSlashes mount with
  | [] => path
  | base =>
    if path = ['/'] ∨ path = [] then withLeadingSlash base
    else withLeadingSlash base ++ withLeadingSlash path

/-- A path mounted under a prefix. -/
def join (mount path : String) : String :=
  String.ofList (joinChars mount.toList path.toList)

/-! ## Parameters -/

/-- The characters a parameter name can start with. -/
def isNameStart (c : Char) : Bool :=
  c.isAlpha || c == '_' || c == '$'

/-- The characters a parameter name can hold. -/
def isNamePart (c : Char) : Bool :=
  isNameStart c || c.isDigit

/-- The parameter name that stands at the front of the text, if one does. -/
def nameAtFront : List Char → Option (List Char)
  | [] => none
  | c :: rest => if isNameStart c then some (c :: rest.takeWhile isNamePart) else none

/-- The names that follow a colon, in order and with repetitions. A name holds no colon, so a name
is never looked for inside another one. -/
def namesAfterColons : List Char → List (List Char)
  | [] => []
  | c :: rest =>
    if c = ':' then (nameAtFront rest).toList ++ namesAfterColons rest
    else namesAfterColons rest

/-- The parameter names of a pattern, each once, in order of first occurrence. -/
def params (url : String) : List String :=
  ((namesAfterColons url.toList).map String.ofList).eraseDups

end RouteAtlas.Url
