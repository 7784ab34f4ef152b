/-!
# Paths

Paths of files, with the rules of Unix: slashes separate components, a slash at the front makes a
path absolute, repeated slashes and single points count for nothing, except that a single point at
the front of a relative path is kept. A path keeps the text it was given; two paths with the same
components name the same place.
-/

namespace RouteAtlas

/-- One step of a path. -/
inductive Component where
  | root
  | current
  | parent
  | name (text : String)
deriving DecidableEq, Repr, Inhabited

/-- The text of a component. -/
def Component.text : Component → String
  | root => "/"
  | current => "."
  | parent => ".."
  | name t => t

/-- The path of a file or directory. -/
structure Path where
  text : String
deriving DecidableEq, Repr, Inhabited

namespace Path

/-- The parts of a text between slashes. -/
def splitSlashes : List Char → List (List Char)
  | [] => [[]]
  | c :: cs =>
    if c = '/' then [] :: splitSlashes cs
    else
      match splitSlashes cs with
      | [] => [[c]]
      | part :: parts => (c :: part) :: parts

/-- The parts of the path between slashes. -/
def segments (p : Path) : List String :=
  (splitSlashes p.text.toList).map String.ofList

/-- The path made of parts with slashes between them. -/
def ofSegments (parts : List String) : Path := ⟨"/".intercalate parts⟩

/-- The path starts at the root. -/
def isAbsolute (p : Path) : Bool := p.text.startsWith "/"

/-- A part that counts for nothing. -/
def isVoid (part : String) : Bool := part == "" || part == "."

/-- The component that a part stands for, if it counts. -/
def component? (part : String) : Option Component :=
  if isVoid part then none
  else if part == ".." then some .parent
  else some (.name part)

/-- The components of the path. -/
def components (p : Path) : List Component :=
  let front : List Component :=
    if p.isAbsolute then [.root] else if p.segments.head? == some "." then [.current] else []
  front ++ p.segments.filterMap component?

/-- The path with the given components. -/
def ofComponents : List Component → Path
  | .root :: rest => ⟨"/" ++ "/".intercalate (rest.map Component.text)⟩
  | parts => ⟨"/".intercalate (parts.map Component.text)⟩

/-- The two paths name the same place. -/
def same (p q : Path) : Bool := p.components == q.components

/-- The path, followed by another one from there; an absolute one replaces it. -/
def join (p : Path) (q : String) : Path :=
  if q.startsWith "/" then ⟨q⟩
  else if p.text == "" || p.text.endsWith "/" then ⟨p.text ++ q⟩
  else ⟨p.text ++ "/" ++ q⟩

/-- Parts in reverse order without those at the end that count for nothing. The first part is
kept. -/
def trimEnd : List String → List String
  | s :: t :: rest => if isVoid s then trimEnd (t :: rest) else s :: t :: rest
  | parts => parts

/-- The parts in reverse order, from the last that counts on. -/
def backwards (p : Path) : List String := trimEnd p.segments.reverse

/-- The directory that the path is in. -/
def parent? (p : Path) : Option Path :=
  match p.backwards with
  | [] => none
  | [s] => if s == "" then none else some ⟨""⟩
  | _ :: rest =>
    match trimEnd rest with
    | [s] => some ⟨if s == "" && p.isAbsolute then "/" else s⟩
    | parts => some (ofSegments parts.reverse)

/-- The last component, if it is a name. -/
def fileName? (p : Path) : Option String :=
  match p.components.getLast? with
  | some (.name t) => some t
  | _ => none

/-- A name cut at its last point: what is before and what is after it. A point at the front does not
count. -/
def splitName (name : String) : String × Option String :=
  let back := name.toList.reverse
  let after := back.takeWhile (· != '.')
  match back.drop after.length with
  | '.' :: c :: cs => (String.ofList (c :: cs).reverse, some (String.ofList after.reverse))
  | _ => (name, none)

/-- What comes after the last point of the last component. -/
def extension? (p : Path) : Option String :=
  p.fileName?.bind (fun n => (splitName n).2)

/-- The path with another extension. -/
def withExtension (p : Path) (extension : String) : Path :=
  match p.fileName?, p.backwards with
  | some n, _ :: rest => ofSegments (((splitName n).1 ++ "." ++ extension) :: rest).reverse
  | _, _ => p

/-- The components of the path after those of a directory that it is in. -/
def within? (p directory : Path) : Option (List Component) :=
  if directory.components.isPrefixOf p.components then
    some (p.components.drop directory.components.length)
  else none

/-- Some component of the path has the given name. -/
def hasComponent (p : Path) (name : String) : Bool :=
  p.components.any (·.text == name)

end Path

end RouteAtlas
