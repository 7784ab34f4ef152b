/-!
# Glob patterns

Patterns for paths. `?` matches one byte and `*` any number of them, slashes included; `**` as a
whole component matches any number of components; `[a-z]` matches one byte of a class and `[!a-z]`
or `[^a-z]` one outside it; `{a,b}` matches any of several patterns, which may nest; a backslash
takes the next character as it is. Paths are matched byte by byte, so a character outside ASCII
counts as several.
-/

namespace RouteAtlas

/-- A part of a glob pattern. -/
inductive GlobPart where
  | char (c : Char)
  /-- One byte. -/
  | any
  /-- Any number of bytes. -/
  | star
  /-- Any number of components at the start of a path. -/
  | anyFront
  /-- At least one component at the end of a path. -/
  | anyBack
  /-- Any number of components between two slashes. -/
  | anyBetween
  /-- One byte of some ranges, or outside them. -/
  | class (negated : Bool) (ranges : List (Char × Char))
  /-- Any of several patterns. -/
  | oneOf (choices : List (List GlobPart))
deriving Inhabited

/-- Why a text is no glob pattern. -/
inductive GlobFault where
  | unclosedClass
  | invalidRange (first last : Char)
  | unopenedGroup
  | unclosedGroup
  | danglingEscape
deriving DecidableEq, Repr

/-- What is said about a text that is no glob pattern. -/
def GlobFault.message : GlobFault → String
  | unclosedClass => "unclosed character class; missing ']'"
  | invalidRange first last =>
    "invalid range; '" ++ first.toString ++ "' > '" ++ last.toString ++ "'"
  | unopenedGroup => "unopened alternate group; missing '\x7b' (maybe escape '\x7d' with '[\x7d]'?)"
  | unclosedGroup => "unclosed alternate group; missing '\x7d' (maybe escape '\x7b' with '[\x7b]'?)"
  | danglingEscape => "dangling '\\'"

/-- A glob pattern. -/
abbrev Glob := List GlobPart

namespace Glob

/-! ## Reading -/

/-- What has been read of the ranges of a class: the ranges, the last one first, whether any
character has been read, and whether a dash calls for the end of the last range. -/
structure ClassState where
  ranges : List (Char × Char) := []
  started : Bool := false
  open' : Bool := false

/-- Adds a character to a class. -/
def ClassState.add (s : ClassState) (c : Char) : Except GlobFault ClassState :=
  match s.open', s.ranges with
  | true, (first, _) :: rest =>
    if c < first then .error (.invalidRange first c) else .ok ⟨(first, c) :: rest, true, false⟩
  | _, ranges => .ok ⟨(c, c) :: ranges, true, false⟩

/-- The ranges of a class up to its closing bracket, and what comes after. -/
def readClass : ClassState → List Char → Except GlobFault (List (Char × Char) × List Char)
  | _, [] => .error .unclosedClass
  | s, c :: rest =>
    if c = ']' ∧ s.started then
      .ok ((if s.open' then ('-', '-') :: s.ranges else s.ranges).reverse, rest)
    else if c = '-' ∧ s.started ∧ ¬s.open' then readClass { s with open' := true } rest
    else
      match s.add c with
      | .error e => .error e
      | .ok s => readClass s rest

/-- What has been read of a pattern: the branches of the groups that are open, the innermost first,
each with the branches before it, and the branch that is being read. Parts are kept with the last
one first. -/
structure ReadState where
  outer : List (List GlobPart × List (List GlobPart)) := []
  branch : List GlobPart := []
  before : Option Char := none

namespace ReadState

/-- Adds a part to the branch that is being read. -/
def push (s : ReadState) (p : GlobPart) (before : Char) : ReadState :=
  { s with branch := p :: s.branch, before := some before }

/-- A group is open. -/
def inGroup (s : ReadState) : Bool := !s.outer.isEmpty

/-- Opens a group. -/
def openGroup (s : ReadState) : ReadState :=
  ⟨(s.branch, []) :: s.outer, [], some '\x7b'⟩

/-- Starts another branch of the innermost group. -/
def nextBranch (s : ReadState) : ReadState :=
  match s.outer with
  | (left, branches) :: outer => ⟨(left, s.branch.reverse :: branches) :: outer, [], some ','⟩
  | [] => s.push (.char ',') ','

/-- Closes the innermost group. -/
def closeGroup (s : ReadState) : Except GlobFault ReadState :=
  match s.outer with
  | (left, branches) :: outer =>
    .ok ⟨outer, .oneOf (s.branch.reverse :: branches).reverse :: left, some '\x7d'⟩
  | [] => .error .unopenedGroup

/-- The pattern that has been read. -/
def finish (s : ReadState) : Except GlobFault Glob :=
  if s.inGroup then .error .unclosedGroup else .ok s.branch.reverse

/-- Two stars that are no component of their own. -/
def twoStars (s : ReadState) : ReadState := (s.push .star '*').push .star '*'

/-- Puts a part for any components in the place of the character before it. Next to a part of the
same kind it adds nothing. -/
def replaceBefore (s : ReadState) (p : GlobPart) (before : Char) : ReadState :=
  match s.branch with
  | .anyFront :: _ | .anyBack :: _ => { s with before := some before }
  | _ :: rest => ⟨s.outer, p :: rest, some before⟩
  | [] => s.push p before

/-- Two stars, given what comes after them, and what is left after that. They stand for whole
components after a slash, and in a group also after a comma or an opening brace, escaped ones
included. -/
def doubleStar (s : ReadState) (rest : List Char) : ReadState × List Char :=
  match s.branch, rest with
  | [], [] => (s.push .anyFront '*', [])
  | [], '/' :: more => (s.push .anyFront '/', more)
  | [], rest => (s.twoStars, rest)
  | _ :: _, rest =>
    if s.before = some '/' ∨ (s.inGroup ∧ (s.before = some ',' ∨ s.before = some '\x7b')) then
      match rest with
      | [] => (s.replaceBefore .anyBack '*', [])
      | '/' :: more => (s.replaceBefore .anyBetween '/', more)
      | c :: _ =>
        if s.inGroup ∧ (c = ',' ∨ c = '\x7d') then (s.replaceBefore .anyBack '*', rest)
        else (s.twoStars, rest)
    else (s.twoStars, rest)

end ReadState

/-- Reads one part of a pattern that starts with the given character, and gives what is left. -/
def readPart (s : ReadState) (c : Char) (rest : List Char) :
    Except GlobFault (ReadState × List Char) :=
  match c with
  | '?' => .ok (s.push .any '?', rest)
  | '*' =>
    match rest with
    | '*' :: rest => .ok (s.doubleStar rest)
    | _ => .ok (s.push .star '*', rest)
  | '[' =>
    let (negated, rest) := match rest with
      | '!' :: more => (true, more)
      | '^' :: more => (true, more)
      | _ => (false, rest)
    match readClass {} rest with
    | .error e => .error e
    | .ok (ranges, rest) => .ok (s.push (.class negated ranges) ']', rest)
  | '\x7b' => .ok (s.openGroup, rest)
  | '\x7d' => s.closeGroup.map (·, rest)
  | ',' => .ok (s.nextBranch, rest)
  | '\\' =>
    match rest with
    | [] => .error .danglingEscape
    | e :: rest => .ok (s.push (.char e) e, rest)
  | c => .ok (s.push (.char c) c, rest)

/-- Reads a pattern, of at most the given number of parts. -/
def readParts : Nat → ReadState → List Char → Except GlobFault Glob
  | _, s, [] => s.finish
  | 0, s, _ => s.finish
  | n + 1, s, c :: rest =>
    match readPart s c rest with
    | .error e => .error e
    | .ok (s, rest) => readParts n s rest

/-- The pattern that a text spells. -/
def read (text : String) : Except GlobFault Glob :=
  readParts text.length {} text.toList

/-! ## Matching -/

/-- What may be left of a path after any number of bytes. -/
def tails : List UInt8 → List (List UInt8)
  | [] => [[]]
  | b :: bs => (b :: bs) :: tails bs

/-- What may be left of a path after bytes that end in a slash. -/
def afterSlashes : List UInt8 → List (List UInt8)
  | [] => []
  | b :: bs => if b = 47 then bs :: afterSlashes bs else afterSlashes bs

/-- What is left of a path after the given bytes. -/
def dropBytes? : List UInt8 → List UInt8 → Option (List UInt8)
  | [], path => some path
  | _ :: _, [] => none
  | a :: front, b :: path => if a = b then dropBytes? front path else none

/-- The bytes of a character. -/
def charBytes (c : Char) : List UInt8 := c.toString.toUTF8.toList

/-- The byte ranges that a range of characters is read as: all bytes of both ends, and what lies
between the last byte of the first and the first byte of the last. -/
def byteRanges (first last : Char) : List (UInt8 × UInt8) :=
  if first = last then (charBytes first).map fun b => (b, b)
  else
    match (charBytes first).reverse, charBytes last with
    | a :: before, b :: after =>
      before.map (fun x => (x, x)) ++ [(a, b)] ++ after.map fun x => (x, x)
    | _, _ => []

/-- The byte is in one of the ranges. -/
def inRanges (ranges : List (Char × Char)) (b : UInt8) : Bool :=
  (ranges.flatMap fun (first, last) => byteRanges first last).any fun (lo, hi) => lo ≤ b && b ≤ hi

mutual
/-- None of the patterns says anything. -/
def areVoid : List (List GlobPart) → Bool
  | [] => true
  | parts :: rest => isVoid parts && areVoid rest
/-- The parts say nothing. -/
def isVoid : List GlobPart → Bool
  | [] => true
  | p :: rest => isVoidPart p && isVoid rest
/-- The part says nothing: it is a choice among patterns that say nothing. -/
def isVoidPart : GlobPart → Bool
  | .oneOf choices => areVoid choices
  | _ => false
end

mutual
/-- What may be left of a path after a part of a pattern. -/
def restsOfPart : GlobPart → List UInt8 → List (List UInt8)
  | .char c, path => (dropBytes? (charBytes c) path).toList
  | .any, path => if path.isEmpty then [] else [path.drop 1]
  | .star, path => tails path
  | .anyFront, path => path :: afterSlashes path
  | .anyBack, path => if path.head? == some 47 then tails (path.drop 1) else []
  | .anyBetween, path =>
    if path.head? == some 47 then path.drop 1 :: afterSlashes (path.drop 1) else []
  | .class negated ranges, path =>
    match path with
    | [] => []
    | b :: rest => if inRanges ranges b != negated then [rest] else []
  | .oneOf choices, path => if areVoid choices then [path] else restsOfChoices choices path
/-- What may be left after any of several patterns, those apart that say nothing. -/
def restsOfChoices : List (List GlobPart) → List UInt8 → List (List UInt8)
  | [], _ => []
  | parts :: rest, path =>
    (if isVoid parts then [] else restsOfParts parts [path]) ++ restsOfChoices rest path
/-- What may be left of any of several paths after some parts. -/
def restsOfParts : List GlobPart → List (List UInt8) → List (List UInt8)
  | [], paths => paths
  | p :: rest, paths => restsOfParts rest (paths.flatMap (restsOfPart p)).eraseDups
end

/-- The characters of a pattern without any wildcards. -/
def chars? : Glob → Option (List Char)
  | [] => some []
  | .char c :: rest => (chars? rest).map (c :: ·)
  | _ => none

/-- The pattern is a name that the last component of a path has to have, or an extension. Such
patterns are not matched with paths that end in `..`. -/
def isAboutName (glob : Glob) : Bool :=
  let isName (parts : Glob) : Bool := (chars? parts).any fun cs => !cs.isEmpty && '/' ∉ cs
  let isExtension (parts : Glob) : Bool := (chars? parts).any fun cs =>
    cs.head? == some '.' && '.' ∉ cs.drop 1 && '/' ∉ cs
  let hasExtension : Bool :=
    let back := glob.reverse.takeWhile fun p => (chars? [p]).isSome
    ((chars? back).map fun cs => (cs.takeWhile (· != '/')).contains '.').getD false
  match glob with
  | .anyFront :: .star :: parts => isExtension parts || (hasExtension && (chars? parts).isNone)
  | .star :: parts => isExtension parts || (hasExtension && (chars? parts).isNone)
  | .anyFront :: parts => isName parts || (hasExtension && (chars? parts).isNone)
  | parts => hasExtension && (chars? parts).isNone

/-- The last component of a path is `..`. -/
def endsInParent (path : String) : Bool := path == ".." || path.endsWith "/.."

/-- The pattern matches a path. -/
def matchesPath (glob : Glob) (path : String) : Bool :=
  match glob with
  | [.anyFront] => true
  | _ => !(isAboutName glob && endsInParent path) && [] ∈ restsOfParts glob [path.toUTF8.toList]

end Glob

end RouteAtlas
