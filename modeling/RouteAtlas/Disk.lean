import RouteAtlas.Path

/-!
# Disks

A disk is a tree of files, directories and symbolic links, with a current directory. A path is
looked up the way Unix does it, one part after the other: what is passed through has to be a
directory, `..` goes back up, and a link goes on from where it points to. The place that is found
has one absolute path without links, its canonical path.
-/

namespace RouteAtlas

/-- What a disk has under a name. -/
inductive Entry where
  /-- A file; it has no text if its bytes are not UTF-8. -/
  | file (text? : Option String)
  | directory (members : List (String × Entry))
  | link (target : String)
deriving Inhabited

namespace Entry

/-- The entry of a file with the given bytes. -/
def ofBytes (bytes : ByteArray) : Entry := .file (String.fromUTF8? bytes)

/-- What some members have under a name. -/
def memberIn? (name : String) : List (String × Entry) → Option Entry
  | [] => none
  | (k, e) :: rest => if k = name then some e else memberIn? name rest

/-- Some members with one put under a name. -/
def putIn (name : String) (entry : Entry) : List (String × Entry) → List (String × Entry)
  | [] => [(name, entry)]
  | (k, e) :: rest => if k = name then (k, entry) :: rest else (k, e) :: putIn name entry rest

/-- The members of an entry: there are none unless it is a directory. -/
def members : Entry → List (String × Entry)
  | directory ms => ms
  | _ => []

/-- The entry with another one put below it, at the end of some names. Directories that are missing
on the way are made, and one that is already there is kept. -/
def put (new : Entry) : List String → Entry → Entry
  | [], old =>
    match new, old with
    | .directory [], .directory ms => .directory ms
    | _, _ => new
  | name :: rest, old =>
    let below := (memberIn? name old.members).getD (.directory [])
    .directory (putIn name (put new rest below) old.members)

end Entry

/-- Why something could not be read from a disk. -/
inductive ReadFault where
  | missing
  | notDirectory
  | isDirectory
  | tooManyLinks
  | tooLong
  | notText
deriving DecidableEq, Repr

/-- What is said about something that could not be read. -/
def ReadFault.message : ReadFault → String
  | missing => "No such file or directory (os error 2)"
  | notDirectory => "Not a directory (os error 20)"
  | isDirectory => "Is a directory (os error 21)"
  | tooManyLinks => "Too many levels of symbolic links (os error 40)"
  | tooLong => "File name too long (os error 36)"
  | notText => "stream did not contain valid UTF-8"

/-- Files, directories and links, and the directory that relative paths start from. -/
structure Disk where
  root : Entry
  current : Path

/-- The way from the root of a disk to a place: names and what is under them, the last first. -/
abbrev Trail := List (String × Entry)

namespace Disk

/-- What is at the end of a trail. -/
def entryAt (d : Disk) : Trail → Entry
  | [] => d.root
  | (_, e) :: _ => e

/-- The longest name that something on a disk can have, in bytes. -/
def maxNameBytes : Nat := 255

/-- The longest path that is looked up, in bytes. -/
def maxPathBytes : Nat := 4095

/-- Goes on from a trail by parts of a path. `onLink` says how to go on at a link, given the trail
to start from and the parts still to go. -/
def followWith (d : Disk) (onLink : Trail → List String → Except ReadFault Trail) :
    Trail → List String → Except ReadFault Trail
  | trail, [] => .ok trail
  | trail, part :: rest =>
    match d.entryAt trail with
    | .directory members =>
      if Path.isVoid part then d.followWith onLink trail rest
      else if part = ".." then d.followWith onLink (trail.drop 1) rest
      else if maxNameBytes < part.utf8ByteSize then .error .tooLong
      else
        match Entry.memberIn? part members with
        | none => .error .missing
        | some (.link target) =>
          if target = "" then .error .missing
          else onLink (if (Path.mk target).isAbsolute then [] else trail)
            ((Path.mk target).segments ++ rest)
        | some e => d.followWith onLink ((part, e) :: trail) rest
    | _ => .error .notDirectory

/-- Goes on from a trail by parts of a path, through at most the given number of links. -/
def follow (d : Disk) : Nat → Trail → List String → Except ReadFault Trail
  | 0 => d.followWith fun _ _ => .error .tooManyLinks
  | links + 1 => d.followWith fun trail parts => d.follow links trail parts

/-- The number of links that may be passed through on the way to one place. -/
def maxLinks : Nat := 40

/-- The place that a path leads to. -/
def find (d : Disk) (p : Path) : Except ReadFault Trail :=
  if p.text = "" then .error .missing
  else if maxPathBytes < p.text.utf8ByteSize then .error .tooLong
  else d.follow maxLinks [] (d.current.join p.text).segments

/-- The absolute path without links that leads along a trail. -/
def pathOf (trail : Trail) : Path := ⟨"/" ++ "/".intercalate (trail.map Prod.fst).reverse⟩

/-- The absolute path without links to the place that a path leads to. There is none if that path
would be too long to be looked up. -/
def canonical? (d : Disk) (p : Path) : Option Path :=
  match d.find p with
  | .ok trail =>
    if maxPathBytes < (pathOf trail).text.utf8ByteSize then none else some (pathOf trail)
  | .error _ => none

/-- What is at the place that a path leads to. -/
def get? (d : Disk) (p : Path) : Option Entry :=
  match d.find p with
  | .ok trail => some (d.entryAt trail)
  | .error _ => none

/-- The path leads to a file. -/
def isFile (d : Disk) (p : Path) : Bool :=
  match d.get? p with
  | some (.file _) => true
  | _ => false

/-- The path leads to a directory. -/
def isDirectory (d : Disk) (p : Path) : Bool :=
  match d.get? p with
  | some (.directory _) => true
  | _ => false

/-- The text of the file that a path leads to. -/
def read (d : Disk) (p : Path) : Except ReadFault String :=
  match d.find p with
  | .error e => .error e
  | .ok trail =>
    match d.entryAt trail with
    | .file (some text) => .ok text
    | .file none => .error .notText
    | .directory _ => .error .isDirectory
    | .link _ => .error .missing

end Disk

end RouteAtlas
