/-!
# Arguments of the command line

The first argument names a command, `scan` or `entries`; the others give the project and options, in
any order. An option has a long name after two dashes and often a letter after one, its value is
attached or comes next, and letters may be run together. After `--` everything is taken as it is.

The value of an option is looked at when the next option or the project is read, so of two faults
the later one may be the one that is reported.
-/

namespace RouteAtlas.CommandLine

/-- Why the arguments call for no command to be run. -/
inductive Usage where
  | help
  | version
  /-- There are no arguments, which calls for help but is a mistake. -/
  | missingCommand
  | unknownCommand
  | unknownArgument
  /-- A value is missing or empty. -/
  | emptyValue
  /-- A value is not of the right kind. -/
  | wrongValue
  /-- An option that takes no value has one. -/
  | needlessValue
  /-- An option is given twice. -/
  | repeated
deriving DecidableEq, Repr

/-- The exit code that goes with a usage. -/
def Usage.exitCode : Usage → Nat
  | help | version => 0
  | _ => 2

/-- What a value can be given for. -/
inductive Slot where
  | path
  | entry
  | format
  | config
  | maxDepth
deriving DecidableEq, Repr

/-- An option. -/
inductive Opt where
  /-- One that takes a value. -/
  | value (slot : Slot)
  /-- One that raises the verbosity each time it is given. -/
  | verbose
  | help
deriving DecidableEq, Repr

/-- A command and what it was given. -/
structure Request where
  path : String := "."
  entry? : Option String := none
  format : String := "pretty"
  config? : Option String := none
  maxDepth? : Option Nat := none
  verbosity : Nat := 0
deriving DecidableEq, Repr, Inhabited

/-- What the user asks for. -/
inductive Command where
  | scan (request : Request)
  | entries (request : Request)
deriving DecidableEq, Repr

/-- The name of a command. -/
inductive Verb where
  | scan
  | entries
deriving DecidableEq, Repr

namespace Verb

/-- The options of a command by their long names and letters. -/
def options : Verb → List (String × Option Char × Opt)
  | scan =>
    [("entry", some 'e', .value .entry), ("format", some 'f', .value .format),
      ("config", some 'c', .value .config), ("max-depth", none, .value .maxDepth),
      ("verbose", some 'v', .verbose), ("help", some 'h', .help)]
  | entries =>
    [("config", some 'c', .value .config), ("verbose", some 'v', .verbose),
      ("help", some 'h', .help)]

/-- The option with a long name. -/
def long? (v : Verb) (name : String) : Option Opt :=
  (v.options.find? (·.1 == name)).map (·.2.2)

/-- The option with a letter. -/
def short? (v : Verb) (letter : Char) : Option Opt :=
  (v.options.find? (·.2.1 == some letter)).map (·.2.2)

end Verb

/-- The number that a text spells in decimal, if it fits into 64 bits. A plus sign may stand in
front. -/
def number? (text : String) : Option Nat :=
  let digits := match text.toList with
    | '+' :: rest => rest
    | cs => cs
  if digits.isEmpty || !digits.all Char.isDigit then none
  else
    let n := digits.foldl (fun n c => 10 * n + (c.toNat - '0'.toNat)) 0
    if n < UInt64.size then some n else none

/-- A request with a value in one of its slots. -/
def Request.put (r : Request) (slot : Slot) (value : String) : Except Usage Request :=
  let whenFilled (new : Request) : Except Usage Request :=
    if value = "" then .error .emptyValue else .ok new
  match slot with
  | .path => whenFilled { r with path := value }
  | .entry => whenFilled { r with entry? := some value }
  | .config => whenFilled { r with config? := some value }
  | .format => .ok { r with format := value }
  | .maxDepth =>
    match number? value with
    | some n => .ok { r with maxDepth? := some n }
    | none => .error .wrongValue

/-- How far the arguments have been read. -/
structure Reading where
  request : Request := {}
  /-- The slots that have a value. -/
  filled : List Slot := []
  /-- The slot that is waiting for its value, or whose value has not been looked at yet. -/
  pending? : Option (Slot × Option String) := none
  /-- Everything else is taken as it is. -/
  literal : Bool := false

namespace Reading

/-- Puts a value in its slot. -/
def fill (r : Reading) (slot : Slot) (value : String) : Except Usage Reading :=
  if slot ∈ r.filled then .error .repeated
  else (r.request.put slot value).map fun request => { r with request, filled := slot :: r.filled }

/-- Looks at the value that has not been looked at. -/
def settle (r : Reading) : Except Usage Reading :=
  match r.pending? with
  | none => .ok r
  | some (_, none) => .error .emptyValue
  | some (slot, some value) => { r with pending? := none }.fill slot value

/-- The path has been given. -/
def hasPath (r : Reading) : Bool :=
  r.filled.contains .path || r.pending?.any (·.1 == .path)

/-- Reads an option that may have a value attached. -/
def readOption (r : Reading) (attached : Option String) : Opt → Except Usage Reading
  | .value slot => do
    let r ← r.settle
    match attached with
    | some value => r.fill slot value
    | none => return { r with pending? := some (slot, none) }
  | .verbose => do
    if attached.isSome then throw .needlessValue
    let r ← r.settle
    return { r with request := { r.request with verbosity := r.request.verbosity + 1 } }
  | .help => do
    if attached.isSome then throw .needlessValue
    let _ ← r.settle
    throw .help

/-- Reads an argument that begins with two dashes, given what follows them. -/
def readLong (verb : Verb) (r : Reading) (text : List Char) : Except Usage Reading :=
  let name := text.takeWhile (· != '=')
  let attached := match text.drop name.length with
    | [] => none
    | _ :: value => some (String.ofList value)
  match verb.long? (String.ofList name) with
  | none => .error .unknownArgument
  | some o => r.readOption attached o

/-- Reads the letters of an argument that begins with one dash. What follows a letter that takes a
value is the value, with or without an equals sign. -/
def readShort (verb : Verb) : Reading → List Char → Except Usage Reading
  | r, [] => .ok r
  | r, letter :: rest =>
    match verb.short? letter with
    | none => .error .unknownArgument
    | some (.value slot) =>
      let attached := match rest with
        | [] => none
        | '=' :: value => some (String.ofList value)
        | value => some (String.ofList value)
      r.readOption attached (.value slot)
    | some o => (r.readOption none o).bind fun r => readShort verb r rest

/-- Reads an argument that is not an option. -/
def readPath (r : Reading) (arg : String) : Except Usage Reading :=
  if r.hasPath then .error .unknownArgument
  else r.settle.map fun r => { r with pending? := some (.path, some arg) }

/-- Reads an argument that is no option, if one can be told by its form: it is the value that is
waited for, or the path. -/
def readWord (r : Reading) (arg : String) : Except Usage Reading :=
  match r.pending? with
  | some (slot, none) => .ok { r with pending? := some (slot, some arg) }
  | _ => r.readPath arg

/-- Reads the next argument. -/
def readArgument (verb : Verb) (r : Reading) (arg : String) : Except Usage Reading :=
  if r.literal then r.readPath arg
  else
    match arg.toList with
    | ['-', '-'] => .ok { r with literal := true }
    | '-' :: '-' :: text => readLong verb r text
    | ['-'] => r.readWord arg
    | '-' :: letters => readShort verb r letters
    | _ => r.readWord arg

end Reading

/-- What a command is given by the arguments after its name. -/
def readRequest (verb : Verb) (args : List String) : Except Usage Request := do
  let r ← args.foldlM (Reading.readArgument verb) {}
  return (← r.settle).request

/-- The names that may stand first. -/
def commandNames : List String := ["scan", "entries", "help"]

/-- What is asked for after the word `help`. -/
def helpOn : List String → Usage
  | [] => .help
  | [name] => if name ∈ commandNames then .help else .unknownCommand
  | _ => .unknownCommand

/-- What is asked for by arguments of which the first is no command. -/
def withoutCommand (first : String) (rest : List String) : Usage :=
  let option (attached : Bool) (u : Usage) : Usage := if attached then .needlessValue else u
  match first.toList with
  | ['-', '-'] =>
    match rest with
    | [] => .missingCommand
    | name :: _ => if name ∈ commandNames then .unknownArgument else .unknownCommand
  | '-' :: '-' :: text =>
    let attached := '=' ∈ text
    match String.ofList (text.takeWhile (· != '=')) with
    | "help" => option attached .help
    | "version" => option attached .version
    | _ => .unknownArgument
  | '-' :: 'h' :: _ => .help
  | '-' :: 'V' :: _ => .version
  | '-' :: _ :: _ => .unknownArgument
  | _ => .unknownCommand

/-- What the arguments ask for. -/
def parse : List String → Except Usage Command
  | [] => .error .missingCommand
  | "scan" :: rest => (readRequest .scan rest).map .scan
  | "entries" :: rest => (readRequest .entries rest).map .entries
  | "help" :: rest => .error (helpOn rest)
  | first :: rest => .error (withoutCommand first rest)

end RouteAtlas.CommandLine
