import RouteAtlas.Dictionary
import RouteAtlas.Yaml.Lexer

/-!
# YAML documents

The tree of nodes that a text describes. Aliases are replaced by what they refer to. A text that
holds nothing but comments has no node; a text with more than one document is refused.
-/

namespace RouteAtlas.Yaml

/-- A node of a document. -/
inductive Node where
  | scalar (text : String) (style : Style) (tag? : Option String)
  | sequence (items : List Node)
  | mapping (entries : List (Node × Node))
  /-- An alias of a collection that it is part of. -/
  | endless
deriving Inhabited, Repr

/-- A node without any text. -/
def Node.void : Node := .scalar "" .plain none

/-- What is known while nodes are built. -/
structure BuildState where
  tokens : List Token
  /-- What each anchor refers to, with the number of the anchor; a collection that is not yet
  complete is none. -/
  anchors : Dictionary (Nat × Option Node) := {}
  /-- The number of anchors so far. -/
  count : Nat := 0
  /-- What the handles of tags stand for. -/
  handles : Dictionary String := {}

/-- Something that takes tokens and builds a part of a document. -/
abbrev Build := StateT BuildState Option

namespace Build

/-- The next token, if there is one. -/
def peek : Build (Option Token) := return (← get).tokens.head?

/-- Passes over the next token. -/
def drop : Build Unit := modify fun s => { s with tokens := s.tokens.drop 1 }

/-- The next token is one of the given ones, or there is none. -/
def atAny (ts : List Token) : Build Bool := do
  match ← peek with
  | none => return true
  | some t => return ts.contains t

/-- The next token is the given one. -/
def at? (t : Token) : Build Bool := return (← peek) == some t

/-- Takes the given token. -/
def expect (t : Token) : Build Unit := do
  guard (← at? t)
  drop

/-- Notes down an anchor. -/
def openAnchor (name : String) : Build Nat := do
  let s ← get
  set { s with anchors := s.anchors.put name (s.count, none), count := s.count + 1 }
  return s.count

/-- Notes down what an anchor refers to, unless the name has been used again. -/
def closeAnchor (name : String) (number : Nat) (n : Node) : Build Unit := do
  let s ← get
  if (s.anchors.find? name).any (·.1 == number) then
    set { s with anchors := s.anchors.put name (number, some n) }

/-- What an alias refers to. -/
def referenced (name : String) : Build Node := do
  let (_, n) ← (← get).anchors.find? name
  return n.getD .endless

/-- The tag that a handle and a suffix stand for. -/
def tagOf (handle suffix : String) : Build String := do
  if handle == "" then return suffix
  else
    let front ← (← get).handles.find? handle
    return front ++ suffix

/-- The anchor and the tag before a node, in either order. -/
def properties : Build (Option String × Option String) := do
  match ← peek with
  | some (.anchor name) =>
    drop
    match ← peek with
    | some (.tag handle suffix) =>
      drop
      return (some name, some (← tagOf handle suffix))
    | _ => return (some name, none)
  | some (.tag handle suffix) =>
    drop
    match ← peek with
    | some (.anchor name) =>
      drop
      return (some name, some (← tagOf handle suffix))
    | _ => return (none, some (← tagOf handle suffix))
  | _ => return (none, none)

/-- Builds a node with an anchor noted down before and after. -/
def anchored (name? : Option String) (build : Build Node) : Build Node := do
  match name? with
  | none => build
  | some name =>
    let number ← openAnchor name
    let n ← build
    closeAnchor name number n
    return n

/-- What cannot start the value of a block mapping or the entry of a sequence in one. -/
def blockStops : List Token := [.key, .value, .blockEnd]

mutual
/-- A node. `block` says whether a block collection may start here, and `indentless` whether a
sequence may start without being indented. -/
def node : Nat → Bool → Bool → Build Node
  | 0, _, _ => failure
  | n + 1, block, indentless => do
    if let some (.reference name) ← peek then
      drop
      referenced name
    else
      let (anchor?, tag?) ← properties
      anchored anchor? (content n block indentless (anchor?.isSome || tag?.isSome) tag?)
/-- A node after its anchor and tag; with any of these it may be without text. -/
def content : Nat → Bool → Bool → Bool → Option String → Build Node
  | 0, _, _, _, _ => failure
  | n + 1, block, indentless, marked, tag? => do
    let t ← peek
    if indentless && t == some .blockEntry then return .sequence (← indentlessSequence n)
    else
      match t with
      | some (.scalar text style) =>
        drop
        return .scalar text style tag?
      | some .flowSequenceStart =>
        drop
        return .sequence (← flowSequence n true)
      | some .flowMappingStart =>
        drop
        return .mapping (← flowMapping n true)
      | _ =>
        if block && t == some .blockSequenceStart then
          drop
          return .sequence (← blockSequence n)
        else if block && t == some .blockMappingStart then
          drop
          return .mapping (← blockMapping n)
        else
          guard marked
          return .scalar "" .plain tag?
/-- The entries of a block sequence. -/
def blockSequence : Nat → Build (List Node)
  | 0 => failure
  | n + 1 => do
    if ← at? .blockEntry then
      drop
      let first ← if ← atAny [.blockEntry, .blockEnd] then pure Node.void else node n true false
      return first :: (← blockSequence n)
    else
      expect .blockEnd
      return []
/-- The entries of a sequence that is not indented. -/
def indentlessSequence : Nat → Build (List Node)
  | 0 => failure
  | n + 1 => do
    if ← at? .blockEntry then
      drop
      let first ← if ← atAny (.blockEntry :: blockStops) then pure Node.void else node n true false
      return first :: (← indentlessSequence n)
    else return []
/-- The entries of a block mapping. -/
def blockMapping : Nat → Build (List (Node × Node))
  | 0 => failure
  | n + 1 => do
    if ← at? .blockEnd then
      drop
      return []
    else
      expect .key
      let key ← if ← atAny blockStops then pure Node.void else node n true true
      let value ←
        if ← at? .value then
          drop
          if ← atAny blockStops then pure Node.void else node n true true
        else pure Node.void
      return (key, value) :: (← blockMapping n)
/-- The entries of a sequence in brackets. -/
def flowSequence : Nat → Bool → Build (List Node)
  | 0, _ => failure
  | n + 1, first => do
    if ← at? .flowSequenceEnd then
      drop
      return []
    else
      if !first then expect .flowEntry
      if ← at? .key then
        drop
        let entry ← flowPair n
        return .mapping [entry] :: (← flowSequence n false)
      else if ← at? .flowSequenceEnd then
        drop
        return []
      else
        let item ← node n false false
        return item :: (← flowSequence n false)
/-- A single key and value as an entry of a sequence in brackets. A key without text takes the token
after it along. -/
def flowPair : Nat → Build (Node × Node)
  | 0 => failure
  | n + 1 => do
    let key ←
      if ← atAny [.value, .flowEntry, .flowSequenceEnd] then
        drop
        pure Node.void
      else node n false false
    let value ←
      if ← at? .value then
        drop
        if ← atAny [.flowEntry, .flowSequenceEnd] then pure Node.void else node n false false
      else pure Node.void
    return (key, value)
/-- The entries of a mapping in braces. -/
def flowMapping : Nat → Bool → Build (List (Node × Node))
  | 0, _ => failure
  | n + 1, first => do
    if ← at? .flowMappingEnd then
      drop
      return []
    else
      if !first then expect .flowEntry
      if ← at? .key then
        drop
        let key ← if ← atAny [.value, .flowEntry, .flowMappingEnd]
          then pure Node.void else node n false false
        let value ←
          if ← at? .value then
            drop
            if ← atAny [.flowEntry, .flowMappingEnd] then pure Node.void else node n false false
          else pure Node.void
        return (key, value) :: (← flowMapping n false)
      else if ← at? .flowMappingEnd then
        drop
        return []
      else
        let key ← node n false false
        return (key, Node.void) :: (← flowMapping n false)
end

/-- The directives before a document: a version of the language that is understood, and handles of
tags, none of them twice. -/
def directives : Nat → Bool → Build Unit
  | 0, _ => failure
  | n + 1, versioned => do
    match ← peek with
    | some (.versionDirective major minor) =>
      guard (!versioned && major == 1 && (minor == 1 || minor == 2))
      drop
      directives n true
    | some (.tagDirective handle front) =>
      let s ← get
      guard (!s.handles.has handle)
      set { s with handles := s.handles.put handle front }
      drop
      directives n versioned
    | _ =>
      modify fun s =>
        { s with handles := (s.handles.putAbsent "!" "!").putAbsent "!!" "tag:yaml.org,2002:" }

/-- The token is a directive. -/
def isDirective : Token → Bool
  | .versionDirective _ _ | .tagDirective _ _ => true
  | _ => false

/-- The node of a document. -/
def document (size : Nat) : Build Node := do
  let explicit := (← peek).any fun t => isDirective t || t == .documentStart
  directives size false
  if explicit then
    expect .documentStart
    let t ← peek
    if t.all fun t =>
      isDirective t || t == .documentStart || t == .documentEnd then return Node.void
    else node size true false
  else node size true false

/-- The only document of a text, if there is any. -/
def stream (size : Nat) : Build (Option Node) := do
  if (← peek).isNone then return none
  else
    let n ← document size
    guard ((← get).tokens.all (· == .documentEnd))
    return some n

end Build

/-- The document that a text holds. The answer has no node if the text has none, and there is no
answer if the text is not a single YAML document. -/
def parse (text : String) : Option (Option Node) := do
  let tokens ← tokens? text
  let (n, _) ← (Build.stream (2 * tokens.length + 8)).run { tokens }
  return n

end RouteAtlas.Yaml
