import RouteAtlas.Grammar.Automaton
import RouteAtlas.Grammar.Stack
import RouteAtlas.Grammar.Typed
import RouteAtlas.Language

/-!
# Reading programs

`parse` reads a source as a program of its language. Every stack reads the next token that its state
expects and does with it what its state says. Where that is more than one thing, the stack splits.
Stacks that have come to the same state at the same place become one again; a stack that cannot go
on is given up if another one can.
-/

namespace RouteAtlas.Grammar

open Syntax

/-- All that is worked out for a grammar before a source is read. -/
structure Reader where
  table : Table
  lexicon : Lexicon

/-- The reader for a grammar. -/
def Reader.ofDefinition (d : Definition) : Reader :=
  let table := Table.ofDefinition d
  ⟨table, .ofDefinition d table.vocabulary⟩

/-- Work on the stacks. -/
abbrev Reading := StateT Stacks Meeting

namespace Reader

variable (r : Reader)

/-! ## Stacks that become one -/

/-- The first of some links that is like a given one: the derivations look the same, and the places
below are the same or agree. The answer holds the number of the link. -/
def likeLink? (link : Link) (below : Place) : Nat → List Link → Reading (Option (Nat × Link))
  | _, [] => return none
  | i, e :: links => do
    if e.derivation.resembles link.derivation then
      if e.below == link.below then return some (i, e)
      let other := (← get).place e.below
      if other.index == below.index then
        if ← Automaton.agree r.table other.state below.state then return some (i, e)
    likeLink? link below (i + 1) links

/-- Gives a place a link. If it has a link like it, the heavier of the two derivations is kept, or
what lies below becomes one. -/
def addLink : Nat → Nat → Link → Reading Unit
  | 0, _, _ => return
  | fuel + 1, self, link => do
    if link.below == self then return
    let place := (← get).place self
    let below := (← get).place link.below
    let weight := below.weight + link.derivation.extent.weight
    match ← likeLink? r link below 0 place.links.toList with
    | some (i, e) =>
      if e.below == link.below then
        if e.derivation.extent.weight < link.derivation.extent.weight then
          modify fun s => { s with places := s.places.modify self fun p =>
            { p with links := p.links.setIfInBounds i link, weight } }
      else
        let state ← Automaton.join r.table ((← get).place e.below).state below.state
        modify fun s => { s with places := s.places.modify e.below ({ · with state }) }
        for l in below.links do addLink fuel e.below l
        modify fun s => { s with places := s.places.modify self fun p =>
          { p with weight := max p.weight weight } }
    | none =>
      if place.links.size < limits.links then
        modify fun s => { s with places := s.places.modify self fun p =>
          { p with links := p.links.push link, weight := max p.weight weight } }

/-- Makes two stacks one if both are active and their tops agree. -/
def merge (kept other : Nat) : Reading Bool := do
  let s ← get
  let a := s.top kept
  let b := s.top other
  if (s.head kept).status != .active || (s.head other).status != .active || a.index != b.index then
    return false
  if ← Automaton.agree r.table a.state b.state then
    let self := (s.head kept).place
    let fuel := s.places.size + 1
    let state ← Automaton.join r.table a.state b.state
    modify fun s => { s with places := s.places.modify self ({ · with state }) }
    for l in b.links do addLink r fuel self l
    modify (·.remove other)
    return true
  else return false

/-- Makes a stack one with the first of some stacks with which it can be. -/
def mergeInto (other except : Nat) : Nat → List Nat → Reading Bool
  | 0, _ => return false
  | _, [] => return false
  | fuel + 1, version :: versions => do
    if version != except then
      if ← merge r version other then return true
    mergeInto other except fuel versions

/-! ## Reductions -/

/-- The parts of a production, and what follows them and belongs to none. -/
def splitExtras (ds : List Derivation) : List Derivation × List Derivation :=
  let extras := ds.reverse.takeWhile (·.extent.isExtra)
  (ds.take (ds.length - extras.length), extras.reverse)

/-- The phrase that is read along one of several ways, and what follows it. -/
def best (phrase alternative index : Nat) :
    List (List Derivation) → Derivation × List Derivation
  | [] => (.ofParts phrase alternative index [], [])
  | way :: ways =>
    let made := fun way =>
      let (parts, extras) := splitExtras way
      (Derivation.ofParts phrase alternative index parts, extras)
    ways.foldl (fun kept way =>
      let other := made way
      if kept.1.yields r.lexicon other.1 then other else kept) (made way)

/-- Puts the phrase that has been read on each of the stacks on which the ways down have landed;
these are the last ones. A stack beyond the bounds is given up. -/
def land (version first alternative : Nat) : Nat → Nat → List Landing → Reading Unit
  | _, _, [] => return
  | i, removed, l :: landings => do
    let a := r.table.alternatives.getD alternative default
    let here := first + i - removed
    if limits.heads + limits.overflow < here then
      modify (·.remove here)
      land version first alternative (i + 1) (removed + 1) landings
    else
      let top := (← get).top here
      let (phrase, extras) := r.best a.phrase alternative top.index l.ways
      match ← Automaton.move r.table top.state a.phrase with
      | none => modify (·.setStatus here .stuck)
      | some state =>
        modify (·.push here (phrase.addWeight a.weight) state)
        for e in extras do modify (·.push here e state)
      if ← mergeInto r here version (here + 1) (List.range here) then
        land version first alternative (i + 1) (removed + 1) landings
      else land version first alternative (i + 1) removed landings

/-- Reduces a production on a stack. The results are new stacks, the last ones; the answer is the
number of the first of them, if there are any. -/
def reduce (version alternative : Nat) : Reading (Option Nat) := do
  let s ← get
  let first := s.heads.size
  let count := (r.table.alternatives.getD alternative default).steps.size
  let landings := s.pop version count
  modify fun s => { s with heads := s.heads ++ (landings.map fun l => ⟨l.place, .active⟩).toArray }
  land r version first alternative 0 0 landings
  return if first < (← get).heads.size then some first else none

/-! ## The end -/

/-- The derivation of the program from all that lies on the stack: what belongs to no production
becomes part of it as well. -/
def whole? (ds : List Derivation) : Option Derivation :=
  let trailing := ds.reverse.takeWhile (·.extent.isExtra)
  match (ds.reverse.dropWhile (·.extent.isExtra)) with
  | [] => none
  | d :: leading =>
    some (.ofParts d.extent.symbol d.extent.alternative 0
      (leading.reverse ++ d.parts ++ trailing.reverse))

/-- Takes the program on a stack as read. -/
def accept (version : Nat) (token : Lexed) : Reading Unit := do
  modify (·.push version (.ofToken token true) 0)
  let s ← get
  let ways := Stacks.popAll s.places (s.places.size * limits.descents)
    [⟨(s.head version).place, [], 0⟩]
  let found := (ways.filterMap whole?).foldl (fun (best : Option Derivation) d =>
    match best with
    | none => some d
    | some b => if b.yields r.lexicon d then some d else some b) s.found
  modify fun s => { s with found }
  modify (·.setStatus version .complete)

/-! ## One token -/

/-- Does what is to be done with a token: the reductions, each giving new stacks, and then the
shift. The answer is the number of the first stack of the last reduction, or nothing if the stack is
done with the token. -/
def perform (version : Nat) (token : Lexed) : Option Nat → List Action → Reading (Bool × Option Nat)
  | last, [] => return (false, last)
  | last, .shift state repeats :: actions => do
    if repeats then perform version token last actions
    else
      modify (·.push version (.ofToken token false) state)
      return (true, last)
  | _, .accept :: _ => do
    r.accept version token
    return (true, none)
  | last, .reduce alternative :: actions => do
    let first ← r.reduce version alternative
    perform version token (first <|> last) actions

/-- Works on a stack until the token has been shifted or the stack is stuck. -/
def settle (version : Nat) : Nat → Lexed → Reading Unit
  | 0, _ => modify (·.setStatus version .stuck)
  | fuel + 1, token => do
    let state := ((← get).top version).state
    let (isDone, last) ← perform r version token none
      (← Automaton.actionsAt r.table state token.symbol)
    if isDone then return
    match last with
    | some first =>
      modify (·.renumber first version)
      settle version fuel token
    | none =>
      if token.isKeyword && token.symbol != r.lexicon.name &&
          !(← Automaton.actionsAt r.table state r.lexicon.name).isEmpty then
        settle version fuel { token with symbol := r.lexicon.name }
      else modify (·.setStatus version .stuck)

/-- Reads the next token on a stack. -/
def advance (source : Source) (fuel version : Nat) : Reading Unit := do
  let top := (← get).top version
  match r.lexicon.read? source (← Automaton.expectedAt top.state) top.index with
  | none => modify (·.setStatus version .stuck)
  | some token =>
    if r.lexicon.isExtra token.symbol then modify (·.push version (.ofToken token true) top.state)
    else settle r version fuel token

/-! ## All stacks -/

/-- Reads on a stack until it has come farther than the stacks before it; the answer is how far. -/
def run (source : Source) (version : Nat) : Nat → Nat → Reading Nat
  | 0, reached => do
    modify (·.setStatus version .stuck)
    return reached
  | fuel + 1, reached => do
    if ((← get).head version).status != .active then return reached
    advance r source (64 * (source.size + 16)) version
    let index := ((← get).top version).index
    if reached < index || (0 < version && index == reached) then return index
    else run source version fuel reached

/-- Reads on all stacks from one on, those included that come up meanwhile. -/
def runAll (source : Source) : Nat → Nat → Nat → Reading Nat
  | 0, _, reached => return reached
  | fuel + 1, version, reached => do
    if (← get).heads.size ≤ version then return reached
    let reached ← run r source version (source.size + 16) reached
    runAll source fuel (version + 1) reached

/-- Compares the stack `i` with those before it from `j` on: a stack that is stuck gives way to one
that is not, stacks that agree become one, and the heavier of two goes first. `i` is compared by
what it was at the start. The answer is the number of the stack that is to be looked at next. -/
def condenseAt (stuck : Bool) (weight : Int) : Nat → Nat → Nat → Reading Nat
  | 0, i, _ => return i + 1
  | fuel + 1, i, j => do
    if i ≤ j then return i + 1
    let s ← get
    let isStuck := (s.head j).status == .stuck
    if stuck && !isStuck then
      modify (·.remove i)
      return i
    else if isStuck && !stuck then
      modify (·.remove j)
      condenseAt stuck weight fuel (i - 1) j
    else
      let other := (s.top j).weight
      if ← merge r j i then return i
      if other < weight then
        modify fun s => { s with heads := s.heads.swapIfInBounds i j }
      condenseAt stuck weight fuel i (j + 1)

/-- Brings the stacks into order, from the stack `i` on. -/
def condense : Nat → Nat → Reading Unit
  | 0, _ => return
  | fuel + 1, i => do
    let s ← get
    if s.heads.size ≤ i then return
    if (s.head i).status == .complete then
      modify (·.remove i)
      condense fuel i
    else
      let next ← condenseAt r ((s.head i).status == .stuck) (s.top i).weight (2 * s.heads.size) i 0
      condense fuel next

/-- Keeps the first stacks, and of these the ones that can go on if any can. The answer is whether
the source can be read on. -/
def prune : Reading Bool := do
  let s ← get
  let heads := s.heads.take limits.heads
  match heads[0]? with
  | some h =>
    if h.status == .stuck then return false
    else
      set { s with heads := heads.filter fun h => h.status != Status.stuck }
      return true
  | none => return true

/-- Reads the source token by token. The answer is the derivation of the program, if there is
one. -/
def rounds (source : Source) : Nat → Nat → Reading (Option Derivation)
  | 0, _ => return none
  | fuel + 1, reached => do
    let reached ← runAll r source (source.size + 64) 0 reached
    condense r (4 * (← get).heads.size + 4) 0
    let goesOn ← prune
    let s ← get
    if !goesOn || s.heads.isEmpty then return s.found
    rounds source fuel reached

end Reader

/-! ## Languages -/

/-- The reader of JavaScript. -/
def scriptReader : Thunk Reader := .mk fun _ => .ofDefinition Script.definition

/-- The reader of TypeScript. -/
def typedReader : Thunk Reader := .mk fun _ => .ofDefinition (Typed.definition false)

/-- The reader of TypeScript with markup. -/
def typedMarkupReader : Thunk Reader := .mk fun _ => .ofDefinition (Typed.definition true)

/-- The reader of a language. -/
def readerOf : Language → Reader
  | .javaScript => scriptReader.get
  | .typeScript => typedReader.get
  | .tsx => typedMarkupReader.get

/-- The tree of a program, or nothing if the source is no program of the language. The root starts
with the first token or comment and ends with the source. -/
def parse (language : Language) (text : String) : Option Node := do
  let r := readerOf language
  let source := Source.ofText text
  let begun := Stacks.initial Automaton.start
  let (found, _) := ((r.rounds source (4 * source.size + 16) 0).run begun).run (.initial r.table)
  let program ← found.1
  (program.nodes source r.table none none []).head?

end RouteAtlas.Grammar
