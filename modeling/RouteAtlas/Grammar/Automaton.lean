import RouteAtlas.Grammar.Table

/-!
# The states of the reader

A state is a set of items, each with the tokens that can follow its phrase. It tells which tokens
are expected, and for each of them what is to be done: shift the token, reduce a production, or
accept the program. Where several things can be done, the ranks of what has been read decide; what
they leave open is all done, side by side. The states of a grammar are many and a source meets few
of them, so they are worked out when they are met.
-/

namespace RouteAtlas.Grammar

/-- The items of a state that have been begun, in the order of their numbers, with the tokens that
can follow them. -/
abbrev Kernel := Array (Nat × TokenSet)

/-- What can be done with a token. -/
inductive Action where
  | reduce (alternative : Nat)
  /-- Shifts the token. Where a repetition goes on, it is first reduced; the shift is then only
  known of, and not done. -/
  | shift (state : Nat) (repeats : Bool)
  | accept
deriving DecidableEq, Repr, Inhabited

/-- The states that have been met, by number, and what has been worked out about them. -/
structure Automaton where
  kernels : Array Kernel
  numbers : Std.HashMap Kernel Nat
  /-- For every state what is expected in it. -/
  expected : Array Expectation
  /-- For every state the phrases that can come next, with the tokens that can follow them. -/
  seeds : Array (List (Nat × TokenSet))
  /-- The states that symbols lead to. -/
  moves : Std.HashMap (Nat × Nat) (Option Nat)
  /-- What is done with tokens. -/
  actions : Std.HashMap (Nat × Nat) (List Action)
  /-- Whether two states agree. -/
  agreements : Std.HashMap (Nat × Nat) Bool

/-- Work that may meet new states. -/
abbrev Meeting := StateM Automaton

/-! ## Ranks -/

namespace Table

variable (t : Table)

/-- The rank or one of the phrases is the one that is placed. -/
def isPlaced (placed : Rank ⊕ Nat) (rank : Option Rank) (phrases : List Nat) : Bool :=
  match placed with
  | .inl r => rank == some r
  | .inr p => phrases.contains p

/-- Compares by one order, from the highest down, if it places both. `fst` and `snd` say which of
the two has been passed. -/
def compareIn (a : Option Rank) (as : List Nat) (b : Option Rank) (bs : List Nat) :
    Bool → Bool → List (Rank ⊕ Nat) → Option Ordering
  | _, _, [] => none
  | fst, snd, placed :: order =>
    if isPlaced placed a as then
      if snd then some .lt
      else if isPlaced placed b bs then some .eq
      else compareIn a as b bs true snd order
    else if isPlaced placed b bs then
      if fst then some .gt else compareIn a as b bs fst true order
    else compareIn a as b bs fst snd order

/-- Which of two ranks is higher. Numbers other than zero are compared as numbers; otherwise the
first order that places both decides. -/
def compareRanks (a : Option Rank) (as : List Nat) (b : Option Rank) (bs : List Nat) : Ordering :=
  let byOrder := (t.orders.findSome? (compareIn a as b bs false false)).getD .eq
  match a, b with
  | some (.number m), some (.number n) => if m == 0 && n == 0 then byOrder else compare m n
  | some (.number m), none => if m == 0 then byOrder else compare m 0
  | none, some (.number n) => if n == 0 then byOrder else compare 0 n
  | _, _ => byOrder

/-! ## Kernels -/

/-- The item with a number. -/
def item (i : Nat) : Item := t.items.getD i default

/-- The tokens that can come next for an item. -/
def nextTokens (i : Item) (lookahead : TokenSet) : TokenSet :=
  match i.next with
  | some s => t.first.getD s 0
  | none => lookahead

/-- The tokens that are expected when the items of a kernel are. -/
def expectedIn (k : Kernel) : TokenSet :=
  k.foldl (fun acc (i, l) => acc.union (t.nextTokens (t.item i) l)) 0

/-- The kernel ends a phrase at whose end names are read whole, and holds no other phrase. -/
def atBoundary (k : Kernel) : Bool :=
  let isBoundary : Nat → Bool :=
    fun p => t.boundaries.contains p || t.statementBoundaries.contains p
  (k.all fun (i, _) => isBoundary (t.item i).phrase) &&
    k.any fun (i, l) =>
      let item := t.item i
      item.next.isNone && (l.has t.lineEnd || t.boundaries.contains item.phrase)

/-- The phrases that can come next, with the tokens that can follow them. -/
def seeds (k : Kernel) : List (Nat × TokenSet) :=
  k.foldl (fun acc (i, l) =>
    let item := t.item i
    match item.next with
    | some s =>
      if s < t.vocabulary.tokens.size then acc
      else
        let follow := item.follow.getD l
        match acc.lookup s with
        | some f => acc.map fun (s', f') => if s' == s then (s, f.union follow) else (s', f')
        | none => (s, follow) :: acc
    | none => acc) []

/-- Some items with their lookaheads as a kernel. -/
def kernelOf (entries : Array (Nat × TokenSet)) : Kernel :=
  (entries.qsort fun a b => a.1 < b.1).foldl (fun (acc : Kernel) (i, l) =>
    match acc.back? with
    | some (j, m) => if i == j then acc.pop.push (i, m.union l) else acc.push (i, l)
    | none => acc.push (i, l)) #[]

/-- The items that a symbol leads to. -/
def successor (k : Kernel) (seeds : List (Nat × TokenSet)) (symbol : Nat) : Kernel :=
  let advanced := k.filterMap fun (i, l) =>
    let item := t.item i
    if item.next == some symbol then some (item.advanced, l) else none
  let begun := seeds.foldl (fun (acc : Array (Nat × TokenSet)) (phrase, follow) =>
    ((t.starts.getD (phrase - t.vocabulary.tokens.size) ∅).getD symbol []).foldl
      (fun acc s => acc.push (s.item, if s.inherits then s.lookahead.union follow else s.lookahead))
        acc)
    advanced
  kernelOf begun

/-! ## Two kernels with the same items -/

/-- The items with the tokens that can follow them in one of the kernels and not in the other. -/
def differences (a b : Kernel) : List (Item × TokenSet) :=
  (a.toList.zip b.toList).filterMap fun ((i, l), (_, m)) =>
    if l == m then none else some (t.item i, (l.minus m).union (m.minus l))

/-- The tokens before which a phrase can be complete in one of the kernels and not in the other. -/
def unsettled (differences : List (Item × TokenSet)) : TokenSet :=
  differences.foldl (fun acc (i, d) => if i.next.isNone then acc.union d else acc) 0

/-- The symbols that lead from the kernels to different ones. -/
def parting (differences : List (Item × TokenSet)) : List Nat :=
  distinct <| differences.flatMap fun (i, _) =>
    match i.next with
    | none => []
    | some s =>
      if s < t.vocabulary.tokens.size || i.follow.isSome then [s]
      else s :: (t.starts.getD (s - t.vocabulary.tokens.size) ∅).fold
        (fun acc x starts => if starts.any (·.inherits) then x :: acc else acc) []

end Table

namespace Automaton

variable (t : Table)

/-! ## States -/

/-- The number of the state in which the program is to be read. -/
def start : Nat := 0

/-- The number of the state with a kernel. -/
def state (k : Kernel) : Meeting Nat := fun a =>
  match a.numbers[k]? with
  | some n => (n, a)
  | none =>
    let ⟨kernels, numbers, expected, seeds, moves, actions, agreements⟩ := a
    let n := kernels.size
    let tokens := t.expectedIn k
    let tokens := if n == start then tokens.union (.single t.vocabulary.finish) else tokens
    (n, ⟨kernels.push k, numbers.insert k n, expected.push ⟨tokens, t.atBoundary k⟩,
      seeds.push (t.seeds k), moves, actions, agreements⟩)

/-- No state has been met but the one in which the program is to be read. -/
def initial : Automaton :=
  (state t #[(t.origin, .single t.vocabulary.finish)] ⟨#[], ∅, #[], #[], ∅, ∅, ∅⟩).2

/-- The kernel of a state. -/
def kernel (state : Nat) : Meeting Kernel := fun a => (a.kernels.getD state #[], a)

/-- What is expected in a state. -/
def expectedAt (state : Nat) : Meeting Expectation := fun a => (a.expected.getD state default, a)

/-- The state that a symbol leads to. -/
def move (origin symbol : Nat) : Meeting (Option Nat) := do
  match (← get).moves[(origin, symbol)]? with
  | some target => return target
  | none =>
    let k := t.successor (← kernel origin) ((← get).seeds.getD origin []) symbol
    let target ← if k.isEmpty then pure none else some <$> state t k
    modify fun a => { a with moves := a.moves.insert (origin, symbol) target }
    return target

/-! ## Actions -/

/-- What is known of the productions that could be reduced: the rank, the phrases, and the sides. -/
structure Reduction where
  actions : List Action
  rank : Option Rank
  phrases : List Nat
  sides : List (Option Side)
deriving Inhabited

/-- Takes a production that could be reduced into account. The higher rank wins. -/
def Reduction.add (r : Reduction) (i : Item) (action : Action) : Reduction :=
  let alone : Reduction := ⟨[action], i.rank, [i.phrase], [i.side]⟩
  if r.actions.isEmpty then alone
  else
    match t.compareRanks i.rank [i.phrase] r.rank r.phrases with
    | .gt => alone
    | .lt => r
    | .eq =>
      ⟨r.actions ++ [action], i.rank,
        if r.phrases.contains i.phrase then r.phrases else r.phrases ++ [i.phrase],
          i.side :: r.sides⟩

/-- The productions that can be reduced before a token. -/
def reductions (k : Kernel) (token : Nat) : Reduction :=
  k.foldl (fun r (n, lookahead) =>
    let i := t.item n
    if i.next.isNone && lookahead.has token then
      r.add t i (if i.phrase == t.symbols then .accept else .reduce i.alternative)
    else r) ⟨[], none, [], []⟩

/-- The item has been begun and goes on with the token. -/
def goesOn (token : Nat) (i : Item) : Bool :=
  i.begun && i.next.any fun s => (t.first.getD s 0).has token

/-- What is done with a token that can be shifted and before which productions can be reduced. -/
def resolve (k : Kernel) (token : Nat) (r : Reduction) (target : Nat) : List Action :=
  let going : List Item := (k.toList.map fun (n, _) => t.item n).filter (goesOn t token)
  let ending : List Item :=
    (k.toList.filter fun (n, l) => (t.item n).next.isNone && l.has token).map fun (n, _) => t.item n
  let involved : List Nat := ((going ++ ending).map (·.phrase)).filter (· != t.symbols)
  let isRepetition : Bool := involved.head?.any fun p =>
    t.vocabulary.repetition ≤ p && involved.all (· == p)
  let shift := Action.shift target isRepetition
  if isRepetition then r.actions ++ [shift]
  else
    let compared := going.map fun i => t.compareRanks i.rank [i.phrase] r.rank r.phrases
    let higher := compared.contains .gt
    let lower := compared.contains .lt
    if higher && !lower then [shift]
    else if lower && !higher then r.actions
    else if lower || higher then r.actions ++ [shift]
    else if r.sides.all (· == some .left) then r.actions
    else if r.sides.all (· == some .right) then [shift]
    else r.actions ++ [shift]

/-- The production of an empty program. -/
def emptyProgram? : Option Nat :=
  t.alternatives.findIdx? fun a => a.steps.isEmpty

/-- What can be done with a token in a state. -/
def actionsAt (origin token : Nat) : Meeting (List Action) := do
  match (← get).actions[(origin, token)]? with
  | some actions => return actions
  | none =>
    let k ← kernel origin
    let r := reductions t k token
    let target ← move t origin token
    let actions :=
      if origin == start && token == t.vocabulary.finish then
        ((emptyProgram? t).map Action.reduce).toList
      else
        match target with
        | none => r.actions
        | some s => if r.actions.isEmpty then [.shift s false] else resolve t k token r s
    modify fun a => { a with actions := a.actions.insert (origin, token) actions }
    return actions

/-! ## States that agree -/

/-- Two lists of actions do the same kinds of things. -/
def alike : List Action → List Action → Bool
  | [], [] => true
  | .reduce a :: as, .reduce b :: bs => a == b && alike as bs
  | .shift _ p :: as, .shift _ q :: bs => p == q && alike as bs
  | .accept :: as, .accept :: bs => alike as bs
  | _, _ => false

/-- All the tokens are treated alike in two states. -/
def alikeOn (a b : Nat) : List Nat → Meeting Bool
  | [] => return true
  | token :: tokens => do
    let x ← actionsAt t a token
    let y ← actionsAt t b token
    if alike x y then alikeOn a b tokens else return false

/-- The tokens of one state that the other lacks would not be read in another way there. -/
def isNeutral (only other : TokenSet) : Bool :=
  only.meet t.sensitive == 0 &&
    (only.below t.vocabulary.tokens.size).all fun token => (t.clashing.getD token 0).meet other == 0

/-- The states treat the tokens that both expect alike, and tokens are read the same way in both.
Only the tokens with which the states differ have to be looked at. -/
def isSimilar (a b : Nat) (unsettled : TokenSet) : Meeting Bool := do
  let x := (← expectedAt a).tokens
  let y := (← expectedAt b).tokens
  if isNeutral t (x.minus y) y && isNeutral t (y.minus x) x then
    alikeOn t a b ((unsettled.meet (x.meet y)).below t.vocabulary.tokens.size)
  else return false

/-- Two states in the order of their numbers. -/
def pair (a b : Nat) : Nat × Nat := (min a b, max a b)

/-- The state that a symbol leads to, unless the symbol is a token that is not shifted there. -/
def follow? (state symbol : Nat) : Meeting (Option Nat) := do
  if symbol < t.vocabulary.tokens.size then
    match (← actionsAt t state symbol).getLast? with
    | some (.shift target _) => return some target
    | _ => return none
  else move t state symbol

/-- The different states that the symbols lead to from two states, if they have the same items each
time.
-/
def followBoth (a b : Nat) : List Nat → List (Nat × Nat) → Meeting (Option (List (Nat × Nat)))
  | [], found => return some found
  | symbol :: symbols, found => do
    match ← follow? t a symbol, ← follow? t b symbol with
    | some x, some y =>
      if x == y then followBoth a b symbols found
      else if (← kernel x).map (·.1) == (← kernel y).map (·.1) then
        followBoth a b symbols (pair x y :: found)
      else return none
    | _, _ => followBoth a b symbols found

/-- The pairs of states are similar, and so are those that symbols lead to from them, and so on.
Pairs that have been met are not looked at again. The answer holds the pairs that have been met, or
nothing if two states are not similar; after a great number of pairs the rest is taken to be
similar. -/
def explore : Nat → List (Nat × Nat) → Std.HashSet (Nat × Nat) →
    Meeting (Option (Std.HashSet (Nat × Nat)))
  | 0, _, met => return some met
  | _, [], met => return some met
  | fuel + 1, (a, b) :: pending, met => do
    if met.contains (a, b) then explore fuel pending met
    else
      match (← get).agreements[(a, b)]? with
      | some true => explore fuel pending met
      | some false => return none
      | none =>
        let differences := t.differences (← kernel a) (← kernel b)
        if !(← isSimilar t a b (Table.unsettled differences)) then return none
        match ← followBoth t a b (t.parting differences) [] with
        | none => return none
        | some found => explore fuel (found ++ pending) (met.insert (a, b))

/-- The states have the same items, and they and all states that the same symbols lead to treat
tokens alike: what is read in one can be read in the other. -/
def agree (a b : Nat) : Meeting Bool := do
  if a == b then return true
  if (← kernel a).map (·.1) != (← kernel b).map (·.1) then return false
  match (← get).agreements[pair a b]? with
  | some answer => return answer
  | none =>
    match ← explore t 65536 [pair a b] ∅ with
    | some met =>
      modify fun s => { s with agreements := met.fold (fun m p => m.insert p true) s.agreements }
      return true
    | none =>
      modify fun s => { s with agreements := s.agreements.insert (pair a b) false }
      return false

/-- The state with the items of two states that agree. -/
def join (a b : Nat) : Meeting Nat := do
  if a == b then return a
  let ka ← kernel a
  let kb ← kernel b
  state t (Table.kernelOf (ka ++ kb))

end Automaton

end RouteAtlas.Grammar
