import Mathlib.Data.List.Basic
import Mathlib.Logic.Relation
import RouteAtlas.Proofs.Syntax.Preorder

/-!
# The moves of a walk

A walk is a loop: it enters the node at its cursor, goes to the first child, or else to the next
sibling, or else up to the parent, and keeps count of how many levels it is below its start. Nothing
in the loop says where the start is; that it comes back there and nowhere else follows from the
count being right. Each move keeps it right, so the cursor is always as many levels below the start
as is counted, there is a parent to go up to whenever one is needed, and the loop ends when it has
come back.

## Key results

- `Move.ancestor?`, `Run.ancestor?`: the count is right after every move, and so at any moment
- `run_preorder`: the loop does what the recursion does
- `preorder_logged`: what is entered, and with which state
- `walk_is_preorder`: walks end, stay below their start and enter nodes as the recursion does
-/

namespace RouteAtlas.Syntax

/-- The visitor that keeps a record, too, of the nodes it has entered and of its state before
each. -/
def Visitor.logged {σ : Type} (visit : Visitor σ) : Visitor (σ × List (σ × Cursor)) :=
  fun s c => (((visit s.1 c).1, s.2 ++ [(s.1, c)]), (visit s.1 c).2)

namespace Cursor

/-- The cursor the given number of levels up. -/
def ancestor? : Nat → Cursor → Option Cursor
  | 0, c => some c
  | levels + 1, c => c.parent?.bind (ancestor? levels)

/-! ## Moves -/

/-- A moment of a walk: how many levels it counts below its start, where its cursor is, and its
state. -/
inductive Moment (σ : Type) where
  /-- The node is about to be entered. -/
  | entering (depth : Nat) (place : Cursor) (state : σ)
  /-- All that is to be entered below the node has been entered. -/
  | leaving (depth : Nat) (place : Cursor) (state : σ)

namespace Moment

variable {σ : Type}

/-- The number of levels counted. -/
def depth : Moment σ → Nat
  | entering depth _ _ => depth
  | leaving depth _ _ => depth

/-- Where the cursor is. -/
def place : Moment σ → Cursor
  | entering _ place _ => place
  | leaving _ place _ => place

end Moment

/-- One move of a walk. There is none from a node that is left when no level is counted. -/
inductive Move {σ : Type} (visit : Visitor σ) : Moment σ → Moment σ → Prop where
  /-- The node is entered, and the walk goes down to its first child. -/
  | down {depth : Nat} {c child : Cursor} {s s' : σ} (hvisit : visit s c = (s', .into))
      (hfirst : c.first? = some child) :
      Move visit (.entering depth c s) (.entering (depth + 1) child s')
  /-- The node is entered, and there is nothing to go down to. -/
  | turn {depth : Nat} {c : Cursor} {s s' : σ} {onward : Onward} (hvisit : visit s c = (s', onward))
      (hstay : onward = .past ∨ c.first? = none) :
      Move visit (.entering depth c s) (.leaving depth c s')
  /-- The walk goes on to the next sibling. -/
  | right {depth : Nat} {c next : Cursor} {s : σ} (hnext : c.next? = some next) :
      Move visit (.leaving (depth + 1) c s) (.entering (depth + 1) next s)
  /-- There is no sibling left, and the walk goes up. -/
  | up {depth : Nat} {c p : Cursor} {s : σ} (hlast : c.next? = none)
      (hparent : c.parent? = some p) :
      Move visit (.leaving (depth + 1) c s) (.leaving depth p s)

/-- Any number of moves. -/
abbrev Run {σ : Type} (visit : Visitor σ) : Moment σ → Moment σ → Prop :=
  Relation.ReflTransGen (Move visit)

variable {σ : Type} {visit : Visitor σ} {c : Cursor}

/-! ## Where the cursor is -/

/-- `parent?` leads back from where `first?` leads. -/
private theorem parent?_of_first? {child : Cursor} (h : c.first? = some child) :
    child.parent? = some c := by
  obtain ⟨⟨l, cs⟩, above⟩ := c
  cases cs with
  | nil => exact nomatch h
  | cons n ns =>
    obtain rfl := Option.some.inj h
    rfl

/-- `next?` stays under the same parent. -/
private theorem parent?_of_next? {next : Cursor} (h : c.next? = some next) :
    next.parent? = c.parent? := by
  obtain ⟨n, above⟩ := c
  cases above with
  | nil => exact nomatch h
  | cons f fs =>
    obtain ⟨l, left, right⟩ := f
    cases right with
    | nil => exact nomatch h
    | cons m ms =>
      obtain rfl := Option.some.inj h
      simp [parent?, Frame.fill]

/-- A `Move` keeps the count right. -/
theorem Move.ancestor? {m m' : Moment σ} (h : Move visit m m')
    (hm : m.place.ancestor? m.depth = some c) :
    m'.place.ancestor? m'.depth = some c := by
  -- Down adds a level and a parent, right keeps both, and up takes one of each away.
  cases h with
  | down hvisit hfirst =>
    simp only [Moment.place, Moment.depth, Cursor.ancestor?] at hm ⊢
    rw [parent?_of_first? hfirst]
    exact hm
  | turn hvisit hstay => exact hm
  | right hnext =>
    simp only [Moment.place, Moment.depth, Cursor.ancestor?] at hm ⊢
    rw [parent?_of_next? hnext]
    exact hm
  | up hlast hparent =>
    simp only [Moment.place, Moment.depth, Cursor.ancestor?, hparent] at hm ⊢
    exact hm

/-- At any moment of a `Run` the cursor is as many levels below the start as is counted. -/
theorem Run.ancestor? {m m' : Moment σ} (h : Run visit m m')
    (hm : m.place.ancestor? m.depth = some c) :
    m'.place.ancestor? m'.depth = some c := by
  induction h with
  | refl => exact hm
  | tail _ hmove ih => exact hmove.ancestor? ih

/-! ## The course of the loop -/

/-- There is at most one `Move` at any moment. -/
private theorem move_rightUnique : Relator.RightUnique (Move visit) := by
  intro m a b ha hb
  -- Which move there is depends on the visitor, and then on whether there is a child or a sibling.
  cases ha with
  | down hvisit hfirst =>
    cases hb with
    | down hvisit' hfirst' =>
      obtain ⟨rfl, _⟩ := Prod.mk.inj (hvisit.symm.trans hvisit')
      rw [Option.some.inj (hfirst.symm.trans hfirst')]
    | turn hvisit' hstay =>
      obtain ⟨_, rfl⟩ := Prod.mk.inj (hvisit.symm.trans hvisit')
      simp [hfirst] at hstay
  | turn hvisit hstay =>
    cases hb with
    | down hvisit' hfirst' =>
      obtain ⟨_, rfl⟩ := Prod.mk.inj (hvisit.symm.trans hvisit')
      simp [hfirst'] at hstay
    | turn hvisit' _ =>
      obtain ⟨rfl, _⟩ := Prod.mk.inj (hvisit.symm.trans hvisit')
      rfl
  | right hnext =>
    cases hb with
    | right hnext' => rw [Option.some.inj (hnext.symm.trans hnext')]
    | up hlast' _ => exact nomatch hnext.symm.trans hlast'
  | up hlast hparent =>
    cases hb with
    | right hnext' => exact nomatch hlast.symm.trans hnext'
    | up _ hparent' => rw [Option.some.inj (hparent.symm.trans hparent')]

/-- A `Run` to a moment without a `Move` cannot go on forever. -/
private theorem Run.exists_not_move {m last : Moment σ} (h : Run visit m last)
    (hlast : ∀ m, ¬ Move visit last m) (moments : Nat → Moment σ) (hstart : moments 0 = m) :
    ∃ i, ¬ Move visit (moments i) (moments (i + 1)) := by
  -- There is only one way to go, so the sequence comes to the last moment unless it stops before.
  induction h using Relation.ReflTransGen.head_induction_on generalizing moments with
  | refl => exact ⟨0, hstart ▸ hlast _⟩
  | head hmove _ ih =>
    by_cases hfirst : Move visit (moments 0) (moments 1)
    · rw [hstart] at hfirst
      obtain ⟨i, hi⟩ := ih (fun i => moments (i + 1)) (move_rightUnique hfirst hmove)
      exact ⟨i + 1, hi⟩
    · exact ⟨0, hfirst⟩

/-- A `Run` goes through a row of siblings as `preorderRow` does, and then up to their parent. -/
private theorem run_preorderRow {l : Label} {above : List Frame} {depth : Nat} {n : Node}
    {ns : List Node}
    (hrun : ∀ m ∈ n :: ns, ∀ depth above s,
      Run visit (.entering depth ⟨m, above⟩ s)
        (.leaving depth ⟨m, above⟩ (preorder visit above m s)))
    (left : List Node) (s : σ) :
    Run visit (.entering (depth + 1) ⟨n, ⟨l, left, ns⟩ :: above⟩ s)
      (.leaving depth ⟨.mk l (left.reverse ++ n :: ns), above⟩
        (preorderRow visit l above left (n :: ns) s)) := by
  -- Each sibling is entered and left, and from the last one the loop goes up.
  induction ns generalizing n left s with
  | nil =>
    refine (hrun n List.mem_cons_self (depth + 1) _ s).tail ?_
    exact .up rfl rfl
  | cons m ms ih =>
    have hfirst := hrun n List.mem_cons_self (depth + 1) (⟨l, left, m :: ms⟩ :: above) s
    have hrest := ih (fun k hk => hrun k (List.mem_cons_of_mem n hk)) (n :: left)
      (preorder visit (⟨l, left, m :: ms⟩ :: above) n s)
    rw [List.reverse_cons, List.append_assoc] at hrest
    exact (hfirst.tail (.right rfl)).trans hrest

/-- A `Run` enters the tree of a node as `preorder` does, and leaves the node at the level where it
has entered it. -/
theorem run_preorder (visit : Visitor σ) (n : Node) (depth : Nat) (above : List Frame) (s : σ) :
    Run visit (.entering depth ⟨n, above⟩ s)
      (.leaving depth ⟨n, above⟩ (preorder visit above n s)) := by
  induction n using Node.induction generalizing depth above s with
  | mk l cs ih =>
    cases hvisit : visit s ⟨.mk l cs, above⟩ with
    | mk s' onward =>
      -- The visitor passes the node, or goes into it, where there may be no children.
      cases onward with
      | past =>
        rw [preorder_of_past hvisit]
        exact .single (.turn hvisit (.inl rfl))
      | into =>
        rw [preorder_of_into hvisit]
        cases cs with
        | nil => exact .single (.turn hvisit (.inr rfl))
        | cons c cs => exact .head (.down hvisit rfl) (run_preorderRow ih [] s')

/-! ## What is entered -/

mutual
/-- The nodes that the recursion enters, in order, each with the state before it is entered. -/
def entries (visit : Visitor σ) (above : List Frame) : Node → σ → List (σ × Cursor)
  | .mk l cs, s =>
    (s, ⟨.mk l cs, above⟩) ::
      match visit s ⟨.mk l cs, above⟩ with
      | (_, .past) => []
      | (s', .into) => entriesRow visit l above [] cs s'
/-- The nodes that the recursion enters in a row of siblings. -/
def entriesRow (visit : Visitor σ) (l : Label) (above : List Frame) (left : List Node) :
    List Node → σ → List (σ × Cursor)
  | [], _ => []
  | n :: ns, s =>
    entries visit (⟨l, left, ns⟩ :: above) n s ++
      entriesRow visit l above (n :: left) ns (preorder visit (⟨l, left, ns⟩ :: above) n s)
end

/-- `entries` has just the node, if the visitor passes by what is below it. -/
theorem entries_of_past {above : List Frame} {n : Node} {s s' : σ}
    (h : visit s ⟨n, above⟩ = (s', .past)) :
    entries visit above n s = [(s, ⟨n, above⟩)] := by
  obtain ⟨l, cs⟩ := n
  rw [entries, h]

/-- `entries` goes on with the children of a node that the visitor enters. -/
theorem entries_of_into {above : List Frame} {n : Node} {s s' : σ}
    (h : visit s ⟨n, above⟩ = (s', .into)) :
    entries visit above n s = (s, ⟨n, above⟩) :: entriesRow visit n.label above []
      n.children s' := by
  obtain ⟨l, cs⟩ := n
  rw [entries, h]
  rfl

/-- `logged` notes the node and does what the visitor does. -/
private theorem logged_eq {s s' : σ} {onward : Onward} (h : visit s c = (s', onward))
    (log : List (σ × Cursor)) :
    visit.logged (s, log) c = ((s', log ++ [(s, c)]), onward) := by
  rw [Visitor.logged, h]

/-- `preorderRow` notes `entriesRow`, if `preorder` notes `entries` at each node of the row. -/
private theorem preorderRow_logged {l : Label} {above : List Frame} {ns : List Node}
    (hns : ∀ n ∈ ns, ∀ above s log,
      preorder visit.logged above n (s, log) =
        (preorder visit above n s, log ++ entries visit above n s))
    (left : List Node) (s : σ) (log : List (σ × Cursor)) :
    preorderRow visit.logged l above left ns (s, log) =
      (preorderRow visit l above left ns s, log ++ entriesRow visit l above left ns s) := by
  induction ns generalizing left s log with
  | nil => rw [preorderRow, preorderRow, entriesRow, List.append_nil]
  | cons n ns ih =>
    obtain ⟨hn, hrest⟩ := List.forall_mem_cons.mp hns
    rw [preorderRow, preorderRow, entriesRow, hn, ih hrest, List.append_assoc]

/-- `preorder` notes `entries`, and noting them changes nothing else. -/
theorem preorder_logged (visit : Visitor σ) (n : Node) (above : List Frame) (s : σ)
    (log : List (σ × Cursor)) :
    preorder visit.logged above n (s, log) =
      (preorder visit above n s, log ++ entries visit above n s) := by
  induction n using Node.induction generalizing above s log with
  | mk l cs ih =>
    cases hvisit : visit s ⟨.mk l cs, above⟩ with
    | mk s' onward =>
      -- The record does not decide where the visitor goes on.
      have hlogged := logged_eq hvisit log
      cases onward with
      | past => rw [preorder_of_past hlogged, preorder_of_past hvisit, entries_of_past hvisit]
      | into =>
        have hrow : preorderRow visit.logged l above [] cs (s', log ++ [(s, ⟨.mk l cs, above⟩)]) =
            (_, _) :=
          preorderRow_logged ih [] s' _
        rw [List.append_assoc] at hrow
        rw [preorder_of_into hlogged, preorder_of_into hvisit, entries_of_into hvisit]
        exact hrow

/-! ## Walks -/

/-- The nodes that a walk enters, in order, each with the state before it is entered. -/
def history (visit : Visitor σ) (c : Cursor) (s : σ) : List (σ × Cursor) :=
    (c.walk visit.logged (s, [])).2

/-- `walk` notes `entries`, and noting them changes nothing else. -/
theorem walk_logged (visit : Visitor σ) (c : Cursor) (s : σ) :
    c.walk visit.logged (s, []) = (c.walk visit s, entries visit c.above c.node s) := by
  rw [walk_eq_preorder, walk_eq_preorder, preorder_logged, List.nil_append]

/-- `history` has what `preorder` enters. -/
theorem history_eq_entries (visit : Visitor σ) (c : Cursor) (s : σ) :
    c.history visit s = entries visit c.above c.node s := by
  rw [history, walk_logged]

/-- The state that the visitor makes of a first one at some nodes, one after the other. -/
def stateAfter (visit : Visitor σ) (s : σ) (log : List (σ × Cursor)) : σ :=
    log.foldl (fun s e => (visit s e.2).1) s

/-- A state with a record of how it has come about: the state, and each one in the record, is what
the nodes before it have made of the first. -/
structure Recorded (visit : Visitor σ) (s : σ) (t : σ × List (σ × Cursor)) : Prop where
  state : t.1 = stateAfter visit s t.2
  entry : ∀ before e after, t.2 = before ++ e :: after → e.1 = stateAfter visit s before

/-- `logged` keeps the record right. -/
theorem Recorded.logged {s : σ} {t : σ × List (σ × Cursor)} (h : Recorded visit s t) (d : Cursor) :
    Recorded visit s (visit.logged t d).1 where
  state := by
    simp only [Visitor.logged, stateAfter, List.foldl_append, List.foldl_cons, List.foldl_nil,
      h.state]
  entry := by
    intro before e after heq
    -- The entry is the one just noted, or it was there before.
    rcases List.eq_nil_or_concat' after with rfl | ⟨rest, last, rfl⟩
    · obtain ⟨rfl, hlast⟩ := List.append_inj' heq rfl
      rw [← (List.cons.inj hlast).1]
      exact h.state
    · rw [← List.cons_append, ← List.append_assoc] at heq
      exact h.entry before e rest (List.append_inj' heq rfl).1

/-- The record of a whole `walk` is right. -/
private theorem recorded_walk (visit : Visitor σ) (c : Cursor) (s : σ) :
    Recorded visit s (c.walk visit.logged (s, [])) :=
  walk_keeps_within (fun _ d _ ht => ht.logged d) ⟨rfl, fun _ _ _ heq => absurd heq.symm (by simp)⟩

/-- `walk` comes to what the nodes that are entered make of the first state, one after the other. -/
theorem walk_eq_stateAfter (visit : Visitor σ) (c : Cursor) (s : σ) :
    c.walk visit s = stateAfter visit s (c.history visit s) := by
  have hstate := (recorded_walk visit c s).state
  rw [walk_logged] at hstate
  rw [history_eq_entries]
  exact hstate

/-- The state that `history` has for a node is what the nodes entered before it have made of the
first one. -/
theorem state_eq_of_history {s : σ} {before after : List (σ × Cursor)} {e : σ × Cursor}
    (h : c.history visit s = before ++ e :: after) : e.1 = stateAfter visit s before :=
  (recorded_walk visit c s).entry before e after h

/-- `walk` ends, wherever it starts and whatever the visitor does: from any moment of it the loop
comes back to its start with the state of the walk, where it has no `Move` left, and it cannot go on
forever. At any moment the cursor is as many levels below the start as is counted, so it never
leaves the tree of the start. The state is that of `preorder`, and the nodes are entered in the
order of this recursion, each with the same state. -/
theorem walk_is_preorder (visit : Visitor σ) (c : Cursor) (s : σ) :
    (∀ m, Run visit (.entering 0 c s) m →
      m.place.ancestor? m.depth = some c ∧ Run visit m (.leaving 0 c (c.walk visit s))) ∧
    (∀ m, ¬ Move visit (.leaving 0 c (c.walk visit s)) m) ∧
    (∀ moments : Nat → Moment σ, moments 0 = .entering 0 c s →
      ∃ i, ¬ Move visit (moments i) (moments (i + 1))) ∧
    c.walk visit s = preorder visit c.above c.node s ∧
    c.history visit s = entries visit c.above c.node s := by
  have hrun : Run visit (.entering 0 c s) (.leaving 0 c (c.walk visit s)) := by
    rw [walk_eq_preorder]
    exact run_preorder visit c.node 0 c.above s
  have hlast : ∀ m, ¬ Move visit (.leaving 0 c (c.walk visit s)) m := fun m hmove => nomatch hmove
  refine ⟨fun m hm => ⟨hm.ancestor? rfl, ?_⟩, hlast, hrun.exists_not_move hlast,
    walk_eq_preorder visit c s,
    history_eq_entries visit c s⟩
  -- There is one way to go, so the moment is on the way to the end or past it, and past it is
  -- nothing.
  rcases hm.total_of_right_unique move_rightUnique hrun with hon | hback
  · exact hon
  · rcases hback.cases_head with heq | ⟨m', hmove, _⟩
    · rw [heq]
    · exact absurd hmove (hlast m')

/-- A function with a statement after it. -/
def callAfterFunction : Node :=
  .mk ⟨.program, true, none, ⟨0, 34, 1⟩, "function f() \x7b inner(); \x7d outer();"⟩
    [.mk ⟨.functionDeclaration, true, none, ⟨0, 25, 1⟩, "function f() \x7b inner(); \x7d"⟩
      [.mk ⟨.formalParameters, true, some .parameters, ⟨10, 12, 1⟩, "()"⟩
        [.mk ⟨.other, false, none, ⟨10, 11, 1⟩, "("⟩ [],
          .mk ⟨.other, false, none, ⟨11, 12, 1⟩, ")"⟩ []],
       .mk ⟨.statementBlock, true, some .body, ⟨13, 25, 1⟩, "\x7b inner(); \x7d"⟩
        [.mk ⟨.callExpression, true, none, ⟨15, 22, 1⟩, "inner()"⟩ []]],
     .mk ⟨.expressionStatement, true, none, ⟨26, 34, 1⟩, "outer();"⟩ []]

/-- A visitor that counts and passes by what is below the second node. -/
def passSecond : Visitor Nat := fun count _ => (count + 1, if count = 1 then .past else .into)

/-- The walk of `passSecond` through the function of `callAfterFunction` enters its parameters,
passes by what is in them, and ends after the call in the body: the statement after the function is
not entered. -/
theorem passSecond_walk_is_preorder :
    ∃ f child, (ofRoot callAfterFunction).first? = some f ∧ f.first? = some child ∧
      child.ancestor? 1 = some f ∧
        Run passSecond (.entering 1 child 1) (.leaving 0 f (f.walk passSecond 0)) ∧
      f.walk passSecond 0 = 4 ∧
      (f.history passSecond 0).map (fun e => (e.1, e.2.kind)) =
        [(0, .functionDeclaration), (1, .formalParameters), (2, .statementBlock),
          (3, .callExpression)] := by
  have hplaces : ∃ f child, (ofRoot callAfterFunction).first? = some f ∧ f.first? = some child ∧
      f.walk passSecond 0 = 4 ∧ (f.history passSecond 0).map (fun e => (e.1, e.2.kind)) =
        [(0, .functionDeclaration), (1, .formalParameters), (2, .statementBlock),
          (3, .callExpression)] :=
    ⟨_, _, rfl, rfl, by decide +kernel, by decide +kernel⟩
  obtain ⟨f, child, hf, hchild, hwalk, hhistory⟩ := hplaces
  -- The theorem is applied at the moment after the first move, which leads to the parameters.
  have hdown : Move passSecond (.entering 0 f 0) (.entering 1 child 1) := .down rfl hchild
  obtain ⟨hmoments, _⟩ := walk_is_preorder passSecond f 0
  obtain ⟨hancestor, hrun⟩ := hmoments _ (.single hdown)
  exact ⟨f, child, hf, hchild, hancestor, hrun, hwalk, hhistory⟩

end Cursor

end RouteAtlas.Syntax
