import Mathlib.Logic.Relation
import RouteAtlas.Proofs.Syntax.Subtree
import RouteAtlas.Syntax.Cursor

/-!
# Wrappers around an expression

There are two ways through the wrappers around an expression. The way in goes from a wrapper to its
first named child, whatever that is, and the way out from a node to its parent, if that is a
wrapper. Each is taken for as long as there is a step. A step in is a step out backwards, though not
the other way round: a wrapper can hold more than one named child. So the way out from where the way
in has ended comes back to the start, and it ends there unless the start is itself in a wrapper.

The node where the way out ends is one that its parent holds for some part. Whether it is the very
node that the parent gives for the part can be told from its siblings to the left.

## Key results

- `unwrap_eq_iff`, `wrapped_eq_iff`: where the two ways end
- `wrappedIn_of_enters`: the way in, backwards, is a way out
- `find?_children_eq_some_iff`, `plays_iff`, `isFirstContent_iff`: the node is the one that its
  parent gives
-/

namespace RouteAtlas.Syntax.Cursor

variable {b c p w : Cursor} {l : Label} {above : List Frame} {left ns : List Node}

/-- The first named child. A comment is a named child as well. -/
def firstNamed? (c : Cursor) : Option Cursor := c.children.find? (·.node.label.named)

/-- The first named child that is no comment. -/
def firstContent? (c : Cursor) : Option Cursor := c.children.find? (·.node.isContent)

/-- One step in: from a wrapper to its first named child. -/
def Enters (p c : Cursor) : Prop := p.kind.isTransparent = true ∧ p.firstNamed? = some c

/-- One step out: from a node to the wrapper that is its parent. -/
def Leaves (c p : Cursor) : Prop := c.parent? = some p ∧ p.kind.isTransparent = true

/-- Any number of steps out: between the first node and the second, which may be the same, there are
only wrappers. -/
abbrev WrappedIn : Cursor → Cursor → Prop := Relation.ReflTransGen Leaves

/-- The node has no parent, or one that is no wrapper. -/
def IsOutermost (c : Cursor) : Prop := ∀ p, c.parent? = some p → p.kind.isTransparent = false

/-- `parent?` fills the first gap on the way up. -/
private theorem exists_frame_of_parent? (h : c.parent? = some p) :
    ∃ (n : Node) (f : Frame) (above : List Frame), c = ⟨n, f :: above⟩ ∧ p = ⟨f.fill n, above⟩ := by
  obtain ⟨n, above⟩ := c
  cases above with
  | nil => exact nomatch h
  | cons f fs => exact ⟨n, f, fs, rfl, (Option.some.inj h).symm⟩

/-! ## The way out -/

/-- `wrapped` is the same from a node and from the wrapper around it. -/
private theorem wrapped_of_leaves (h : c.Leaves p) : c.wrapped = p.wrapped := by
  obtain ⟨hparent, hwrapper⟩ := h
  obtain ⟨n, f, above, rfl, rfl⟩ := exists_frame_of_parent? hparent
  exact if_pos hwrapper

/-- `wrapped` stays at a node that is in no wrapper. -/
private theorem wrapped_of_isOutermost (h : c.IsOutermost) : c.wrapped = c := by
  obtain ⟨n, above⟩ := c
  cases above with
  | nil => rfl
  | cons f fs => exact if_neg (ne_true_of_eq_false (h ⟨f.fill n, fs⟩ rfl))

/-- `wrapped` is the same from all nodes on the way out. -/
private theorem WrappedIn.wrapped_eq (h : b.WrappedIn w) : b.wrapped = w.wrapped := by
  induction h using Relation.ReflTransGen.head_induction_on with
  | refl => rfl
  | head hstep _ ih => exact (wrapped_of_leaves hstep).trans ih

/-- `climbWrappers` takes steps out as long as there is one. -/
private theorem climbWrappers_spec (n : Node) (above : List Frame) :
    WrappedIn ⟨n, above⟩ (climbWrappers n above) ∧ (climbWrappers n above).IsOutermost := by
  induction above generalizing n with
  | nil => exact ⟨.refl, nofun⟩
  | cons f fs ih =>
    rw [climbWrappers]
    -- A wrapper is one step, and the rest of the way is that from the wrapper.
    by_cases hwrapper : f.label.kind.isTransparent = true
    · rw [if_pos hwrapper]
      obtain ⟨hway, hend⟩ := ih (f.fill n)
      exact ⟨.head ⟨rfl, hwrapper⟩ hway, hend⟩
    · rw [if_neg hwrapper]
      refine ⟨.refl, fun p hp => ?_⟩
      obtain rfl := Option.some.inj hp
      exact Bool.eq_false_iff.mpr hwrapper

/-- `wrapped` is the one node on the way out whose parent is no wrapper. -/
theorem wrapped_eq_iff : b.wrapped = w ↔ b.WrappedIn w ∧ w.IsOutermost := by
  constructor
  · rintro rfl
    exact climbWrappers_spec b.node b.above
  · rintro ⟨hway, hend⟩
    exact hway.wrapped_eq.trans (wrapped_of_isOutermost hend)

/-! ## Children -/

/-- `parent?` of all cursors of a `row` is the node with this row. -/
private theorem parent?_of_mem_row (h : c ∈ row l above left ns) :
    c.parent? = some ⟨.mk l (left.reverse ++ ns), above⟩ := by
  induction ns generalizing left with
  | nil => exact absurd h List.not_mem_nil
  | cons n ns ih =>
    rcases List.mem_cons.mp h with rfl | hlater
    · rfl
    · simpa using ih hlater

/-- `parent?` of the children is the node. -/
private theorem parent?_of_mem_children (h : c ∈ p.children) : c.parent? = some p := by
  obtain ⟨⟨l, cs⟩, above⟩ := p
  exact parent?_of_mem_row h

/-- A `row` from some node on, and the cursors before it. Each of those has fewer siblings to the
left. -/
private theorem exists_row_append (l : Label) (above : List Frame) (ms ns left : List Node) :
    ∃ before, row l above left (ms ++ ns) = before ++ row l above (ms.reverse ++ left) ns ∧
      before.map (·.node) = ms ∧ ∀ d ∈ before, d.leftSiblings.length < left.length + ms.length := by
  -- Each node that is passed goes over to the left of those after it.
  induction ms generalizing left with
  | nil => exact ⟨[], rfl, rfl, fun d hd => absurd hd List.not_mem_nil⟩
  | cons m ms ih =>
    obtain ⟨before, hrow, hnodes, hless⟩ := ih (m :: left)
    refine ⟨⟨m, ⟨l, left, ms ++ ns⟩ :: above⟩ :: before, ?_, ?_, fun d hd => ?_⟩
    · rw [List.cons_append, row, hrow, List.cons_append, List.reverse_cons, List.append_assoc,
        List.singleton_append]
    · rw [List.map_cons, hnodes]
    · rw [List.length_cons]
      rcases List.mem_cons.mp hd with rfl | hlater
      · show left.length < _
        omega
      · have hlength := hless d hlater
        rw [List.length_cons] at hlength
        omega

/-- A node stands once among the `children` of its parent, after its siblings to the left. -/
private theorem exists_children_eq_append (h : c.parent? = some p) :
    ∃ before after, p.children = before ++ c :: after ∧
      before.map (·.node) = c.leftSiblings.reverse ∧ c ∉ before := by
  obtain ⟨n, ⟨l, left, right⟩, above, rfl, rfl⟩ := exists_frame_of_parent? h
  obtain ⟨before, hrow, hnodes, hless⟩ := exists_row_append l above left.reverse (n :: right) []
  rw [List.reverse_reverse, List.append_nil, row] at hrow
  refine ⟨before, row l above (n :: left) right, hrow, hnodes, fun hmem => ?_⟩
  -- The same node could stand twice among the children, but not with the same siblings to the left.
  have hlength : left.length < [].length + left.reverse.length := hless _ hmem
  simp at hlength

/-- A node is the first of its parent's `children` with a property if it has it and no sibling to
the left does. -/
theorem find?_children_eq_some_iff (h : c.parent? = some p) (q : Node → Bool) :
    p.children.find? (fun d => q d.node) = some c ↔ q c.node = true ∧
      c.leftSiblings.all (fun n => !q n) = true := by
  obtain ⟨before, after, hchildren, hbefore, hnot⟩ := exists_children_eq_append h
  -- The siblings to the left are the children before, in the other direction.
  have hall : c.leftSiblings.all (fun n => !q n) = true ↔ ∀ d ∈ before, ¬ q d.node = true := by
    rw [← List.all_reverse, ← hbefore]
    simp
  rw [hchildren, hall, List.find?_append]
  cases hfirst : before.find? (fun d => q d.node) with
  | some d =>
    -- A child further to the left has the property, and it is another one.
    have hd : d ∈ before := List.mem_of_find?_eq_some hfirst
    constructor
    · intro hfound
      obtain rfl := Option.some.inj hfound
      exact absurd hd hnot
    · rintro ⟨_, hnone⟩
      exact absurd (List.find?_some hfirst) (hnone d hd)
  | none =>
    have hnone : ∀ d ∈ before, ¬ q d.node = true := List.find?_eq_none.mp hfirst
    rw [Option.none_or, List.find?_cons]
    cases hq : q c.node with
    | true => simpa using hnone
    | false =>
      constructor
      · intro hfound
        exact absurd (List.find?_some hfound) (ne_true_of_eq_false hq)
      · rintro ⟨hpos, _⟩
        exact nomatch hpos

/-- `plays` holds of the child that `child?` gives. -/
theorem plays_iff (h : c.parent? = some p) (r : Role) : c.plays r = true ↔ p.child? r = some c := by
  rw [plays, Bool.and_eq_true]
  exact (find?_children_eq_some_iff h fun n => n.role == some r).symm

/-- `isFirstContent` holds of the child that `firstContent?` gives. -/
theorem isFirstContent_iff (h : c.parent? = some p) :
    c.isFirstContent = true ↔ p.firstContent? = some c := by
  rw [isFirstContent, Bool.and_eq_true]
  exact (find?_children_eq_some_iff h Node.isContent).symm

/-! ## The way in -/

/-- `unwrapRow` goes on with the first named node of a `row`. -/
private theorem unwrapRow_eq (fallback : Cursor) (left ns : List Node) :
    unwrapRow l above fallback left ns =
      (((row l above left ns).find? (·.node.label.named)).map unwrap).getD fallback := by
  induction ns generalizing left with
  | nil => rw [unwrapRow, row, List.find?_nil, Option.map_none, Option.getD_none]
  | cons n ns ih =>
    rw [unwrapRow, row]
    by_cases hnamed : n.label.named = true
    · rw [if_pos hnamed, List.find?_cons_of_pos (by exact hnamed)]
      rfl
    · rw [if_neg hnamed, List.find?_cons_of_neg (by exact hnamed), ih]

/-- `unwrap` of a wrapper goes on with its first named child. -/
private theorem unwrap_eq (c : Cursor) :
    c.unwrap = if c.kind.isTransparent then (c.firstNamed?.map unwrap).getD c else c := by
  obtain ⟨⟨l, cs⟩, above⟩ := c
  rw [unwrap, unwrapNode, unwrapRow_eq]
  rfl

/-- `unwrap` is the same from a wrapper and from what it holds. -/
private theorem unwrap_of_enters (h : p.Enters c) : p.unwrap = c.unwrap := by
  obtain ⟨hwrapper, hfirst⟩ := h
  rw [unwrap_eq, if_pos hwrapper, hfirst, Option.map_some, Option.getD_some]

/-- `unwrap` stays at a node from which there is no step in. -/
private theorem unwrap_of_not_enters (h : ∀ c, ¬ p.Enters c) : p.unwrap = p := by
  rw [unwrap_eq]
  by_cases hwrapper : p.kind.isTransparent = true
  · -- A wrapper without a named child leads nowhere.
    have hnone : p.firstNamed? = none := Option.eq_none_iff_forall_ne_some.mpr fun c hc =>
      h c ⟨hwrapper, hc⟩
    rw [if_pos hwrapper, hnone, Option.map_none, Option.getD_none]
  · rw [if_neg hwrapper]

private theorem Enters.leaves (h : p.Enters c) : c.Leaves p :=
  ⟨parent?_of_mem_children (List.mem_of_find?_eq_some h.2), h.1⟩

/-- The way in, backwards, is a way out. -/
theorem wrappedIn_of_enters (h : Relation.ReflTransGen Enters w b) : b.WrappedIn w := by
  induction h with
  | refl => exact .refl
  | tail _ hstep ih => exact .head hstep.leaves ih

/-- `unwrap` is the same from all nodes on the way in. -/
private theorem unwrap_eq_of_enters (h : Relation.ReflTransGen Enters w b) :
    w.unwrap = b.unwrap := by
  induction h with
  | refl => rfl
  | tail _ hstep ih => exact ih.trans (unwrap_of_enters hstep)

/-- A step in goes to a child. -/
private theorem Enters.node_mem_children (h : p.Enters c) : c.node ∈ p.node.children := by
  obtain ⟨n, f, above, rfl, rfl⟩ := exists_frame_of_parent? h.leaves.1
  simp [Frame.fill, Node.children]

/-- `unwrapNode` takes steps in as long as there is one. -/
private theorem unwrapNode_spec (n : Node) (above : List Frame) :
    Relation.ReflTransGen Enters ⟨n, above⟩ (unwrapNode above n) ∧
      ∀ c, ¬ (unwrapNode above n).Enters c := by
  induction n using Node.induction generalizing above with
  | mk l cs ih =>
    -- A step in goes to a child, so the way in from there is the one that the induction is about.
    by_cases hstep : ∃ c, Enters ⟨.mk l cs, above⟩ c
    · obtain ⟨c, hc⟩ := hstep
      have hsame : unwrapNode above (.mk l cs) = unwrapNode c.above c.node := unwrap_of_enters hc
      obtain ⟨hway, hend⟩ := ih c.node hc.node_mem_children c.above
      rw [hsame]
      exact ⟨.head hc hway, hend⟩
    · have hnone : ∀ c, ¬ Enters ⟨.mk l cs, above⟩ c := not_exists.mp hstep
      have hsame : unwrapNode above (.mk l cs) = ⟨.mk l cs, above⟩ := unwrap_of_not_enters hnone
      rw [hsame]
      exact ⟨.refl, hnone⟩

/-- `unwrap` is the one node on the way in that is no wrapper or holds no named child. -/
theorem unwrap_eq_iff : w.unwrap = b ↔ Relation.ReflTransGen Enters w b ∧ ∀ c, ¬ b.Enters c := by
  constructor
  · rintro rfl
    exact unwrapNode_spec w.node w.above
  · rintro ⟨hway, hend⟩
    exact (unwrap_eq_of_enters hway).trans (unwrap_of_not_enters hend)

/-- `unwrapRow` leads to the node that `Node.unwrapAmong` gives. -/
private theorem node_unwrapRow (hns : ∀ n ∈ ns, ∀ above, (unwrapNode above n).node = n.unwrap)
    (fallback : Cursor) (left : List Node) :
    (unwrapRow l above fallback left ns).node =
    Node.unwrapAmong fallback.node ns := by
  induction ns generalizing left with
  | nil => rw [unwrapRow, Node.unwrapAmong]
  | cons n ns ih =>
    obtain ⟨hn, hrest⟩ := List.forall_mem_cons.mp hns
    rw [unwrapRow, Node.unwrapAmong]
    by_cases hnamed : n.label.named = true
    · rw [if_pos hnamed, if_pos hnamed, hn]
    · rw [if_neg hnamed, if_neg hnamed, ih hrest]

/-- `unwrapNode` leads to the node that `Node.unwrap` gives. -/
private theorem node_unwrapNode (n : Node) (above : List Frame) :
    (unwrapNode above n).node = n.unwrap := by
  -- Both recursions take the same child, and the way up plays no part in that.
  induction n using Node.induction generalizing above with
  | mk l cs ih =>
    rw [unwrapNode, Node.unwrap]
    by_cases hwrapper : l.kind.isTransparent = true
    · rw [if_pos hwrapper, if_pos hwrapper, node_unwrapRow ih]
    · rw [if_neg hwrapper, if_neg hwrapper]

/-- `unwrap` leads to the same node whether its place is kept or not. -/
theorem node_unwrap (c : Cursor) : c.unwrap.node = c.node.unwrap := node_unwrapNode c.node c.above

end RouteAtlas.Syntax.Cursor
