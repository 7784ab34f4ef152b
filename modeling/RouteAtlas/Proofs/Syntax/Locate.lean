import RouteAtlas.Proofs.Syntax.Subtree
import RouteAtlas.Syntax.Locate

/-!
# Functions are found again by their spans

In a tree whose nodes cover their children, and whose siblings stand one after the other, the search
for the span of a function goes down through the nodes that the function is in: to the left of the
one that it has to enter, every sibling ends before the function starts. It ends at the function or
at a node inside it with the same bytes. On the way back up, all nodes have these bytes, so it ends
at a function that has them.

## Key results

- `climbTo_descend`: from below a function with the span, the way up ends at such a function
- `IsSourceTree.exists_locate?`: the span of every function of a tree is located
-/

namespace RouteAtlas.Syntax

open Cursor

/-- The tree is laid out like a source: nodes cover their children, siblings follow each other
without overlap, and no function is empty. -/
structure Node.IsSourceTree (t : Node) : Prop where
  nested : ∀ n ∈ t.subtrees, ∀ c ∈ n.children, n.span.start ≤ c.span.start ∧
    c.span.stop ≤ n.span.stop
  ordered : ∀ n ∈ t.subtrees, n.children.Pairwise fun a b => a.span.stop ≤ b.span.start
  nonempty : ∀ n ∈ t.subtrees, n.kind.isFunction = true → n.span.start < n.span.stop

/-- Nodes of the tree that start at the same byte are on the same line. -/
def Node.LinesByStart (t : Node) : Prop :=
  ∀ n ∈ t.subtrees, ∀ m ∈ t.subtrees, n.span.start = m.span.start → n.span.line = m.span.line

/-- The cursor is at a function of the tree with the bytes of the span. -/
structure Cursor.IsFunctionAt (g : Cursor) (t : Node) (s : Span) : Prop where
  function : g.kind.isFunction = true
  mem : g.node ∈ t.subtrees
  start : g.node.span.start = s.start
  stop : g.node.span.stop = s.stop

variable {t f : Node} {s : Span}

/-- A function with the bytes of `f` has the span of `f`, if lines follow from where nodes start. -/
theorem Cursor.IsFunctionAt.span_eq {g : Cursor} (hg : g.IsFunctionAt t f.span)
    (hlines : t.LinesByStart) (hf : f ∈ t.subtrees) :
    g.node.span = f.span := by
  have hline := hlines g.node hg.mem f hf hg.start
  calc g.node.span = ⟨g.node.span.start, g.node.span.stop, g.node.span.line⟩ := rfl
    _ = ⟨f.span.start, f.span.stop, f.span.line⟩ := by rw [hg.start, hg.stop, hline]

namespace Node

/-- Every part of a tree that `IsSourceTree` is one too. -/
theorem IsSourceTree.of_mem_subtrees (ht : t.IsSourceTree) {n : Node} (hn : n ∈ t.subtrees) :
    n.IsSourceTree where
  nested := fun m hm => ht.nested m (mem_subtrees_trans hm hn)
  ordered := fun m hm => ht.ordered m (mem_subtrees_trans hm hn)
  nonempty := fun m hm => ht.nonempty m (mem_subtrees_trans hm hn)

/-- Every child in a tree that `IsSourceTree` is one too. -/
private theorem IsSourceTree.of_mem_children (ht : t.IsSourceTree) {c : Node}
    (hc : c ∈ t.children) : c.IsSourceTree :=
  ht.of_mem_subtrees (mem_subtrees_of_mem_children hc)

/-- A node covers all of its `subtrees`. -/
private theorem IsSourceTree.covers (ht : t.IsSourceTree) (hf : f ∈ t.subtrees) :
    t.span.start ≤ f.span.start ∧ f.span.stop ≤ t.span.stop := by
  induction t using induction with
  | mk l cs ih =>
    rcases mem_subtrees.mp hf with rfl | ⟨c, hc, hfc⟩
    · exact ⟨Nat.le_refl _, Nat.le_refl _⟩
    · have hchild := ht.nested _ (self_mem_subtrees _) c hc
      have hbelow := ih c hc (ht.of_mem_children hc) hfc
      -- The child covers the node by induction, and is itself covered by its parent.
      omega

end Node

/-! ## The way up -/

/-- `climbTo` the span of a function stops at the function. -/
private theorem climbTo_self (hfunction : f.kind.isFunction = true) (above : List Frame) :
    climbTo f.span f above = some ⟨f, above⟩ := by
  unfold climbTo
  rw [if_pos (by simpa using hfunction)]

/-- `climbTo` comes to a function from a child with the bytes of the span, if it does from the
parent. -/
private theorem climbTo_of_fill {c : Node} {frame : Frame} {above : List Frame}
    (hmem : c ∈ t.subtrees) (hstart : c.span.start = s.start) (hstop : c.span.stop = s.stop)
    (hup : ∃ g, climbTo s (frame.fill c) above = some g ∧ g.IsFunctionAt t s) :
    ∃ g, climbTo s c (frame :: above) = some g ∧ g.IsFunctionAt t s := by
  unfold climbTo
  split
  · rename_i hfunction
    simp only [Bool.and_eq_true] at hfunction
    exact ⟨_, rfl, hfunction.1.1, hmem, hstart, hstop⟩
  · -- A node with just these bytes does not reach beyond the span, so the climb goes on.
    have hinside : ¬ (decide (c.span.start < s.start) || decide (s.stop < c.span.stop)) = true := by
      simp [hstart, hstop]
    rw [if_neg hinside]
    exact hup

/-- Wherever `descend` goes from a node with the bytes of the span, `climbTo` comes to a function
with these bytes if it does from that node. -/
theorem climbTo_descend {n : Node} (hn : n.IsSourceTree) (hmem : n ∈ t.subtrees)
    (hstart : n.span.start = s.start) (hstop : n.span.stop = s.stop) {above : List Frame}
    (hup : ∃ g, climbTo s n above = some g ∧ g.IsFunctionAt t s) :
    ∃ g, climbTo s (descend s.start s.stop above n).node (descend s.start s.stop above n).above =
      some g ∧
      g.IsFunctionAt t s := by
  induction n using Node.induction generalizing above with
  | mk l cs ih =>
    rw [descend]
    -- The part of the row that is still to be looked at, with what is to the left of it.
    suffices hrow : ∀ left ns, left.reverse ++ ns = cs →
        ∃ g, climbTo s (descendRow s.start s.stop l above ⟨.mk l cs, above⟩ left ns).node
          (descendRow s.start s.stop l above ⟨.mk l cs, above⟩ left ns).above = some g ∧
          g.IsFunctionAt t s from hrow [] cs rfl
    intro left ns hcs
    induction ns generalizing left with
    | nil => exact hup
    | cons c ns ihrow =>
      rw [descendRow]
      split
      · exact ihrow (c :: left) (by simpa using hcs)
      · rename_i hcover
        split
        · exact hup
        · rename_i hafter
          -- A child that covers the span lies inside it, so it has the same bytes.
          have hc : c ∈ (Node.mk l cs).children := by
            show c ∈ cs
            rw [← hcs]
            simp
          have hchild := hn.nested _ (Node.self_mem_subtrees _) c hc
          simp only [Bool.or_eq_true, decide_eq_true_eq, not_or, Nat.not_lt] at hcover hafter
          have hcstart : c.span.start = s.start := by omega
          have hcstop : c.span.stop = s.stop := by omega
          have hcmem : c ∈ t.subtrees :=
            Node.mem_subtrees_trans (Node.mem_subtrees_of_mem_children hc) hmem
          refine ih c hc (hn.of_mem_children hc) hcmem hcstart hcstop ?_
          refine climbTo_of_fill hcmem hcstart hcstop ?_
          rw [Frame.fill, hcs]
          exact hup

/-! ## The way down -/

/-- `descendRow` passes by nodes that end before the span. -/
private theorem descendRow_append {lo hi : Nat} {l : Label} {above : List Frame} {fallback : Cursor}
    {left before : List Node} (hbefore : ∀ n ∈ before, n.span.stop ≤ lo) (ns : List Node) :
    descendRow lo hi l above fallback left (before ++ ns) =
      descendRow lo hi l above fallback (before.reverse ++ left) ns := by
  induction before generalizing left with
  | nil => rfl
  | cons n before ih =>
    obtain ⟨hn, hrest⟩ := List.forall_mem_cons.mp hbefore
    rw [List.cons_append, descendRow, if_pos (by simp [hn]), ih hrest]
    simp

/-- `descendRow` enters the sibling that a node with the bytes is in. -/
private theorem descendRow_enter {lo hi : Nat} {l : Label} {above : List Frame} {fallback : Cursor}
    {before after : List Node} {c : Node} (hbefore : ∀ n ∈ before, n.span.stop ≤ lo)
    (hlo : c.span.start ≤ lo) (hhi : hi ≤ c.span.stop) (hlt : lo < hi) :
    descendRow lo hi l above fallback [] (before ++ c :: after) =
      descend lo hi (⟨l, before.reverse, after⟩ :: above) c := by
  rw [descendRow_append hbefore, List.append_nil, descendRow, if_neg, if_neg (Nat.not_lt.mpr hlo)]
  simp only [Bool.or_eq_true, decide_eq_true_eq, not_or]
  omega

/-- `descend` and then `climbTo` come to a function with the bytes of a function of the tree. -/
private theorem exists_climbTo_descend (ht : t.IsSourceTree) (hf : f ∈ t.subtrees)
    (hfunction : f.kind.isFunction = true) (above : List Frame) :
    ∃ g, climbTo f.span (descend f.span.start f.span.stop above t).node
      (descend f.span.start f.span.stop above t).above = some g ∧ g.IsFunctionAt t f.span := by
  -- The tree that the function is found in stays the same while the search goes down.
  suffices hroot : ∀ root, t ∈ root.subtrees →
    ∃ g, climbTo f.span (descend f.span.start f.span.stop above t).node
      (descend f.span.start f.span.stop above t).above = some g ∧ g.IsFunctionAt root f.span from
    hroot t t.self_mem_subtrees
  intro root hroot
  induction t using Node.induction generalizing above with
  | mk l cs ih =>
    rcases Node.mem_subtrees.mp hf with rfl | ⟨c, hc, hfc⟩
    · -- The function itself: from here the way up has no step to go.
      exact climbTo_descend ht hroot rfl rfl
        ⟨_, climbTo_self hfunction above, hfunction, hroot, rfl, rfl⟩
    · have hchild : c.IsSourceTree := ht.of_mem_children hc
      have hcover := hchild.covers hfc
      have hlt := hchild.nonempty f hfc hfunction
      obtain ⟨before, after, rfl⟩ : ∃ before after, cs = before ++ c :: after :=
        List.append_of_mem hc
      -- To the left of the child that has the function, all has ended before it.
      have hbefore : ∀ n ∈ before, n.span.stop ≤ f.span.start := by
        have hordered := List.pairwise_append.mp (ht.ordered _ (Node.self_mem_subtrees _))
        intro n hn
        exact Nat.le_trans (hordered.2.2 n hn c List.mem_cons_self) hcover.1
      rw [descend, descendRow_enter hbefore hcover.1 hcover.2 hlt]
      exact ih c hc hchild hfc _
        (Node.mem_subtrees_trans (Node.mem_subtrees_of_mem_children hc) hroot)

/-- `locate?` finds the span of every function of a tree, at a function of the tree with the same
bytes. -/
theorem Node.IsSourceTree.exists_locate? (ht : t.IsSourceTree) (hf : f ∈ t.subtrees)
    (hfunction : f.kind.isFunction = true) :
    ∃ g, (Cursor.ofRoot t).locate? f.span = some g ∧ g.IsFunctionAt t f.span :=
  exists_climbTo_descend ht hf hfunction []

end RouteAtlas.Syntax
