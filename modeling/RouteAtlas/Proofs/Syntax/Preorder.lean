import RouteAtlas.Proofs.Syntax.Subtree
import RouteAtlas.Syntax.Walk

/-!
# Walks as a recursion

A walk moves one cursor and counts levels. It comes to the same as the recursion that enters a node
and then, unless the visitor passes by, goes through the children from left to right.

What the walk has still to do at some point is to go through the siblings to the right of its
cursor, then through those of the parent, and so on for as many levels as it has counted. `finish`
does that by recursion, and the steps that are left are enough for it as long as they are no fewer
than the nodes to be entered.

## Key results

- `walk_eq_preorder`: a walk is the recursion
- `walk_keeps_within`: what every visit to a node of the tree keeps, a walk keeps
-/

namespace RouteAtlas.Syntax.Cursor

variable {σ : Type} {visit : Visitor σ}

mutual
/-- Enters a node and then goes through its children, unless the visitor passes by. -/
def preorder (visit : Visitor σ) (above : List Frame) : Node → σ → σ
  | .mk l cs, s =>
    match visit s ⟨.mk l cs, above⟩ with
    | (s, .past) => s
    | (s, .into) => preorderRow visit l above [] cs s
/-- Goes through some nodes that stand in a row under a common parent. -/
def preorderRow (visit : Visitor σ) (l : Label) (above : List Frame) (left : List Node) :
    List Node → σ → σ
  | [], s => s
  | n :: ns, s =>
    preorderRow visit l above (n :: left) ns (preorder visit (⟨l, left, ns⟩ :: above) n s)
end

/-- `preorder` stops at a node that the visitor passes by. -/
theorem preorder_of_past {above : List Frame} {n : Node} {s s' : σ}
    (h : visit s ⟨n, above⟩ = (s', .past)) :
    preorder visit above n s = s' := by
  obtain ⟨l, cs⟩ := n
  rw [preorder, h]

/-- `preorder` goes through the children of a node that the visitor enters. -/
theorem preorder_of_into {above : List Frame} {n : Node} {s s' : σ}
    (h : visit s ⟨n, above⟩ = (s', .into)) :
    preorder visit above n s = preorderRow visit n.label above [] n.children s' := by
  obtain ⟨l, cs⟩ := n
  rw [preorder, h]
  rfl

/-! ## What is left to do -/

/-- Goes through what is to the right of a node, for a number of levels up. -/
def finish (visit : Visitor σ) : Nat → List Frame → Node → σ → σ
  | 0, _, _, s => s
  | _ + 1, [], _, s => s
  | depth + 1, f :: fs, n, s =>
    finish visit depth fs (f.fill n) (preorderRow visit f.label fs (n :: f.left) f.right s)

/-- The number of nodes to the right, for a number of levels up. -/
def remaining : Nat → List Frame → Nat
  | 0, _ => 0
  | _ + 1, [] => 0
  | depth + 1, f :: fs => Node.sizes f.right + remaining depth fs

/-- `size` counts a node and the nodes below it. -/
private theorem size_eq (n : Node) : n.size = Node.sizes n.children + 1 := by
  obtain ⟨l, cs⟩ := n
  rfl

/-- Leaving a node: the walk goes on with the node that comes after everything below it. -/
def goOn (visit : Visitor σ) (steps depth : Nat) (c : Cursor) (s : σ) : σ :=
  (leave? depth c).elim s fun next => walkSteps visit steps next.1 next.2 s

/-- `walkSteps` leaves a node that the visitor passes by. -/
private theorem walkSteps_of_past {steps depth : Nat} {c : Cursor} {s s' : σ}
    (h : visit s c = (s', .past)) :
    walkSteps visit (steps + 1) depth c s = goOn visit steps depth c s' := by
  rw [walkSteps, h, goOn]
  cases leave? depth c <;> rfl

/-- `walkSteps` leaves a node without children. -/
private theorem walkSteps_of_leaf {steps depth : Nat} {c : Cursor} {s s' : σ}
    (h : visit s c = (s', .into)) (hfirst : c.first? = none) :
    walkSteps visit (steps + 1) depth c s = goOn visit steps depth c s' := by
  rw [walkSteps, h, goOn]
  simp only [hfirst]
  cases leave? depth c <;> rfl

/-- `walkSteps` goes down to the first child of a node that the visitor enters. -/
private theorem walkSteps_of_first? {steps depth : Nat} {c child : Cursor} {s s' : σ}
    (h : visit s c = (s', .into)) (hfirst : c.first? = some child) :
    walkSteps visit (steps + 1) depth c s = walkSteps visit steps (depth + 1) child s' := by
  rw [walkSteps, h]
  simp only [hfirst]

/-- `goOn` does what `finish` does, if `walkSteps` does so with the steps that are left. -/
private theorem goOn_eq_finish {steps : Nat}
    (hsteps : ∀ depth above n s, n.size + remaining depth above ≤ steps →
      walkSteps visit steps depth ⟨n, above⟩ s = finish visit depth above n
        (preorder visit above n s))
    {depth : Nat} {above : List Frame} (hleft : remaining depth above ≤ steps) (n : Node) (s : σ) :
    goOn visit steps depth ⟨n, above⟩ s = finish visit depth above n s := by
  -- By induction on the levels that are left: leaving a last child is leaving its parent.
  induction depth generalizing above n with
  | zero => rfl
  | succ depth ih =>
    cases above with
    | nil => rfl
    | cons f fs =>
      obtain ⟨l, left, right⟩ := f
      cases right with
      | nil =>
        -- The last child of its parent: the parent is left as well.
        have hparent : remaining depth fs ≤ steps := by
          simpa [remaining, Node.sizes] using hleft
        exact ih hparent (Frame.fill ⟨l, left, []⟩ n)
      | cons m ms =>
        -- The next sibling takes its place among those to the left, and the nodes to come are the
        -- same.
        have henough : m.size + remaining (depth + 1) (⟨l, n :: left, ms⟩ :: fs) ≤ steps := by
          simp only [remaining, Node.sizes] at hleft ⊢
          omega
        have hfill : Frame.fill ⟨l, n :: left, ms⟩ m = Frame.fill ⟨l, left, m :: ms⟩ n := by
          simp [Frame.fill]
        show walkSteps visit steps (depth + 1) ⟨m, ⟨l, n :: left, ms⟩ :: fs⟩ s = _
        rw [hsteps (depth + 1) _ m s henough, finish, hfill, finish, preorderRow]

/-- `walkSteps`, with enough steps left, enters the tree at the node and then what is to the right
of it. -/
private theorem walkSteps_eq_finish {steps depth : Nat} {above : List Frame} {n : Node} {s : σ}
    (hsteps : n.size + remaining depth above ≤ steps) :
    walkSteps visit steps depth ⟨n, above⟩ s = finish visit depth above n
      (preorder visit above n s) := by
  -- One step enters one node, so the nodes that are left are no more than the steps that are left.
  induction steps generalizing depth above n s with
  | zero =>
    rw [size_eq] at hsteps
    omega
  | succ steps ih =>
    have hleft : remaining depth above ≤ steps := by
      rw [size_eq] at hsteps
      omega
    have hgoOn := goOn_eq_finish (fun depth above n s h => ih h) hleft n
    cases hvisit : visit s ⟨n, above⟩ with
    | mk s' onward =>
      cases onward with
      | past => rw [preorder_of_past hvisit, walkSteps_of_past hvisit, hgoOn]
      | into =>
        rw [preorder_of_into hvisit]
        obtain ⟨l, cs⟩ := n
        cases cs with
        | nil =>
          rw [walkSteps_of_leaf hvisit rfl, hgoOn]
          rfl
        | cons c cs =>
          -- Going down, the siblings of the first child become what is to the right.
          have henough : c.size + remaining (depth + 1) (⟨l, [], cs⟩ :: above) ≤ steps := by
            simp only [Node.size, Node.sizes, remaining] at hsteps ⊢
            omega
          rw [walkSteps_of_first? hvisit rfl, ih henough]
          rfl

/-- `walk` enters the nodes of the tree at the cursor as `preorder` does. -/
theorem walk_eq_preorder (visit : Visitor σ) (c : Cursor) (s : σ) :
    c.walk visit s = preorder visit c.above c.node s :=
  walkSteps_eq_finish (Nat.le_refl _)

/-! ## What walks keep -/

/-- `preorderRow` keeps what `preorder` keeps at each node of the row. -/
private theorem preorderRow_keeps {P : σ → Prop} {l : Label} {above : List Frame} {ns : List Node}
    (hns : ∀ n ∈ ns, ∀ above s, P s → P (preorder visit above n s)) {left : List Node} {s : σ}
    (hs : P s) :
    P (preorderRow visit l above left ns s) := by
  induction ns generalizing left s with
  | nil => exact hs
  | cons n ns ih =>
    obtain ⟨hn, hrest⟩ := List.forall_mem_cons.mp hns
    rw [preorderRow]
    exact ih hrest (hn _ _ hs)

/-- `preorder` keeps what every visit to a node of the tree keeps. -/
private theorem preorder_keeps {P : σ → Prop} {n : Node}
    (hvisit : ∀ s c, c.node ∈ n.subtrees → P s → P (visit s c).1) {above : List Frame} {s : σ}
    (hs : P s) :
    P (preorder visit above n s) := by
  induction n using Node.induction generalizing above s with
  | mk l cs ih =>
    -- The node itself first, then its children, whose trees are parts of this one.
    have hentered := hvisit s ⟨.mk l cs, above⟩ (Node.self_mem_subtrees _) hs
    cases h : visit s ⟨.mk l cs, above⟩ with
    | mk s' onward =>
      rw [h] at hentered
      cases onward with
      | past => rwa [preorder_of_past h]
      | into =>
        rw [preorder_of_into h]
        refine preorderRow_keeps (fun c hc above s hs => ih c hc (fun s d hd => ?_) hs) hentered
        exact hvisit s d (Node.mem_subtrees_trans hd (Node.mem_subtrees_of_mem_children hc))

/-- `walk` keeps what every visit to a node of the tree at the cursor keeps. -/
theorem walk_keeps_within {P : σ → Prop} {c : Cursor}
    (hvisit : ∀ s d, d.node ∈ c.node.subtrees → P s → P (visit s d).1) {s : σ} (hs : P s) :
    P (c.walk visit s) := by
  rw [walk_eq_preorder]
  exact preorder_keeps hvisit hs

end RouteAtlas.Syntax.Cursor
