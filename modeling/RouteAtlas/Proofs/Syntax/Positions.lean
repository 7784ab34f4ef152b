import RouteAtlas.Proofs.Syntax.Moves

/-!
# The positions of a tree

The positions of a tree are its nodes, each with the way back to the root, in source order: parents
before children and left before right. A walk enters all of them, unless its visitor passes by what
is below some nodes. If the visitor decides that by the kind of the node alone, the positions that
are entered are those without such a node above them, whatever the state of the walk.

## Key results

- `map_node_positions`: the positions are those of the nodes of the tree
- `map_history_eq_filter`: the positions that a walk enters
-/

namespace RouteAtlas.Syntax.Cursor

mutual
/-- The position of a node, and those of the nodes below it. -/
def positionsAt (above : List Frame) : Node → List Cursor
  | .mk l cs => ⟨.mk l cs, above⟩ :: positionsAmong l above [] cs
/-- The positions of some nodes that stand in a row under a common parent, and of the nodes below
them. -/
def positionsAmong (l : Label) (above : List Frame) (left : List Node) : List Node → List Cursor
  | [] => []
  | n :: ns => positionsAt (⟨l, left, ns⟩ :: above) n ++ positionsAmong l above (n :: left) ns
end

/-- The positions in the tree at the cursor, in source order. -/
def positions (c : Cursor) : List Cursor := positionsAt c.above c.node

variable {l : Label} {above : List Frame} {n : Node} {ns : List Node} {p : Cursor}

/-! ## The nodes at the positions -/

/-- `positionsAmong` are positions of the nodes of a row and below, if `positionsAt` are for each of
them. -/
private theorem map_node_positionsAmong
    (hns : ∀ n ∈ ns, ∀ above, (positionsAt above n).map (·.node) = n.subtrees) (left : List Node) :
    (positionsAmong l above left ns).map (·.node) = Node.subtreesAmong ns := by
  induction ns generalizing left with
  | nil => rfl
  | cons n ns ih =>
    obtain ⟨hn, hrest⟩ := List.forall_mem_cons.mp hns
    rw [positionsAmong, Node.subtreesAmong, List.map_append, hn, ih hrest]

/-- `positionsAt` are the positions of the nodes of a tree. -/
private theorem map_node_positionsAt (n : Node) (above : List Frame) :
    (positionsAt above n).map (·.node) = n.subtrees := by
  induction n using Node.induction generalizing above with
  | mk l cs ih => rw [positionsAt, Node.subtrees, List.map_cons, map_node_positionsAmong ih]

/-- `positions` has one position for each node of the tree. -/
theorem map_node_positions (c : Cursor) : c.positions.map (·.node) = c.node.subtrees :=
  map_node_positionsAt c.node c.above

/-! ## What is above a position -/

/-- Above `positionsAmong` is the parent of the row and what is above it. -/
private theorem suffix_of_mem_positionsAmong
    (hns : ∀ n ∈ ns, ∀ above, ∀ p ∈ positionsAt above n, above <:+ p.above) {left : List Node}
    (hp : p ∈ positionsAmong l above left ns) :
    ∃ f : Frame, f.label = l ∧ f :: above <:+ p.above := by
  induction ns generalizing left with
  | nil => exact absurd hp List.not_mem_nil
  | cons n ns ih =>
    obtain ⟨hn, hrest⟩ := List.forall_mem_cons.mp hns
    rw [positionsAmong] at hp
    -- The position is below the first node of the row, or below one to the right of it.
    rcases List.mem_append.mp hp with hfirst | hlater
    · exact ⟨⟨l, left, ns⟩, rfl, hn _ p hfirst⟩
    · exact ih hrest hlater

/-- Above `positionsAt` is all that is above the node. -/
private theorem suffix_of_mem_positionsAt (n : Node) (above : List Frame) :
    ∀ p ∈ positionsAt above n, above <:+ p.above := by
  induction n using Node.induction generalizing above with
  | mk l cs ih =>
    intro p hp
    rw [positionsAt] at hp
    rcases List.mem_cons.mp hp with rfl | hbelow
    · exact List.suffix_refl _
    · obtain ⟨f, _, hf⟩ := suffix_of_mem_positionsAmong ih hbelow
      exact List.IsSuffix.trans (List.suffix_cons f above) hf

/-- A node of one of the kinds is above the position. -/
def isBelow (kinds : Kind → Bool) (c : Cursor) : Bool := c.above.any fun f => kinds f.label.kind

variable {kinds : Kind → Bool}

/-- Below a node of one of the kinds, `isBelow` holds of all positions. -/
private theorem isBelow_of_mem_positionsAmong (hl : kinds l.kind = true) {left : List Node}
    (hp : p ∈ positionsAmong l above left ns) : p.isBelow kinds = true := by
  obtain ⟨f, hlabel, hf⟩ := suffix_of_mem_positionsAmong (fun n _ => suffix_of_mem_positionsAt n) hp
  exact List.any_eq_true.mpr ⟨f, List.IsSuffix.subset hf List.mem_cons_self, hlabel ▸ hl⟩

/-! ## What a walk enters -/

variable {σ : Type} {visit : Visitor σ}

/-- `entriesRow` are the positions not below a node of some kinds, if `entries` are for each node of
the row. -/
private theorem map_entriesRow_eq_filter (hl : kinds l.kind = false)
    (habove : (above.any fun f => kinds f.label.kind) = false)
    (hns : ∀ n ∈ ns, ∀ above s, (above.any fun f => kinds f.label.kind) = false →
      (entries visit above n s).map (·.2) = (positionsAt above n).filter (!·.isBelow kinds))
    (left : List Node) (s : σ) :
    (entriesRow visit l above left ns s).map (·.2) = (positionsAmong l above left ns).filter
      (!·.isBelow kinds) := by
  induction ns generalizing left s with
  | nil => rw [entriesRow, positionsAmong, List.map_nil, List.filter_nil]
  | cons n ns ih =>
    obtain ⟨hn, hrest⟩ := List.forall_mem_cons.mp hns
    -- Above the node there is now its parent too, and that is not of the kinds either.
    have hframe : ((⟨l, left, ns⟩ :: above).any fun f => kinds f.label.kind) = false := by
      rw [List.any_cons, hl, habove, Bool.or_self]
    rw [entriesRow, positionsAmong, List.map_append, List.filter_append, hn _ _ hframe, ih hrest]

/-- `entries` of a walk that passes by what is below nodes of some kinds are the positions that are
not below one. -/
private theorem map_entries_eq_filter
    (hvisit : ∀ s c, (visit s c).2 = if kinds c.kind then .past else .into) (n : Node)
    (above : List Frame) (s : σ) (habove : (above.any fun f => kinds f.label.kind) = false) :
    (entries visit above n s).map (·.2) = (positionsAt above n).filter (!·.isBelow kinds) := by
  induction n using Node.induction generalizing above s with
  | mk l cs ih =>
    -- Nothing above the node is of the kinds, so the node itself is entered.
    have hself : (!isBelow kinds ⟨.mk l cs, above⟩) = true := by
      rw [isBelow, habove, Bool.not_false]
    have honward := hvisit s ⟨.mk l cs, above⟩
    cases hs : visit s ⟨.mk l cs, above⟩ with
    | mk s' onward =>
      rw [hs] at honward
      rw [positionsAt, List.filter_cons_of_pos (p := fun d => !isBelow kinds d) hself]
      cases hkind : kinds l.kind with
      | true =>
        -- Everything further down is below the node itself.
        have hpast : onward = .past := honward.trans (if_pos hkind)
        have hbelow : (positionsAmong l above [] cs).filter (!·.isBelow kinds) = [] := by
          refine List.filter_eq_nil_iff.mpr fun p hp => ?_
          rw [isBelow_of_mem_positionsAmong hkind hp]
          exact Bool.false_ne_true
        rw [entries_of_past (hpast ▸ hs), hbelow]
        rfl
      | false =>
        have hinto : onward = .into := honward.trans (if_neg (ne_true_of_eq_false hkind))
        rw [entries_of_into (hinto ▸ hs), List.map_cons,
          ← map_entriesRow_eq_filter hkind habove ih [] s']
        rfl

/-- `history` has the positions that are not below a node of the kinds by which the visitor decides
to pass by, whatever the state of the walk. -/
theorem map_history_eq_filter
    (hvisit : ∀ s c, (visit s c).2 = if kinds c.kind then .past else .into) {c : Cursor}
    (hc : c.isBelow kinds = false) (s : σ) :
    (c.history visit s).map (·.2) = c.positions.filter (!·.isBelow kinds) := by
  rw [history_eq_entries]
  exact map_entries_eq_filter hvisit c.node c.above s hc

end RouteAtlas.Syntax.Cursor
