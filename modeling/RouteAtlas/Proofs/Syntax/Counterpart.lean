import RouteAtlas.Proofs.Syntax.Comments
import RouteAtlas.Proofs.Syntax.Preorder

/-!
# Positions without comments

A position in a tree has a counterpart in the tree without comments: the same node with the same
ancestors, and comments neither below nor beside it. What one finds on the way up from a position is
then the counterpart of what was there before, as far up as the tree goes in which the comments are
deleted; where that tree stands itself does not matter.

A walk that notes nothing at comments, and the same at counterparts, comes to the same in both
trees. The recursion goes along both of them: at a comment it stays where it is in the second.

## Key results

- `Twin.wrapped`, `Twin.parent?`: the way up leads to counterparts
- `Twin.plays`, `Twin.isFirstContent`: counterparts play the same parts
- `walk_twin`: a walk that passes over comments is the same without them
-/

namespace RouteAtlas.Syntax

open Node

/-- The ancestor without comments beside the gap or below the nodes beside it. -/
def Frame.withoutComments (f : Frame) : Frame :=
    ⟨f.label, dropComments f.left, dropComments f.right⟩

@[simp] theorem Frame.label_withoutComments (f : Frame) : f.withoutComments.label = f.label := rfl

/-- `fill` and `withoutComments` can be done in either order, for a node that is no comment. -/
private theorem Frame.fill_withoutComments (f : Frame) {n : Node} (hn : n.isComment = false) :
    f.withoutComments.fill n.withoutComments = (f.fill n).withoutComments := by
  rw [fill, fill, Node.withoutComments, dropComments_append, dropComments_reverse,
    dropComments_cons hn]
  rfl

/-- `fill` makes the node a child. -/
private theorem Frame.mem_children_fill (f : Frame) (n : Node) : n ∈ (f.fill n).children := by
  simp [fill, Node.children]

/-- `fill` leaves the siblings to the left among the children. -/
private theorem Frame.mem_children_fill_of_mem_left {f : Frame} {m : Node} (hm : m ∈ f.left)
    (n : Node) :
    m ∈ (f.fill n).children := by
  simp [fill, Node.children, hm]

/-- The ways up from a node and from its counterpart to the tree in which the comments are deleted.
The ways from there on may be any. -/
inductive WayUp (t : Node) : Node → List Frame → List Frame → Prop where
  | child {n : Node} {f : Frame} {above above' : List Frame} (h : f.fill n = t) :
    WayUp t n (f :: above) (f.withoutComments :: above')
  | deeper {n : Node} {f : Frame} {above above' : List Frame}
      (h : WayUp t (f.fill n) above above') :
    WayUp t n (f :: above) (f.withoutComments :: above')

/-- A `WayUp` starts at a node of the tree. -/
theorem WayUp.mem_subtrees {t n : Node} {above above' : List Frame} (h : WayUp t n above above') :
    n ∈ t.subtrees := by
  induction h with
  | @child n f _ _ h => exact mem_subtrees_of_mem_children (h ▸ f.mem_children_fill n)
  | @deeper n f _ _ _ ih =>
    exact mem_subtrees_trans (mem_subtrees_of_mem_children (f.mem_children_fill n)) ih

/-- The `WayUp` from any node of a row leads to the parent. -/
private theorem WayUp.of_row {t : Node} {l : Label} {cs left ns : List Node} {n : Node}
    {above above' : List Frame} (h : WayUp t (.mk l cs) above above')
    (hcs : left.reverse ++ n :: ns = cs) :
    WayUp t n (⟨l, left, ns⟩ :: above) (⟨l, dropComments left, dropComments ns⟩ :: above') := by
  subst hcs
  exact .deeper h

namespace Cursor

variable {t : Node} {c d : Cursor}

/-- The second cursor is the counterpart of the first, which is somewhere below the root of `t`, in
the tree without comments. -/
structure Twin (t : Node) (c d : Cursor) : Prop where
  node : d.node = c.node.withoutComments
  way : WayUp t c.node c.above d.above
  code : c.node.isComment = false

theorem Twin.mem_subtrees (h : Twin t c d) : c.node ∈ t.subtrees := h.way.mem_subtrees

theorem Twin.label (h : Twin t c d) : d.node.label = c.node.label := by
  rw [h.node, label_withoutComments]

/-! ## The way up -/

/-- `parent?` of both: they are the root of the tree, or counterparts as well. -/
theorem Twin.parent? (ht : t.CommentsApart) (h : Twin t c d) :
    ∃ p q, c.parent? = some p ∧ d.parent? = some q ∧ q.node = p.node.withoutComments ∧
      p.node ∈ t.subtrees ∧
      (p.node = t ∨ Twin t p q) := by
  obtain ⟨n, above⟩ := c
  obtain ⟨m, above'⟩ := d
  obtain ⟨rfl, hway, hcode⟩ := h
  -- The parent is the root of the tree, where the way ends, or it is on the way.
  cases hway with
  | @child _ f fs fs' hroot =>
    have hmem : f.fill n ∈ t.subtrees := hroot ▸ t.self_mem_subtrees
    exact ⟨⟨f.fill n, fs⟩, ⟨_, fs'⟩, rfl, rfl, f.fill_withoutComments hcode, hmem, .inl hroot⟩
  | @deeper _ f fs fs' hway =>
    have hparent : (f.fill n).isComment = false :=
      ht.isComment_of_mem_children hway.mem_subtrees (f.mem_children_fill n)
    exact ⟨⟨f.fill n, fs⟩, ⟨_, fs'⟩, rfl, rfl, f.fill_withoutComments hcode, hway.mem_subtrees,
      .inr ⟨f.fill_withoutComments hcode, hway, hparent⟩⟩

/-- `climbWrappers` leads to counterparts. It ends inside the tree if its root is no wrapper. -/
private theorem twin_climbWrappers (ht : t.CommentsApart) (hroot : t.kind.isTransparent = false)
    {n : Node} {above above' : List Frame} (hway : WayUp t n above above')
    (hcode : n.isComment = false) :
    Twin t (climbWrappers n above) (climbWrappers n.withoutComments above') := by
  induction hway with
  | @child n f fs fs' h =>
    -- The root of the tree is no wrapper, so the climb ends below it.
    have hstop : ¬ f.label.kind.isTransparent = true := by
      rw [← h] at hroot
      exact Bool.not_eq_true _ ▸ hroot
    rw [climbWrappers, if_neg hstop, climbWrappers, Frame.label_withoutComments, if_neg hstop]
    exact ⟨rfl, .child h, hcode⟩
  | @deeper n f fs fs' hway ih =>
    by_cases hwrapper : f.label.kind.isTransparent = true
    · have hparent := ht.isComment_of_mem_children hway.mem_subtrees (f.mem_children_fill n)
      rw [climbWrappers, if_pos hwrapper, climbWrappers, Frame.label_withoutComments,
        if_pos hwrapper, f.fill_withoutComments hcode]
      exact ih hparent
    · rw [climbWrappers, if_neg hwrapper, climbWrappers, Frame.label_withoutComments,
        if_neg hwrapper]
      exact ⟨rfl, .deeper hway, hcode⟩

/-- `wrapped` leads to counterparts. -/
theorem Twin.wrapped (ht : t.CommentsApart) (hroot : t.kind.isTransparent = false)
    (h : Twin t c d) :
    Twin t c.wrapped d.wrapped := by
  rw [Cursor.wrapped, Cursor.wrapped, h.node]
  exact twin_climbWrappers ht hroot h.way h.code

/-! ## Siblings -/

/-- What holds of all `leftSiblings`, as it does of comments, holds of those that are left. -/
private theorem Twin.all_leftSiblings (ht : t.CommentsApart) (h : Twin t c d) {p : Node → Bool}
    (hp : ∀ n, p n.withoutComments = p n)
    (hcomment : ∀ n, n.isComment = true → n.role = none → p n = true) :
    d.leftSiblings.all p = c.leftSiblings.all p := by
  obtain ⟨n, above⟩ := c
  obtain ⟨m, above'⟩ := d
  -- The siblings are children of the filled parent, where comments play no part.
  have hfilled (f : Frame) (hf : f.fill n ∈ t.subtrees) : (dropComments f.left).all p =
      f.left.all p := by
    refine all_dropComments hp fun m hm hisComment => hcomment m hisComment ?_
    exact (ht.of_mem_subtrees hf).role_of_mem_children (Frame.mem_children_fill_of_mem_left hm n)
      hisComment
  cases h.way with
  | @child _ f _ _ hroot => exact hfilled f (hroot ▸ t.self_mem_subtrees)
  | @deeper _ f _ _ hway => exact hfilled f hway.mem_subtrees

/-- A `Twin` plays the same part. -/
theorem Twin.plays (ht : t.CommentsApart) (h : Twin t c d) (r : Role) : d.plays r = c.plays r := by
  have hall : d.leftSiblings.all (·.role != some r) = c.leftSiblings.all (·.role != some r) := by
    refine h.all_leftSiblings ht (fun n => by simp only [role, label_withoutComments])
      fun n _ hrole => ?_
    -- A comment plays no part, so it is not in the way of a sibling that does.
    rw [hrole]
    rfl
  rw [Cursor.plays, Cursor.plays, hall, role, h.label]

/-- A `Twin` is the first content of its parent if the other is. -/
theorem Twin.isFirstContent (ht : t.CommentsApart) (h : Twin t c d) :
    d.isFirstContent = c.isFirstContent := by
  have hall : d.leftSiblings.all (!·.isContent) = c.leftSiblings.all (!·.isContent) := by
    refine h.all_leftSiblings ht (fun n => by rw [isContent_withoutComments]) fun n hcomment _ => ?_
    rw [not_isContent_of_isComment hcomment]
    rfl
  rw [Cursor.isFirstContent, Cursor.isFirstContent, hall, h.node, isContent_withoutComments]

/-! ## Children -/

/-- Looking for a part in a `row` of children finds counterparts. -/
private theorem twin_find?_row {l : Label} {left ns : List Node} (above above' : List Frame)
    (r : Role) (hroot : .mk l (left.reverse ++ ns) = t)
    (hrole : ∀ n ∈ ns, n.isComment = true → n.role = none) :
    Option.Rel (Twin t) ((row l above left ns).find? (·.node.role == some r))
      ((row l above' (dropComments left) (dropComments ns)).find? (·.node.role == some r)) := by
  -- A comment is passed by the first search, while the second has nothing in its place.
  induction ns generalizing left with
  | nil => exact .none
  | cons n ns ih =>
    obtain ⟨hn, hrest⟩ := List.forall_mem_cons.mp hrole
    have hnext := @ih (n :: left) (by simpa using hroot) hrest
    cases hcomment : n.isComment with
    | true =>
      have hpass : (n.role == some r) = false := by
        rw [hn hcomment]
        rfl
      rw [dropComments_cons_of_comment hcomment] at hnext ⊢
      rwa [row, List.find?_cons_of_neg (by simp [hpass])]
    | false =>
      rw [dropComments_cons hcomment] at hnext ⊢
      rw [row, row]
      cases hplays : n.role == some r with
      | true =>
        rw [List.find?_cons_of_pos (by exact hplays),
          List.find?_cons_of_pos (by simpa [role] using hplays)]
        exact .some ⟨rfl, .child hroot, hcomment⟩
      | false =>
        rw [List.find?_cons_of_neg (by simp [hplays]),
          List.find?_cons_of_neg (by simpa [role] using hplays)]
        exact hnext

/-- `child?` of a node and of its counterpart are counterparts. -/
theorem twin_child? (hc : c.node.CommentsApart) (hd : d.node = c.node.withoutComments) (r : Role) :
    Option.Rel (Twin c.node) (c.child? r) (d.child? r) := by
  have hroot : .mk c.node.label ([].reverse ++ c.node.children) = c.node := by
    obtain ⟨⟨l, cs⟩, above⟩ := c
    rfl
  have hrow := twin_find?_row c.above d.above r hroot fun n hn => hc.role_of_mem_children hn
  rw [Cursor.child?, Cursor.child?, Cursor.children, Cursor.children, hd, label_withoutComments,
    children_withoutComments]
  exact hrow

/-! ## Walks -/

section Walks

variable {σ : Type} {visit : Visitor σ}

/-- `preorder` at a comment changes nothing, if the visitor only passes comments. -/
private theorem preorder_of_isComment
    (hvisit : ∀ s c, c.node.isComment = true → visit s c = (s, .into)) {n : Node}
    (hcomment : n.isComment = true) (hleaf : n.children = []) (above : List Frame) (s : σ) :
    preorder visit above n s = s := by
  rw [preorder_of_into (hvisit s ⟨n, above⟩ hcomment), hleaf, preorderRow]

/-- `preorderRow` along a row of children: comments are only passed, and at each other child the two
walks do the same. -/
private theorem preorderRow_dropComments {l : Label} {cs ns : List Node} {above above' : List Frame}
    {s : σ} (left : List Node) (hcs : left.reverse ++ ns = cs)
    (hcode : ∀ n ∈ ns, n.isComment = false → ∀ f f' s, WayUp t n (f :: above) (f' :: above') →
      preorder visit (f' :: above') n.withoutComments s = preorder visit (f :: above) n s)
    (hcomment : ∀ n ∈ ns, n.isComment = true → ∀ f s, preorder visit (f :: above) n s = s)
    (hway : WayUp t (.mk l cs) above above') :
    preorderRow visit l above' (dropComments left) (dropComments ns) s =
      preorderRow visit l above left ns s := by
  induction ns generalizing left s with
  | nil => rfl
  | cons n ns ih =>
    obtain ⟨hn, hrest⟩ := List.forall_mem_cons.mp hcode
    obtain ⟨hpass, hpasses⟩ := List.forall_mem_cons.mp hcomment
    -- The rest of the row, with this node among those on the left.
    have hnext (s : σ) := @ih s (n :: left) (by simpa using hcs) hrest hpasses
    rw [preorderRow]
    cases hisComment : n.isComment with
    | true =>
      rw [dropComments_cons_of_comment hisComment] at hnext ⊢
      rw [hnext, hpass hisComment]
    | false =>
      rw [dropComments_cons hisComment] at hnext ⊢
      rw [preorderRow, hnext, hn hisComment _ _ s (hway.of_row hcs)]

/-- `preorder` is the same without comments, if the visitor does the same at counterparts and passes
comments. -/
private theorem preorder_withoutComments (ht : t.CommentsApart)
    (htwin : ∀ s c d, Twin t c d → visit s d = visit s c)
    (hcomment : ∀ s c, c.node.isComment = true → visit s c = (s, .into)) {n : Node}
    {above above' : List Frame} {s : σ} (hway : WayUp t n above above')
    (hcode : n.isComment = false) :
    preorder visit above' n.withoutComments s = preorder visit above n s := by
  induction n using Node.induction generalizing above above' s with
  | mk l cs ih =>
    -- At the node itself the visitor does the same, and so it goes into both trees or into none.
    have hsame :=
      htwin s ⟨.mk l cs, above⟩ ⟨(Node.mk l cs).withoutComments, above'⟩ ⟨rfl, hway, hcode⟩
    cases hvisit : visit s ⟨.mk l cs, above⟩ with
    | mk s' onward =>
      rw [hvisit] at hsame
      cases onward with
      | past => rw [preorder_of_past hvisit, preorder_of_past hsame]
      | into =>
        rw [preorder_of_into hvisit, preorder_of_into hsame]
        refine preorderRow_dropComments [] rfl (fun n hn hisCode f f' s h => ih n hn h hisCode)
          (fun n hn hisComment f s => ?_) hway
        have hmem : n ∈ (Node.mk l cs).subtrees := mem_subtrees_of_mem_children hn
        have hleaf := ht.leaf n (mem_subtrees_trans hmem hway.mem_subtrees) hisComment
        exact preorder_of_isComment hcomment hisComment hleaf (f :: above) s

/-- `walk` is the same without comments, if the visitor does the same at counterparts and passes
comments. -/
theorem walk_twin (ht : t.CommentsApart) (htwin : ∀ s c d, Twin t c d → visit s d = visit s c)
    (hcomment : ∀ s c, c.node.isComment = true → visit s c = (s, .into)) (h : Twin t c d) (s : σ) :
    d.walk visit s = c.walk visit s := by
  rw [walk_eq_preorder, walk_eq_preorder, h.node]
  exact preorder_withoutComments ht htwin hcomment h.way h.code

end Walks

end Cursor

end RouteAtlas.Syntax
