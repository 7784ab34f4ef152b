import Mathlib.Data.List.Basic
import RouteAtlas.Proofs.Syntax.Subtree

/-!
# Trees without comments

Deleting the comments of a tree leaves all other nodes with their labels. What a node is asked for
is then found in the same place as before: comments play no part in their parents and are no
content. There is one exception. The expression inside a wrapper is its first named child, and that
may be a comment.

## Key results

- `child?_withoutComments`, `content_withoutComments`: children are found as before
- `unwrap_withoutComments`: so is the expression inside wrappers, if it is code
- `withoutComments_mem_subtrees`: the nodes that are left are those that are no comments
-/

namespace RouteAtlas.Syntax.Node

mutual
/-- The tree without the comments in it. -/
def withoutComments : Node → Node
  | mk l cs => mk l (dropComments cs)
/-- Some trees without comments among them or in them. -/
def dropComments : List Node → List Node
  | [] => []
  | n :: ns => if n.isComment then dropComments ns else n.withoutComments :: dropComments ns
end

variable {n t c : Node} {ns : List Node}

@[simp] theorem label_withoutComments (n : Node) : n.withoutComments.label = n.label := by
  obtain ⟨l, cs⟩ := n
  rfl

theorem kind_withoutComments (n : Node) : n.withoutComments.kind = n.kind := by
  rw [kind, label_withoutComments]

theorem text_withoutComments (n : Node) : n.withoutComments.text = n.text := by
  rw [text, label_withoutComments]

@[simp] theorem children_withoutComments (n : Node) :
    n.withoutComments.children = dropComments n.children := by
  obtain ⟨l, cs⟩ := n
  rfl

@[simp] theorem isComment_withoutComments (n : Node) :
    n.withoutComments.isComment = n.isComment := by
  simp only [isComment, kind, label_withoutComments]

@[simp] theorem isContent_withoutComments (n : Node) :
    n.withoutComments.isContent = n.isContent := by
  simp only [isContent, isComment_withoutComments, label_withoutComments]

/-- `dropComments` is `filter` and then `map`. -/
theorem dropComments_eq (ns : List Node) :
    dropComments ns = (ns.filter (!·.isComment)).map withoutComments := by
  induction ns with
  | nil => rfl
  | cons n ns ih =>
    rw [dropComments, ih]
    by_cases h : n.isComment = true
    · rw [if_pos h, List.filter_cons_of_neg (by simp [h])]
    · rw [if_neg h, List.filter_cons_of_pos (by simp [h]), List.map_cons]

/-- `dropComments` goes through a list part by part. -/
theorem dropComments_append (ns ms : List Node) :
    dropComments (ns ++ ms) = dropComments ns ++ dropComments ms := by
  simp only [dropComments_eq, List.filter_append, List.map_append]

/-- `dropComments` does not depend on the direction. -/
theorem dropComments_reverse (ns : List Node) :
    dropComments ns.reverse = (dropComments ns).reverse := by
  simp only [dropComments_eq, List.filter_reverse, List.map_reverse]

/-- `dropComments` drops a comment. -/
theorem dropComments_cons_of_comment (h : n.isComment = true) (ns : List Node) :
    dropComments (n :: ns) = dropComments ns := by
  rw [dropComments, if_pos h]

/-- `dropComments` keeps a node that is no comment. -/
theorem dropComments_cons (h : n.isComment = false) (ns : List Node) :
    dropComments (n :: ns) = n.withoutComments :: dropComments ns := by
  rw [dropComments, if_neg (by simp [h])]

/-- `find?` finds the same node after `dropComments`, if it does not look for comments. -/
private theorem find?_dropComments {p : Node → Bool} (hp : ∀ n, p n.withoutComments = p n)
    (hcomment : ∀ n ∈ ns, n.isComment = true → p n = false) :
    (dropComments ns).find? p = (ns.find? p).map withoutComments := by
  induction ns with
  | nil => rfl
  | cons n ns ih =>
    obtain ⟨hn, hrest⟩ := List.forall_mem_cons.mp hcomment
    -- A comment is not what is looked for, so it may be dropped or passed.
    cases hisComment : n.isComment with
    | true =>
      rw [dropComments_cons_of_comment hisComment, ih hrest,
        List.find?_cons_of_neg (by simp [hn hisComment])]
    | false =>
      rw [dropComments_cons hisComment]
      cases hpn : p n with
      | true =>
        rw [List.find?_cons_of_pos (by rw [hp, hpn]), List.find?_cons_of_pos hpn]
        rfl
      | false =>
        rw [List.find?_cons_of_neg (by simp [hp, hpn]), List.find?_cons_of_neg (by simp [hpn]),
          ih hrest]

/-- `filter` finds the same nodes after `dropComments`, if it does not look for comments. -/
private theorem filter_dropComments {p : Node → Bool} (hp : ∀ n, p n.withoutComments = p n)
    (hcomment : ∀ n ∈ ns, n.isComment = true → p n = false) :
    (dropComments ns).filter p = (ns.filter p).map withoutComments := by
  induction ns with
  | nil => rfl
  | cons n ns ih =>
    obtain ⟨hn, hrest⟩ := List.forall_mem_cons.mp hcomment
    -- A comment is dropped on the left and not looked for on the right.
    cases hisComment : n.isComment with
    | true =>
      rw [dropComments_cons_of_comment hisComment, ih hrest,
        List.filter_cons_of_neg (by simp [hn hisComment])]
    | false =>
      rw [dropComments_cons hisComment]
      cases hpn : p n with
      | true =>
        rw [List.filter_cons_of_pos (by rw [hp, hpn]), List.filter_cons_of_pos hpn, List.map_cons,
          ih hrest]
      | false =>
        rw [List.filter_cons_of_neg (by simp [hp, hpn]), List.filter_cons_of_neg (by simp [hpn]),
          ih hrest]

/-- `all` comes to the same after `dropComments`, if it holds of comments. -/
theorem all_dropComments {p : Node → Bool} (hp : ∀ n, p n.withoutComments = p n)
    (hcomment : ∀ n ∈ ns, n.isComment = true → p n = true) :
    (dropComments ns).all p = ns.all p := by
  induction ns with
  | nil => rfl
  | cons n ns ih =>
    obtain ⟨hn, hrest⟩ := List.forall_mem_cons.mp hcomment
    cases hisComment : n.isComment with
    | true =>
      rw [dropComments_cons_of_comment hisComment, ih hrest, List.all_cons, hn hisComment,
        Bool.true_and]
    | false => rw [dropComments_cons hisComment, List.all_cons, List.all_cons, hp, ih hrest]

/-! ## Where comments stand -/

/-- Comments are tokens between the parts of the tree: they have no children and play no part. -/
structure CommentsApart (t : Node) : Prop where
  leaf : ∀ n ∈ t.subtrees, n.isComment = true → n.children = []
  role : ∀ n ∈ t.subtrees, n.isComment = true → n.role = none

instance (t : Node) : Decidable t.CommentsApart :=
  decidable_of_iff ((∀ n ∈ t.subtrees, n.isComment = true → n.children = []) ∧
    ∀ n ∈ t.subtrees, n.isComment = true → n.role = none)
      ⟨fun h => ⟨h.1, h.2⟩, fun h => ⟨h.leaf, h.role⟩⟩

/-- In every part of a tree with `CommentsApart`, they are apart too. -/
theorem CommentsApart.of_mem_subtrees (h : t.CommentsApart) (hn : n ∈ t.subtrees) :
    n.CommentsApart where
  leaf := fun m hm => h.leaf m (mem_subtrees_trans hm hn)
  role := fun m hm => h.role m (mem_subtrees_trans hm hn)

/-- With `CommentsApart`, a comment among the children plays no part. -/
theorem CommentsApart.role_of_mem_children (h : t.CommentsApart) (hc : c ∈ t.children)
    (hcomment : c.isComment = true) : c.role = none :=
  h.role c (mem_subtrees_of_mem_children hc) hcomment

/-- With `CommentsApart`, nothing stands below a comment. -/
theorem CommentsApart.isComment_of_mem_children (h : t.CommentsApart) (hn : n ∈ t.subtrees)
    (hc : c ∈ n.children) :
    n.isComment = false := by
  cases hcomment : n.isComment with
  | false => rfl
  | true =>
    rw [h.leaf n hn hcomment] at hc
    exact absurd hc List.not_mem_nil

/-- `withoutComments` leaves the `subtrees` that are no comments. -/
theorem withoutComments_mem_subtrees (h : t.CommentsApart) (hn : n ∈ t.subtrees)
    (hcomment : n.isComment = false) :
    n.withoutComments ∈ t.withoutComments.subtrees := by
  induction t using induction with
  | mk l cs ih =>
    rcases mem_subtrees.mp hn with rfl | ⟨c, hc, hnc⟩
    · exact self_mem_subtrees _
    · have hapart := h.of_mem_subtrees (mem_subtrees_of_mem_children hc)
      have hkept : c.isComment = false := by
        -- Below a comment there would be nothing but the comment itself.
        rcases mem_subtrees.mp hnc with rfl | ⟨d, hd, _⟩
        · exact hcomment
        · exact hapart.isComment_of_mem_children (self_mem_subtrees c) hd
      -- The child is kept, and the node is below what is left of it.
      have hleft : c.withoutComments ∈ (mk l cs).withoutComments.children := by
        rw [children_withoutComments, dropComments_eq]
        exact List.mem_map_of_mem (List.mem_filter.mpr ⟨hc, by simp [hkept]⟩)
      exact mem_subtrees.mpr (Or.inr ⟨_, hleft, ih c hc hapart hnc⟩)

/-! ## What a node gives -/

/-- `child?` finds the same child. -/
theorem child?_withoutComments (h : n.CommentsApart) (r : Role) :
    n.withoutComments.child? r = (n.child? r).map withoutComments := by
  rw [child?, children_withoutComments]
  refine find?_dropComments (fun m => by simp only [role, label_withoutComments])
    fun c hc hcomment => ?_
  rw [h.role_of_mem_children hc hcomment]
  rfl

/-- A comment is not `isContent`. -/
theorem not_isContent_of_isComment (h : n.isComment = true) : n.isContent = false := by
  rw [isContent, h, Bool.not_true, Bool.and_false]

/-- `content` finds the same children. -/
theorem content_withoutComments (n : Node) :
    n.withoutComments.content = n.content.map withoutComments := by
  rw [content, children_withoutComments]
  exact filter_dropComments isContent_withoutComments fun _ _ => not_isContent_of_isComment

/-! ## Inside wrappers -/

/-- Inside its wrappers the node is code: none of them starts with a comment. -/
def HoldsCode (n : Node) : Prop := n.unwrap.isComment = false

instance (n : Node) : Decidable n.HoldsCode := inferInstanceAs (Decidable (_ = _))

/-- `unwrap` stops at a comment. -/
private theorem unwrap_of_isComment (h : n.isComment = true) : n.unwrap = n := by
  obtain ⟨l, cs⟩ := n
  have hkind : l.kind = .comment := beq_iff_eq.mp h
  rw [unwrap, hkind]
  rfl

/-- A node that `HoldsCode` is no comment. -/
private theorem HoldsCode.isComment_eq_false (h : n.HoldsCode) : n.isComment = false := by
  cases hcomment : n.isComment with
  | false => rfl
  | true => rwa [HoldsCode, unwrap_of_isComment hcomment, hcomment] at h

/-- `unwrapAmong` finds the same expression after `dropComments`, if it is code. -/
private theorem unwrapAmong_dropComments {fallback : Node}
    (hns : ∀ n ∈ ns, n.HoldsCode → n.withoutComments.unwrap = n.unwrap.withoutComments)
    (hcode : (unwrapAmong fallback ns).isComment = false) :
    unwrapAmong fallback.withoutComments (dropComments ns) =
      (unwrapAmong fallback ns).withoutComments := by
  induction ns with
  | nil => rfl
  | cons n ns ih =>
    obtain ⟨hn, hrest⟩ := List.forall_mem_cons.mp hns
    rw [unwrapAmong] at hcode ⊢
    by_cases hnamed : n.label.named = true
    · rw [if_pos hnamed] at hcode ⊢
      -- The first named child decides, and since code is inside it, it is no comment.
      have hopen : n.HoldsCode := hcode
      rw [dropComments_cons hopen.isComment_eq_false, unwrapAmong, label_withoutComments,
        if_pos hnamed, hn hopen]
    · rw [if_neg hnamed] at hcode ⊢
      rw [← ih hrest hcode]
      -- An unnamed child is passed over, whether it is left or not.
      cases hcomment : n.isComment with
      | true => rw [dropComments_cons_of_comment hcomment]
      | false => rw [dropComments_cons hcomment, unwrapAmong, label_withoutComments, if_neg hnamed]

/-- `unwrap` finds the same expression inside wrappers, if it is code. -/
theorem unwrap_withoutComments (h : n.HoldsCode) :
    n.withoutComments.unwrap = n.unwrap.withoutComments := by
  induction n using induction with
  | mk l cs ih =>
    rw [HoldsCode, unwrap] at h
    rw [withoutComments, unwrap, unwrap]
    -- Only inside a wrapper there is anything to look for.
    cases htransparent : l.kind.isTransparent with
    | false => rfl
    | true =>
      rw [if_pos htransparent] at h
      exact unwrapAmong_dropComments ih h

/-! ## Steps -/

/-- `CommentsApart` holds of what `child?` finds. -/
theorem CommentsApart.child? (h : n.CommentsApart) {r : Role} (hc : n.child? r = some c) :
    c.CommentsApart :=
  h.of_mem_subtrees (child?_mem_subtrees hc)

/-- `CommentsApart` holds of what `unwrap` finds. -/
theorem CommentsApart.unwrap (h : n.CommentsApart) : n.unwrap.CommentsApart :=
  h.of_mem_subtrees n.unwrap_mem_subtrees

section Steps

variable {α β : Type} {g : α → β}

/-- Going on with what `child?` finds: it is enough to go on alike with and without the comments in
it. -/
theorem bind_child?_withoutComments (h : n.CommentsApart) (r : Role) {k : Node → Option β}
    {k' : Node → Option α} (hk : ∀ c, n.child? r = some c → k c.withoutComments = (k' c).map g) :
    (n.withoutComments.child? r >>= k) = (n.child? r >>= k').map g := by
  rw [child?_withoutComments h]
  cases hc : n.child? r with
  | none => rfl
  | some c => exact hk c hc

/-- Going on after a `guard` with a condition that comments do not change. -/
theorem bind_guard_congr {p p' : Prop} [Decidable p] [Decidable p'] (hp : p ↔ p')
    {k : Unit → Option β} {k' : Unit → Option α} (hk : p' → k () = (k' ()).map g) :
    ((guard p : Option Unit) >>= k) = ((guard p' : Option Unit) >>= k').map g := by
  by_cases h : p'
  · rw [guard, guard, if_pos (hp.mpr h), if_pos h]
    exact hk h
  · rw [guard, guard, if_neg (mt hp.mp h), if_neg h]
    rfl

/-- Asking what `child?` finds: the answer has to be the same with and without the comments in
it. -/
theorem any_child?_withoutComments (h : n.CommentsApart) (r : Role) {p : Node → Bool}
    (hp : ∀ c, n.child? r = some c → p c.withoutComments = p c) :
    (n.withoutComments.child? r).any p = (n.child? r).any p := by
  rw [child?_withoutComments h]
  cases hc : n.child? r with
  | none => rfl
  | some c => exact hp c hc

end Steps

/-! ## Literals and patterns -/

/-- `stringValue?` is the same. -/
theorem stringValue?_withoutComments (n : Node) :
    n.withoutComments.stringValue? = n.stringValue? := by
  simp only [stringValue?, kind, text, label_withoutComments]

/-- `fragments` are the same, since comments are no substitutions. -/
private theorem fragments_withoutComments (n : Node) :
    n.withoutComments.fragments = n.fragments := by
  -- A template is cut at its substitutions, and none of them is dropped.
  have hholes : n.withoutComments.children.filter (·.kind == .templateSubstitution) =
      (n.children.filter (·.kind == .templateSubstitution)).map withoutComments := by
    rw [children_withoutComments]
    refine filter_dropComments (fun m => by simp only [kind_withoutComments]) fun c _ hcomment => ?_
    rw [isComment, beq_iff_eq] at hcomment
    rw [hcomment]
    rfl
  have hspans (ms : List Node) : (ms.map withoutComments).map (·.span) = ms.map (·.span) := by
    rw [List.map_map]
    exact List.map_congr_left fun m
      _ => by simp only [Function.comp_apply, span, label_withoutComments]
  simp only [fragments, hholes, hspans, span, text, label_withoutComments]

/-- `literalValue?` is the same. -/
theorem literalValue?_withoutComments (n : Node) :
    n.withoutComments.literalValue? = n.literalValue? := by
  rw [literalValue?, literalValue?, stringValue?_withoutComments, templateValue?, templateValue?,
    fragments_withoutComments]
  simp only [kind, span, label_withoutComments]

/-- `propertyKey?` is the same. -/
private theorem propertyKey?_withoutComments (n : Node) :
    n.withoutComments.propertyKey? = n.propertyKey? := by
  rw [propertyKey?, propertyKey?, stringValue?_withoutComments]
  simp only [kind, text, label_withoutComments]

/-- `target?` has the same name, and the default without comments. -/
private theorem target?_withoutComments (h : n.CommentsApart) :
    n.withoutComments.target? = n.target?.map fun bound =>
      (bound.1, bound.2.map withoutComments) := by
  rw [target?, target?, kind_withoutComments]
  split
  · rw [text_withoutComments]
    rfl
  · refine bind_child?_withoutComments h .left fun left _ => ?_
    refine bind_guard_congr (by simp only [kind_withoutComments]) fun _ => ?_
    rw [text_withoutComments, child?_withoutComments h]
    rfl
  · rfl

/-- The binding with its default as the tree without comments has it. -/
def Binding.withoutComments (b : Binding) : Binding :=
    { b with default? := b.default?.map Node.withoutComments }

/-- `binding?` has the same property and name, and the default without comments. -/
private theorem binding?_withoutComments (h : n.CommentsApart) :
    n.withoutComments.binding? = n.binding?.map Binding.withoutComments := by
  rw [binding?, binding?, kind_withoutComments]
  -- The three forms of a pattern, each asked for its children one after the other.
  split
  · rw [text_withoutComments]
    rfl
  · refine bind_child?_withoutComments h .left fun left _ => ?_
    refine bind_guard_congr (by simp only [kind_withoutComments]) fun _ => ?_
    rw [text_withoutComments, child?_withoutComments h]
    rfl
  · refine bind_child?_withoutComments h .key fun key _ => ?_
    refine bind_child?_withoutComments h .value fun value hvalue => ?_
    rw [propertyKey?_withoutComments, target?_withoutComments (h.child? hvalue)]
    cases key.propertyKey? with
    | none => rfl
    | some property => cases value.target? <;> rfl
  · rfl

/-- `bindings` are the same, with defaults without comments. -/
theorem bindings_withoutComments (h : n.CommentsApart) :
    n.withoutComments.bindings = n.bindings.map Binding.withoutComments := by
  rw [bindings, bindings, content_withoutComments, List.filterMap_map, List.map_filterMap]
  refine List.filterMap_congr fun m hm => ?_
  exact binding?_withoutComments (h.of_mem_subtrees (mem_subtrees_of_mem_content hm))

end RouteAtlas.Syntax.Node
