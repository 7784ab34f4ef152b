import Mathlib.Data.Option.Basic
import RouteAtlas.Module.Registration

/-!
# The nodes of a tree

The nodes of a tree are the tree itself and the nodes of its children. Whatever a node is asked for,
a child that plays some part, the expression inside its wrappers or the function that it hands to a
wrapper, comes from its own tree.

## Key results

- `Node.induction`: what holds of a node if it holds of its children holds of all nodes
- `mem_subtrees_trans`: the nodes of a node's tree are nodes of every tree the node is in
- `unwrap_mem_subtrees`, `wrappedFunction?_mem_subtrees`: what a node gives comes from its own tree
-/

namespace RouteAtlas.Syntax.Node

/-! ## Induction -/

mutual
/-- Induction on nodes: what holds of a node if it holds of its children holds of all nodes. -/
theorem induction {P : Node → Prop} (mk : ∀ l cs, (∀ c ∈ cs, P c) → P (.mk l cs)) : ∀ n, P n
  | .mk l cs => mk l cs (inductionAmong mk cs)
/-- The same for all nodes of a row. -/
private theorem inductionAmong {P : Node → Prop} (mk : ∀ l cs, (∀ c ∈ cs, P c) → P (.mk l cs)) :
    ∀ ns : List Node, ∀ n ∈ ns, P n
  | [] => fun _ hn => absurd hn List.not_mem_nil
  | n :: ns => List.forall_mem_cons.mpr ⟨induction mk n, inductionAmong mk ns⟩
end

/-! ## Nodes of a tree -/

mutual
/-- The nodes of a tree, parents before children and left before right. -/
def subtrees : Node → List Node
  | mk l cs => mk l cs :: subtreesAmong cs
/-- The nodes of some trees. -/
def subtreesAmong : List Node → List Node
  | [] => []
  | n :: ns => n.subtrees ++ subtreesAmong ns
end

variable {n m t c : Node} {ns : List Node}

/-- `subtreesAmong` has the nodes of each of the trees. -/
private theorem mem_subtreesAmong : n ∈ subtreesAmong ns ↔ ∃ c ∈ ns, n ∈ c.subtrees := by
  induction ns with
  | nil => simp [subtreesAmong]
  | cons c ns ih =>
    rw [subtreesAmong, List.mem_append, ih]
    simp only [List.mem_cons, exists_eq_or_imp]

/-- `subtrees` has the node itself and the nodes of its children. -/
theorem mem_subtrees : n ∈ t.subtrees ↔ n = t ∨ ∃ c ∈ t.children, n ∈ c.subtrees := by
  obtain ⟨l, cs⟩ := t
  rw [subtrees, List.mem_cons, mem_subtreesAmong]
  rfl

@[simp] theorem self_mem_subtrees (n : Node) : n ∈ n.subtrees := mem_subtrees.mpr (Or.inl rfl)

theorem mem_subtrees_of_mem_children (h : c ∈ n.children) : c ∈ n.subtrees :=
  mem_subtrees.mpr (Or.inr ⟨c, h, c.self_mem_subtrees⟩)

/-- The `subtrees` of one of the `subtrees` are among them. -/
theorem mem_subtrees_trans (hn : n ∈ m.subtrees) (hm : m ∈ t.subtrees) : n ∈ t.subtrees := by
  induction t using induction with
  | mk l cs ih =>
    rcases mem_subtrees.mp hm with rfl | ⟨c, hc, hmc⟩
    · exact hn
    · exact mem_subtrees.mpr (Or.inr ⟨c, hc, ih c hc hmc⟩)

/-! ## What a node gives -/

theorem child?_mem_subtrees {r : Role} (h : n.child? r = some c) : c ∈ n.subtrees :=
  mem_subtrees_of_mem_children (List.mem_of_find?_eq_some h)

theorem mem_subtrees_of_mem_content (h : c ∈ n.content) : c ∈ n.subtrees :=
  mem_subtrees_of_mem_children (List.mem_filter.mp h).1

/-- `unwrapAmong` gives one of the trees that it chooses from. -/
private theorem unwrapAmong_mem {fallback : Node} (hfallback : fallback ∈ t.subtrees)
    (hns : ∀ n ∈ ns, n.unwrap ∈ t.subtrees) : unwrapAmong fallback ns ∈ t.subtrees := by
  induction ns with
  | nil => exact hfallback
  | cons n ns ih =>
    obtain ⟨hn, hrest⟩ := List.forall_mem_cons.mp hns
    rw [unwrapAmong]
    -- The first child that counts is taken, and otherwise the search goes on.
    split
    · exact hn
    · exact ih hrest

/-- `unwrap` gives one of the `subtrees`. -/
theorem unwrap_mem_subtrees (n : Node) : n.unwrap ∈ n.subtrees := by
  induction n using induction with
  | mk l cs ih =>
    rw [unwrap]
    split
    · refine unwrapAmong_mem (self_mem_subtrees _) fun c hc => ?_
      exact mem_subtrees_trans (ih c hc) (mem_subtrees_of_mem_children hc)
    · exact self_mem_subtrees _

/-- `wrappedFunction?` gives a function, and one that stands in the call. -/
theorem wrappedFunction?_mem_subtrees {f : Node} (h : n.wrappedFunction? = some f) :
    f ∈ n.subtrees ∧ f.kind.isFunction = true := by
  -- All steps have to succeed; those before the last argument only have to be passed.
  obtain ⟨_, _, h⟩ := Option.bind_eq_some_iff.mp h
  obtain ⟨callee, _, h⟩ := Option.bind_eq_some_iff.mp h
  obtain ⟨_, _, h⟩ := Option.bind_eq_some_iff.mp h
  obtain ⟨args, hargs, h⟩ := Option.bind_eq_some_iff.mp h
  obtain ⟨last, hlast, h⟩ := Option.bind_eq_some_iff.mp h
  obtain ⟨_, hfunction, hf⟩ := Option.bind_eq_some_iff.mp h
  obtain rfl := Option.some.inj hf
  have hargument : last ∈ args.subtrees := mem_subtrees_of_mem_content (List.mem_of_getLast? hlast)
  have hcall : last ∈ n.subtrees := mem_subtrees_trans hargument (child?_mem_subtrees hargs)
  exact ⟨mem_subtrees_trans last.unwrap_mem_subtrees hcall, (Option.guard_eq_some' _).mp hfunction⟩

/-- `target?` takes a default from the right of the pattern. -/
private theorem child?_right_of_target? {bound : String × Option Node} {fallback : Node}
    (h : n.target? = some bound) (hfallback : bound.2 = some fallback) :
    n.child? .right = some fallback := by
  rw [target?] at h
  revert h
  split
  · rintro ⟨⟩
    exact nomatch hfallback
  · intro h
    obtain ⟨left, _, h⟩ := Option.bind_eq_some_iff.mp h
    obtain ⟨_, _, h⟩ := Option.bind_eq_some_iff.mp h
    obtain rfl := Option.some.inj h
    exact hfallback
  · exact nofun

/-- `binding?` takes a default from the right of a pattern in the tree. -/
theorem child?_right_of_binding? {b : Binding} {fallback : Node} (h : n.binding? = some b)
    (hfallback : b.default? = some fallback) :
    ∃ m ∈ n.subtrees, m.child? .right = some fallback := by
  -- A bare name has no default, a pattern with one has it itself, and a pair has it in its value.
  rw [binding?] at h
  revert h
  split
  · rintro ⟨⟩
    exact nomatch hfallback
  · intro h
    obtain ⟨left, _, h⟩ := Option.bind_eq_some_iff.mp h
    obtain ⟨_, _, h⟩ := Option.bind_eq_some_iff.mp h
    obtain rfl := Option.some.inj h
    exact ⟨n, n.self_mem_subtrees, hfallback⟩
  · intro h
    obtain ⟨key, _, h⟩ := Option.bind_eq_some_iff.mp h
    obtain ⟨value, hvalue, h⟩ := Option.bind_eq_some_iff.mp h
    obtain ⟨property, _, h⟩ := Option.bind_eq_some_iff.mp h
    obtain ⟨bound, hbound, h⟩ := Option.bind_eq_some_iff.mp h
    obtain rfl := Option.some.inj h
    exact ⟨value, child?_mem_subtrees hvalue, child?_right_of_target? hbound hfallback⟩
  · exact nofun

end RouteAtlas.Syntax.Node
