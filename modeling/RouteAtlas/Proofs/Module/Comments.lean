import RouteAtlas.Proofs.Module.Provenance
import RouteAtlas.Proofs.Syntax.Comments

/-!
# Registrations without comments

A call registers the same route and the same mount with and without comments, wherever they stand,
if no wrapper around its callee or an argument starts with one. One lemma for each thing that is
asked of a node says that the comments do not change it.

## Key results

- `methodCall?_withoutComments`: the method and the arguments of a call
- `handlerArg_withoutComments`: what an argument is as a handler
- `route?_withoutComments`, `mount?_withoutComments`: what a call registers
-/

namespace RouteAtlas.Syntax.Node

variable {n : Node}

/-- As a handler the argument is code: inside its own wrappers, those of the object whose member it
is and those of the function that it hands on. -/
structure ArgumentClear (a : Node) : Prop where
  self : a.HoldsCode
  object : ∀ o ∈ a.unwrap.child? .object, o.HoldsCode
  handed : ∀ args ∈ a.unwrap.child? .arguments, ∀ last ∈ args.content.getLast?, last.HoldsCode

instance (a : Node) : Decidable a.ArgumentClear :=
  decidable_of_iff (a.HoldsCode ∧ (∀ o ∈ a.unwrap.child? .object, o.HoldsCode) ∧
      ∀ args ∈ a.unwrap.child? .arguments, ∀ last ∈ args.content.getLast?, last.HoldsCode)
    ⟨fun h => ⟨h.1, h.2.1, h.2.2⟩, fun h => ⟨h.self, h.object, h.handed⟩⟩

/-- What a call is read by is code: its callee and its arguments. -/
structure CallClear (n : Node) : Prop where
  callee : ∀ c ∈ n.child? .function, c.HoldsCode
  argument : ∀ args ∈ n.child? .arguments, ∀ a ∈ args.content, a.ArgumentClear

instance (n : Node) : Decidable n.CallClear :=
  decidable_of_iff ((∀ c ∈ n.child? .function, c.HoldsCode) ∧
      ∀ args ∈ n.child? .arguments, ∀ a ∈ args.content, a.ArgumentClear)
    ⟨fun h => ⟨h.1, h.2⟩, fun h => ⟨h.callee, h.argument⟩⟩

/-- `methodCall?` sees the same method, and the arguments without comments. -/
theorem methodCall?_withoutComments (h : n.CommentsApart) (hn : n.CallClear) :
    n.withoutComments.methodCall? = n.methodCall?.map fun call =>
      (call.1, call.2.map withoutComments) := by
  -- Each part of the call is looked up in turn, and is there with and without comments.
  refine bind_child?_withoutComments h .function fun function hfunction => ?_
  dsimp only
  rw [unwrap_withoutComments (hn.callee function hfunction)]
  refine bind_guard_congr (by simp only [kind_withoutComments]) fun _ => ?_
  refine bind_child?_withoutComments (h.child? hfunction).unwrap .property fun property _ => ?_
  refine bind_guard_congr (by simp only [kind_withoutComments]) fun _ => ?_
  refine bind_child?_withoutComments h .arguments fun args _ => ?_
  rw [content_withoutComments]
  rw [text_withoutComments]
  rfl

/-- `wrappedFunction?` finds the same function, without comments. -/
private theorem wrappedFunction?_withoutComments (h : n.CommentsApart)
    (hlast : ∀ args ∈ n.child? .arguments, ∀ last ∈ args.content.getLast?, last.HoldsCode) :
    n.withoutComments.wrappedFunction? = n.wrappedFunction?.map withoutComments := by
  refine bind_guard_congr (by simp only [kind_withoutComments]) fun _ => ?_
  refine bind_child?_withoutComments h .function fun callee _ => ?_
  refine bind_guard_congr (by simp only [kind_withoutComments]) fun _ => ?_
  refine bind_child?_withoutComments h .arguments fun args hargs => ?_
  -- Comments are no arguments, so the last argument stays the last.
  rw [content_withoutComments, List.getLast?_map]
  cases hcontent : args.content.getLast? with
  | none => rfl
  | some last =>
    show (guard (last.withoutComments.unwrap.kind.isFunction = true) >>= fun _ =>
      some last.withoutComments.unwrap) =
      ((guard (last.unwrap.kind.isFunction = true) : Option Unit) >>= fun _ => some last.unwrap).map
        withoutComments
    rw [unwrap_withoutComments (hlast args hargs last hcontent)]
    refine bind_guard_congr (by simp only [kind_withoutComments]) fun _ => ?_
    rfl

/-- `namedMember?` does not see comments. -/
private theorem namedMember?_withoutComments (h : n.CommentsApart)
    (hobject : ∀ o ∈ n.child? .object, o.HoldsCode) :
    n.withoutComments.namedMember? = n.namedMember? := by
  refine Eq.trans ?_ Option.map_id_apply
  refine bind_child?_withoutComments h .object fun object hchild => ?_
  dsimp only
  rw [unwrap_withoutComments (hobject object hchild)]
  refine bind_child?_withoutComments h .property fun property _ => ?_
  refine bind_guard_congr (by simp only [kind_withoutComments]) fun _ => ?_
  rw [text_withoutComments, text_withoutComments]
  rfl

/-- `handlerArg` does not see comments. -/
theorem handlerArg_withoutComments (h : n.CommentsApart) (hn : n.ArgumentClear) :
    n.withoutComments.handlerArg = n.handlerArg := by
  unfold handlerArg
  dsimp only
  rw [unwrap_withoutComments hn.self, namedMember?_withoutComments h.unwrap hn.object,
    wrappedFunction?_withoutComments h.unwrap hn.handed]
  simp only [kind, span, text, label_withoutComments]
  -- The spans of functions are the same, too.
  cases n.unwrap.wrappedFunction? with
  | none => rfl
  | some f => simp only [Option.map_some, label_withoutComments]

/-- `CallClear` makes every argument that `methodCall?` gives `ArgumentClear`. -/
private theorem CallClear.of_methodCall? (hn : n.CallClear) {property : String} {args : List Node}
    (hcall : n.methodCall? = some (property, args)) : ∀ a ∈ args, a.ArgumentClear := by
  obtain ⟨list, hlist, rfl⟩ := content_of_methodCall? hcall
  exact hn.argument list hlist

/-- `route?` does not see comments. -/
theorem route?_withoutComments (h : n.CommentsApart) (hn : n.CallClear) :
    n.withoutComments.route? = n.route? := by
  unfold route?
  rw [methodCall?_withoutComments h hn]
  cases hcall : n.methodCall? with
  | none => rfl
  | some call =>
    obtain ⟨property, args⟩ := call
    -- The arguments are parts of the call, so their comments are apart, too.
    have hargs : ∀ a ∈ args, a.withoutComments.handlerArg = a.handlerArg := fun a ha =>
      handlerArg_withoutComments (h.of_mem_subtrees (mem_subtrees_of_methodCall? hcall a ha))
        (hn.of_methodCall? hcall a ha)
    cases args with
    | nil => rfl
    | cons first rest =>
      cases rest with
      | nil => rfl
      | cons handler more =>
        have hhandlers : ((handler :: more).map withoutComments).map handlerArg =
            (handler :: more).map handlerArg := by
          rw [List.map_map]
          exact List.map_congr_left fun a ha => hargs a (List.mem_cons_of_mem _ ha)
        show (do
          let method ← Method.ofRouter? property
          let url ← first.withoutComments.literalValue?
          guard (url != "")
          return (⟨.declare method url, ((handler :: more).map withoutComments).map handlerArg,
            n.withoutComments.span⟩ : Route)) = _
        rw [literalValue?_withoutComments, hhandlers]
        simp only [span, label_withoutComments]
        rfl

/-- `mount?` does not see comments. -/
theorem mount?_withoutComments (h : n.CommentsApart) (hn : n.CallClear) :
    n.withoutComments.mount? = n.mount? := by
  unfold mount?
  rw [methodCall?_withoutComments h hn]
  cases hcall : n.methodCall? with
  | none => rfl
  | some call =>
    obtain ⟨property, args⟩ := call
    cases args with
    | nil => rfl
    | cons first rest =>
      cases rest with
      | nil => rfl
      | cons router more =>
        -- The second argument names the router.
        have hrouter : router.HoldsCode := (hn.of_methodCall? hcall router (by simp)).self
        show (do
          guard (property == "use")
          let front ← first.withoutComments.stringValue?
          guard (router.withoutComments.unwrap.kind == Kind.identifier)
          return (front, router.withoutComments.unwrap.text)) = _
        rw [stringValue?_withoutComments, unwrap_withoutComments hrouter]
        simp only [kind, text, label_withoutComments]
        rfl

end RouteAtlas.Syntax.Node
