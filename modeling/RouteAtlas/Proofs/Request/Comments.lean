import RouteAtlas.Proofs.Catalogue.WellFormed
import RouteAtlas.Proofs.Module.Comments
import RouteAtlas.Proofs.Syntax.Counterpart
import RouteAtlas.Request.Inference

/-!
# Handlers without comments

What a handler reads of its request is the same with and without comments, wherever they stand,
except in two places: at the start of a wrapper that is looked into, and beside the argument of a
call that reads a header. There is a lemma for each question that the inference asks of a node or of
its surroundings, and the walk through the body of the handler is put together from them.

## Key results

- `isUsedAsNumber_twin`: comments do not change what is used as a number
- `Inference.visit_twin`: nor what is noted on entering a node
- `handlerFacts_withoutComments`: nor what a handler reads
- `analysis_withoutComments`, `analysis_changed_by_comments`: what comments leave as it is in a
  whole tree, and the two places where they do not
-/

namespace RouteAtlas

open Syntax Syntax.Node

namespace Syntax.Node

variable {n c f : Node}

/-! ## Where comments may not stand -/

/-- The parts of nodes whose wrappers the inference looks into: callees, objects, declared values,
and operands and defaults. -/
def openedRoles : List Role := [.function, .object, .value, .left, .right]

/-- The call has the form of one that reads a header, such as `req.get('x-api-key')`, whatever it is
called on. -/
def IsHeaderCall (call : Node) : Prop :=
  ∃ callee ∈ call.child? .function, ∃ property ∈ callee.unwrap.child? .property,
    property.text ∈ Inference.headerMethods

instance (call : Node) : Decidable call.IsHeaderCall := inferInstanceAs (Decidable (∃ _ ∈ _, _))

/-- The comments in a handler stand where the inference passes over them: none of them starts a
wrapper that is looked into, and none stands beside the one argument of a call that reads a
header. -/
structure HandlerClear (f : Node) : Prop extends CommentsApart f where
  opened : ∀ n ∈ f.subtrees, ∀ r ∈ openedRoles, ∀ c ∈ n.child? r, c.HoldsCode
  header : ∀ n ∈ f.subtrees, n.IsHeaderCall →
    ∀ args ∈ n.child? .arguments, args.content.length = 1 →
    ∀ c ∈ args.children, c.isComment = false

instance (f : Node) : Decidable f.HandlerClear :=
  decidable_of_iff
    (f.CommentsApart ∧ (∀ n ∈ f.subtrees, ∀ r ∈ openedRoles, ∀ c ∈ n.child? r, c.HoldsCode) ∧
      ∀ n ∈ f.subtrees, n.IsHeaderCall → ∀ args ∈ n.child? .arguments, args.content.length = 1 →
        ∀ c ∈ args.children, c.isComment = false)
    ⟨fun h => ⟨h.1, h.2.1, h.2.2⟩, fun h => ⟨h.toCommentsApart, h.opened, h.header⟩⟩

/-- `HandlerClear` holds of every part of a handler. -/
theorem HandlerClear.of_mem_subtrees (h : f.HandlerClear) (hn : n ∈ f.subtrees) :
    n.HandlerClear where
  toCommentsApart := h.toCommentsApart.of_mem_subtrees hn
  opened := fun m hm => h.opened m (mem_subtrees_trans hm hn)
  header := fun m hm => h.header m (mem_subtrees_trans hm hn)

/-- `HandlerClear` holds of what `child?` finds. -/
theorem HandlerClear.child? (h : n.HandlerClear) {r : Role} (hc : n.child? r = some c) :
    c.HandlerClear :=
  h.of_mem_subtrees (child?_mem_subtrees hc)

/-- In a handler that is `HandlerClear`, wrappers that are looked into hold code. -/
private theorem HandlerClear.holdsCode (h : n.HandlerClear) {r : Role} (hr : r ∈ openedRoles)
    (hc : n.child? r = some c) :
    c.HoldsCode :=
  h.opened n n.self_mem_subtrees r hr c hc

/-! ## Parameters -/

/-- `bareAmong?` finds the same node after `dropComments`, since comments play no part. -/
private theorem bareAmong?_dropComments {strict : Bool} {r : Role} {whole : Node} {ns : List Node}
    (hns : ∀ n ∈ ns, n.withoutComments.bareParameter? strict =
      (n.bareParameter? strict).map withoutComments)
    (hrole : ∀ n ∈ ns, n.isComment = true → n.role = none) :
    bareParameter?.bareAmong? strict r whole.withoutComments (dropComments ns) =
      (bareParameter?.bareAmong? strict r whole ns).map withoutComments := by
  induction ns with
  | nil =>
    rw [dropComments, bareParameter?.bareAmong?, bareParameter?.bareAmong?]
    cases strict <;> rfl
  | cons n ns ih =>
    obtain ⟨hn, hrest⟩ := List.forall_mem_cons.mp hns
    obtain ⟨hnone, hnones⟩ := List.forall_mem_cons.mp hrole
    have hnext := ih hrest hnones
    rw [bareParameter?.bareAmong?]
    -- A comment plays no part, so it is passed where it is and missing where it is not.
    cases hcomment : n.isComment with
    | true =>
      have hpass : ¬ (n.role == some r) = true := by simp [hnone hcomment]
      rw [dropComments_cons_of_comment hcomment, hnext, if_neg hpass]
    | false =>
      rw [dropComments_cons hcomment, bareParameter?.bareAmong?, role, label_withoutComments]
      by_cases hplays : (n.role == some r) = true
      · rw [if_pos hplays, if_pos hplays, hn]
      · rw [if_neg hplays, if_neg hplays, hnext]

/-- `bareParameter?` finds the same node. -/
private theorem bareParameter?_withoutComments (h : n.CommentsApart) (strict : Bool) :
    n.withoutComments.bareParameter? strict = (n.bareParameter? strict).map withoutComments := by
  induction n using Node.induction with
  | mk l cs ih =>
    have hchildren : ∀ c ∈ cs, c.withoutComments.bareParameter? strict =
        (c.bareParameter? strict).map withoutComments := fun c hc =>
      ih c hc (h.of_mem_subtrees (mem_subtrees_of_mem_children hc))
    -- A comment plays no part, so it is not mistaken for the pattern.
    have hrole : ∀ c ∈ cs, c.isComment = true → c.role = none :=
      fun c hc => h.role_of_mem_children hc
    have hamong (r : Role) : bareParameter?.bareAmong? strict r (mk l cs).withoutComments
        (dropComments cs) =
          (bareParameter?.bareAmong? strict r (mk l cs) cs).map withoutComments :=
      bareAmong?_dropComments hchildren hrole
    rw [withoutComments, bareParameter?, bareParameter?]
    split
    · exact hamong .pattern
    · exact hamong .pattern
    · exact hamong .left
    · rfl

/-- `parameterList` has the same parameters. -/
private theorem parameterList_withoutComments (h : n.CommentsApart) :
    n.withoutComments.parameterList = n.parameterList.map withoutComments := by
  rw [parameterList, parameterList, child?_withoutComments h, child?_withoutComments h]
  cases n.child? .parameter with
  | some single => rfl
  | none =>
    cases n.child? .parameters with
    | some list => exact content_withoutComments list
    | none => rfl

/-- `parameterList` has nodes of the function. -/
private theorem mem_subtrees_of_mem_parameterList (hc : c ∈ n.parameterList) : c ∈ n.subtrees := by
  rw [parameterList] at hc
  cases hsingle : n.child? .parameter with
  | some single =>
    rw [hsingle] at hc
    obtain rfl := List.mem_singleton.mp hc
    exact child?_mem_subtrees hsingle
  | none =>
    cases hlist : n.child? .parameters with
    | some list =>
      rw [hsingle, hlist] at hc
      exact mem_subtrees_trans (mem_subtrees_of_mem_content hc) (child?_mem_subtrees hlist)
    | none =>
      rw [hsingle, hlist] at hc
      exact absurd hc List.not_mem_nil

/-- `bareAmong?` finds a node of the tree that all it may find is in. -/
private theorem bareAmong?_mem {t whole : Node} {strict : Bool} {r : Role} {ns : List Node}
    (hwhole : whole ∈ t.subtrees)
    (hns : ∀ n ∈ ns, ∀ c, n.bareParameter? strict = some c → c ∈ t.subtrees)
    (h : bareParameter?.bareAmong? strict r whole ns = some c) : c ∈ t.subtrees := by
  induction ns with
  | nil =>
    rw [bareParameter?.bareAmong?] at h
    -- Nothing plays the part: the whole node is the fallback, where one is allowed.
    cases strict with
    | true => exact nomatch h
    | false => exact Option.some.inj h ▸ hwhole
  | cons n ns ih =>
    obtain ⟨hn, hrest⟩ := List.forall_mem_cons.mp hns
    rw [bareParameter?.bareAmong?] at h
    by_cases hplays : (n.role == some r) = true
    · rw [if_pos hplays] at h
      exact hn c h
    · rw [if_neg hplays] at h
      exact ih hrest h

/-- `bareParameter?` finds a node of the parameter. -/
private theorem bareParameter?_mem_subtrees {strict : Bool} (h : n.bareParameter? strict = some c) :
    c ∈ n.subtrees := by
  induction n using Node.induction generalizing c with
  | mk l cs ih =>
    have hchildren : ∀ m ∈ cs, ∀ c, m.bareParameter? strict = some c → c ∈ (mk l cs).subtrees :=
      fun m hm c hc =>
      mem_subtrees_trans (ih m hm hc) (mem_subtrees_of_mem_children hm)
    have hamong (r : Role) (h : bareParameter?.bareAmong? strict r (mk l cs) cs = some c) :
        c ∈ (mk l cs).subtrees :=
      bareAmong?_mem (self_mem_subtrees _) hchildren h
    rw [bareParameter?] at h
    revert h
    split
    · exact hamong .pattern
    · exact hamong .pattern
    · exact hamong .left
    · exact fun h => Option.some.inj h ▸ self_mem_subtrees _

/-- `Binding.withoutComments` leaves the names. -/
private theorem name_withoutComments (bs : List Binding) :
    (bs.map Binding.withoutComments).map (·.name) = bs.map (·.name) := by
  rw [List.map_map]
  rfl

/-- `parameterNames` are the same. -/
private theorem parameterNames_withoutComments (h : n.CommentsApart) :
    n.withoutComments.parameterNames = n.parameterNames := by
  rw [parameterNames, parameterNames, parameterList_withoutComments h, List.flatMap_map]
  refine List.flatMap_congr fun p hp => ?_
  have hparameter := h.of_mem_subtrees (mem_subtrees_of_mem_parameterList hp)
  rw [bareParameter?_withoutComments hparameter]
  -- The parameter is found without its type and default, and then asked for the names it binds.
  cases hbare : p.bareParameter? false with
  | none => rfl
  | some bare =>
    have hbindings :=
      bindings_withoutComments (hparameter.of_mem_subtrees (bareParameter?_mem_subtrees hbare))
    simp only [Option.map_some, kind_withoutComments, text_withoutComments, hbindings,
      name_withoutComments]

/-- `partBindings` are the same. -/
private theorem partBindings_withoutComments (h : n.CommentsApart) :
    n.withoutComments.partBindings = n.partBindings := by
  rw [partBindings, partBindings, bindings_withoutComments h, List.filterMap_map]
  rfl

/-! ## Arguments -/

/-- The named arguments beside which there is no comment are the `content`. -/
private theorem filter_named_eq_content (h : ∀ c ∈ n.children, c.isComment = false) :
    n.children.filter (·.label.named) = n.content := by
  refine List.filter_congr fun c hc => ?_
  rw [isContent, h c hc, Bool.not_false, Bool.and_true]

/-- `stringValue?` of a comment is none. -/
private theorem stringValue?_of_isComment (h : n.isComment = true) : n.stringValue? = none := by
  rw [stringValue?, beq_iff_eq.mp h]
  rfl

/-- A named child that stands alone and is not the `content` is a comment, and no string. -/
private theorem stringValue?_of_filter_named {single : Node}
    (h : n.children.filter (·.label.named) = [single]) (hcontent : n.content ≠ [single]) :
    single.stringValue? = none := by
  -- The content is what is left of the named children without comments.
  have hfilter : n.content = [single].filter (!·.isComment) := by
    rw [← h, List.filter_filter]
    refine List.filter_congr fun c _ => ?_
    rw [isContent, Bool.and_comm]
  cases hcomment : single.isComment with
  | true => exact stringValue?_of_isComment hcomment
  | false => exact absurd (by simpa [hcomment] using hfilter) hcontent

/-- Without comments, the named children are the `content`. -/
private theorem filter_named_withoutComments (n : Node) :
    n.withoutComments.children.filter (·.label.named) = n.content.map withoutComments := by
  rw [← content_withoutComments]
  refine filter_named_eq_content fun c hc => ?_
  rw [children_withoutComments, dropComments_eq] at hc
  obtain ⟨m, hm, rfl⟩ := List.mem_map.mp hc
  rw [isComment_withoutComments]
  simpa using (List.mem_filter.mp hm).2

/-! ## Types and numbers -/

/-- `isNumericFunction` is the same. -/
private theorem isNumericFunction_withoutComments (h : n.CommentsApart) :
    n.withoutComments.isNumericFunction = n.isNumericFunction := by
  rw [isNumericFunction, isNumericFunction, kind_withoutComments]
  split
  · rw [text_withoutComments]
  · rw [any_child?_withoutComments h .object fun c _ => by rw [text_withoutComments],
      any_child?_withoutComments h .property fun c _ => by rw [text_withoutComments]]
  · rfl

/-- `literalType` is the same, if the node holds code. -/
private theorem literalType_withoutComments (h : n.CommentsApart) (hcode : n.HoldsCode) :
    n.withoutComments.literalType = n.literalType := by
  rw [literalType, literalType, unwrap_withoutComments hcode, kind_withoutComments,
    any_child?_withoutComments h.unwrap .argument fun c _ => by rw [kind_withoutComments]]

end Syntax.Node

/-- `ofFunction?` gives the same request. -/
private theorem RequestParameter.ofFunction?_withoutComments {f : Node} (h : f.CommentsApart) :
    ofFunction? f.withoutComments = ofFunction? f := by
  rw [ofFunction?, ofFunction?, parameterList_withoutComments h, List.head?_map]
  cases hfirst : f.parameterList.head? with
  | none => rfl
  | some p =>
    have hparameter :=
      h.of_mem_subtrees (mem_subtrees_of_mem_parameterList (List.mem_of_mem_head? hfirst))
    show (p.withoutComments.bareParameter? true >>= _) = (p.bareParameter? true >>= _)
    rw [bareParameter?_withoutComments hparameter]
    cases hbare : p.bareParameter? true with
    | none => rfl
    | some bare =>
      have hpart :=
        partBindings_withoutComments
        (hparameter.of_mem_subtrees (bareParameter?_mem_subtrees hbare))
      simp only [Option.map_some, Option.bind_eq_bind, Option.bind_some, kind_withoutComments,
        text_withoutComments, hpart]

namespace Inference

variable {request? : Option String} {o : Observations} {n : Node}

/-! ## Questions to a node -/

/-- `isRequest` is the same, if the node holds code. -/
private theorem isRequest_withoutComments (h : n.HoldsCode) :
    isRequest request? n.withoutComments = isRequest request? n := by
  rw [isRequest, isRequest, unwrap_withoutComments h, kind_withoutComments, text_withoutComments]

/-- `part?` is the same. -/
private theorem part?_withoutComments (h : n.HandlerClear) :
    part? request? o n.withoutComments = part? request? o n := by
  rw [part?, part?, kind_withoutComments]
  split
  · refine Eq.trans ?_ Option.map_id_apply
    refine bind_child?_withoutComments h.toCommentsApart .object fun object hobject => ?_
    have hcode : object.HoldsCode := h.holdsCode (by decide) hobject
    refine bind_guard_congr (by rw [isRequest_withoutComments hcode]) fun _ => ?_
    refine bind_child?_withoutComments h.toCommentsApart .property fun property _ => ?_
    rw [text_withoutComments, Option.map_id_apply]
  · rw [text_withoutComments]
  · rfl

/-- `shadows` is the same. -/
private theorem shadows_withoutComments (h : n.CommentsApart) :
    shadows request? o n.withoutComments = shadows request? o n := by
  rw [shadows, shadows, parameterNames_withoutComments h]

/-- `bindParts` notes the same. -/
private theorem bindParts_withoutComments (h : n.HandlerClear) :
    bindParts request? o n.withoutComments = bindParts request? o n := by
  rw [bindParts, bindParts, child?_withoutComments h.toCommentsApart,
    child?_withoutComments h.toCommentsApart]
  cases hname : n.child? .name with
  | none => rfl
  | some name =>
    cases hvalue : n.child? .value with
    | none => rfl
    | some value =>
      have hcode : value.HoldsCode := h.holdsCode (by decide) hvalue
      have hparts := partBindings_withoutComments (h.child? hname).toCommentsApart
      simp only [Option.map_some, kind_withoutComments, isRequest_withoutComments hcode, hparts]

/-- `headerCall?` is the same, if no comment stands beside the one argument. -/
private theorem headerCall?_withoutComments (h : n.HandlerClear) :
    headerCall? request? n.withoutComments = headerCall? request? n := by
  refine Eq.trans ?_ Option.map_id_apply
  refine bind_child?_withoutComments h.toCommentsApart .function fun callee hcallee => ?_
  dsimp only
  rw [unwrap_withoutComments (h.holdsCode (by decide) hcallee)]
  have hopen : callee.unwrap.HandlerClear :=
    (h.child? hcallee).of_mem_subtrees callee.unwrap_mem_subtrees
  refine bind_guard_congr (by rw [kind_withoutComments]) fun _ => ?_
  refine bind_child?_withoutComments hopen.toCommentsApart .object fun object hobject => ?_
  refine bind_child?_withoutComments hopen.toCommentsApart .property fun property hproperty => ?_
  have hobjectCode : object.HoldsCode := hopen.holdsCode (by decide) hobject
  refine bind_guard_congr (by rw [isRequest_withoutComments hobjectCode, text_withoutComments])
    fun hheader => ?_
  refine bind_child?_withoutComments h.toCommentsApart .arguments fun args hargs => ?_
  have hmethod : property.text ∈ headerMethods :=
    of_decide_eq_true (Bool.and_eq_true_iff.mp hheader).2
  -- The call has the form of one that reads a header, so comments beside its argument are excluded.
  have hcall : n.IsHeaderCall := ⟨callee, hcallee, property, hproperty, hmethod⟩
  rw [filter_named_withoutComments, Option.map_id_apply]
  by_cases hone : ∃ single, args.content = [single]
  · obtain ⟨single, hcontent⟩ := hone
    have hclear := h.header n n.self_mem_subtrees hcall args hargs (by rw [hcontent]; rfl)
    rw [filter_named_eq_content hclear, hcontent]
    exact stringValue?_withoutComments single
  · -- If there is not one argument, a child that stands alone is a comment.
    split
    · rename_i single hmap
      obtain ⟨m, hcontent, _⟩ := List.map_eq_singleton_iff.mp hmap
      exact absurd ⟨m, hcontent⟩ hone
    · split
      · rename_i single hnamed
        exact (stringValue?_of_filter_named hnamed fun hcontent => hone ⟨single, hcontent⟩).symm
      · rfl

/-- The type of a default is the same. -/
private theorem defaultType_withoutComments (h : n.HandlerClear) {b : Binding}
    (hb : b ∈ n.bindings) :
    b.withoutComments.default?.map literalType = b.default?.map literalType := by
  rw [Binding.withoutComments, Option.map_map]
  cases hfallback : b.default? with
  | none => rfl
  | some fallback =>
    obtain ⟨member, hmember, hbinding⟩ := List.mem_filterMap.mp hb
    -- A default stands to the right in a pattern, where wrappers have to hold code.
    obtain ⟨m, hm, hright⟩ := child?_right_of_binding? hbinding hfallback
    have hclear := h.of_mem_subtrees (mem_subtrees_trans hm (mem_subtrees_of_mem_content hmember))
    have hcode : fallback.HoldsCode := hclear.holdsCode (by decide) hright
    exact congrArg some (literalType_withoutComments (hclear.child? hright).toCommentsApart hcode)

/-- `readDeclared` notes the same. -/
private theorem readDeclared_withoutComments {part : Part} (h : n.HandlerClear) :
    readDeclared o part n.withoutComments = readDeclared o part n := by
  rw [readDeclared, readDeclared, kind_withoutComments]
  split
  · rw [bindings_withoutComments h.toCommentsApart, List.foldl_map]
    refine List.foldl_ext _ _ o fun o b hb => ?_
    rw [defaultType_withoutComments h hb]
    rfl
  · rw [text_withoutComments]
  · rfl

/-- `observeNode` notes the same. -/
private theorem observeNode_withoutComments (h : n.HandlerClear) :
    observeNode request? o n.withoutComments = observeNode request? o n := by
  rw [observeNode, observeNode, kind_withoutComments, bindParts_withoutComments h,
    headerCall?_withoutComments h]

/-- `visit` only passes comments. -/
private theorem visit_of_isComment {c : Cursor} (h : c.node.isComment = true) :
    visit request? o c = (o, .into) := by
  have hkind : c.node.kind = .comment := beq_iff_eq.mp h
  simp [visit, observeNode, observeUse, part?, hkind, Kind.isFunction]

end Inference

/-! ## Uses of a value -/

section Twins

variable {t : Node} {c d : Cursor}

/-- `otherOperand?` of a counterpart is the counterpart. -/
private theorem Syntax.Cursor.otherOperand?_twin (ht : t.CommentsApart) (h : Cursor.Twin t c d)
    {p q : Cursor} (hp : p.node.CommentsApart) (hnode : q.node = p.node.withoutComments) :
    d.otherOperand? q = (c.otherOperand? p).map withoutComments := by
  rw [otherOperand?, otherOperand?, h.plays ht, hnode, child?_withoutComments hp,
    child?_withoutComments hp]
  split <;> rfl

/-- `otherOperand?` gives a node that holds code. -/
private theorem Syntax.Cursor.holdsCode_of_otherOperand? {p : Cursor} (hp : p.node.HandlerClear)
    {n : Node} (h : c.otherOperand? p = some n) :
    n.HoldsCode := by
  rw [otherOperand?] at h
  by_cases hleft : c.plays .left = true
  · rw [if_pos hleft] at h
    exact hp.holdsCode (by decide) h
  · rw [if_neg hleft] at h
    exact hp.holdsCode (by decide) h

section Handler

variable (ht : t.HandlerClear) (hroot : t.kind.isFunction = true) (h : Cursor.Twin t c d)

include ht hroot h

/-- The surroundings of counterparts in a handler: what `wrapped` gives are counterparts, and so are
the nodes around those, unless the handler itself is reached. -/
private theorem Syntax.Cursor.Twin.surroundings :
    Cursor.Twin t c.wrapped d.wrapped ∧
      ∃ p q, c.wrapped.parent? = some p ∧ d.wrapped.parent? = some q ∧
        q.node = p.node.withoutComments ∧
        p.node.HandlerClear ∧ (p.kind.isFunction = true ∨ Cursor.Twin t p q) := by
  have houter := h.wrapped ht.toCommentsApart (Kind.not_isTransparent_of_isFunction hroot)
  obtain ⟨p, q, hp, hq, hnode, hmem, hup⟩ := houter.parent? ht.toCommentsApart
  refine ⟨houter, p, q, hp, hq, hnode, ht.of_mem_subtrees hmem, ?_⟩
  -- The parent is the handler, which is a function, or it is inside.
  rcases hup with hup | htwin
  · rw [Cursor.kind, hup]
    exact .inl hroot
  · exact .inr htwin

/-- `isUsedAsNumber` is the same at counterparts. -/
theorem Syntax.Cursor.isUsedAsNumber_twin : d.isUsedAsNumber = c.isUsedAsNumber := by
  obtain ⟨houter, p, q, hp, hq, hnode, hclear, hup⟩ := Twin.surroundings ht hroot h
  have hkind : q.kind = p.kind := by rw [Cursor.kind, hnode, kind_withoutComments]
  have hapart := hclear.toCommentsApart
  rw [isUsedAsNumber, isUsedAsNumber, hp, hq]
  dsimp only
  rw [hkind]
  split
  · rename_i hargs
    -- The arguments are no function, so the call is in the handler as well.
    have htwin : Cursor.Twin t p q := hup.resolve_left (by rw [hargs]; decide)
    obtain ⟨call, call', hcall, hcall', hnode', hmem, _⟩ := htwin.parent? ht.toCommentsApart
    have hcallClear := ht.of_mem_subtrees hmem
    rw [houter.isFirstContent ht.toCommentsApart, hcall, hcall']
    dsimp only
    rw [hnode',
      any_child?_withoutComments hcallClear.toCommentsApart .function fun callee hcallee => ?_]
    rw [unwrap_withoutComments (hcallClear.holdsCode (by decide) hcallee),
      isNumericFunction_withoutComments (hcallClear.child? hcallee).toCommentsApart.unwrap]
  · rw [hnode]
    exact any_child?_withoutComments hapart .operator fun o _ => by rw [text_withoutComments]
  · rw [hnode, child?_withoutComments hapart]
    cases p.node.child? .operator with
    | none => rfl
    | some o =>
      have hother : (d.wrapped.otherOperand? q).any (·.unwrap.kind == .number) =
          (c.wrapped.otherOperand? p).any (·.unwrap.kind == .number) := by
        rw [otherOperand?_twin ht.toCommentsApart houter hapart hnode]
        cases hoperand : c.wrapped.otherOperand? p with
        | none => rfl
        | some operand =>
          have hcode : operand.HoldsCode := holdsCode_of_otherOperand? hclear hoperand
          simp only [Option.map_some, Option.any_some, unwrap_withoutComments hcode,
            kind_withoutComments]
      simp only [Option.map_some, text_withoutComments, hother]
  · rfl

namespace Inference

variable {request? : Option String} {o : Observations}

/-- `readAt` notes the same at counterparts. -/
private theorem readAt_twin (part : Part) (name : String) :
    o.readAt part name d = o.readAt part name c := by
  rw [Observations.readAt, Observations.readAt, Cursor.isUsedAsNumber_twin ht hroot h]

/-- `readPart` notes the same at counterparts. -/
private theorem readPart_twin (part : Part) : readPart o part d = readPart o part c := by
  obtain ⟨houter, p, q, hp, hq, hnode, hclear, hup⟩ := Cursor.Twin.surroundings ht hroot h
  have hkind : q.kind = p.kind := by rw [Cursor.kind, hnode, kind_withoutComments]
  have hapart := hclear.toCommentsApart
  rw [readPart, readPart, hp, hq]
  dsimp only
  rw [hkind]
  -- The parent decides how the part is read; each kind is asked for the same children.
  split
  · rename_i hmember
    have htwin : Cursor.Twin t p q := hup.resolve_left (by rw [hmember]; decide)
    rw [houter.plays ht.toCommentsApart, hnode, child?_withoutComments hapart]
    cases p.node.child? .property with
    | none => rfl
    | some property => simp only [Option.map_some, text_withoutComments, readAt_twin ht hroot htwin]
  · rename_i hsubscript
    have htwin : Cursor.Twin t p q := hup.resolve_left (by rw [hsubscript]; decide)
    rw [houter.plays ht.toCommentsApart, hnode, child?_withoutComments hapart]
    cases p.node.child? .index with
    | none => rfl
    | some index =>
      simp only [Option.map_some, Option.bind_some, stringValue?_withoutComments,
        readAt_twin ht hroot htwin]
  · rw [houter.plays ht.toCommentsApart, hnode, child?_withoutComments hapart]
    cases hname : p.node.child? .name with
    | none => rfl
    | some name => simp only [Option.map_some, readDeclared_withoutComments (hclear.child? hname)]
  · rfl

/-! ## The walk -/

/-- `observeUse` notes the same at counterparts. -/
private theorem observeUse_twin : observeUse request? o d = observeUse request? o c := by
  rw [observeUse, observeUse, h.node, part?_withoutComments (ht.of_mem_subtrees h.mem_subtrees),
    Cursor.isUsedAsNumber_twin ht hroot h, Cursor.kind, h.node, kind_withoutComments,
    text_withoutComments]
  simp only [readPart_twin ht hroot h]

/-- `visit` notes the same at counterparts, and passes the same functions by. -/
private theorem visit_twin : visit request? o d = visit request? o c := by
  have hclear := ht.of_mem_subtrees h.mem_subtrees
  rw [visit, visit, Cursor.kind, h.node, kind_withoutComments,
    shadows_withoutComments hclear.toCommentsApart, observeNode_withoutComments hclear,
    observeUse_twin ht hroot h]

end Inference

end Handler

end Twins

/-- `handlerFacts` are the same without comments, wherever the handler stands. -/
theorem Syntax.Cursor.handlerFacts_withoutComments {c d : Cursor} (hc : c.node.HandlerClear)
    (hfunction : c.kind.isFunction = true) (hd : d.node = c.node.withoutComments) :
    d.handlerFacts = c.handlerFacts := by
  have hbodies := twin_child? hc.toCommentsApart hd .body
  rw [handlerFacts, handlerFacts, hd,
    RequestParameter.ofFunction?_withoutComments hc.toCommentsApart]
  generalize c.child? .body = body?, d.child? .body = body'? at hbodies ⊢
  cases RequestParameter.ofFunction? c.node with
  | none => rfl
  | some request =>
    cases hbodies with
    | none => rfl
    | some htwin =>
      have hsame : ∀ o p q, Twin c.node p q →
          Inference.visit request.name? o q = Inference.visit request.name? o p := fun _ _ _ h =>
        Inference.visit_twin hc hfunction h
      have hpass : ∀ o p, p.node.isComment = true →
          Inference.visit request.name? o p = (o, .into) := fun _ _ h =>
        Inference.visit_of_isComment h
      exact congrArg Observations.facts (walk_twin hc.toCommentsApart hsame hpass htwin _)

/-- Comments that stand apart from the parts of a tree change neither what its calls register, by
`route?` and `mount?`, nor what its functions read, by `handlerFacts`, as long as none of them
starts a wrapper that is looked into for it, or stands beside the one argument of a call that reads
a header. -/
theorem Syntax.Node.analysis_withoutComments (t : Node) (ht : t.CommentsApart) :
    (∀ n ∈ t.subtrees, n.kind = .callExpression → n.CallClear →
      n.withoutComments ∈ t.withoutComments.subtrees ∧
        n.withoutComments.route? = n.route? ∧ n.withoutComments.mount? = n.mount?) ∧
    ∀ f ∈ t.subtrees, f.kind.isFunction = true → f.HandlerClear →
      f.withoutComments ∈ t.withoutComments.subtrees ∧
        ∀ c d : Cursor, c.node = f → d.node = f.withoutComments →
          d.handlerFacts = c.handlerFacts := by
  -- Calls and functions are no comments, so they are still there.
  have hleft {n : Node} (hn : n ∈ t.subtrees) (hkind : n.kind ≠ .comment) :
      n.withoutComments ∈ t.withoutComments.subtrees :=
    withoutComments_mem_subtrees ht hn (beq_eq_false_iff_ne.mpr hkind)
  constructor
  · intro n hn hcall hclear
    have hapart := ht.of_mem_subtrees hn
    exact ⟨hleft hn (by rw [hcall]; decide), route?_withoutComments hapart hclear,
      mount?_withoutComments hapart hclear⟩
  · intro f hf hfunction hclear
    refine ⟨hleft hf (by rintro hkind; rw [hkind] at hfunction; exact nomatch hfunction), ?_⟩
    rintro c d rfl hd
    exact Cursor.handlerFacts_withoutComments hclear hfunction hd

namespace Syntax

/-- A handler with comments among its parameters, among the arguments of a call and in a wrapper. -/
def commentedHandler : Node :=
  .onLine .arrowFunction none 22 79 "(req /* b */) => Number(/* c */ (req /* d */).query.page)"
    [.onLine .formalParameters (some .parameters) 22 35 "(req /* b */)"
      [.onLine .identifier none 23 26 "req", .onLine .comment none 27 34 "/* b */"],
     .onLine .callExpression (some .body) 39 79 "Number(/* c */ (req /* d */).query.page)"
      [.onLine .identifier (some .function) 39 45 "Number",
       .onLine .arguments (some .arguments) 45 79 "(/* c */ (req /* d */).query.page)"
        [.onLine .comment none 46 53 "/* c */",
         .onLine .memberExpression none 54 78 "(req /* d */).query.page"
          [.onLine .memberExpression (some .object) 54 73 "(req /* d */).query"
            [.onLine .parenthesizedExpression (some .object) 54 67 "(req /* d */)"
              [.onLine .identifier none 55 58 "req", .onLine .comment none 59 66 "/* d */"],
             .onLine .propertyIdentifier (some .property) 68 73 "query"],
           .onLine .propertyIdentifier (some .property) 74 78 "page"]]]]

/-- The call that registers it, with a comment before it. -/
def commentedCall : Node :=
  .onLine .callExpression none 0 80
    "app.get('/x', /* a */ (req /* b */) => Number(/* c */ (req /* d */).query.page))"
    [.onLine .memberExpression (some .function) 0 7 "app.get"
      [.onLine .identifier (some .object) 0 3 "app",
        .onLine .propertyIdentifier (some .property) 4 7 "get"],
     .onLine .arguments (some .arguments)
       7 80 "('/x', /* a */ (req /* b */) => Number(/* c */ (req /* d */).query.page))"
      [.onLine .string none 8 12 "'/x'", .onLine .comment none 14 21 "/* a */", commentedHandler]]

/-- Without its comments `commentedCall` registers the same route, and its handler reads a number
from the query. -/
theorem commentedCall_withoutComments :
    commentedCall.CommentsApart ∧ commentedCall.CallClear ∧ commentedHandler.HandlerClear ∧
      commentedCall.withoutComments.route? = commentedCall.route? ∧
      commentedCall.route? = some ⟨.declare .get "/x", [.inline ⟨22, 79, 1⟩], ⟨0, 80, 1⟩⟩ ∧
      (Cursor.ofRoot commentedHandler.withoutComments).handlerFacts =
        (Cursor.ofRoot commentedHandler).handlerFacts ∧
      (Cursor.ofRoot commentedHandler).handlerFacts.query = [⟨"page", .number, false⟩] := by
  have hapart : commentedCall.CommentsApart := by decide
  have hcall : commentedCall.CallClear := by decide
  have hhandler : commentedHandler.HandlerClear := by decide
  have hmem : commentedHandler ∈ commentedCall.subtrees := by
    simp [commentedCall, Node.onLine, subtrees, subtreesAmong]
  obtain ⟨hcalls, hfunctions⟩ := analysis_withoutComments commentedCall hapart
  obtain ⟨_, hroute, _⟩ := hcalls commentedCall (self_mem_subtrees _) rfl hcall
  obtain ⟨_, hfacts⟩ := hfunctions commentedHandler hmem rfl hhandler
  exact ⟨hapart, hcall, hhandler, hroute, by decide +kernel, hfacts _ _ rfl rfl, by decide +kernel⟩

/-- A call that registers a handler in parentheses which start with a comment. -/
def wrappedCommentCall : Node :=
  .onLine .callExpression none 0 32 "app.get('/x', (/* c */ handler))"
    [.onLine .memberExpression (some .function) 0 7 "app.get"
      [.onLine .identifier (some .object) 0 3 "app",
        .onLine .propertyIdentifier (some .property) 4 7 "get"],
     .onLine .arguments (some .arguments) 7 32 "('/x', (/* c */ handler))"
      [.onLine .string none 8 12 "'/x'",
       .onLine .parenthesizedExpression none 14 31 "(/* c */ handler)"
        [.onLine .comment none 15 22 "/* c */", .onLine .identifier none 23 30 "handler"]]]

/-- A handler that reads a header by a call with a comment before its argument. -/
def headerCommentHandler : Node :=
  .onLine .arrowFunction none 0 31 "req => req.get(/* c */ 'x-key')"
    [.onLine .identifier (some .parameter) 0 3 "req",
     .onLine .callExpression (some .body) 7 31 "req.get(/* c */ 'x-key')"
      [.onLine .memberExpression (some .function) 7 14 "req.get"
        [.onLine .identifier (some .object) 7 10 "req",
          .onLine .propertyIdentifier (some .property) 11 14 "get"],
       .onLine .arguments (some .arguments) 14 31 "(/* c */ 'x-key')"
        [.onLine .comment none 15 22 "/* c */", .onLine .string none 23 30 "'x-key'"]]]

/-- In `wrappedCommentCall` and `headerCommentHandler` comments do change what is found: the handler
is not seen, nor is the header. -/
theorem analysis_changed_by_comments :
    (wrappedCommentCall.CommentsApart ∧
      wrappedCommentCall.route? = some ⟨.declare .get "/x", [.other], ⟨0, 32, 1⟩⟩ ∧
      wrappedCommentCall.withoutComments.route? =
        some ⟨.declare .get "/x", [.name "handler"], ⟨0, 32, 1⟩⟩) ∧
    headerCommentHandler.CommentsApart ∧
      (Cursor.ofRoot headerCommentHandler).handlerFacts.headers = [] ∧
      (Cursor.ofRoot headerCommentHandler.withoutComments).handlerFacts.headers = ["x-key"] := by
  decide +kernel

end Syntax

end RouteAtlas
