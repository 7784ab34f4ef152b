import RouteAtlas.Proofs.Request.Events
import RouteAtlas.Proofs.Syntax.Alike

/-!
# Handlers in other places

What a handler reads of its request is told from the nodes of the handler alone, although for each
use of a part the inference looks at what is around it: it never looks out of the function. So the
same handler reads the same wherever it stands. There is a lemma for each question that the
inference asks of a node or of its surroundings: it has the same answer at positions that go
together.

## Key results

- `Inference.visit_alike`: the same is noted at positions that go together
- `Syntax.Cursor.handlerFacts_alike`: what is read by handlers that are alike, but for the bodies of
  functions in them that are passed by
- `Syntax.Cursor.handlerFacts_anywhere`: what a handler reads does not depend on where it stands
-/

namespace RouteAtlas

open Syntax Syntax.Node

namespace Syntax.Node

variable {opened : Node → Prop} {anyBody : Prop} {n n' f f' : Node}

/-! ## Numbers and types -/

/-- `child?` finds the same words for properties and operators. -/
private theorem AlikeRow.child?_word (h : AlikeRow opened anyBody n.children n'.children) {r : Role}
    (hr : r = .property ∨ r = .operator) :
    Option.Rel (fun c c' => c'.text = c.text) (n.child? r) (n'.child? r) := by
  have hbody : r ≠ .body := by rcases hr with rfl | rfl <;> decide
  refine rel_imp (h.child?_role fun _ => hbody) fun c c' hc => hc.2.text ?_
  rw [Label.isWord, hc.1]
  rcases hr with rfl | rfl <;> simp

/-- `isNumericFunction` is the same for `Alike` nodes. -/
theorem Alike.isNumericFunction (h : Alike opened n n') :
    n'.isNumericFunction = n.isNumericFunction := by
  rw [Node.isNumericFunction, Node.isNumericFunction, h.kind]
  -- A plain name, or a member of `Number`.
  cases hkind : n.kind
  case identifier => rw [h.text_of_kind hkind rfl]
  case memberExpression =>
    have hobject : (n'.child? .object).any (·.text == "Number") =
        (n.child? .object).any (·.text == "Number") :=
      any_eq_of_rel (h.child? (by decide)) fun o o' ho => ho.text_beq_number
    have hproperty : (n'.child? .property).any
        (fun p => p.text == "parseInt" || p.text == "parseFloat") =
          (n.child? .property).any (fun p => p.text == "parseInt" || p.text == "parseFloat") :=
      any_eq_of_rel (h.row.child?_word (.inl rfl)) fun p p' hp => by rw [hp]
    rw [hobject, hproperty]
  all_goals rfl

/-- `literalType` is the same for `Alike` nodes. -/
theorem Alike.literalType (h : Alike opened n n') : n'.literalType = n.literalType := by
  have hargument : (n'.unwrap.child? .argument).any (·.kind == .number) =
      (n.unwrap.child? .argument).any (·.kind == .number) :=
    any_eq_of_rel (h.unwrap.child? (by decide)) fun a a' ha => by rw [ha.kind]
  rw [Node.literalType, Node.literalType, h.unwrap.kind, hargument]

/-! ## Parameters -/

/-- `parameterList` of functions is alike, whatever bodies they have. -/
private theorem alike_parameterList (h : AlikeRow opened anyBody f.children f'.children) :
    List.Forall₂ (Alike opened) f.parameterList f'.parameterList := by
  have hsingle := h.child? (r := .parameter) fun _ => by decide
  have hlist := h.child?_role (r := .parameters) fun _ => by decide
  rw [parameterList, parameterList]
  -- A single parameter without parentheses comes first, and only then the list.
  generalize f.child? .parameter = single?, f'.child? .parameter = single'? at hsingle
  generalize f.child? .parameters = list?, f'.child? .parameters = list'? at hlist
  cases hsingle with
  | some hparameter => exact .cons hparameter .nil
  | none =>
    cases hlist with
    | none => exact .nil
    | @some list list' hlist =>
      -- A node that stands for a list is not opened, even if its kind were that of a function.
      have hfunction : list.label.isFunction = false := by
        rw [Label.isFunction, hlist.1]
        simp
      exact hlist.2.content hfunction

/-- `bareAmong?` finds alike nodes in alike rows. -/
private theorem alike_bareAmong? {strict : Bool} {r : Role} {whole whole' : Node}
    {ns ns' : List Node} (hwhole : Alike opened whole whole')
    (hrow : List.Forall₂ (Alike opened) ns ns')
    (hns : ∀ n ∈ ns, ∀ n', Alike opened n n' →
      Option.Rel (Alike opened) (n.bareParameter? strict) (n'.bareParameter? strict)) :
    Option.Rel (Alike opened) (bareParameter?.bareAmong? strict r whole ns)
      (bareParameter?.bareAmong? strict r whole' ns') := by
  induction hrow with
  | nil =>
    rw [bareParameter?.bareAmong?, bareParameter?.bareAmong?]
    cases strict with
    | true => exact .none
    | false => exact .some hwhole
  | @cons n n' ns ns' first _ ih =>
    obtain ⟨hn, hrest⟩ := List.forall_mem_cons.mp hns
    rw [bareParameter?.bareAmong?, bareParameter?.bareAmong?, first.role]
    -- Both searches stop at the same child, as they look at the part it plays.
    by_cases hplays : (n.role == some r) = true
    · rw [if_pos hplays, if_pos hplays]
      exact hn n' first
    · rw [if_neg hplays, if_neg hplays]
      exact ih hrest

/-- `bareParameter?` finds alike nodes. -/
theorem Alike.bareParameter? (h : Alike opened n n') (strict : Bool) :
    Option.Rel (Alike opened) (n.bareParameter? strict) (n'.bareParameter? strict) := by
  induction n using Node.induction generalizing n' with
  | mk l cs ih =>
    obtain ⟨l', cs'⟩ := n'
    have hkind : l'.kind = l.kind := h.kind
    have hamong (hfunction : l.kind.isFunction = false) (r : Role) :
        Option.Rel (Alike opened) (bareParameter?.bareAmong? strict r (.mk l cs) cs)
          (bareParameter?.bareAmong? strict r (.mk l' cs') cs') :=
      alike_bareAmong? h (h.children (isFunction_label_of_kind rfl hfunction)) fun c hc c' hcc' =>
        ih c hc hcc'
    rw [Node.bareParameter?, Node.bareParameter?, hkind]
    generalize l.kind = kind at hamong
    -- Types and defaults are taken off, from nodes that are no functions.
    cases kind
    case requiredParameter | optionalParameter => exact hamong rfl .pattern
    case assignmentPattern => exact hamong rfl .left
    all_goals exact .some h

/-- `parameterNames` are the same, whatever bodies the functions have. -/
private theorem alike_parameterNames (h : AlikeRow opened anyBody f.children f'.children) :
    f'.parameterNames = f.parameterNames := by
  rw [parameterNames, parameterNames, List.flatMap, List.flatMap,
    forall₂_map_eq (alike_parameterList h)]
  intro p p' hp
  have hbare := hp.bareParameter? false
  generalize p.bareParameter? false = bare?, p'.bareParameter? false = bare'? at hbare ⊢
  cases hbare with
  | none => rfl
  | @some bare bare' hbare =>
    dsimp only
    rw [hbare.kind]
    cases hkind : bare.kind
    case identifier => rw [hbare.text_of_kind hkind rfl]
    case objectPattern =>
      have hfunction : bare.label.isFunction = false := isFunction_label_of_kind hkind rfl
      exact forall₂_map_eq (hbare.bindings hfunction) fun b b' hb => hb.name
    all_goals rfl

/-- `partBindings` are the same for `Alike` patterns. -/
theorem Alike.partBindings (h : Alike opened n n') (hkind : n.kind = .objectPattern) :
    n'.partBindings = n.partBindings := by
  have hfunction : n.label.isFunction = false := isFunction_label_of_kind hkind rfl
  have hrow := h.bindings hfunction
  rw [Node.partBindings, Node.partBindings]
  generalize n.bindings = bs, n'.bindings = bs' at hrow
  induction hrow with
  | nil => rfl
  | cons hb _ ih => rw [List.filterMap_cons, List.filterMap_cons, hb.key, hb.name, ih]

end Syntax.Node

/-- `ofFunction?` gives the same request for functions whose parameters are alike. -/
private theorem RequestParameter.ofFunction?_alike {opened : Node → Prop} {anyBody : Prop}
    {f f' : Node} (h : AlikeRow opened anyBody f.children f'.children) :
    ofFunction? f' = ofFunction? f := by
  have hlist := alike_parameterList h
  rw [ofFunction?, ofFunction?]
  generalize f.parameterList = ps, f'.parameterList = ps' at hlist
  cases hlist with
  | nil => rfl
  | cons hp _ =>
    refine bind_eq_of_rel (hp.bareParameter? true) fun bare bare' hbare => ?_
    rw [hbare.kind]
    cases hkind : bare.kind
    case identifier => rw [hbare.text_of_kind hkind rfl]
    case objectPattern => rw [hbare.partBindings hkind]
    all_goals rfl

namespace Inference

variable {opened : Node → Prop} {request? : Option String} {o : Observations} {n n' : Node}

/-! ## Questions to a node -/

/-- `isRequest` is the same for `Alike` nodes. -/
private theorem isRequest_alike (h : n.Alike opened n') :
    isRequest request? n' = isRequest request? n := by
  rw [isRequest, isRequest, h.unwrap.kind]
  by_cases hkind : n.unwrap.kind = .identifier
  · rw [h.unwrap.text_of_kind hkind rfl]
  · rw [beq_eq_false_iff_ne.mpr hkind, Bool.false_and, Bool.false_and]

/-- `part?` is the same for `Alike` nodes. -/
private theorem part?_alike (h : n.Alike opened n') : part? request? o n' = part? request? o n := by
  rw [part?, part?, h.kind]
  cases hkind : n.kind
  case memberExpression =>
    refine bind_eq_of_rel (h.child? (by decide)) fun object object' hobject => ?_
    rw [isRequest_alike hobject]
    refine guard_bind_congr fun _ => ?_
    exact bind_eq_of_rel (h.row.child?_word (.inl rfl))
      fun property property' hproperty => by rw [hproperty]
  case identifier => rw [h.text_of_kind hkind rfl]
  all_goals rfl

/-- `shadows` is the same for `Alike` nodes. -/
private theorem shadows_alike (h : n.Alike opened n') :
    shadows request? o n' = shadows request? o n := by
  rw [shadows, shadows, alike_parameterNames h.row]

/-- `bindParts` notes the same at `Alike` nodes. -/
private theorem bindParts_alike (h : n.Alike opened n') :
    bindParts request? o n' = bindParts request? o n := by
  have hname : Option.Rel (Alike opened) (n.child? .name) (n'.child? .name) := h.child? (by decide)
  have hvalue : Option.Rel (Alike opened) (n.child? .value) (n'.child? .value) :=
    h.child? (by decide)
  rw [bindParts, bindParts]
  generalize n.child? .name = name?, n'.child? .name = name'? at hname
  generalize n.child? .value = value?, n'.child? .value = value'? at hvalue
  cases hname with
  | none => rfl
  | @some name name' hname =>
    cases hvalue with
    | none => rfl
    | @some value value' hvalue =>
      dsimp only
      rw [hname.kind, isRequest_alike hvalue]
      -- Only a pattern binds parts, and a pattern is no function.
      by_cases hkind : name.kind = .objectPattern
      · rw [hname.partBindings hkind]
      · simp [hkind]

/-- The named nodes of alike rows are alike one by one. -/
private theorem filter_named_alike {ns ns' : List Node} (h : List.Forall₂ (Alike opened) ns ns') :
    List.Forall₂ (Alike opened) (ns.filter (·.label.named)) (ns'.filter (·.label.named)) :=
  List.rel_filter (fun _ _ hc => iff_of_eq (congrArg (· = true) hc.label.named.symm)) h

/-- `headerCall?` is the same for `Alike` nodes. -/
private theorem headerCall?_alike (h : n.Alike opened n') :
    headerCall? request? n' = headerCall? request? n := by
  refine bind_eq_of_rel (h.child? (by decide)) fun callee callee' hcallee => ?_
  dsimp only
  rw [hcallee.unwrap.kind]
  refine guard_bind_congr fun _ => ?_
  refine bind_eq_of_rel (hcallee.unwrap.child? (by decide)) fun object object' hobject => ?_
  refine bind_eq_of_rel (hcallee.unwrap.row.child?_word (.inl rfl))
    fun property property' hproperty => ?_
  rw [isRequest_alike hobject, hproperty]
  refine guard_bind_congr fun _ => ?_
  refine bind_eq_of_rel (h.row.child?_role fun _ => by decide) fun args args' hargs => ?_
  have hfunction : args.label.isFunction = false := by
    rw [Label.isFunction, hargs.1]
    simp
  -- The header is the one named argument, if there is just one.
  have hnamed := filter_named_alike (hargs.2.children hfunction)
  generalize args.children.filter (·.label.named) = named, args'.children.filter (·.label.named) =
    named' at hnamed
  cases hnamed with
  | nil => rfl
  | cons hsingle hrest =>
    cases hrest with
    | nil => exact hsingle.stringValue?
    | cons => rfl

/-- `readDeclared` notes the same for `Alike` nodes. -/
private theorem readDeclared_alike {part : Part} (h : n.Alike opened n') :
    readDeclared o part n' = readDeclared o part n := by
  rw [readDeclared, readDeclared, h.kind]
  cases hkind : n.kind
  case objectPattern =>
    have hrow := h.bindings (isFunction_label_of_kind hkind rfl)
    dsimp only
    generalize n.bindings = bs, n'.bindings = bs' at hrow
    induction hrow generalizing o with
    | nil => rfl
    | @cons b b' _ _ hb _ ih =>
      have htype : b'.default?.map literalType = b.default?.map literalType :=
        map_eq_of_rel hb.default? fun _ _ hdefault => hdefault.literalType
      rw [List.foldl_cons, List.foldl_cons, hb.key, hb.name, htype, ih]
  case identifier => rw [h.text_of_kind hkind rfl]
  all_goals rfl

/-- `observeNode` notes the same at `Alike` nodes. -/
private theorem observeNode_alike (h : n.Alike opened n') :
    observeNode request? o n' = observeNode request? o n := by
  rw [observeNode, observeNode, h.kind, bindParts_alike h, headerCall?_alike h]

end Inference

/-! ## Uses of a value -/

namespace Syntax.Cursor

variable {opened : Node → Prop} {c d p q : Cursor}

/-- `otherOperand?` is alike at positions that go together. -/
private theorem otherOperand?_alike (h : Cursor.Alike opened c d)
    (hp : AlikeRow opened False p.node.children q.node.children) :
    Option.Rel (Node.Alike opened) (c.otherOperand? p) (d.otherOperand? q) := by
  rw [otherOperand?, otherOperand?, h.plays]
  split
  · exact hp.child? nofun
  · exact hp.child? nofun

/-- `isUsedAsNumber` is the same at positions that go together: it is told inside the function. -/
private theorem isUsedAsNumber_alike (h : Cursor.Alike opened c d) :
    d.isUsedAsNumber = c.isUsedAsNumber := by
  obtain ⟨p, q, hp, hq, hkind, hrow, hup⟩ := h.wrapped.parent?
  rw [isUsedAsNumber, isUsedAsNumber, hp, hq]
  dsimp only
  rw [hkind]
  cases hparent : p.kind
  case arguments =>
    -- The arguments are no function, so the call is in the function as well.
    have hup' : Cursor.Alike opened p q := hup.resolve_left (by rw [hparent]; decide)
    obtain ⟨call, call', hcall, hcall', _, hcallRow, _⟩ := hup'.parent?
    dsimp only
    rw [h.wrapped.isFirstContent, hcall, hcall']
    dsimp only
    rw [any_eq_of_rel (hcallRow.child? nofun) fun callee callee' hcallee =>
      hcallee.unwrap.isNumericFunction]
  case unaryExpression =>
    exact any_eq_of_rel (hrow.child?_word (.inr rfl)) fun o o' ho => by rw [ho]
  case binaryExpression =>
    have hother : (d.wrapped.otherOperand? q).any (·.unwrap.kind == .number) =
        (c.wrapped.otherOperand? p).any (·.unwrap.kind == .number) :=
      any_eq_of_rel (otherOperand?_alike h.wrapped hrow) fun n n' hn => by rw [hn.unwrap.kind]
    have hoperator := hrow.child?_word (.inr rfl)
    dsimp only
    generalize p.node.child? .operator = operator?, q.node.child? .operator =
      operator'? at hoperator
    cases hoperator with
    | none => rfl
    | some htext =>
      dsimp only
      rw [htext, hother]
  all_goals rfl

end Syntax.Cursor

namespace Inference

variable {opened : Node → Prop} {request? : Option String} {o : Observations} {c d : Cursor}

/-- `readAt` notes the same at positions that go together. -/
private theorem readAt_alike (h : Cursor.Alike opened c d) (part : Part) (name : String) :
    o.readAt part name d = o.readAt part name c := by
  rw [Observations.readAt, Observations.readAt, Cursor.isUsedAsNumber_alike h]

/-- `readPart` notes the same at positions that go together. -/
private theorem readPart_alike (h : Cursor.Alike opened c d) (part : Part) :
    readPart o part d = readPart o part c := by
  obtain ⟨p, q, hp, hq, hkind, hrow, hup⟩ := h.wrapped.parent?
  rw [readPart, readPart, hp, hq]
  dsimp only
  rw [hkind]
  -- The parent of a part is no function in the cases that go on from it, so it is inside as well.
  cases hparent : p.kind
  case memberExpression =>
    have hup' : Cursor.Alike opened p q := hup.resolve_left (by rw [hparent]; decide)
    have hproperty := hrow.child?_word (.inl rfl)
    dsimp only
    rw [h.wrapped.plays]
    generalize p.node.child? .property = property?, q.node.child? .property =
      property'? at hproperty
    cases hproperty with
    | none => rfl
    | some htext =>
      dsimp only
      rw [htext, readAt_alike hup']
  case subscriptExpression =>
    have hup' : Cursor.Alike opened p q := hup.resolve_left (by rw [hparent]; decide)
    have hkey : (q.node.child? .index).bind stringValue? =
        (p.node.child? .index).bind stringValue? :=
      bind_eq_of_rel (hrow.child? nofun) fun _ _ hindex => hindex.stringValue?
    dsimp only
    rw [h.wrapped.plays, hkey]
    cases (p.node.child? .index).bind stringValue? with
    | none => rfl
    | some key =>
      dsimp only
      rw [readAt_alike hup']
  case variableDeclarator =>
    have hname := hrow.child? (r := .name) nofun
    dsimp only
    rw [h.wrapped.plays]
    generalize p.node.child? .name = name?, q.node.child? .name = name'? at hname
    cases hname with
    | none => rfl
    | some hname =>
      dsimp only
      rw [readDeclared_alike hname]
  all_goals rfl

/-! ## The walk -/

/-- `observeUse` notes the same at positions that go together. -/
private theorem observeUse_alike (h : Cursor.Alike opened c d) :
    observeUse request? o d = observeUse request? o c := by
  rw [observeUse, observeUse, part?_alike h.node]
  cases part? request? o c.node with
  | some part => exact readPart_alike h part
  | none =>
    have hkind : d.kind = c.kind := h.node.kind
    dsimp only
    rw [Cursor.isUsedAsNumber_alike h, hkind]
    by_cases hname : c.kind = .identifier
    · rw [h.node.text_of_kind hname rfl]
    · simp [hname]

/-- `visit` notes the same at positions that go together, and passes the same functions by. -/
private theorem visit_alike (o : Observations) (c d : Cursor) (h : Cursor.Alike opened c d) :
    visit request? o d = visit request? o c := by
  have hkind : d.kind = c.kind := h.node.kind
  rw [visit, visit, hkind, shadows_alike h.node, observeNode_alike h.node, observeUse_alike h]

end Inference

namespace Syntax.Cursor

variable {opened : Node → Prop} {c d : Cursor}

/-- `handlerFacts` are the same for handlers that are alike inside, wherever they stand, if the
functions in them whose bodies are left open are passed by. -/
theorem handlerFacts_alike (hfunction : c.kind.isFunction = true) (hkind : d.kind = c.kind)
    (hinside : List.Forall₂ (Node.Alike opened) c.node.children d.node.children)
    (hpassed : ∀ e ∈ c.handlerHistory, e.2.node.Opened opened →
      Inference.shadows c.requestName? e.1 e.2.node = true) :
    d.handlerFacts = c.handlerFacts := by
  have hbodies := alike_child? hfunction hkind hinside .body
  have hrow : AlikeRow opened False c.node.children d.node.children := .of_forall₂ hinside
  unfold handlerHistory requestName? at hpassed
  rw [handlerFacts, handlerFacts, RequestParameter.ofFunction?_alike hrow]
  generalize c.child? .body = body?, d.child? .body = body'? at hbodies hpassed ⊢
  cases hrequest : RequestParameter.ofFunction? c.node with
  | none => rfl
  | some request =>
    cases hbodies with
    | none => rfl
    | some hbody =>
      rw [hrequest] at hpassed
      refine congrArg Observations.facts
        (walk_alike Inference.visit_alike hbody fun e he hopened => ?_)
      -- A function that binds the request anew is passed by, so its body is never entered.
      have hshadows : Inference.shadows request.name? e.1 e.2.node = true := hpassed e he hopened
      have hisFunction : e.2.kind.isFunction = true := hopened.isFunction
      rw [Inference.visit, hisFunction, hshadows]
      rfl

end Syntax.Cursor

namespace Syntax

/-! ## One function in two places -/

/-- The nodes are the same function, in the same place or in two: they are of one kind, and the
nodes inside agree in kinds, parts and words. Where the nodes stand in their files is left open, and
so is the part that the function itself plays in what is around it. -/
structure Node.SameFunction (f g : Node) : Prop where
  function : f.kind.isFunction = true
  kind : g.kind = f.kind
  inside : List.Forall₂ (Node.Alike fun _ => False) f.children g.children

/-- `handlerFacts` do not depend on where a handler stands: the same function reads the same in
another expression, in another file or on its own. -/
theorem Cursor.handlerFacts_anywhere {c d : Cursor} (h : c.node.SameFunction d.node) :
    d.handlerFacts = c.handlerFacts :=
  handlerFacts_alike h.function h.kind h.inside fun _ _ hopened => hopened.2.elim

/-- The function `req => (req.query.page)`, which starts at the given byte. -/
def pageFunction (start : Nat) : Node :=
  .onLine .arrowFunction none start (start + 23) "req => (req.query.page)"
    [.onLine .identifier (some .parameter) start (start + 3) "req",
     .onLine .parenthesizedExpression (some .body) (start + 7) (start + 23) "(req.query.page)"
      [.onLine .memberExpression none (start + 8) (start + 22) "req.query.page"
        [.onLine .memberExpression (some .object) (start + 8) (start + 17) "req.query"
          [.onLine .identifier (some .object) (start + 8) (start + 11) "req",
           .onLine .propertyIdentifier (some .property) (start + 12) (start + 17) "query"],
         .onLine .propertyIdentifier (some .property) (start + 18) (start + 22) "page"]]]

/-- The function under a sign, in `+(req => (req.query.page))`. -/
def signedPageFunction : Cursor where
  node := pageFunction 2
  above :=
    [⟨⟨.parenthesizedExpression, true, some .argument, ⟨1, 26, 1⟩, "(req => (req.query.page))"⟩,
      [], []⟩,
     ⟨⟨.unaryExpression, true, none, ⟨0, 26, 1⟩, "+(req => (req.query.page))"⟩,
      [.onLine .other (some .operator) 0 1 "+"], []⟩]

/-- In `signedPageFunction` the page is read as in the function alone, and it is a string in both:
the sign is not looked at. -/
theorem signedPageFunction_reads_alone :
    (pageFunction 0).SameFunction signedPageFunction.node ∧
      signedPageFunction.handlerFacts = (Cursor.ofRoot (pageFunction 0)).handlerFacts ∧
      signedPageFunction.handlerFacts.query = [⟨"page", .string, false⟩] := by
  have hsame : (pageFunction 0).SameFunction signedPageFunction.node :=
    ⟨rfl, rfl, by decide +kernel⟩
  refine ⟨hsame, Cursor.handlerFacts_anywhere (c := Cursor.ofRoot (pageFunction 0)) hsame, ?_⟩
  decide +kernel

end Syntax

end RouteAtlas
