import RouteAtlas.Proofs.Module.Notes

/-!
# Where notes come from

A note that speaks of a function gives the span of a function that stands in the node that the note
was made for, whichever of the ways to declare, export or register a function the node is one of.
What a note on exports says, and which imports stand behind a variable that holds a module, is seen
here as well.

## Key results

- `value?_within`, `objectMembers_within`: values refer to functions of the node they are taken from
- `exportFrom_of_mem_ofExportStatement`, `exportFrom_of_mem_ofAssignment`: notes on exports
- `from_of_mem_ofNode`: the functions that any note speaks of stand in its node
-/

namespace RouteAtlas

open Syntax

/-! ## Functions of a node -/

/-- A function with the span stands in the tree of the node. -/
def Syntax.Node.HasFunction (n : Node) (s : Span) : Prop :=
  ∃ f ∈ n.subtrees, f.kind.isFunction = true ∧ f.span = s

/-- `HasFunction` holds of every tree that the node stands in. -/
theorem Syntax.Node.HasFunction.mono {n m : Node} {s : Span} (h : n.HasFunction s)
    (hn : n ∈ m.subtrees) :
    m.HasFunction s := by
  obtain ⟨f, hf, hfunction⟩ := h
  exact ⟨f, Node.mem_subtrees_trans hf hn, hfunction⟩

/-- If the value is a function, it is one of the node. -/
def Value.Within (n : Node) : Value → Prop
  | .function s => n.HasFunction s
  | .named _ => True

/-- `Within` holds of every tree that the node stands in. -/
theorem Value.Within.mono {n m : Node} {v : Value} (h : v.Within n) (hn : n ∈ m.subtrees) :
    v.Within m := by
  cases v with
  | function s => exact Node.HasFunction.mono h hn
  | named name => trivial

/-- The functions that a variable is known to hold are functions of the node. -/
def Variable.Within (n : Node) : Variable → Prop
  | .function s => n.HasFunction s
  | .object members => ∀ m ∈ members.entries, m.2.Within n
  | _ => True

/-- `Within`, of variables, holds of every tree that the node stands in. -/
theorem Variable.Within.mono {n m : Node} {v : Variable} (h : v.Within n) (hn : n ∈ m.subtrees) :
    v.Within m := by
  cases v with
  | function s => exact Node.HasFunction.mono h hn
  | required specifier => trivial
  | object members => exact fun e he => (h e he).mono hn
  | other => trivial

namespace Syntax.Node

variable {n : Node}

/-- `value?` refers to functions of the node. -/
theorem value?_within {v : Value} : n.value? = some v → v.Within n := by
  have hinner := n.unwrap_mem_subtrees
  unfold value?
  dsimp only
  split
  · rename_i hfunction
    rintro ⟨⟩
    exact ⟨n.unwrap, hinner, hfunction, rfl⟩
  · -- Not a function: a name, or a call that hands a function to a wrapper.
    split
    · rintro ⟨⟩
      trivial
    · intro h
      obtain ⟨f, hf, rfl⟩ := Option.map_eq_some_iff.mp h
      obtain ⟨hmem, hfunction⟩ := wrappedFunction?_mem_subtrees hf
      exact ⟨f, mem_subtrees_trans hmem hinner, hfunction, rfl⟩
    · exact nofun

/-- `objectMember?` refers to functions of the node. -/
private theorem objectMember?_within {m : String × Value} :
    n.objectMember? = some m → m.2.Within n := by
  unfold objectMember?
  -- A pair with a value, a name for itself, or a method, which is a function itself.
  split
  · intro h
    obtain ⟨key, _, h⟩ := Option.bind_eq_some_iff.mp h
    obtain ⟨value, hvalue, h⟩ := Option.bind_eq_some_iff.mp h
    obtain ⟨name, _, h⟩ := Option.bind_eq_some_iff.mp h
    obtain ⟨v, hv, h⟩ := Option.bind_eq_some_iff.mp h
    obtain rfl := Option.some.inj h
    exact (value?_within hv).mono (child?_mem_subtrees hvalue)
  · rintro ⟨⟩
    trivial
  · rename_i hmethod
    intro h
    obtain ⟨name, _, rfl⟩ := Option.map_eq_some_iff.mp h
    exact ⟨n, n.self_mem_subtrees, by rw [hmethod]; rfl, rfl⟩
  · exact nofun

/-- `objectMembers` refer to functions of the node. -/
theorem objectMembers_within : ∀ m ∈ n.objectMembers.entries, m.2.Within n := by
  intro m hm
  rcases Dictionary.mem_putAll hm with hmember | hempty
  · obtain ⟨c, hc, hm⟩ := List.mem_filterMap.mp hmember
    exact (objectMember?_within hm).mono (mem_subtrees_of_mem_content hc)
  · exact absurd hempty List.not_mem_nil

/-- `handlerArg`, if it is a function in its place, is one of the node. -/
private theorem hasFunction_of_handlerArg {s : Span} :
    n.handlerArg = .inline s → n.HasFunction s := by
  have hinner := n.unwrap_mem_subtrees
  unfold handlerArg
  dsimp only
  split
  · rename_i hfunction
    intro h
    exact ⟨n.unwrap, hinner, hfunction, HandlerArg.inline.inj h⟩
  · split
    · exact nofun
    · split <;> exact nofun
    · split
      · rename_i f hf
        intro h
        -- The function is the last argument of a wrapper.
        obtain ⟨hmem, hfunction⟩ := wrappedFunction?_mem_subtrees hf
        exact ⟨f, mem_subtrees_trans hmem hinner, hfunction, HandlerArg.inline.inj h⟩
      · exact nofun
    · exact nofun

/-- `methodCall?` gives the content of the arguments. -/
theorem content_of_methodCall? {property : String} {args : List Node}
    (h : n.methodCall? = some (property, args)) :
    ∃ list, n.child? .arguments = some list ∧ list.content = args := by
  -- The callee, two checks of kinds and the property come before the arguments.
  obtain ⟨callee, _, h⟩ := Option.bind_eq_some_iff.mp h
  obtain ⟨_, _, h⟩ := Option.bind_eq_some_iff.mp h
  obtain ⟨_, _, h⟩ := Option.bind_eq_some_iff.mp h
  obtain ⟨_, _, h⟩ := Option.bind_eq_some_iff.mp h
  obtain ⟨list, hlist, h⟩ := Option.bind_eq_some_iff.mp h
  exact ⟨list, hlist, (Prod.mk.inj (Option.some.inj h)).2⟩

/-- `methodCall?` gives arguments that stand in the call. -/
theorem mem_subtrees_of_methodCall? {property : String} {args : List Node}
    (h : n.methodCall? = some (property, args)) : ∀ a ∈ args, a ∈ n.subtrees := by
  obtain ⟨list, hlist, rfl⟩ := content_of_methodCall? h
  intro a ha
  exact mem_subtrees_trans (mem_subtrees_of_mem_content ha) (child?_mem_subtrees hlist)

/-- `route?` gives handlers in their place that are functions of the call. -/
private theorem hasFunction_of_route? {r : Route} {s : Span} (h : n.route? = some r)
    (hs : .inline s ∈ r.handlers) :
    n.HasFunction s := by
  obtain ⟨⟨property, args⟩, hcall, h⟩ := Option.bind_eq_some_iff.mp h
  obtain ⟨method, _, h⟩ := Option.bind_eq_some_iff.mp h
  -- Two arguments at least: the URL and a handler.
  cases args with
  | nil => exact nomatch h
  | cons first rest =>
    cases rest with
    | nil => exact nomatch h
    | cons handler more =>
      obtain ⟨url, _, h⟩ := Option.bind_eq_some_iff.mp h
      obtain ⟨_, _, hr⟩ := Option.bind_eq_some_iff.mp h
      obtain rfl := Option.some.inj hr
      obtain ⟨a, ha, hinline⟩ := List.mem_map.mp hs
      exact (hasFunction_of_handlerArg hinline).mono
        (mem_subtrees_of_methodCall? hcall a (List.mem_cons_of_mem _ ha))

end Syntax.Node

/-! ## Notes on exports -/

namespace Note

/-- The note is about what the file exports, and the functions it speaks of are functions of the
node. -/
inductive ExportFrom (n : Node) : Note → Prop where
  | listed (name : String) : ExportFrom n (.listed name)
  | exported (name : String) {value : Value} : value.Within n → ExportFrom n (.exported name value)
  | defaultExport {value? : Option Value} : (∀ value, value? = some value → value.Within n) →
    ExportFrom n (.defaultExport value?)

variable {n : Node} {note : Note}

/-- `ofExport` notes exports of functions of the node, if the value is one. -/
private theorem exportFrom_of_mem_ofExport {name : String} {value? : Option Value}
    (hvalue : ∀ value, value? = some value → value.Within n) :
    ∀ note ∈ ofExport name value?, ExportFrom n note := by
  refine List.forall_mem_cons.mpr ⟨.listed name, fun note hnote => ?_⟩
  obtain ⟨value, hsome, rfl⟩ := Option.map_eq_some_iff.mp (Option.mem_toList.mp hnote)
  exact .exported name (hvalue value hsome)

/-- `ofMembers` notes exports of functions of the node, if the members are. -/
private theorem exportFrom_of_mem_ofMembers {members : Dictionary Value}
    (hmembers : ∀ m ∈ members.entries, m.2.Within n) :
    ∀ note ∈ ofMembers members, ExportFrom n note := by
  intro note hnote
  obtain ⟨m, hm, hnote⟩ := List.mem_flatMap.mp hnote
  refine exportFrom_of_mem_ofExport (fun value hvalue => ?_) note hnote
  obtain rfl := Option.some.inj hvalue
  exact hmembers m hm

/-- `ofDefault` notes exports of functions of the node, from an object that is exported or from the
value that is. -/
private theorem exportFrom_of_mem_ofDefault {target? : Option Node}
    (htarget : ∀ t, target? = some t → t ∈ n.subtrees) :
    ∀ note ∈ ofDefault target?, ExportFrom n note := by
  refine List.forall_mem_cons.mpr ⟨.listed _, ?_⟩
  cases target? with
  | none => exact fun _ => nofun
  | some target =>
    have hinner := Node.mem_subtrees_trans target.unwrap_mem_subtrees (htarget target rfl)
    dsimp only
    split
    · exact exportFrom_of_mem_ofMembers fun m hm => (Node.objectMembers_within m hm).mono hinner
    · refine List.forall_mem_singleton.mpr (.defaultExport fun value hvalue => ?_)
      exact (Node.value?_within hvalue).mono hinner

/-- `ofExport` of a name speaks of no function. -/
private theorem exportFrom_of_mem_ofNamed {name : String} (exported : String) :
    ∀ note ∈ ofExport exported (some (.named name)), ExportFrom n note := by
  refine exportFrom_of_mem_ofExport fun value hvalue => ?_
  obtain rfl := Option.some.inj hvalue
  trivial

/-- `ofDeclarator` speaks of no function. -/
private theorem exportFrom_of_mem_ofDeclarator (declarator : Node) :
    ∀ note ∈ ofDeclarator declarator, ExportFrom n note := by
  unfold ofDeclarator
  cases declarator.child? .name with
  | none => exact fun _ => nofun
  | some name =>
    dsimp only
    split
    · exact exportFrom_of_mem_ofNamed name.text
    · exact fun _ => nofun

/-- `ofDeclaration` notes exports of functions of the node. -/
private theorem exportFrom_of_mem_ofDeclaration {declaration : Node}
    (hmem : declaration ∈ n.subtrees) :
    ∀ note ∈ ofDeclaration declaration, ExportFrom n note := by
  unfold ofDeclaration
  split
  all_goals rename_i hkind
  -- Functions and generators are exported with their spans.
  iterate 2
    · cases declaration.child? .name with
      | none => exact fun _ => nofun
      | some name =>
        refine exportFrom_of_mem_ofExport fun value hvalue => ?_
        obtain rfl := Option.some.inj hvalue
        exact ⟨declaration, hmem, by rw [hkind]; rfl, rfl⟩
  iterate 2
    · -- Variables are exported by name.
      intro note hnote
      obtain ⟨declarator, _, hnote⟩ := List.mem_flatMap.mp hnote
      exact exportFrom_of_mem_ofDeclarator declarator note hnote
  · exact fun _ => nofun

/-- `ofSpecifier` speaks of no function. -/
private theorem exportFrom_of_mem_ofSpecifier (again : Bool) (specifier : Node) :
    ∀ note ∈ ofSpecifier again specifier, ExportFrom n note := by
  unfold ofSpecifier
  cases specifier.child? .name with
  | none => exact fun _ => nofun
  | some name =>
    cases again with
    | true => exact exportFrom_of_mem_ofExport fun _ => nofun
    | false => exact exportFrom_of_mem_ofNamed _

/-- `ofExportStatement` notes exports of functions of the node. -/
theorem exportFrom_of_mem_ofExportStatement : ∀ note ∈ ofExportStatement n, ExportFrom n note := by
  unfold ofExportStatement
  split
  · refine exportFrom_of_mem_ofDefault fun t ht => ?_
    -- The default export is a declaration or a value.
    rcases Option.or_eq_some_iff.mp ht with hdeclaration | ⟨_, hvalue⟩
    · exact Node.child?_mem_subtrees hdeclaration
    · exact Node.child?_mem_subtrees hvalue
  · cases hdeclaration : n.child? .declaration with
    | some declaration =>
      exact exportFrom_of_mem_ofDeclaration (Node.child?_mem_subtrees hdeclaration)
    | none =>
      cases n.content.find? (·.kind == .exportClause) with
      | none => exact fun _ => nofun
      | some clause =>
        intro note hnote
        obtain ⟨specifier, _, hnote⟩ := List.mem_flatMap.mp hnote
        exact exportFrom_of_mem_ofSpecifier _ specifier note hnote

/-- `ofAssignment` notes exports of functions of what is assigned. -/
theorem exportFrom_of_mem_ofAssignment (left : Node) {right : Node} (hmem : right ∈ n.subtrees) :
    ∀ note ∈ ofAssignment left right, ExportFrom n note := by
  have hvalue : ∀ value, right.value? = some value → value.Within n := fun value hvalue =>
    (Node.value?_within hvalue).mono hmem
  unfold ofAssignment
  -- All of what is exported is assigned to, or one property of it, or something else.
  split
  · split
    · refine List.forall_mem_cons.mpr ⟨.listed _, ?_⟩
      split
      · refine List.forall_mem_cons.mpr ⟨.defaultExport fun _ => nofun, ?_⟩
        exact exportFrom_of_mem_ofMembers fun m hm => (Node.objectMembers_within m hm).mono hmem
      · exact List.forall_mem_singleton.mpr (.defaultExport hvalue)
    · cases left.child? .object with
      | none => exact fun _ => nofun
      | some object =>
        cases left.child? .property with
        | none => exact fun _ => nofun
        | some property =>
          dsimp only
          split
          · exact exportFrom_of_mem_ofExport hvalue
          · exact fun _ => nofun
  · exact fun _ => nofun

/-! ## All notes -/

/-- The functions that the note speaks of are functions of the node. -/
inductive From (n : Node) : Note → Prop where
  | imported (i : Import) : From n (.imported i)
  | ofExport {note : Note} : ExportFrom n note → From n note
  | function (name : String) {span : Span} (topLevel : Bool) : n.HasFunction span →
    From n (.function name span topLevel)
  | declared (name : String) {held : Variable} : held.Within n → From n (.declared name held)
  | route {r : Route} : (∀ s, .inline s ∈ r.handlers → n.HasFunction s) → From n (.route r)
  | mount (front router : String) : From n (.mount front router)

/-- `ofDeclared` speaks of functions of the value. -/
private theorem from_of_mem_ofDeclared (topLevel : Bool) (name : Node) {value : Node}
    (hmem : value ∈ n.subtrees) :
    ∀ note ∈ ofDeclared topLevel name value, From n note := by
  unfold ofDeclared
  cases value.required? with
  | some required =>
    refine List.forall_mem_cons.mpr ⟨.imported _, ?_⟩
    split
    · exact List.forall_mem_singleton.mpr (.declared _ trivial)
    · exact fun _ => nofun
  | none =>
    dsimp only
    split
    · split
      · rename_i span hvalue
        -- A function is noted twice, by itself and as what the variable holds.
        have hspan : n.HasFunction span := (Node.value?_within hvalue).mono hmem
        exact List.forall_mem_cons.mpr
          ⟨.function _ _ hspan, List.forall_mem_singleton.mpr (.declared _ hspan)⟩
      · refine List.forall_mem_singleton.mpr (.declared _ ?_)
        split
        · exact fun m hm => (Node.objectMembers_within m hm).mono hmem
        · trivial
    · exact fun _ => nofun

/-- `ofNode` speaks of functions of the node, whatever the node is. -/
theorem from_of_mem_ofNode (place : Cursor) : ∀ note ∈ ofNode place, From place.node note := by
  intro note hnote
  cases takenFrom_of_mem_ofNode hnote with
  | importStatement => exact .imported _
  | @declarator name value _ _ _ value_eq mem =>
    have hvalue :=
      Node.mem_subtrees_trans value.unwrap_mem_subtrees (Node.child?_mem_subtrees value_eq)
    exact from_of_mem_ofDeclared _ name hvalue note mem
  | function kind =>
    -- The function that is declared is the node itself.
    have hfunction : place.node.kind.isFunction = true := by
      rcases kind with kind | kind <;> rw [kind] <;> rfl
    exact .function _ _ ⟨place.node, Node.self_mem_subtrees _, hfunction, rfl⟩
  | exportStatement _ mem => exact .ofExport (exportFrom_of_mem_ofExportStatement note mem)
  | @assignment left right _ _ _ right_eq mem =>
    have hright :=
      Node.mem_subtrees_trans right.unwrap_mem_subtrees (Node.child?_mem_subtrees right_eq)
    exact .ofExport (exportFrom_of_mem_ofAssignment left hright note mem)
  | statement => exact .imported _
  | route _ route_eq => exact .route fun s => Node.hasFunction_of_route? route_eq
  | mount => exact .mount _ _

end Note

end RouteAtlas
