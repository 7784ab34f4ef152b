import RouteAtlas.Proofs.Request.Locality

/-!
# Functions that bind the request anew

A function in a handler may have a parameter with the name of the request, or with a name that
stands for a part of it. Inside such a function the name is another thing, so the function is passed
by, and the handler reads the same whatever body the function has. This goes for names that
parameters bind directly: as they are, with a type or a default, or as members of an object pattern.
Names that are bound further inside, by a rest element, in an array or in a pattern within a
pattern, are not found, and the body of the function is read as if its request were the request of
the handler.

## Key results

- `Syntax.Node.mem_parameterNames_iff`, `Syntax.Node.BindsDirectly.mem_boundNames`: the names that
  are found are those bound directly, which are some of those bound
- `Inference.shadows_iff`: which functions are passed by
- `Syntax.Cursor.handlerFacts_of_shadowed`: their bodies do not matter
- `Syntax.inner_binding_missed`: the bodies of functions that bind the request further inside do
-/

namespace RouteAtlas

open Syntax Syntax.Node

namespace Syntax.Node

variable {n m f : Node} {name : String}

/-! ## Names that patterns bind -/

/-- The names that a parameter binds, however far inside. Array patterns have no kind of their
own. -/
def boundNames : Node → List String
  | .mk l cs =>
    match l.kind with
    | .identifier | .shorthandPropertyIdentifierPattern => [l.text]
    | .requiredParameter | .optionalParameter => boundAt .pattern cs
    | .assignmentPattern | .objectAssignmentPattern => boundAt .left cs
    | .pairPattern => boundAt .value cs
    | .objectPattern | .restPattern | .other => boundAmong cs
    | _ => []
where
  /-- The names bound by the first node that plays the given part. -/
  boundAt (r : Role) : List Node → List String
    | [] => []
    | n :: ns => if n.role == some r then boundNames n else boundAt r ns
  /-- The names bound by each of the nodes. -/
  boundAmong : List Node → List String
    | [] => []
    | n :: ns => boundNames n ++ boundAmong ns

/-- The member of an object pattern binds the name directly: as in `{ name }`, `{ name = 1 }`,
`{ key: name }` or `{ key: name = 1 }`. -/
inductive MemberBinds (m : Node) : String → Prop where
  | shorthand (kind : m.kind = .shorthandPropertyIdentifierPattern) : MemberBinds m m.text
  | shorthandDefault {left : Node} (kind : m.kind = .objectAssignmentPattern)
      (left_eq : m.child? .left = some left)
      (left_kind : left.kind = .shorthandPropertyIdentifierPattern) : MemberBinds m left.text
  | pair {key value : Node} {property : String} (kind : m.kind = .pairPattern)
      (key_eq : m.child? .key = some key)
      (value_eq : m.child? .value = some value) (property_eq : key.propertyKey? = some property)
      (value_kind : value.kind = .identifier) : MemberBinds m value.text
  | pairDefault {key value left : Node} {property : String} (kind : m.kind = .pairPattern)
      (key_eq : m.child? .key = some key) (value_eq : m.child? .value = some value)
      (property_eq : key.propertyKey? = some property)
      (value_kind : value.kind = .assignmentPattern)
      (left_eq : value.child? .left = some left) (left_kind : left.kind = .identifier) :
      MemberBinds m left.text

/-- The parameter binds the name directly: it is the name or an object pattern with a member that
binds it, perhaps with a type and with defaults. -/
inductive BindsDirectly : Node → String → Prop where
  | plain {n : Node} (kind : n.kind = .identifier) : BindsDirectly n n.text
  | member {n m : Node} {name : String} (kind : n.kind = .objectPattern) (mem : m ∈ n.content)
      (binds : m.MemberBinds name) : BindsDirectly n name
  | typed {n inner : Node} {name : String}
      (kind : n.kind = .requiredParameter ∨ n.kind = .optionalParameter)
      (inner_eq : n.child? .pattern = some inner) (binds : BindsDirectly inner name) :
      BindsDirectly n name
  | withDefault {n inner : Node} {name : String} (kind : n.kind = .assignmentPattern)
      (inner_eq : n.child? .left = some inner) (binds : BindsDirectly inner name) :
      BindsDirectly n name

/-! ### Members -/

/-- `target?` of a name, or of a name with a default. -/
private theorem target?_eq_some_iff {fallback? : Option Node} :
    n.target? = some (name, fallback?) ↔
      (n.kind = .identifier ∧ n.text = name ∧ none = fallback?) ∨
      (n.kind = .assignmentPattern ∧ ∃ left, n.child? .left = some left ∧ left.kind = .identifier ∧
        left.text = name ∧
        n.child? .right = fallback?) := by
  rw [target?]
  -- Only two kinds of nodes name a target; the others are none on both sides.
  cases hkind : n.kind
  case identifier => simp
  case assignmentPattern =>
    cases hleft : n.child? .left with
    | none => simp
    | some left =>
      by_cases hname : left.kind = .identifier <;> simp [hname]
  all_goals simp

/-- `MemberBinds` is what `binding?` finds. -/
private theorem memberBinds_iff :
    m.MemberBinds name ↔ ∃ b, m.binding? = some b ∧ b.name = name := by
  constructor
  · intro h
    -- Each way to bind a name is one case of `binding?`, with the same children.
    cases h with
    | shorthand kind => exact ⟨⟨_, _, none⟩, by rw [binding?, kind], rfl⟩
    | @shorthandDefault left kind left_eq left_kind =>
      exact ⟨⟨left.text, left.text, m.child? .right⟩,
        by rw [binding?, kind]; simp [left_eq, left_kind], rfl⟩
    | @pair key value property kind key_eq value_eq property_eq value_kind =>
      have htarget : value.target? = some (value.text, none) :=
        target?_eq_some_iff.mpr (.inl ⟨value_kind, rfl, rfl⟩)
      exact ⟨⟨property, _, none⟩,
        by rw [binding?, kind]; simp [key_eq, value_eq, property_eq, htarget], rfl⟩
    | @pairDefault key value left property kind key_eq value_eq property_eq value_kind left_eq
        left_kind =>
      have htarget : value.target? = some (left.text, value.child? .right) :=
        target?_eq_some_iff.mpr (.inr ⟨value_kind, left, left_eq, left_kind, rfl, rfl⟩)
      exact ⟨⟨property, left.text, value.child? .right⟩,
        by rw [binding?, kind]; simp [key_eq, value_eq, property_eq, htarget], rfl⟩
  · rintro ⟨b, hb, rfl⟩
    rw [binding?] at hb
    cases hkind : m.kind
    case shorthandPropertyIdentifierPattern =>
      rw [hkind] at hb
      obtain rfl := Option.some.inj hb
      exact .shorthand hkind
    case objectAssignmentPattern =>
      rw [hkind] at hb
      obtain ⟨left, hleft, hb⟩ := Option.bind_eq_some_iff.mp hb
      obtain ⟨_, hguard, hb⟩ := Option.bind_eq_some_iff.mp hb
      obtain rfl := Option.some.inj hb
      exact .shorthandDefault hkind hleft (by simpa [guard] using hguard)
    case pairPattern =>
      rw [hkind] at hb
      obtain ⟨key, hkey, hb⟩ := Option.bind_eq_some_iff.mp hb
      obtain ⟨value, hvalue, hb⟩ := Option.bind_eq_some_iff.mp hb
      obtain ⟨property, hproperty, hb⟩ := Option.bind_eq_some_iff.mp hb
      obtain ⟨⟨bound, fallback?⟩, htarget, hb⟩ := Option.bind_eq_some_iff.mp hb
      obtain rfl := Option.some.inj hb
      rcases target?_eq_some_iff.mp htarget with ⟨hname, rfl, _⟩ |
        ⟨hdefault, left, hleft, hname, rfl, _⟩
      · exact .pair hkind hkey hvalue hproperty hname
      · exact .pairDefault hkind hkey hvalue hproperty hdefault hleft hname
    all_goals
      rw [hkind] at hb
      exact absurd hb.symm (Option.some_ne_none b)

/-! ### Parameters -/

/-- The names that a parameter without a type and a default binds directly. -/
def bareNames (bare : Node) : List String :=
  match bare.kind with
  | .identifier => [bare.text]
  | .objectPattern => bare.bindings.map (·.name)
  | _ => []

/-- The names that a parameter binds directly. -/
def directNames (p : Node) : List String := ((p.bareParameter? false).map bareNames).getD []

/-- `parameterNames` are the `directNames` of each parameter. -/
private theorem parameterNames_eq_flatMap (f : Node) :
    f.parameterNames = f.parameterList.flatMap directNames := by
  refine congrArg (f.parameterList.flatMap ·) (funext fun p => ?_)
  rw [directNames]
  cases p.bareParameter? false <;> rfl

/-- `bareAmong?` goes on with the first node that plays the part. -/
private theorem bareAmong?_eq {strict : Bool} {r : Role} {whole : Node} (ns : List Node) :
    bareParameter?.bareAmong? strict r whole ns =
      ((ns.find? (·.role == some r)).map (bareParameter? strict)).getD
        (if strict then none else some whole) := by
  -- The search among the children stops at the first that plays the part, as `find?` does.
  induction ns with
  | nil => rfl
  | cons n ns ih =>
    rw [bareParameter?.bareAmong?, List.find?_cons, ih]
    cases n.role == some r <;> rfl

/-- `bareParameter?` of a parameter with a type goes on with its pattern. -/
private theorem bareParameter?_of_typed {strict : Bool}
    (h : n.kind = .requiredParameter ∨ n.kind = .optionalParameter) :
    n.bareParameter? strict =
      ((n.child? .pattern).map (bareParameter? strict)).getD (if strict then none else some n) := by
  obtain ⟨l, cs⟩ := n
  rw [bareParameter?]
  rcases h with h | h
  · rw [show l.kind = .requiredParameter from h]
    exact bareAmong?_eq cs
  · rw [show l.kind = .optionalParameter from h]
    exact bareAmong?_eq cs

/-- `bareParameter?` of a parameter with a default goes on with what is left of it. -/
private theorem bareParameter?_of_default {strict : Bool} (h : n.kind = .assignmentPattern) :
    n.bareParameter? strict =
      ((n.child? .left).map (bareParameter? strict)).getD (if strict then none else some n) := by
  obtain ⟨l, cs⟩ := n
  rw [bareParameter?, show l.kind = .assignmentPattern from h]
  exact bareAmong?_eq cs

/-- `bareParameter?` of any other node is the node. -/
private theorem bareParameter?_of_bare {strict : Bool}
    (htyped : ¬ (n.kind = .requiredParameter ∨ n.kind = .optionalParameter))
    (hdefault : n.kind ≠ .assignmentPattern) : n.bareParameter? strict = some n := by
  obtain ⟨l, cs⟩ := n
  have hkind : (Node.mk l cs).kind = l.kind := rfl
  rw [hkind] at htyped hdefault
  rw [bareParameter?]
  generalize l.kind = kind at htyped hdefault
  cases kind
  case requiredParameter => exact absurd (.inl rfl) htyped
  case optionalParameter => exact absurd (.inr rfl) htyped
  case assignmentPattern => exact absurd rfl hdefault
  all_goals rfl

/-- `bareNames` has nothing for nodes that are neither a name nor an object pattern. -/
private theorem bareNames_of_other (hname : n.kind ≠ .identifier)
    (hpattern : n.kind ≠ .objectPattern) : n.bareNames = [] := by
  rw [bareNames]
  generalize n.kind = kind at hname hpattern
  cases kind
  case identifier => exact absurd rfl hname
  case objectPattern => exact absurd rfl hpattern
  all_goals rfl

/-- `bareNames` are those that a node without type and default `BindsDirectly`. -/
private theorem mem_bareNames_iff
    (htyped : ¬ (n.kind = .requiredParameter ∨ n.kind = .optionalParameter))
    (hdefault : n.kind ≠ .assignmentPattern) : name ∈ n.bareNames ↔ n.BindsDirectly name := by
  constructor
  · intro hname
    -- What has neither type nor default is a name, a pattern, or binds nothing.
    by_cases hidentifier : n.kind = .identifier
    · rw [bareNames, hidentifier] at hname
      obtain rfl := List.mem_singleton.mp hname
      exact .plain hidentifier
    · by_cases hpattern : n.kind = .objectPattern
      · rw [bareNames, hpattern] at hname
        obtain ⟨b, hb, rfl⟩ := List.mem_map.mp hname
        obtain ⟨m, hm, hbinding⟩ := List.mem_filterMap.mp hb
        exact .member hpattern hm (memberBinds_iff.mpr ⟨b, hbinding, rfl⟩)
      · rw [bareNames_of_other hidentifier hpattern] at hname
        exact absurd hname List.not_mem_nil
  · intro hbinds
    cases hbinds with
    | plain kind =>
      rw [bareNames, kind]
      exact List.mem_singleton_self _
    | member kind mem binds =>
      obtain ⟨b, hbinding, rfl⟩ := memberBinds_iff.mp binds
      rw [bareNames, kind]
      exact List.mem_map_of_mem (List.mem_filterMap.mpr ⟨_, mem, hbinding⟩)
    | typed kind => exact absurd kind htyped
    | withDefault kind => exact absurd kind hdefault

/-- `directNames` of a parameter in a wrapper are those that it binds without it. -/
private theorem mem_directNames_of_wrapper {r : Role}
    (hbare : n.bareParameter? false = ((n.child? r).map (bareParameter? false)).getD (some n))
    (hnames : n.bareNames = [])
    (hbinds : n.BindsDirectly name ↔ ∃ inner, n.child? r = some inner ∧ inner.BindsDirectly name)
    (ih : ∀ c ∈ n.children, name ∈ c.directNames ↔ c.BindsDirectly name) :
    name ∈ n.directNames ↔ n.BindsDirectly name := by
  rw [hbinds, directNames, hbare]
  -- A wrapper with nothing in it binds nothing; else the induction hypothesis is about what is in
  -- it.
  cases hinner : n.child? r with
  | none => simp [hnames]
  | some inner =>
    have hih := ih inner (List.mem_of_find?_eq_some hinner)
    simpa [directNames] using hih

/-- A parameter with a type `BindsDirectly` what its pattern does. -/
private theorem bindsDirectly_of_typed
    (h : n.kind = .requiredParameter ∨ n.kind = .optionalParameter) :
    n.BindsDirectly name ↔ ∃ inner, n.child? .pattern = some inner ∧ inner.BindsDirectly name := by
  constructor
  · intro hbinds
    cases hbinds with
    | typed _ inner_eq binds => exact ⟨_, inner_eq, binds⟩
    | plain kind | member kind | withDefault kind => simp [kind] at h
  · rintro ⟨inner, hinner, hbinds⟩
    exact .typed h hinner hbinds

/-- A parameter with a default `BindsDirectly` what is left of it does. -/
private theorem bindsDirectly_of_default (h : n.kind = .assignmentPattern) :
    n.BindsDirectly name ↔ ∃ inner, n.child? .left = some inner ∧ inner.BindsDirectly name := by
  constructor
  · intro hbinds
    cases hbinds with
    | withDefault _ inner_eq binds => exact ⟨_, inner_eq, binds⟩
    | plain kind | member kind | typed kind => simp [h] at kind
  · rintro ⟨inner, hinner, hbinds⟩
    exact .withDefault h hinner hbinds

/-- `directNames` are those that a parameter `BindsDirectly`. -/
private theorem mem_directNames_iff : name ∈ n.directNames ↔ n.BindsDirectly name := by
  -- A wrapper hands the question on to the node in it; any other node answers it itself.
  induction n using Node.induction with
  | mk l cs ih =>
    -- Types and defaults are taken off; what is left is a name or a pattern.
    by_cases htyped : (Node.mk l cs).kind = .requiredParameter ∨
      (Node.mk l cs).kind = .optionalParameter
    · refine mem_directNames_of_wrapper (bareParameter?_of_typed htyped) ?_
        (bindsDirectly_of_typed htyped) ih
      rcases htyped with h | h <;> rw [bareNames, h]
    · by_cases hdefault : (Node.mk l cs).kind = .assignmentPattern
      · refine mem_directNames_of_wrapper (bareParameter?_of_default hdefault) ?_
          (bindsDirectly_of_default hdefault) ih
        rw [bareNames, hdefault]
      · rw [directNames, bareParameter?_of_bare htyped hdefault]
        exact mem_bareNames_iff htyped hdefault

/-- `parameterNames` are those that the parameters of a function bind directly. -/
private theorem mem_parameterNames_iff :
    name ∈ f.parameterNames ↔ ∃ p ∈ f.parameterList, p.BindsDirectly name := by
  rw [parameterNames_eq_flatMap, List.mem_flatMap]
  exact exists_congr fun p => and_congr_right fun _ => mem_directNames_iff

/-! ### Names that are bound anywhere -/

/-- `boundAt` takes the names of the first node that plays the part. -/
private theorem boundAt_eq (r : Role) (ns : List Node) :
    boundNames.boundAt r ns = ((ns.find? (·.role == some r)).map boundNames).getD [] := by
  induction ns with
  | nil => rfl
  | cons n ns ih =>
    rw [boundNames.boundAt, List.find?_cons, ih]
    cases n.role == some r <;> rfl

/-- `boundAmong` takes the names of all nodes. -/
private theorem boundAmong_eq (ns : List Node) :
    boundNames.boundAmong ns = ns.flatMap boundNames := by
  induction ns with
  | nil => rfl
  | cons n ns ih => rw [boundNames.boundAmong, List.flatMap_cons, ih]

/-- `boundNames` by the kind of the node. -/
private theorem boundNames_eq (n : Node) :
    n.boundNames =
      match n.kind with
      | .identifier | .shorthandPropertyIdentifierPattern => [n.text]
      | .requiredParameter | .optionalParameter => ((n.child? .pattern).map boundNames).getD []
      | .assignmentPattern | .objectAssignmentPattern => ((n.child? .left).map boundNames).getD []
      | .pairPattern => ((n.child? .value).map boundNames).getD []
      | .objectPattern | .restPattern | .other => n.children.flatMap boundNames
      | _ => [] := by
  obtain ⟨l, cs⟩ := n
  rw [boundNames, boundAt_eq, boundAt_eq, boundAt_eq, boundAmong_eq]
  rfl

/-- `boundNames` has what a member binds directly. -/
private theorem MemberBinds.mem_boundNames (h : m.MemberBinds name) : name ∈ m.boundNames := by
  cases h with
  | shorthand kind => simp [boundNames_eq m, kind]
  | @shorthandDefault left kind left_eq left_kind =>
    simp [boundNames_eq m, kind, left_eq, boundNames_eq left, left_kind]
  | @pair key value property kind key_eq value_eq property_eq value_kind =>
    simp [boundNames_eq m, kind, value_eq, boundNames_eq value, value_kind]
  | @pairDefault key value left property kind key_eq value_eq property_eq value_kind left_eq
      left_kind =>
    simp [boundNames_eq m, kind, value_eq, boundNames_eq value, value_kind, left_eq,
      boundNames_eq left, left_kind]

/-- `boundNames` has what a parameter binds directly. -/
private theorem BindsDirectly.mem_boundNames (h : n.BindsDirectly name) : name ∈ n.boundNames := by
  -- What is bound further inside is gathered too, so it is enough to follow each way in.
  induction h with
  | @plain n kind => simp [boundNames_eq n, kind]
  | @member n m name kind mem binds =>
    rw [boundNames_eq, kind]
    exact List.mem_flatMap.mpr ⟨m, List.mem_of_mem_filter mem, binds.mem_boundNames⟩
  | @typed n inner name kind inner_eq binds ih =>
    rcases kind with kind | kind <;> simpa [boundNames_eq n, kind, inner_eq] using ih
  | @withDefault n inner name kind inner_eq binds ih =>
    simpa [boundNames_eq n, kind, inner_eq] using ih

end Syntax.Node

namespace Inference

/-- `shadows` holds of a function exactly if one of its parameters binds the name of the request
directly, or a name that stands for a part of it then. -/
private theorem shadows_iff {request? : Option String} {o : Observations} {f : Node} :
    shadows request? o f = true ↔
      ∃ p ∈ f.parameterList, ∃ name, p.BindsDirectly name ∧
        (request? = some name ∨ o.aliases.has name = true) := by
  rw [shadows, List.any_eq_true]
  constructor
  · -- The names that are asked for are the ones that are bound directly.
    rintro ⟨name, hname, hshadows⟩
    obtain ⟨p, hp, hbinds⟩ := mem_parameterNames_iff.mp hname
    exact ⟨p, hp, name, hbinds, by simpa using hshadows⟩
  · rintro ⟨p, hp, name, hbinds, hshadows⟩
    exact ⟨name, mem_parameterNames_iff.mpr ⟨p, hp, hbinds⟩, by simpa using hshadows⟩

end Inference

/-- `handlerFacts` do not depend on the bodies of functions in the handler that bind the name of the
request directly by a parameter, or a name that stands for a part of the request when the function
is reached. -/
theorem Syntax.Cursor.handlerFacts_of_shadowed {c d : Cursor} {nested : Node → Prop}
    (hfunction : c.kind.isFunction = true) (houter : ¬ nested c.node)
    (hsame : c.node.Alike nested d.node)
    (hshadowed : ∀ e ∈ c.handlerHistory, e.2.kind.isFunction = true → nested e.2.node →
      ∃ p ∈ e.2.node.parameterList, ∃ name, p.BindsDirectly name ∧
        (c.requestName? = some name ∨ e.1.aliases.has name = true)) :
    d.handlerFacts = c.handlerFacts := by
  -- The body of the handler itself is not among those left open.
  have hinside : List.Forall₂ (Node.Alike nested) c.node.children d.node.children :=
    hsame.row.forall₂ fun hopened => houter hopened.2
  refine handlerFacts_alike hfunction hsame.kind hinside fun e he hopened => ?_
  exact Inference.shadows_iff.mpr (hshadowed e he hopened.isFunction hopened.2)

namespace Syntax

/-! ## A function for each item -/

/-- The handler `req => items.forEach((pattern) => body)`. The pattern starts at byte 22, and the
function with it at byte 21. -/
def eachHandler (pattern : Node) (bodyAt : Nat → Node) : Node :=
  let body := bodyAt (pattern.span.stop + 5)
  let inner := "(" ++ pattern.text ++ ") => " ++ body.text
  .onLine .arrowFunction none 0 (body.span.stop + 1) ("req => items.forEach(" ++ inner ++ ")")
    [.onLine .identifier (some .parameter) 0 3 "req",
     .onLine .callExpression (some .body) 7 (body.span.stop + 1) ("items.forEach(" ++ inner ++ ")")
      [.onLine .memberExpression (some .function) 7 20 "items.forEach"
        [.onLine .identifier (some .object) 7 12 "items",
          .onLine .propertyIdentifier (some .property) 13 20 "forEach"],
       .onLine .arguments (some .arguments) 20 (body.span.stop + 1) ("(" ++ inner ++ ")")
        [.onLine .arrowFunction none 21 body.span.stop inner
          [.onLine .formalParameters (some .parameters) 21 (pattern.span.stop + 1)
            ("(" ++ pattern.text ++ ")") [pattern],
           body]]]]

/-- The body `req.body.inner`. -/
def innerReading (start : Nat) : Node :=
  .onLine .memberExpression (some .body) start (start + 14) "req.body.inner"
    [.onLine .memberExpression (some .object) start (start + 8) "req.body"
      [.onLine .identifier (some .object) start (start + 3) "req",
       .onLine .propertyIdentifier (some .property) (start + 4) (start + 8) "body"],
     .onLine .propertyIdentifier (some .property) (start + 9) (start + 14) "inner"]

/-- The body `0`. -/
def innerZero (start : Nat) : Node := .onLine .number (some .body) start (start + 1) "0"

/-- The pattern `{ a: req = 0 }`. -/
def memberPattern : Node :=
  .onLine .objectPattern none 22 36 "\x7b a: req = 0 \x7d"
    [.onLine .pairPattern none 24 34 "a: req = 0"
      [.onLine .propertyIdentifier (some .key) 24 25 "a",
       .onLine .assignmentPattern (some .value) 27 34 "req = 0"
        [.onLine .identifier (some .left) 27 30 "req", .onLine .number (some .right) 33 34 "0"]]]

/-- In `eachHandler` with `memberPattern` the inner function is reached and passed by: the handler
reads the same with another body of it. -/
theorem eachHandler_memberPattern_reads :
    (eachHandler memberPattern innerReading).Alike (fun n => n.span.start = 21)
      (eachHandler memberPattern innerZero) ∧
    (∃ e ∈ (Cursor.ofRoot (eachHandler memberPattern innerReading)).handlerHistory,
      e.2.kind.isFunction = true ∧ e.2.node.span.start = 21) ∧
    (Cursor.ofRoot (eachHandler memberPattern innerZero)).handlerFacts =
      (Cursor.ofRoot (eachHandler memberPattern innerReading)).handlerFacts := by
  have hsame : (eachHandler memberPattern innerReading).Alike (fun n => n.span.start = 21)
      (eachHandler memberPattern innerZero) := by
    decide +kernel
  -- The function is the one at byte 21, and it is found by a run through the handler.
  have hshadows : ∀ e ∈ (Cursor.ofRoot (eachHandler memberPattern innerReading)).handlerHistory,
      e.2.kind.isFunction = true → e.2.node.span.start = 21 →
        Inference.shadows (Cursor.ofRoot (eachHandler memberPattern innerReading)).requestName? e.1
          e.2.node = true := by
    decide +kernel
  refine ⟨hsame, by decide +kernel, ?_⟩
  refine Cursor.handlerFacts_of_shadowed
    (c := Cursor.ofRoot (eachHandler memberPattern innerReading))
    (d := Cursor.ofRoot (eachHandler memberPattern innerZero)) rfl (by decide)
      hsame fun e he hisFunction hinner => ?_
  exact Inference.shadows_iff.mp (hshadows e he hisFunction hinner)

/-- The pattern binds the name of the request, and the handler reads what the body of the function
with it reads. -/
def BodyRead (pattern : Node) : Prop :=
  (eachHandler pattern innerReading).Alike (fun n => n.span.start = 21)
    (eachHandler pattern innerZero) ∧
  (∀ e ∈ (Cursor.ofRoot (eachHandler pattern innerReading)).handlerHistory,
    e.2.kind.isFunction = true → e.2.node.span.start = 21 →
      ∃ p ∈ e.2.node.parameterList, ∃ name ∈ p.boundNames,
      (Cursor.ofRoot (eachHandler pattern innerReading)).requestName? = some name ∨
        e.1.aliases.has name = true) ∧
  (Cursor.ofRoot (eachHandler pattern innerReading)).handlerFacts.body =
    [⟨"inner", .string, true⟩] ∧
  (Cursor.ofRoot (eachHandler pattern innerZero)).handlerFacts.body = []

instance (pattern : Node) : Decidable (BodyRead pattern) :=
    inferInstanceAs (Decidable (_ ∧ _ ∧ _ ∧ _))

/-- The pattern `...req`. -/
def restOfItems : Node :=
    .onLine .restPattern none 22 28 "...req" [.onLine .identifier none 25 28 "req"]

/-- The pattern `[req]`. -/
def firstOfItem : Node := .onLine .other none 22 27 "[req]" [.onLine .identifier none 23 26 "req"]

/-- The pattern `{ a: { req } }`. -/
def memberOfMember : Node :=
  .onLine .objectPattern none 22 36 "\x7b a: \x7b req \x7d \x7d"
    [.onLine .pairPattern none 24 34 "a: \x7b req \x7d"
      [.onLine .propertyIdentifier (some .key) 24 25 "a",
       .onLine .objectPattern (some .value) 27 34 "\x7b req \x7d"
        [.onLine .shorthandPropertyIdentifierPattern none 29 32 "req"]]]

/-- In `eachHandler` with `restOfItems`, `firstOfItem` or `memberOfMember` the inner function binds
the name of the request further inside, and it is not passed by. -/
theorem inner_binding_missed :
    BodyRead restOfItems ∧ BodyRead firstOfItem ∧ BodyRead memberOfMember := by
  decide +kernel

end Syntax

end RouteAtlas
