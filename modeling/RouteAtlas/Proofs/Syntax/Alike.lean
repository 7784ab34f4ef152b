import Mathlib.Data.List.Forall2
import Mathlib.Data.Option.Basic
import RouteAtlas.Proofs.Syntax.Moves
import RouteAtlas.Syntax.Literal

/-!
# Trees that are alike

Two trees are alike if their nodes agree in kinds, in the parts they play and in their words,
wherever the trees stand and whatever other text there is in them. The bodies of some functions may
be left open: what stands there is then not compared at all.

The positions in two alike trees go together as well. On the way up they do so as far as the
function in which both trees stand, and nothing is asked of what is around that function. A walk
that does the same at positions that go together, and passes by the functions whose bodies are
left open, comes to the same in both trees.

## Key results

- `Node.Alike.child?`, `Node.Alike.unwrap`: what one finds in alike nodes is alike
- `Cursor.Alike.wrapped`, `Cursor.Alike.parent?`: so is what one finds on the way up
- `Cursor.walk_alike`: walks through alike trees come to the same
-/

namespace RouteAtlas.Syntax

/-! ## Labels -/

/-- The kinds of nodes that are names or strings. -/
def Kind.isWord : Kind → Bool
  | identifier | propertyIdentifier | shorthandPropertyIdentifierPattern | string => true
  | _ => false

namespace Label

/-- The text of the node is a word: it is a name, a string, a property or an operator, or it reads
`Number`. -/
def isWord (l : Label) : Bool :=
  l.kind.isWord || l.role == some .property || l.role == some .operator || l.text == "Number"

/-- The node is a function that may have another body. Nodes that stand for lists are none. -/
def isFunction (l : Label) : Bool :=
  l.kind.isFunction && l.role != some .parameters && l.role != some .arguments

/-- The labels agree, but for the place and for text that is no word. -/
structure Alike (l l' : Label) : Prop where
  kind : l'.kind = l.kind
  named : l'.named = l.named
  role : l'.role = l.role
  text : l.isWord = true ∨ l'.isWord = true → l'.text = l.text

instance (l l' : Label) : Decidable (l.Alike l') :=
  decidable_of_iff (l'.kind = l.kind ∧ l'.named = l.named ∧ l'.role = l.role ∧
      (l.isWord = true ∨ l'.isWord = true → l'.text = l.text))
    ⟨fun h => ⟨h.1, h.2.1, h.2.2.1, h.2.2.2⟩, fun h => ⟨h.kind, h.named, h.role, h.text⟩⟩

end Label

namespace Node

/-! ## Steps -/

section Steps

variable {α β γ δ : Type} {R : α → β → Prop} {S : γ → δ → Prop}

/-- `Option.Rel` of a relation is one of any weaker relation. -/
theorem rel_imp {T : α → β → Prop} {a : Option α} {b : Option β} (h : Option.Rel R a b)
    (hR : ∀ x y, R x y → T x y) :
    Option.Rel T a b := by
  cases h with
  | none => exact .none
  | some hxy => exact .some (hR _ _ hxy)

/-- Going on with what was found: it is enough to go on alike with what is alike. -/
private theorem rel_bind {a : Option α} {b : Option β} (h : Option.Rel R a b) {k : α → Option γ}
    {k' : β → Option δ} (hk : ∀ x y, R x y → Option.Rel S (k x) (k' y)) :
    Option.Rel S (a >>= k) (b >>= k') := by
  cases h with
  | none => exact .none
  | some hxy => exact hk _ _ hxy

/-- Going on with what was found comes to the same, if it does for all that is alike. -/
theorem bind_eq_of_rel {a : Option α} {b : Option β} (h : Option.Rel R a b) {k : α → Option γ}
    {k' : β → Option γ} (hk : ∀ x y, R x y → k' y = k x) :
    (b >>= k') = (a >>= k) := by
  cases h with
  | none => rfl
  | some hxy => exact hk _ _ hxy

/-- `Option.map` comes to the same, if it does for all that is alike. -/
theorem map_eq_of_rel {a : Option α} {b : Option β} (h : Option.Rel R a b) {g : α → γ} {g' : β → γ}
    (hg : ∀ x y, R x y → g' y = g x) : b.map g' = a.map g := by
  cases h with
  | none => rfl
  | some hxy => exact congrArg some (hg _ _ hxy)

/-- `Option.any` comes to the same, if it does for all that is alike. -/
theorem any_eq_of_rel {a : Option α} {b : Option β} (h : Option.Rel R a b) {p : α → Bool}
    {q : β → Bool} (hp : ∀ x y, R x y → q y = p x) :
    b.any q = a.any p := by
  cases h with
  | none => rfl
  | some hxy => exact hp _ _ hxy

/-- Going on alike after a `guard`. -/
private theorem rel_guard {p : Prop} [Decidable p] {k : Unit → Option γ} {k' : Unit → Option δ}
    (hk : p → Option.Rel S (k ()) (k' ())) :
    Option.Rel S ((guard p : Option Unit) >>= k) ((guard p : Option Unit) >>= k') := by
  by_cases h : p
  · rw [guard, if_pos h]
    exact hk h
  · rw [guard, if_neg h]
    exact .none

/-- Going on after a `guard` comes to the same, if it does under the condition. -/
theorem guard_bind_congr {p : Prop} [Decidable p] {k k' : Unit → Option γ} (hk : p → k' () = k ()) :
    ((guard p : Option Unit) >>= k') = ((guard p : Option Unit) >>= k) := by
  by_cases h : p
  · rw [guard, if_pos h]
    exact hk h
  · rw [guard, if_neg h]
    rfl

/-- `List.map` comes to the same, if it does for all that is alike. -/
theorem forall₂_map_eq {as : List α} {bs : List β} (h : List.Forall₂ R as bs) {g : α → γ}
    {g' : β → γ} (hg : ∀ a b, R a b → g' b = g a) :
    bs.map g' = as.map g := by
  induction h with
  | nil => rfl
  | cons hab _ ih => rw [List.map_cons, List.map_cons, hg _ _ hab, ih]

end Steps

/-! ## Nodes -/

/-- The body of the node is left open: the node is a function, and one of those whose bodies are. -/
def Opened (opened : Node → Prop) (n : Node) : Prop := n.label.isFunction = true ∧ opened n

instance (opened : Node → Prop) [DecidablePred opened] (n : Node) : Decidable (n.Opened opened) :=
  inferInstanceAs (Decidable (_ ∧ _))

/-- A node whose body is `Opened` is a function. -/
theorem Opened.isFunction {opened : Node → Prop} {n : Node} (h : n.Opened opened) :
    n.kind.isFunction = true := by
  have hlabel := h.1
  simp only [Label.isFunction, Bool.and_eq_true] at hlabel
  exact hlabel.1.1

mutual
/-- The trees agree in kinds, parts and words, but for the bodies of the functions that are
left open. -/
inductive Alike (opened : Node → Prop) : Node → Node → Prop where
  | mk {l l' : Label} {cs cs' : List Node} (label : l.Alike l')
      (children : AlikeRow opened (Opened opened (.mk l cs)) cs cs') :
      Alike opened (.mk l cs) (.mk l' cs')
/-- The trees in the rows are alike one by one, but for bodies if they may be other ones here. -/
inductive AlikeRow (opened : Node → Prop) : Prop → List Node → List Node → Prop where
  | nil {anyBody : Prop} : AlikeRow opened anyBody [] []
  | cons {anyBody : Prop} {n n' : Node} {ns ns' : List Node} (first : Alike opened n n')
      (rest : AlikeRow opened anyBody ns ns') : AlikeRow opened anyBody (n :: ns) (n' :: ns')
  | body {anyBody : Prop} {n n' : Node} {ns ns' : List Node} (any : anyBody)
      (role : n.role = some .body)
      (role' : n'.role = some .body) (rest : AlikeRow opened anyBody ns ns') :
      AlikeRow opened anyBody (n :: ns) (n' :: ns')
end

variable {opened : Node → Prop} {anyBody : Prop} {n n' : Node} {ns ns' : List Node}

/-! Whether trees are alike can be computed. -/

mutual
/-- Compares two trees. -/
def decideAlike (opened : Node → Prop) [DecidablePred opened] : (n n' : Node) →
    Decidable (Alike opened n n')
  | .mk l cs, .mk l' cs' =>
    match (inferInstance : Decidable (l.Alike l')), decideAlikeRow opened (Opened opened (.mk l cs))
      cs cs' with
    | isTrue hlabel, isTrue hchildren => isTrue (.mk hlabel hchildren)
    | isFalse hlabel, _ => isFalse fun h => by cases h with | mk label _ => exact hlabel label
    | _, isFalse hchildren =>
      isFalse fun h => by cases h with | mk _ children => exact hchildren children
/-- Compares two rows of trees. -/
def decideAlikeRow (opened : Node → Prop) [DecidablePred opened] (anyBody : Prop)
    [Decidable anyBody] :
    (ns ns' : List Node) → Decidable (AlikeRow opened anyBody ns ns')
  | [], [] => isTrue .nil
  | [], _ :: _ => isFalse nofun
  | _ :: _, [] => isFalse nofun
  | n :: ns, n' :: ns' =>
    match decideAlikeRow opened anyBody ns ns' with
    | isFalse hrest => isFalse fun h => by
      cases h with
      | cons _ rest => exact hrest rest
      | body _ _ _ rest => exact hrest rest
    | isTrue hrest =>
      match decideAlike opened n n' with
      | isTrue hfirst => isTrue (.cons hfirst hrest)
      | isFalse hfirst =>
        if hbody : anyBody ∧ n.role = some .body ∧ n'.role = some .body then
          isTrue (.body hbody.1 hbody.2.1 hbody.2.2 hrest)
        else
          isFalse fun h => by
            cases h with
            | cons first _ => exact hfirst first
            | body any role role' _ => exact hbody ⟨any, role, role'⟩
end

instance (opened : Node → Prop) [DecidablePred opened] (n n' : Node) :
    Decidable (Alike opened n n') :=
  decideAlike opened n n'

/-! ### What alike nodes have in common -/

/-- `Alike` nodes have alike labels. -/
theorem Alike.label (h : Alike opened n n') : n.label.Alike n'.label := by
  cases h with
  | mk label children => exact label

theorem Alike.kind (h : Alike opened n n') : n'.kind = n.kind := h.label.kind

theorem Alike.role (h : Alike opened n n') : n'.role = n.role := h.label.role

theorem Alike.text (h : Alike opened n n') (hword : n.label.isWord = true) : n'.text = n.text :=
  h.label.text (.inl hword)

/-- `Alike` nodes have the same text if they are of a kind of words. -/
theorem Alike.text_of_kind (h : Alike opened n n') {k : Kind} (hkind : n.kind = k)
    (hword : k.isWord = true) :
    n'.text = n.text := by
  have hisWord : n.label.kind.isWord = true := by
    subst hkind
    exact hword
  refine h.text ?_
  rw [Label.isWord, hisWord]
  rfl

/-- Whether the text is `Number` is the same in `Alike` nodes. -/
theorem Alike.text_beq_number (h : Alike opened n n') :
    (n'.text == "Number") = (n.text == "Number") := by
  -- `Number` is a word, so if neither text is one, neither is `Number`.
  by_cases hword : n.label.isWord = true ∨ n'.label.isWord = true
  · rw [Node.text, h.label.text hword]
  · simp only [Label.isWord, Bool.or_eq_true, not_or] at hword
    rw [Bool.eq_false_iff.mpr hword.1.2, Bool.eq_false_iff.mpr hword.2.2]

theorem Alike.isComment (h : Alike opened n n') : n'.isComment = n.isComment := by
  rw [Node.isComment, h.kind, Node.isComment]

theorem Alike.isContent (h : Alike opened n n') : n'.isContent = n.isContent := by
  rw [Node.isContent, h.label.named, h.isComment, Node.isContent]

/-! ### Rows -/

/-- In an `AlikeRow`, unless bodies may be other ones, the trees are alike one by one. -/
theorem AlikeRow.forall₂ (h : AlikeRow opened anyBody ns ns') (hclosed : ¬ anyBody) :
    List.Forall₂ (Alike opened) ns ns' := by
  induction ns generalizing ns' with
  | nil =>
    -- The second kind of pair needs a body that may be another one.
    cases h with
    | nil => exact .nil
  | cons n ns ih =>
    cases h with
    | cons first rest => exact .cons first (ih rest)
    | body any role role' rest => exact absurd any hclosed

/-- Trees that are alike one by one are an `AlikeRow`. -/
theorem AlikeRow.of_forall₂ (h : List.Forall₂ (Alike opened) ns ns') :
    AlikeRow opened anyBody ns ns' := by
  induction h with
  | nil => exact .nil
  | cons first _ ih => exact .cons first ih

/-- The children of `Alike` nodes are an `AlikeRow`. -/
theorem Alike.row (h : Alike opened n n') :
    AlikeRow opened (n.Opened opened) n.children n'.children := by
  cases h with
  | mk label children => exact children

/-- The children of `Alike` nodes that are no functions are alike one by one. -/
theorem Alike.children (h : Alike opened n n') (hfunction : n.label.isFunction = false) :
    List.Forall₂ (Alike opened) n.children n'.children :=
  h.row.forall₂ fun hopened => by simp [Opened, hfunction] at hopened

/-! ### What one finds in alike nodes -/

/-- `find?` finds alike nodes for a part, in a row where they are not bodies that may be other
ones. -/
private theorem AlikeRow.find?_role (h : AlikeRow opened anyBody ns ns') {r : Role}
    (hr : anyBody → r ≠ .body) :
    Option.Rel (fun c c' => c.label.role = some r ∧ Alike opened c c') (ns.find? (·.role == some r))
      (ns'.find? (·.role == some r)) := by
  induction ns generalizing ns' with
  | nil =>
    cases h with
    | nil => exact .none
  | cons n ns ih =>
    cases h with
    | cons first rest =>
      rw [List.find?_cons, List.find?_cons, first.role]
      cases hplays : n.role == some r with
      | true => exact .some ⟨eq_of_beq hplays, first⟩
      | false => exact ih rest
    | body any role role' rest =>
      -- A body that may be another one is not what is looked for, and both searches pass it.
      have hpass : (some Role.body == some r) = false := by simpa using (hr any).symm
      rw [List.find?_cons, List.find?_cons, role, role', hpass]
      exact ih rest

/-- `child?` finds alike nodes for a part, and they play it. -/
theorem AlikeRow.child?_role (h : AlikeRow opened anyBody n.children n'.children) {r : Role}
    (hr : anyBody → r ≠ .body) :
    Option.Rel (fun c c' => c.label.role = some r ∧ Alike opened c c') (n.child? r) (n'.child? r) :=
  h.find?_role hr

/-- `child?` finds alike nodes for a part. -/
theorem AlikeRow.child? (h : AlikeRow opened anyBody n.children n'.children) {r : Role}
    (hr : anyBody → r ≠ .body) :
    Option.Rel (Alike opened) (n.child? r) (n'.child? r) :=
  rel_imp (h.child?_role hr) fun _ _ hc => hc.2

/-- `child?` finds alike children, bodies apart. -/
theorem Alike.child? (h : Alike opened n n') {r : Role} (hr : r ≠ .body) :
    Option.Rel (Alike opened) (n.child? r) (n'.child? r) :=
  h.row.child? fun _ => hr

/-- `content` is alike in nodes that are no functions. -/
theorem Alike.content (h : Alike opened n n') (hfunction : n.label.isFunction = false) :
    List.Forall₂ (Alike opened) n.content n'.content :=
  List.rel_filter (fun _ _ hc => iff_of_eq (congrArg (· = true) hc.isContent.symm))
    (h.children hfunction)

/-- A node of a kind that is no function is not `isFunction`, whatever part it plays. -/
theorem isFunction_label_of_kind {k : Kind} (hkind : n.kind = k) (hk : k.isFunction = false) :
    n.label.isFunction = false := by
  have hisFunction : n.label.kind.isFunction = false := by
    subst hkind
    exact hk
  rw [Label.isFunction, hisFunction, Bool.false_and, Bool.false_and]

/-- `unwrapAmong` finds alike nodes in alike rows. -/
private theorem alike_unwrapAmong {fallback fallback' : Node}
    (hfallback : Alike opened fallback fallback') (hrow : List.Forall₂ (Alike opened) ns ns')
    (hns : ∀ n ∈ ns, ∀ n', Alike opened n n' → Alike opened n.unwrap n'.unwrap) :
    Alike opened (unwrapAmong fallback ns) (unwrapAmong fallback' ns') := by
  induction hrow with
  | nil => exact hfallback
  | @cons n n' ns ns' first _ ih =>
    obtain ⟨hn, hrest⟩ := List.forall_mem_cons.mp hns
    rw [unwrapAmong, unwrapAmong, first.label.named]
    by_cases hnamed : n.label.named = true
    · rw [if_pos hnamed, if_pos hnamed]
      exact hn n' first
    · rw [if_neg hnamed, if_neg hnamed]
      exact ih hrest

/-- `unwrap` finds alike nodes. -/
theorem Alike.unwrap (h : Alike opened n n') : Alike opened n.unwrap n'.unwrap := by
  induction n using Node.induction generalizing n' with
  | mk l cs ih =>
    obtain ⟨l', cs'⟩ := n'
    have hkind : l'.kind = l.kind := h.kind
    rw [Node.unwrap, Node.unwrap, hkind]
    by_cases hwrapper : l.kind.isTransparent = true
    · -- A wrapper is no function, so its children are compared one by one.
      have hfunction : l.kind.isFunction = false := by
        refine Bool.eq_false_iff.mpr fun hfunction => ?_
        have hsolid : l.kind.isTransparent = false := Kind.not_isTransparent_of_isFunction hfunction
        exact absurd hwrapper (by simp [hsolid])
      rw [if_pos hwrapper, if_pos hwrapper]
      exact alike_unwrapAmong h (h.children (isFunction_label_of_kind rfl hfunction)) ih
    · rwa [if_neg hwrapper, if_neg hwrapper]

/-! ### Literals and patterns -/

/-- `stringValue?` is the same for `Alike` nodes. -/
theorem Alike.stringValue? (h : Alike opened n n') : n'.stringValue? = n.stringValue? := by
  rw [Node.stringValue?, Node.stringValue?, h.kind]
  by_cases hkind : n.kind = .string
  · rw [h.text_of_kind hkind rfl]
  · rw [if_neg (by simpa using hkind), if_neg (by simpa using hkind)]

/-- `propertyKey?` is the same for `Alike` nodes. -/
theorem Alike.propertyKey? (h : Alike opened n n') : n'.propertyKey? = n.propertyKey? := by
  rw [Node.propertyKey?, Node.propertyKey?, h.kind, h.stringValue?]
  cases hkind : n.kind
  case propertyIdentifier => rw [h.text_of_kind hkind rfl]
  all_goals rfl

/-- The names are the same and the defaults alike. -/
def TargetAlike (opened : Node → Prop) (t t' : String × Option Node) : Prop :=
  t'.1 = t.1 ∧ Option.Rel (Alike opened) t.2 t'.2

/-- `target?` is alike for `Alike` nodes. -/
theorem Alike.target? (h : Alike opened n n') :
    Option.Rel (TargetAlike opened) n.target? n'.target? := by
  rw [Node.target?, Node.target?, h.kind]
  cases hkind : n.kind
  case identifier => exact .some ⟨h.text_of_kind hkind rfl, .none⟩
  case assignmentPattern =>
    refine rel_bind (h.child? (by decide)) fun left left' hleft => ?_
    rw [hleft.kind]
    refine rel_guard fun hname => ?_
    have htext : left'.text = left.text := hleft.text_of_kind (eq_of_beq hname) rfl
    exact .some ⟨htext, h.child? (by decide)⟩
  all_goals exact .none

/-- The properties and the names are the same and the defaults alike. -/
structure Binding.Alike (opened : Node → Prop) (b b' : Binding) : Prop where
  key : b'.key = b.key
  name : b'.name = b.name
  default? : Option.Rel (Node.Alike opened) b.default? b'.default?

/-- `binding?` is alike for `Alike` nodes. -/
theorem Alike.binding? (h : Alike opened n n') :
    Option.Rel (Binding.Alike opened) n.binding? n'.binding? := by
  rw [Node.binding?, Node.binding?, h.kind]
  -- Only patterns bind; each form is asked for its children one after the other.
  cases hkind : n.kind
  case shorthandPropertyIdentifierPattern =>
    have htext : n'.text = n.text := h.text_of_kind hkind rfl
    exact .some ⟨htext, htext, .none⟩
  case objectAssignmentPattern =>
    refine rel_bind (h.child? (by decide)) fun left left' hleft => ?_
    rw [hleft.kind]
    refine rel_guard fun hname => ?_
    have htext : left'.text = left.text := hleft.text_of_kind (eq_of_beq hname) rfl
    exact .some ⟨htext, htext, h.child? (by decide)⟩
  case pairPattern =>
    refine rel_bind (h.child? (by decide)) fun key key' hkey => ?_
    refine rel_bind (h.child? (by decide)) fun value value' hvalue => ?_
    rw [hkey.propertyKey?]
    cases key.propertyKey? with
    | none => exact .none
    | some property =>
      refine rel_bind hvalue.target? fun bound bound' hbound => ?_
      exact .some ⟨rfl, hbound.1, hbound.2⟩
  all_goals exact .none

/-- `bindings` are alike one by one for `Alike` nodes that are no functions. -/
theorem Alike.bindings (h : Alike opened n n') (hfunction : n.label.isFunction = false) :
    List.Forall₂ (Binding.Alike opened) n.bindings n'.bindings :=
  List.rel_filterMap (fun _ _ hm => hm.binding?) (h.content hfunction)

end Node

/-! ## Positions -/

section Positions

open Node

variable {opened : Node → Prop}

/-- The nodes beside the gaps are alike. -/
structure Frame.Beside (opened : Node → Prop) (f f' : Frame) : Prop where
  left : List.Forall₂ (Alike opened) f.left f'.left
  right : List.Forall₂ (Alike opened) f.right f'.right

/-- `fill` of alike nodes among alike ones gives alike children. -/
private theorem Frame.Beside.children_fill {f f' : Frame} {n n' : Node} (h : f.Beside opened f')
    (hn : Alike opened n n') :
    List.Forall₂ (Alike opened) (f.fill n).children (f'.fill n').children :=
  List.rel_append (List.rel_reverse h.left) (.cons hn h.right)

/-- `fill` of alike nodes among alike ones gives alike nodes. -/
theorem Frame.Beside.fill {f f' : Frame} {n n' : Node} (h : f.Beside opened f')
    (hlabel : f.label.Alike f'.label) (hn : Alike opened n n') :
    Alike opened (f.fill n) (f'.fill n') :=
  .mk hlabel (.of_forall₂ (h.children_fill hn))

/-- The ways up go together as far as a function. Of the function itself only the kind is compared,
and nothing of what is above it. -/
inductive Ways (opened : Node → Prop) : List Frame → List Frame → Prop where
  | inside {f f' : Frame} {above above' : List Frame} (function : f.label.kind.isFunction = true)
      (kind : f'.label.kind = f.label.kind) (beside : f.Beside opened f') :
      Ways opened (f :: above) (f' :: above')
  | deeper {f f' : Frame} {above above' : List Frame} (label : f.label.Alike f'.label)
      (beside : f.Beside opened f')
      (way : Ways opened above above') : Ways opened (f :: above) (f' :: above')

namespace Cursor

/-- The positions go together: the nodes are alike, and so are the ways up as far as the function
around them. -/
structure Alike (opened : Node → Prop) (c d : Cursor) : Prop where
  node : c.node.Alike opened d.node
  way : Ways opened c.above d.above

variable {c d : Cursor}

/-! ### The way up -/

/-- `parent?` of positions that go together: the parents are of one kind and have alike children.
They go together as well, or they are the function itself. -/
theorem Alike.parent? (h : Alike opened c d) :
    ∃ p q, c.parent? = some p ∧ d.parent? = some q ∧ q.kind = p.kind ∧
      AlikeRow opened False p.node.children q.node.children ∧
        (p.kind.isFunction = true ∨ Alike opened p q) := by
  obtain ⟨n, above⟩ := c
  obtain ⟨n', above'⟩ := d
  obtain ⟨hnode, hway⟩ := h
  cases hway with
  | inside function kind beside =>
    exact ⟨_, _, rfl, rfl, kind, .of_forall₂ (beside.children_fill hnode), .inl function⟩
  | deeper label beside way =>
    exact ⟨_, _, rfl, rfl, label.kind, .of_forall₂ (beside.children_fill hnode),
      .inr ⟨beside.fill label hnode, way⟩⟩

/-- `climbWrappers` leads to positions that go together. -/
private theorem alike_climbWrappers {n n' : Node} {above above' : List Frame}
    (hn : n.Alike opened n') (hway : Ways opened above above') :
    Alike opened (climbWrappers n above) (climbWrappers n' above') := by
  induction hway generalizing n n' with
  | @inside f f' _ _ function kind beside =>
    -- A function is no wrapper, so neither climb gets past it.
    have hstop : ¬ f.label.kind.isTransparent = true := by
      simp [Kind.not_isTransparent_of_isFunction function]
    rw [climbWrappers, climbWrappers, kind, if_neg hstop, if_neg hstop]
    exact ⟨hn, .inside function kind beside⟩
  | @deeper f f' _ _ label beside way ih =>
    rw [climbWrappers, climbWrappers, label.kind]
    by_cases hwrapper : f.label.kind.isTransparent = true
    · rw [if_pos hwrapper, if_pos hwrapper]
      exact ih (beside.fill label hn)
    · rw [if_neg hwrapper, if_neg hwrapper]
      exact ⟨hn, .deeper label beside way⟩

/-- `wrapped` leads to positions that go together, and not out of the function. -/
theorem Alike.wrapped (h : Alike opened c d) : Alike opened c.wrapped d.wrapped :=
  alike_climbWrappers h.node h.way

/-! ### Siblings -/

/-- `leftSiblings` of positions that go together are alike. -/
theorem Alike.leftSiblings (h : Alike opened c d) :
    List.Forall₂ (Node.Alike opened) c.leftSiblings d.leftSiblings := by
  obtain ⟨n, above⟩ := c
  obtain ⟨n', above'⟩ := d
  obtain ⟨_, hway⟩ := h
  cases hway with
  | inside _ _ beside => exact beside.left
  | deeper _ beside _ => exact beside.left

/-- `all` comes to the same in alike rows. -/
private theorem all_eq_of_forall₂ {ns ns' : List Node} (h : List.Forall₂ (Node.Alike opened) ns ns')
    {p : Node → Bool} (hp : ∀ n n', n.Alike opened n' → p n' = p n) :
    ns'.all p = ns.all p := by
  induction h with
  | nil => rfl
  | cons hn _ ih => rw [List.all_cons, List.all_cons, hp _ _ hn, ih]

/-- `plays` is the same at positions that go together. -/
theorem Alike.plays (h : Alike opened c d) (r : Role) : d.plays r = c.plays r := by
  rw [Cursor.plays, Cursor.plays, h.node.role,
    all_eq_of_forall₂ h.leftSiblings fun n n' hn => by rw [hn.role]]

/-- `isFirstContent` is the same at positions that go together. -/
theorem Alike.isFirstContent (h : Alike opened c d) : d.isFirstContent = c.isFirstContent := by
  rw [Cursor.isFirstContent, Cursor.isFirstContent, h.node.isContent,
    all_eq_of_forall₂ h.leftSiblings fun n n' hn => by rw [hn.isContent]]

/-! ### Children of a function -/

/-- Looking for a part in a `row` below a function finds positions that go together. -/
private theorem alike_find?_row {l l' : Label} (hfunction : l.kind.isFunction = true)
    (hkind : l'.kind = l.kind) {above above' : List Frame} {left left' ns ns' : List Node}
    (hleft : List.Forall₂ (Node.Alike opened) left left')
    (hrow : List.Forall₂ (Node.Alike opened) ns ns') (r : Role) :
    Option.Rel (Alike opened) ((row l above left ns).find? (·.node.role == some r))
      ((row l' above' left' ns').find? (·.node.role == some r)) := by
  -- What has been passed stands to the left of what is found, and is alike too.
  induction hrow generalizing left left' with
  | nil => exact .none
  | @cons n n' ns ns' hn hrest ih =>
    rw [row, row, List.find?_cons, List.find?_cons]
    simp only [hn.role]
    split
    · exact .some ⟨hn, .inside hfunction hkind ⟨hleft, hrest⟩⟩
    · exact ih (.cons hn hleft)

/-- `child?` of two functions of one kind finds positions that go together, wherever the functions
stand. -/
theorem alike_child? (hfunction : c.kind.isFunction = true) (hkind : d.kind = c.kind)
    (h : List.Forall₂ (Node.Alike opened) c.node.children d.node.children) (r : Role) :
    Option.Rel (Alike opened) (c.child? r) (d.child? r) :=
  alike_find?_row hfunction hkind .nil h r

/-! ### Walks -/

section Walks

variable {σ : Type} {visit : Visitor σ}

/-- `preorderRow` along a row of children: at each of them the two walks do the same. -/
private theorem preorderRow_alike {l l' : Label} {above above' : List Frame}
    {left left' ns ns' : List Node} {s : σ} (hlabel : l.Alike l') (hway : Ways opened above above')
    (hleft : List.Forall₂ (Node.Alike opened) left left')
    (hrow : List.Forall₂ (Node.Alike opened) ns ns')
    (hns : ∀ n ∈ ns, ∀ n' above above' s, n.Alike opened n' → Ways opened above above' →
      (∀ e ∈ entries visit above n s, e.2.node.Opened opened → (visit e.1 e.2).2 = .past) →
      preorder visit above' n' s = preorder visit above n s)
    (hpassed : ∀ e ∈ entriesRow visit l above left ns s, e.2.node.Opened opened →
      (visit e.1 e.2).2 = .past) :
    preorderRow visit l' above' left' ns' s = preorderRow visit l above left ns s := by
  induction hrow generalizing left left' s with
  | nil => rfl
  | @cons n n' ns ns' hn hrest ih =>
    obtain ⟨hfirst, hothers⟩ := List.forall_mem_cons.mp hns
    rw [entriesRow] at hpassed
    -- What is entered in the row is what is entered in its first tree and then in the others.
    obtain ⟨hfirstPassed, hothersPassed⟩ := List.forall_mem_append.mp hpassed
    rw [preorderRow, preorderRow,
      hfirst n' _ _ s hn (.deeper hlabel ⟨hleft, hrest⟩ hway) hfirstPassed]
    exact ih (.cons hn hleft) hothers hothersPassed

/-- `preorder` comes to the same in alike trees, if the visitor passes by what is left open. -/
private theorem preorder_alike (hsame : ∀ s c d, Alike opened c d → visit s d = visit s c)
    {n n' : Node} {above above' : List Frame} {s : σ} (hn : n.Alike opened n')
    (hway : Ways opened above above')
    (hpassed : ∀ e ∈ entries visit above n s, e.2.node.Opened opened → (visit e.1 e.2).2 = .past) :
    preorder visit above' n' s = preorder visit above n s := by
  induction n using Node.induction generalizing n' above above' s with
  | mk l cs ih =>
    obtain ⟨l', cs'⟩ := n'
    have hvisits : visit s ⟨.mk l' cs', above'⟩ = visit s ⟨.mk l cs, above⟩ :=
      hsame s _ _ ⟨hn, hway⟩
    cases hvisit : visit s ⟨.mk l cs, above⟩ with
    | mk s' onward =>
      rw [hvisit] at hvisits
      cases onward with
      | past => rw [preorder_of_past hvisit, preorder_of_past hvisits]
      | into =>
        rw [preorder_of_into hvisit, preorder_of_into hvisits]
        rw [entries_of_into hvisit] at hpassed
        obtain ⟨hself, hbelow⟩ := List.forall_mem_cons.mp hpassed
        -- The node is entered, so its body is not left open.
        have hclosed : ¬ (Node.mk l cs).Opened opened := by
          intro hopened
          have hpast := hself hopened
          rw [hvisit] at hpast
          exact nomatch hpast
        have hchildren := hn.row.forall₂ hclosed
        exact preorderRow_alike hn.label hway .nil hchildren
          (fun n hm n' above above' s hn hway => ih n hm hn hway)
          hbelow

/-- `walk` comes to the same in alike trees, if the visitor does the same at positions that go
together and passes by what is left open. -/
theorem walk_alike (hsame : ∀ s c d, Alike opened c d → visit s d = visit s c)
    (h : Alike opened c d) {s : σ}
    (hpassed : ∀ e ∈ c.history visit s, e.2.node.Opened opened → (visit e.1 e.2).2 = .past) :
    d.walk visit s = c.walk visit s := by
  rw [history_eq_entries] at hpassed
  rw [walk_eq_preorder, walk_eq_preorder]
  exact preorder_alike hsame h.node h.way hpassed

end Walks

end Cursor

end Positions

end RouteAtlas.Syntax
