import RouteAtlas.Proofs.Catalogue.MountChain

/-!
# The forms that make a catalogue

Of all forms of routes, a catalogue shows those that claim their key and that no form continues. A
form claims its key, the method and the URL, if its file declares it or if it is the first form of
all with that key. Of several that have one key, the first is shown.

## Key results

- `mem_fresh_forms`: the forms that are left for the catalogue are those that claim their keys
- `key_mem_ofRouters`: the keys of a catalogue
- `nodup_keys_ofRouters`: a catalogue has each key once
-/

namespace RouteAtlas.Catalogue

variable {routers : List Router}

/-- No form continues the form: no longer chain of the same route gives another URL. -/
def FullyMounted (routers : List Router) (f : RouteForm) : Prop :=
  ∀ g ∈ forms routers, isContinuedBy f g = false

/-- The form claims its key: its file declares it so, or it is the first form with that key. -/
def Claims (routers : List Router) (f : RouteForm) : Prop :=
  f ∈ forms routers ∧
    (f.chain = [] ∨ (forms routers).find? (·.endpoint.key == f.endpoint.key) = some f)

instance (routers : List Router) (f : RouteForm) : Decidable (FullyMounted routers f) :=
  inferInstanceAs (Decidable (∀ g ∈ forms routers, isContinuedBy f g = false))

instance (routers : List Router) (f : RouteForm) : Decidable (Claims routers f) :=
  inferInstanceAs (Decidable (f ∈ forms routers ∧
    (f.chain = [] ∨ (forms routers).find? (·.endpoint.key == f.endpoint.key) = some f)))

/-- `find?` has a first one among the forms with the key of a form. -/
theorem exists_first {f : RouteForm} (hf : f ∈ forms routers) :
    ∃ g, (forms routers).find? (·.endpoint.key == f.endpoint.key) = some g ∧
      g.endpoint.key = f.endpoint.key := by
  have hsome : ((forms routers).find? (·.endpoint.key == f.endpoint.key)).isSome :=
    List.find?_isSome.mpr ⟨f, hf, beq_self_eq_true _⟩
  obtain ⟨g, hg⟩ := Option.isSome_iff_exists.mp hsome
  exact ⟨g, hg, by simpa using List.find?_some hg⟩

/-! ## Forms by route -/

/-- `foldl` puts every form under its route, and removes nothing. -/
private theorem mem_foldl_bySource {all : List RouteForm}
    {m : Std.HashMap (Nat × Nat) (List RouteForm)} {source : Nat × Nat} {f : RouteForm} :
    f ∈ (all.foldl (fun m f => m.insert f.source (f :: m.getD f.source [])) m).getD source [] ↔
      (f ∈ all ∧ f.source = source) ∨ f ∈ m.getD source [] := by
  induction all generalizing m with
  | nil => simp
  | cons g rest ih =>
    rw [List.foldl_cons, ih, Std.HashMap.getD_insert]
    -- The form that is put in goes to the list asked for, or to another one.
    by_cases hg : g.source = source
    · subst hg
      simp only [beq_self_eq_true, if_true, List.mem_cons]
      grind
    · have hbeq : (g.source == source) = false := beq_eq_false_iff_ne.mpr hg
      simp only [hbeq, Bool.false_eq_true, if_false, List.mem_cons]
      grind

/-- `formsBySource` has, under a route, the forms of that route. -/
private theorem mem_formsBySource {all : List RouteForm} {source : Nat × Nat} {f : RouteForm} :
    f ∈ (formsBySource all).getD source [] ↔ f ∈ all ∧ f.source = source := by
  rw [formsBySource, mem_foldl_bySource]
  simp

/-- `formsBySource` is enough to look for a continuation in: a form of another route is none. -/
theorem any_isContinuedBy_eq_false {f : RouteForm} :
    ((formsBySource (forms routers)).getD f.source []).any (isContinuedBy f) = false ↔
      FullyMounted routers f := by
  simp only [List.any_eq_false, mem_formsBySource, FullyMounted, Bool.not_eq_true]
  constructor
  · intro h g hg
    -- A form of another route continues nothing.
    by_cases hsource : g.source = f.source
    · exact h g ⟨hg, hsource⟩
    · simp [isContinuedBy, hsource]
  · intro h g hg
    exact h g hg.1

/-! ## First of each key -/

/-- `fresh` leaves a form if its chain is empty, or if its key is neither among those seen nor that
of a form before it. -/
private theorem mem_fresh {seen : Std.HashSet (Method × String)} {fs : List RouteForm}
    {f : RouteForm} :
    f ∈ fresh seen fs ↔ ∃ before after, fs = before ++ f :: after ∧
      (f.chain = [] ∨ f.endpoint.key ∉ seen ∧ ∀ g ∈ before, g.endpoint.key ≠ f.endpoint.key) := by
  induction fs generalizing seen with
  | nil => simp [fresh]
  | cons g rest ih =>
    constructor
    · intro hf
      rw [fresh] at hf
      split at hf
      · -- The first form is left: it is the one in question, or its key counts as seen for the
        -- rest.
        rename_i hkeep
        rcases List.mem_cons.mp hf with rfl | hrest
        · refine ⟨[], rest, rfl, ?_⟩
          simp only [Bool.or_eq_true, List.isEmpty_iff, Bool.not_eq_true'] at hkeep
          refine hkeep.imp_right fun h => ⟨?_, by simp⟩
          rw [← Std.HashSet.contains_iff_mem, h]
          exact Bool.false_ne_true
        · obtain ⟨before, after, rfl, hnew⟩ := ih.mp hrest
          refine ⟨g :: before, after, rfl, hnew.imp_right fun ⟨hseen, hbefore⟩ => ?_⟩
          rw [Std.HashSet.mem_insert, not_or, beq_iff_eq] at hseen
          exact ⟨hseen.2, List.forall_mem_cons.mpr ⟨hseen.1, hbefore⟩⟩
      · -- The first form is dropped, so its key has been seen, and is not that of the form in
        -- question.
        rename_i hdrop
        simp only [Bool.or_eq_true, Bool.not_eq_true', not_or, Bool.not_eq_false] at hdrop
        obtain ⟨before, after, rfl, hnew⟩ := ih.mp hf
        refine ⟨g :: before, after, rfl, hnew.imp_right fun ⟨hseen, hbefore⟩ => ⟨hseen, ?_⟩⟩
        refine List.forall_mem_cons.mpr ⟨?_, hbefore⟩
        intro hkey
        exact hseen (hkey ▸ Std.HashSet.contains_iff_mem.mp hdrop.2)
    · rintro ⟨before, after, hsplit, hnew⟩
      cases before with
      | nil =>
        obtain ⟨rfl, rfl⟩ := List.cons_eq_cons.mp hsplit
        have hkeep : (g.chain.isEmpty || !seen.contains g.endpoint.key) = true := by
          simp only [Bool.or_eq_true, List.isEmpty_iff, Bool.not_eq_true']
          refine hnew.imp_right fun h => ?_
          rw [← Bool.not_eq_true, Std.HashSet.contains_iff_mem]
          exact h.1
        rw [fresh, if_pos hkeep]
        exact List.mem_cons_self
      | cons b before =>
        obtain ⟨rfl, rfl⟩ := List.cons_eq_cons.mp hsplit
        rw [fresh]
        split
        · refine List.mem_cons_of_mem _ (ih.mpr ⟨before, after, rfl, hnew.imp_right fun h => ?_⟩)
          obtain ⟨hg, hbefore⟩ := List.forall_mem_cons.mp h.2
          rw [Std.HashSet.mem_insert, not_or, beq_iff_eq]
          exact ⟨⟨hg, h.1⟩, hbefore⟩
        · exact ih.mpr ⟨before, after, rfl, hnew.imp_right fun h =>
            ⟨h.1, (List.forall_mem_cons.mp h.2).2⟩⟩

/-- `fresh` leaves, of all forms, those that claim their keys. -/
theorem mem_fresh_forms {f : RouteForm} : f ∈ fresh ∅ (forms routers) ↔ Claims routers f := by
  -- A form is found first if no form before it has its key.
  have hfirst : (forms routers).find? (·.endpoint.key == f.endpoint.key) = some f ↔
      ∃ before after, forms routers = before ++ f :: after ∧
        ∀ g ∈ before, g.endpoint.key ≠ f.endpoint.key := by
    simp [List.find?_eq_some_iff_append]
  rw [mem_fresh, Claims, hfirst]
  constructor
  · rintro ⟨before, after, hsplit, hnew⟩
    refine ⟨hsplit ▸ List.mem_append_right _ List.mem_cons_self, hnew.imp_right fun h => ?_⟩
    exact ⟨before, after, hsplit, h.2⟩
  · rintro ⟨hmem, hnil | ⟨before, after, hsplit, hbefore⟩⟩
    · obtain ⟨before, after, hsplit⟩ := List.append_of_mem hmem
      exact ⟨before, after, hsplit, Or.inl hnil⟩
    · exact ⟨before, after, hsplit, Or.inr ⟨Std.HashSet.not_mem_empty, hbefore⟩⟩

/-- `distinct` leaves no endpoint whose key was seen, and of the others none is lost but for one
with its key. -/
private theorem key_mem_distinct {seen : Std.HashSet (Method × String)} {es : List Endpoint}
    {key : Method × String} :
    key ∈ (distinct seen es).map Endpoint.key ↔ key ∉ seen ∧ key ∈ es.map Endpoint.key := by
  induction es generalizing seen with
  | nil => simp [distinct]
  | cons e rest ih =>
    rw [distinct, List.map_cons, List.mem_cons]
    split
    · -- An endpoint is dropped for a key that has been seen, which is not the one asked for.
      rename_i hseen
      have he : e.key ∈ seen := Std.HashSet.contains_iff_mem.mp hseen
      rw [ih]
      exact ⟨fun h => ⟨h.1, Or.inr h.2⟩, fun h => ⟨h.1, h.2.resolve_left fun heq => h.1 (heq ▸ he)⟩⟩
    · rename_i hseen
      have he : e.key ∉ seen := fun h => hseen (Std.HashSet.contains_iff_mem.mpr h)
      rw [List.map_cons, List.mem_cons, ih, Std.HashSet.mem_insert, not_or, beq_iff_eq]
      grind

/-- `distinct` leaves no key twice. -/
private theorem nodup_keys_distinct (seen : Std.HashSet (Method × String)) (es : List Endpoint) :
    ((distinct seen es).map Endpoint.key).Nodup := by
  induction es generalizing seen with
  | nil => simp [distinct]
  | cons e rest ih =>
    rw [distinct]
    split
    · exact ih seen
    · rw [List.map_cons, List.nodup_cons, key_mem_distinct]
      exact ⟨fun h => h.1 Std.HashSet.mem_insert_self, ih _⟩

/-- `distinct` adds nothing. -/
private theorem distinct_subset (seen : Std.HashSet (Method × String)) (es : List Endpoint) :
    distinct seen es ⊆ es := by
  induction es generalizing seen with
  | nil => simp [distinct]
  | cons e rest ih =>
    rw [distinct]
    split
    · exact List.Subset.trans (ih seen) (List.subset_cons_self e rest)
    · exact List.cons_subset_cons e (ih _)

/-! ## The catalogue -/

/-- `ofRouters` shows the forms that claim their keys and are `FullyMounted`, before those with a
key that was shown are left out. -/
private theorem mem_shown {f : RouteForm} :
    f ∈ (fresh ∅ (forms routers)).filter
        (fun f => !((formsBySource (forms routers)).getD f.source []).any (isContinuedBy f)) ↔
      Claims routers f ∧ FullyMounted routers f := by
  rw [List.mem_filter, mem_fresh_forms, Bool.not_eq_true', any_isContinuedBy_eq_false]

/-- `ofRouters` has the keys claimed by a form that no other continues. -/
theorem key_mem_ofRouters {key : Method × String} :
    key ∈ (ofRouters routers).map Endpoint.key ↔
      ∃ f, Claims routers f ∧ FullyMounted routers f ∧ f.endpoint.key = key := by
  rw [ofRouters, key_mem_distinct, List.map_map]
  simp only [Std.HashSet.not_mem_empty, not_false_eq_true, true_and, List.mem_map, mem_shown,
    Function.comp_apply, and_assoc]

/-- `ofRouters` has the keys of forms that can be looked for among all forms. -/
theorem key_mem_ofRouters_iff_exists_form {key : Method × String} :
    key ∈ (ofRouters routers).map Endpoint.key ↔
      ∃ f ∈ forms routers, Claims routers f ∧ FullyMounted routers f ∧ f.endpoint.key = key := by
  rw [key_mem_ofRouters]
  constructor
  · rintro ⟨f, hclaims, hfull, hkey⟩
    exact ⟨f, hclaims.1, hclaims, hfull, hkey⟩
  · rintro ⟨f, _, hf⟩
    exact ⟨f, hf⟩

/-- `ofRouters` has endpoints of forms that no other continues. -/
theorem exists_form_of_mem_ofRouters {e : Endpoint} (h : e ∈ ofRouters routers) :
    ∃ f, IsForm routers f ∧ FullyMounted routers f ∧ f.endpoint = e := by
  obtain ⟨f, hf, rfl⟩ := List.mem_map.mp (distinct_subset _ _ h)
  obtain ⟨hclaims, hfull⟩ := mem_shown.mp hf
  exact ⟨f, mem_forms.mp hclaims.1, hfull, rfl⟩

/-- `ofRouters` has each key once. -/
theorem nodup_keys_ofRouters (routers : List Router) :
    ((ofRouters routers).map Endpoint.key).Nodup :=
  nodup_keys_distinct _ _

end RouteAtlas.Catalogue
