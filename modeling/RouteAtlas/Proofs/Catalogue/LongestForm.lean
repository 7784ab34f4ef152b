import Mathlib.Data.Finset.Max
import RouteAtlas.Proofs.Catalogue.Endpoints
import RouteAtlas.Proofs.Url.Join

/-!
# A catalogue is empty only where no route is declared

A form of a route may be left out of the catalogue because another form has claimed its key, and
that other form may be left out in turn because a longer chain continues it. What bounds this is the
length of URLs: a form that continues another has a longer one. So a form with the longest URL of
all is continued by none, and neither is the form that claims its key.

## Key results

- `chainUrl_append`: mounting a route under an outer chain as well
- `length_url_lt_of_isContinuedBy`: a continued form has a shorter URL than the one that continues
  it
- `ofOutlines_eq_nil_iff`: when a catalogue is empty
-/

namespace RouteAtlas.Catalogue

variable {routers : List Router}

/-! ## Chains that go on outside -/

/-- `chainFront` of a chain that goes on outside has the outer prefixes first. -/
private theorem chainFront_append {inner : List (Nat × Nat)} (hne : inner ≠ [])
    (outer : List (Nat × Nat)) :
    chainFront routers (inner ++ outer) = Url.join (chainFront routers outer)
      (chainFront routers inner) := by
  induction inner with
  | nil => exact absurd rfl hne
  | cons m inner ih =>
    rw [List.cons_append, chainFront_cons]
    -- The last mount of the inner chain has nothing further inside to be joined to.
    by_cases hnil : inner = []
    · rw [hnil, List.nil_append, chainFront_singleton]
    · rw [ih hnil, chainFront_cons m inner, Url.join_assoc]

/-- `chainUrl` has the prefixes of the outer mounts before the URL that the inner ones have
given. -/
theorem chainUrl_append (inner : List (Nat × Nat)) {outer : List (Nat × Nat)} (hne : outer ≠ [])
    (url : String) :
    chainUrl routers (inner ++ outer) url = Url.join (chainFront routers outer)
      (chainUrl routers inner url) := by
  rw [chainUrl_of_ne_nil (List.append_ne_nil_of_right_ne_nil inner hne)]
  by_cases hnil : inner = []
  · rw [hnil, List.nil_append, chainUrl, if_pos rfl]
  · rw [chainFront_append hnil, Url.join_assoc, chainUrl_of_ne_nil hnil]

/-! ## The longest URL -/

/-- `isContinuedBy` holds only for a form with a longer URL. -/
theorem length_url_lt_of_isContinuedBy {f g : RouteForm} (hf : IsForm routers f)
    (hg : IsForm routers g) (h : isContinuedBy f g = true) :
    f.endpoint.url.length < g.endpoint.url.length := by
  simp only [isContinuedBy, Bool.and_eq_true, beq_iff_eq, decide_eq_true_eq, bne_iff_ne,
    List.isPrefixOf_iff_prefix] at h
  obtain ⟨⟨⟨hsource, hlen⟩, outer, houter⟩, hne⟩ := h
  -- Both forms are of one declared endpoint.
  obtain ⟨_, e, he, hfe⟩ := hf
  obtain ⟨_, e', he', hge⟩ := hg
  rw [hsource, he] at he'
  obtain rfl := Option.some.inj he'
  have hfurl : f.endpoint.url = chainUrl routers f.chain e.url := by rw [hfe, mounted_url]
  have hgurl : g.endpoint.url = Url.join (chainFront routers outer) f.endpoint.url := by
    have hmore : outer ≠ [] := by
      rintro rfl
      rw [← houter, List.append_nil] at hlen
      exact absurd hlen (Nat.lt_irrefl _)
    rw [hge, mounted_url, ← houter, chainUrl_append f.chain hmore, hfurl]
  rw [hgurl] at hne ⊢
  exact Url.length_lt_length_join hne

/-- `FullyMounted` holds of a form whose URL is as long as any. -/
private theorem fullyMounted_of_longest {f : RouteForm} (hf : f ∈ forms routers)
    (hlongest : ∀ g ∈ forms routers, g.endpoint.url.length ≤ f.endpoint.url.length) :
    FullyMounted routers f := by
  intro g hg
  by_contra hcont
  rw [Bool.not_eq_false] at hcont
  have hlt := length_url_lt_of_isContinuedBy (mem_forms.mp hf) (mem_forms.mp hg) hcont
  exact absurd (hlongest g hg) (Nat.not_le.mpr hlt)

/-! ## Empty catalogues -/

/-- `Claims` and `FullyMounted` hold of some form, where there is a form at all. -/
private theorem exists_claims_fullyMounted (hne : forms routers ≠ []) :
    ∃ f, Claims routers f ∧ FullyMounted routers f := by
  obtain ⟨some, hsome⟩ := List.exists_mem_of_ne_nil _ hne
  obtain ⟨longest, hmem, hlongest⟩ := (forms routers).toFinset.exists_max_image
    (fun f => f.endpoint.url.length) ⟨some, List.mem_toFinset.mpr hsome⟩
  -- The longest form need not have been the first with its key, but the first has the same URL.
  obtain ⟨first, hclaims, hkey⟩ := exists_claims (List.mem_toFinset.mp hmem)
  have hurl : first.endpoint.url = longest.endpoint.url := congrArg Prod.snd hkey
  refine ⟨first, hclaims, fullyMounted_of_longest hclaims.1 fun g hg => ?_⟩
  rw [hurl]
  exact hlongest g (List.mem_toFinset.mpr hg)

/-- `ofRouters` is empty only if there are no forms. -/
private theorem ofRouters_eq_nil_iff : ofRouters routers = [] ↔ forms routers = [] := by
  constructor
  · intro hnil
    by_contra hne
    obtain ⟨f, hclaims, hfull⟩ := exists_claims_fullyMounted hne
    have hkey : f.endpoint.key ∈ (ofRouters routers).map Endpoint.key :=
      key_mem_ofRouters.mpr ⟨f, hclaims, hfull, rfl⟩
    rw [hnil] at hkey
    exact absurd hkey List.not_mem_nil
  · intro hnil
    refine List.eq_nil_iff_forall_not_mem.mpr fun e he => ?_
    obtain ⟨f, hform, _⟩ := exists_form_of_mem_ofRouters he
    have hf := mem_forms.mpr hform
    rw [hnil] at hf
    exact absurd hf List.not_mem_nil

/-- `ofOutlines` is empty exactly if no file declares a route. -/
theorem ofOutlines_eq_nil_iff {files : List Outline} :
    ofOutlines files = [] ↔ ∀ o ∈ files, o.routes = [] := by
  rw [ofOutlines, ofRouters_eq_nil_iff]
  constructor
  · intro hnil o ho
    obtain ⟨i, hi⟩ := List.mem_iff_getElem?.mp ho
    refine List.eq_nil_iff_forall_not_mem.mpr fun route hroute => ?_
    obtain ⟨k, hk⟩ := List.mem_iff_getElem?.mp hroute
    -- A route has a form as it is declared.
    have hform := mem_forms.mpr (exists_form hi hk (leadsTo_nil i))
    rw [hnil] at hform
    exact absurd hform List.not_mem_nil
  · intro hnone
    refine List.eq_nil_iff_forall_not_mem.mpr fun f hf => ?_
    obtain ⟨_, e, he, _⟩ := mem_forms.mp hf
    obtain ⟨o, route, ho, hroute, _⟩ := route_ofOutlines.mp he
    rw [hnone o (List.mem_of_getElem? ho)] at hroute
    exact absurd hroute (by simp)

end RouteAtlas.Catalogue
