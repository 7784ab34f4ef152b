import RouteAtlas.Proofs.Catalogue.Selection
import RouteAtlas.Proofs.Endpoint.Seeding

/-!
# The endpoints of a project

What the catalogue of a project shows, in terms of the routes that its files declare and of the
chains of mounts that lead to the files.

## Key results

- `fullyMounted_iff`: which forms are not continued, in terms of chains
- when the key of a fully mounted route is in the catalogue, and a key that is not
- where the endpoints of a catalogue come from
-/

namespace RouteAtlas.Catalogue

variable {files : List Outline}

/-! ## Files as routers -/

/-- `ofOutlines` gives a router the routes that its file declares. -/
theorem route_ofOutlines {i k : Nat} {e : Endpoint} :
    (router (Router.ofOutlines files) i).routes[k]? = some e ↔
      ∃ o route, files[i]? = some o ∧ o.routes[k]? = some route ∧ route.endpoint = e := by
  rw [router, Router.ofOutlines, List.getElem?_map]
  cases files[i]? with
  | none => simp
  | some o => simp

/-! ## Continued forms -/

/-- `FullyMounted` holds of a form if every longer chain that goes on from its own gives the same
URL. -/
theorem fullyMounted_iff {routers : List Router} {f : RouteForm} {e : Endpoint}
    (hform : IsForm routers f) (he : (router routers f.source.1).routes[f.source.2]? = some e) :
    FullyMounted routers f ↔
      ∀ longer, LeadsTo routers longer f.source.1 → f.chain <+: longer →
        f.chain.length < longer.length →
          chainUrl routers longer e.url = chainUrl routers f.chain e.url := by
  -- All forms of the route have the URLs of their chains, joined to that of the one declared
  -- endpoint.
  have hurl : ∀ g, IsForm routers g → g.source = f.source →
      g.endpoint.url = chainUrl routers g.chain e.url := by
    rintro g ⟨_, e', he', hend⟩ hsource
    rw [hsource, he] at he'
    rw [hend, mounted_url, Option.some.inj he']
  constructor
  · intro hfull longer hlonger hpre hlen
    -- The longer chain has a form of the same route, which does not continue this one.
    have hg : IsForm routers ⟨mounted routers longer e, f.source, longer⟩ := ⟨hlonger, e, he, rfl⟩
    have hnot := hfull _ (mem_forms.mpr hg)
    have hpre' : f.chain.isPrefixOf longer = true := List.isPrefixOf_iff_prefix.mpr hpre
    simp only [isContinuedBy, beq_self_eq_true, hlen, decide_true, hpre', Bool.true_and,
      bne_eq_false_iff_eq] at hnot
    rw [← mounted_url longer e, hnot, hurl f hform rfl]
  · intro hsame g hg
    rw [← Bool.not_eq_true]
    intro hcont
    simp only [isContinuedBy, Bool.and_eq_true, beq_iff_eq, decide_eq_true_eq, bne_iff_ne,
      List.isPrefixOf_iff_prefix] at hcont
    obtain ⟨⟨⟨hsource, hlen⟩, hpre⟩, hne⟩ := hcont
    have hgform := mem_forms.mp hg
    rw [hurl g hgform hsource, hurl f hform rfl] at hne
    exact hne (hsame g.chain (hsource ▸ hgform.1) hpre hlen)

/-! ## Nothing is lost but to a claim -/

/-- `IsForm` holds of a route that a file declares, at the end of a chain that leads to the file. -/
theorem exists_form {i k : Nat} {o : Outline} {route : Route} {chain : List (Nat × Nat)}
    (ho : files[i]? = some o) (hroute : o.routes[k]? = some route)
    (hchain : LeadsTo (Router.ofOutlines files) chain i) :
    IsForm (Router.ofOutlines files)
      ⟨mounted (Router.ofOutlines files) chain route.endpoint, (i, k), chain⟩ :=
  ⟨hchain, route.endpoint, route_ofOutlines.mpr ⟨o, route, ho, hroute, rfl⟩, rfl⟩

/-- `Claims` holds, for the key of every form, of some form. -/
theorem exists_claims {routers : List Router} {f : RouteForm} (hf : f ∈ forms routers) :
    ∃ g, Claims routers g ∧ g.endpoint.key = f.endpoint.key := by
  obtain ⟨g, hg, hkey⟩ := exists_first hf
  exact ⟨g, ⟨List.mem_of_find?_eq_some hg, Or.inr (hkey ▸ hg)⟩, hkey⟩

/-- `ofOutlines` has the key of a route at the end of a chain, from which no longer chain goes on to
another URL, exactly if some form that claims the key is not continued itself. So it always has for
a route as declared, and for any other if none of the forms that claim the key is continued. -/
theorem key_mem_ofOutlines_iff {i k : Nat} {o : Outline} {route : Route} {chain : List (Nat × Nat)}
    (ho : files[i]? = some o) (hroute : o.routes[k]? = some route)
    (hchain : LeadsTo (Router.ofOutlines files) chain i)
    (hfull : ∀ longer, LeadsTo (Router.ofOutlines files) longer i → chain <+: longer →
      chain.length < longer.length →
      chainUrl (Router.ofOutlines files) longer route.endpoint.url =
        chainUrl (Router.ofOutlines files) chain route.endpoint.url) :
    let routers := Router.ofOutlines files
    let key := (route.endpoint.method, chainUrl routers chain route.endpoint.url)
    (key ∈ (ofOutlines files).map Endpoint.key ↔
        ∃ f, Claims routers f ∧ FullyMounted routers f ∧ f.endpoint.key = key) ∧
      (chain = [] → key ∈ (ofOutlines files).map Endpoint.key) ∧
      ((∀ f, Claims routers f → f.endpoint.key = key → FullyMounted routers f) →
        key ∈ (ofOutlines files).map Endpoint.key) := by
  intro routers key
  have hform := exists_form ho hroute hchain
  -- A form keeps the method of its route, and has the URL of its chain.
  have hkey : (mounted routers chain route.endpoint).key = key := by
    rw [Endpoint.key, mounted_method, mounted_url]
  have hmem := mem_forms.mpr hform
  refine ⟨key_mem_ofRouters, fun hnil => ?_, fun hall => ?_⟩
  · have he := route_ofOutlines.mpr ⟨o, route, ho, hroute, rfl⟩
    exact key_mem_ofRouters.mpr
      ⟨_, ⟨hmem, Or.inl hnil⟩, (fullyMounted_iff hform he).mpr hfull, hkey⟩
  · obtain ⟨f, hclaims, hf⟩ := exists_claims hmem
    exact key_mem_ofRouters.mpr ⟨f, hclaims, hall f hclaims (hf.trans hkey), hf.trans hkey⟩

/-- A server that mounts one router at the root and again below `/api`. -/
def mountedTwice : List Outline :=
  [{ path := ⟨"/p/server.js"⟩
     mounts :=
       [⟨"/", "routes", some ⟨"/p/routes.js"⟩⟩, ⟨"/api", "routes", some ⟨"/p/routes.js"⟩⟩] },
   { path := ⟨"/p/routes.js"⟩, routes := [⟨.declare .get "/items", [], ⟨0, 0, 1⟩⟩] }]

/-- `mountedTwice` has no mount that is for the server. -/
private theorem target?_mountedTwice (m : Nat × Nat) :
    target? (Router.ofOutlines mountedTwice) m ≠ some 0 := by
  have hrouters : Router.ofOutlines mountedTwice =
      [{ mounts := [("/", some 1), ("/api", some 1)] },
        { routes := [.declare .get "/items"] }] := by
    decide +kernel
  intro hm
  have hlt := lt_length_of_target? hm
  have hmount := exists_mount_of_target? hm
  obtain ⟨i, k⟩ := m
  rw [hrouters] at hlt hmount
  -- There are two mounts, and both are for the router.
  match i, k, hlt with
  | 0, 0, _ => simp [router] at hmount
  | 0, 1, _ => simp [router] at hmount
  | 0, k + 2, _ => simp [router] at hmount
  | 1, k, _ => simp [router] at hmount

/-- `mountedTwice` has no chain to the router with more than one mount. -/
private theorem leadsTo_mountedTwice {longer : List (Nat × Nat)} {m : Nat}
    (hlonger : LeadsTo (Router.ofOutlines mountedTwice) longer 1) (hpre : [(0, m)] <+: longer) :
    longer.length ≤ 1 := by
  obtain ⟨above, rfl⟩ := hpre
  cases above with
  | nil => simp
  | cons n above =>
    have houter := ((leadsTo_cons (List.cons_ne_nil n above)).mp hlonger).2.2
    exact absurd houter.target (target?_mountedTwice n)

/-- The route of `mountedTwice` below `/api` is in the catalogue: only its own form has the key. -/
theorem api_mount_key_shown :
    (Method.get, "/api/items") ∈ (ofOutlines mountedTwice).map Endpoint.key := by
  have hchain : LeadsTo (Router.ofOutlines mountedTwice) [(0, 1)] 1 :=
    leadsTo_singleton.mpr (by decide +kernel)
  have hfull := (key_mem_ofOutlines_iff (k := 0) rfl rfl hchain fun longer hlonger hpre hlen =>
    absurd hlen (Nat.not_lt.mpr (leadsTo_mountedTwice hlonger hpre))).2.2
  have hurl : chainUrl (Router.ofOutlines mountedTwice) [(0, 1)] "/items" = "/api/items" := by
    decide +kernel
  have hall : ∀ f ∈ forms (Router.ofOutlines mountedTwice),
      f.endpoint.key = (.get, "/api/items") → FullyMounted (Router.ofOutlines mountedTwice) f := by
    decide +kernel
  exact hurl ▸ hfull fun f hclaims hkey => hall f hclaims.1 (hkey.trans (congrArg _ hurl))

/-- The route of `mountedTwice` below the root mount is not in the catalogue: the form that its file
declares claims the key, and is itself continued below `/api`. -/
theorem root_mount_key_lost :
    LeadsTo (Router.ofOutlines mountedTwice) [(0, 0)] 1 ∧
      (∀ longer, LeadsTo (Router.ofOutlines mountedTwice) longer 1 → [(0, 0)] <+: longer →
        [(0, 0)].length < longer.length →
        chainUrl (Router.ofOutlines mountedTwice) longer "/items" =
          chainUrl (Router.ofOutlines mountedTwice) [(0, 0)] "/items") ∧
      chainUrl (Router.ofOutlines mountedTwice) [(0, 0)] "/items" = "/items" ∧
      (Method.get, "/items") ∉ (ofOutlines mountedTwice).map Endpoint.key := by
  refine ⟨leadsTo_singleton.mpr (by decide +kernel), fun longer hlonger hpre hlen => ?_,
    by decide +kernel, ?_⟩
  · exact absurd hlen (Nat.not_lt.mpr (leadsTo_mountedTwice hlonger hpre))
  · rw [ofOutlines, key_mem_ofRouters_iff_exists_form]
    decide +kernel

/-! ## Nothing is invented -/

/-- `ofOutlines` has endpoints that are routes of some file at the end of a chain that leads to the
file, with the route's own data and the parameters of the URL, and no longer chain goes on from
there to another URL. It has each key once. -/
theorem ofOutlines_fully_mounted (files : List Outline) :
    (∀ e ∈ ofOutlines files, ∃ (i k : Nat) (o : Outline) (route : Route) (chain : List (Nat × Nat)),
      files[i]? = some o ∧ o.routes[k]? = some route ∧ LeadsTo (Router.ofOutlines files) chain i ∧
      e.method = route.endpoint.method ∧
      e.url = chainUrl (Router.ofOutlines files) chain route.endpoint.url ∧
      e.headers = route.endpoint.headers ∧ e.query = route.endpoint.query ∧
      e.body = route.endpoint.body ∧
      (chain = [] → e = route.endpoint) ∧
      (chain ≠ [] → e.dataSource = e.primarySource ∧
        e.params = route.endpoint.params ++
          ((Url.params e.url).filter (fun n => ¬ Field.Listed n route.endpoint.params)).map
            (⟨·, .string, true⟩)) ∧
      ∀ longer, LeadsTo (Router.ofOutlines files) longer i → chain <+: longer →
        chain.length < longer.length →
        chainUrl (Router.ofOutlines files) longer route.endpoint.url = e.url) ∧
    ((ofOutlines files).map Endpoint.key).Nodup := by
  refine ⟨fun e he => ?_, nodup_keys_ofRouters _⟩
  obtain ⟨⟨endpoint, ⟨i, k⟩, chain⟩, hform, hfull, rfl⟩ := exists_form_of_mem_ofRouters he
  obtain ⟨hchain, e, hroute, hend⟩ := id hform
  obtain ⟨o, route, ho, hr, rfl⟩ := route_ofOutlines.mp hroute
  simp only at hchain hend ⊢
  have hurl : endpoint.url = chainUrl (Router.ofOutlines files) chain route.endpoint.url := by
    rw [hend, mounted_url]
  -- That no form continues this one is said of chains only from here on.
  have hlonger := (fullyMounted_iff hform hroute).mp hfull
  refine ⟨i, k, o, route, chain, ho, hr, hchain, ?_, hurl, ?_, ?_, ?_, ?_, ?_, ?_⟩
  · rw [hend, mounted_method]
  · rw [hend, mounted]; split <;> rfl
  · rw [hend, mounted]; split <;> rfl
  · rw [hend, mounted]; split <;> rfl
  · intro hnil
    rw [hend, mounted, if_pos hnil]
  · intro hne
    rw [mounted, if_neg hne] at hend
    refine ⟨by rw [hend]; rfl, ?_⟩
    rw [hurl, hend, relocate_params]
  · intro longer hl hpre hlen
    rw [hurl]
    exact hlonger longer hl hpre hlen

/-- An application that mounts a router with a route and with a router of its own. -/
def nestedMounts : List Outline :=
  [{ path := ⟨"/p/server.js"⟩, mounts := [⟨"/api", "api", some ⟨"/p/api.js"⟩⟩] },
   { path := ⟨"/p/api.js"⟩
     routes := [⟨.declare .get "/status", [], ⟨0, 0, 1⟩⟩]
     mounts := [⟨"/orgs/:orgId", "orgs", some ⟨"/p/orgs.js"⟩⟩] },
   { path := ⟨"/p/orgs.js"⟩, routes := [⟨.declare .post "/members", [], ⟨0, 0, 1⟩⟩] }]

/-- The route of the inner router of `nestedMounts` appears below both prefixes, and comes from a
chain. -/
theorem nested_mount_shown :
    ∃ e ∈ ofOutlines nestedMounts, e.key = (.post, "/api/orgs/:orgId/members") ∧
      ∃ (i : Nat) (route : Route) (chain : List (Nat × Nat)),
        LeadsTo (Router.ofOutlines nestedMounts) chain i ∧ e.method = route.endpoint.method ∧
          e.url = chainUrl (Router.ofOutlines nestedMounts) chain route.endpoint.url := by
  have hshown : (Method.post, "/api/orgs/:orgId/members") ∈ (ofOutlines nestedMounts).map
      Endpoint.key := by
    rw [ofOutlines, key_mem_ofRouters_iff_exists_form]
    decide +kernel
  obtain ⟨e, he, hkey⟩ := List.mem_map.mp hshown
  obtain ⟨i, _, _, route, chain, _, _, hchain, hmethod, hurl, _⟩ :=
    (ofOutlines_fully_mounted nestedMounts).1 e he
  exact ⟨e, he, hkey, i, route, chain, hchain, hmethod, hurl⟩

end RouteAtlas.Catalogue
