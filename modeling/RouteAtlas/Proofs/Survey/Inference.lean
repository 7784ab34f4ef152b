import RouteAtlas.Proofs.Catalogue.RequestData
import RouteAtlas.Proofs.Catalogue.WellFormed
import RouteAtlas.Proofs.Project.Handlers

/-!
# What the reading of handlers changes

When the handlers of routes are read, what they read of requests is added to the endpoints of the
routes. Nothing else in a survey changes, and no endpoint comes into the catalogue or goes from it.
What is found out about a route does not depend on which other routes have been seen to already.

## Key results

- `bare_applyTo`: what a handler reads changes neither method nor URL
- `facts?_of_bare`: what is found out about a route does not depend on what requests carry
- `bare_merged`: a survey is the same with and without what handlers read, but for what requests
  carry
-/

namespace RouteAtlas

/-- `applyTo` changes neither method nor URL. -/
theorem Facts.bare_applyTo (facts : Facts) (e : Endpoint) : (facts.applyTo e).bare = e.bare := by
  show (facts.headers.foldl Endpoint.addHeader _).refresh.bare = e.bare
  -- Headers are added one by one, but only to the list of headers.
  rw [Endpoint.foldl_addHeader]
  rfl

/-- The visit with bare endpoints. -/
def Visit.bare (v : Visit) : Visit := { v with result := v.result.map Outline.bare }

/-- `outline` of a `bare` visit is the `bare` outline. -/
private theorem Visit.outline_bare (v : Visit) : v.bare.outline = v.outline.bare := by
  obtain ⟨path, result⟩ := v
  cases result with
  | error fault => rfl
  | ok o => rfl

namespace Survey

variable {s t : Survey} {o o' : Outline}

/-! ## Without what requests carry -/

/-- The survey with bare endpoints. -/
def bare (s : Survey) : Survey := { s with visits := s.visits.map Visit.bare }

/-- `outlines` of a `bare` survey are the `bare` outlines. -/
private theorem outlines_bare (s : Survey) : s.bare.outlines = s.outlines.map Outline.bare := by
  rw [outlines, bare, List.map_map, outlines, List.map_map]
  exact List.map_congr_left fun v _ => v.outline_bare

/-- `outline?` of a `bare` survey gives the `bare` outline. -/
private theorem outline?_bare (s : Survey) (p : Path) :
    s.bare.outline? p = (s.outline? p).map Outline.bare := by
  rw [outline?, bare, List.find?_map, Option.map_map, outline?, Option.map_map]
  -- The place of a visit is the same, so the same visit is found.
  have hpath : (fun v : Visit => v.path.same p) ∘ Visit.bare = fun v => v.path.same p := rfl
  have houtline : (fun v : Visit => v.outline) ∘ Visit.bare = Outline.bare ∘ fun v => v.outline :=
    funext Visit.outline_bare
  rw [hpath, houtline]

/-- `foundAt?` gives the same in a `bare` survey, for what can be seen without endpoints. -/
private theorem foundAt?_bare (s : Survey) (p : Path) {look? : Outline → Option Syntax.Span}
    (hlook : ∀ o, look? o.bare = look? o) : s.bare.foundAt? p look? = s.foundAt? p look? := by
  rw [foundAt?, foundAt?, outline?_bare]
  cases s.outline? p with
  | none => rfl
  | some target =>
    rw [Option.map_some, Option.bind_some, Option.bind_some, hlook]
    rfl

/-- `ExportsAlike` holds of surveys that are the same when `bare`. -/
private theorem exportsAlike_of_bare (h : t.bare = s.bare) : ExportsAlike s t where
  function p binding := by
    rw [← foundAt?_bare t p fun _ => rfl, h, foundAt?_bare s p fun _ => rfl]
  member p property binding := by
    rw [← foundAt?_bare t p fun _ => rfl, h, foundAt?_bare s p fun _ => rfl]

/-- `ScopeAlike` holds of outlines that are the same when `bare`. -/
private theorem scopeAlike_of_bare (h : o'.bare = o.bare) : ScopeAlike o o' where
  source? := (congrArg Outline.source? h :)
  imports := (congrArg Outline.imports h :)
  functions := (congrArg Outline.functions h :)
  vars := (congrArg Outline.vars h :)

/-- `facts?` of a route are the same before and after other handlers have been read. -/
theorem facts?_of_bare (h : t.bare = s.bare) (ho : o'.bare = o.bare) {r r' : Route}
    (hr : r'.bare = r.bare) :
    t.facts? o' r' = s.facts? o r := by
  have hhandlers : r'.handlers = r.handlers := (congrArg Route.handlers hr :)
  exact facts?_congr (exportsAlike_of_bare h) (scopeAlike_of_bare ho) hhandlers

/-! ## With what handlers read -/

/-- `inferRoute` changes the endpoint of the route, if anything. -/
private theorem inferRoute_eq (s : Survey) (o : Outline) (r : Route) :
    s.inferRoute o r =
      { r with endpoint := ((s.facts? o r).map (·.applyTo r.endpoint)).getD r.endpoint } := by
  unfold inferRoute
  cases s.facts? o r <;> rfl

/-- `inferRoute` changes neither method nor URL. -/
private theorem bare_inferRoute (s : Survey) (o : Outline) (r : Route) :
    (s.inferRoute o r).bare = r.bare := by
  unfold inferRoute
  cases s.facts? o r with
  | none => rfl
  | some facts =>
    show ({ r with endpoint := (facts.applyTo r.endpoint).bare } : Route) = r.bare
    rw [facts.bare_applyTo]
    rfl

/-- `withFacts` changes only what requests carry. -/
private theorem bare_withFacts (s : Survey) (o : Outline) : (s.withFacts o).bare = o.bare := by
  have hroutes : (o.routes.map (s.inferRoute o)).map Route.bare = o.routes.map Route.bare := by
    rw [List.map_map]
    exact List.map_congr_left fun r _ => s.bare_inferRoute o r
  rw [Outline.bare, withFacts, hroutes]
  rfl

/-- The survey with what the handlers of all routes read. -/
def merged (s : Survey) : Survey :=
  { s with visits := s.visits.map fun v => { v with result := v.result.map s.withFacts } }

/-- `merged` has the outlines that `inferred` gives. -/
private theorem outlines_merged (s : Survey) : s.merged.outlines = s.inferred := by
  rw [inferred_eq_map_withFacts, outlines, merged, List.map_map, outlines, List.map_map]
  refine List.map_congr_left fun v _ => ?_
  obtain ⟨path, result⟩ := v
  cases result with
  | error fault => rfl
  | ok o => rfl

/-- `merged` changes only what requests carry. -/
theorem bare_merged (s : Survey) : s.merged.bare = s.bare := by
  -- A file that could not be read has no routes, so nothing is merged into it.
  have hvisit (v : Visit) : Visit.bare { v with result := v.result.map s.withFacts } = v.bare := by
    obtain ⟨path, result⟩ := v
    cases result with
    | error fault => rfl
    | ok o =>
      show (⟨path, .ok (s.withFacts o).bare⟩ : Visit) = ⟨path, .ok o.bare⟩
      rw [bare_withFacts]
  rw [bare, merged, List.map_map, bare]
  simp only [Function.comp_def, hvisit]

/-- Outlines at the same place in two surveys that are the same when `bare`, and routes at the same
place in them, are the same when `bare`. -/
private theorem bare_of_getElem? (h : t.bare = s.bare) {i k : Nat} {r r' : Route}
    (ho : s.outlines[i]? = some o) (ho' : t.outlines[i]? = some o') (hr : o.routes[k]? = some r)
    (hr' : o'.routes[k]? = some r') :
    o'.bare = o.bare ∧ r'.bare = r.bare := by
  have houtlines : t.outlines.map Outline.bare = s.outlines.map Outline.bare := by
    rw [← outlines_bare, ← outlines_bare, h]
  -- Equal lists have equal members at each place, first of outlines, then of routes.
  have hobare : o'.bare = o.bare := by
    have hi := congrArg (·[i]?) houtlines
    simpa [ho, ho'] using hi
  have hroutes : o'.routes.map Route.bare = o.routes.map Route.bare :=
    congrArg Outline.routes hobare
  have hk := congrArg (·[k]?) hroutes
  exact ⟨hobare, by simpa [hr, hr'] using hk⟩

/-- `merged` changes which endpoints there are in no survey: the catalogue has the same keys in the
same order with and without what handlers read, and all that changes in the survey is what the
requests of routes carry. What a route gets is merged from what its handler reads, and `facts?`
finds that out alike in any survey that differs only in what requests carry, so with any of the
routes seen to already. -/
theorem merged_keeps_keys (s : Survey) :
    s.merged.outlines = s.inferred ∧
    (Catalogue.ofOutlines s.inferred).map Endpoint.key =
      (Catalogue.ofOutlines s.outlines).map Endpoint.key ∧
    s.merged.bare = s.bare ∧
    ∀ (i k : Nat) (o : Outline) (r : Route), s.outlines[i]? = some o → o.routes[k]? = some r →
      (∃ o', s.inferred[i]? = some o' ∧ o'.routes[k]? =
        some { r with endpoint := ((s.facts? o r).map (·.applyTo r.endpoint)).getD r.endpoint }) ∧
      ∀ (t : Survey) (o' : Outline) (r' : Route), t.bare = s.bare → t.outlines[i]? = some o' →
        o'.routes[k]? = some r' → t.facts? o' r' = s.facts? o r := by
  have houtlines : s.inferred.map Outline.bare = s.outlines.map Outline.bare := by
    rw [← outlines_merged, ← outlines_bare, bare_merged, outlines_bare]
  refine ⟨s.outlines_merged, Catalogue.keys_ofOutlines_congr houtlines, s.bare_merged, ?_⟩
  intro i k o r ho hr
  -- The route at a place is found at the same place afterwards, with what its handler reads.
  refine ⟨⟨s.withFacts o, ?_, ?_⟩, ?_⟩
  · rw [inferred_eq_map_withFacts, List.getElem?_map, ho, Option.map_some]
  · rw [withFacts, List.getElem?_map, hr, Option.map_some, inferRoute_eq]
  · intro t o' r' ht ho' hr'
    obtain ⟨hobare, hrbare⟩ := bare_of_getElem? ht ho ho' hr hr'
    exact facts?_of_bare ht hobare hrbare

/-- The route of `searchFile`, whose handler reads one field of the query, gets that field and keeps
its key, and the field is found again if its handler is read once more. -/
theorem searchFile_merged_keeps_keys :
    let s := explore searchFile 1 3 [⟨"/r.js"⟩]
    ∃ o r, s.outlines[0]? = some o ∧ o.routes[0]? = some r ∧ r.endpoint = .declare .get "/u/:id" ∧
      (∃ o', s.inferred[0]? = some o' ∧ (o'.routes[0]?).map (·.endpoint) = some searchEndpoint) ∧
      (∀ o' r', s.merged.outlines[0]? = some o' → o'.routes[0]? = some r' →
        s.merged.facts? o' r' = s.facts? o r) ∧
      (Catalogue.ofOutlines s.inferred).map Endpoint.key =
        (Catalogue.ofOutlines s.outlines).map Endpoint.key := by
  intro s
  obtain ⟨_, hkeys, hbare, hroutes⟩ := merged_keeps_keys s
  have hendpoint : ((s.outlines[0]?.bind (·.routes[0]?)).map (·.endpoint)) =
      some (.declare .get "/u/:id") := by
    decide +kernel
  obtain ⟨r, hr, hdeclared⟩ := Option.map_eq_some_iff.mp hendpoint
  obtain ⟨o, ho, hr⟩ := Option.bind_eq_some_iff.mp hr
  obtain ⟨⟨o', ho', hr'⟩, hfacts⟩ := hroutes 0 0 o r ho hr
  have hread : ((s.inferred[0]?.bind (·.routes[0]?)).map (·.endpoint)) = some searchEndpoint := by
    decide +kernel
  rw [ho', Option.bind_some] at hread
  exact ⟨o, r, ho, hr, hdeclared, ⟨o', ho', hread⟩, fun o' r' => hfacts s.merged o' r' hbare, hkeys⟩

end Survey

end RouteAtlas
