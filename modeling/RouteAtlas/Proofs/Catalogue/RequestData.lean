import RouteAtlas.Proofs.Catalogue.Selection

/-!
# What requests carry does not decide what is shown

An endpoint says what its requests carry: headers, parameters, a query and a body. Which endpoints a
catalogue shows, and in which order, depends on methods and URLs only. To say so, everything else is
taken off the endpoints, and each stage of making a catalogue is shown to come to the same without
it.

## Key results

- `map_bare_forms`: the forms of routes, with methods and URLs only
- `keys_ofOutlines_congr`: files that differ in what requests carry have catalogues with the same
  keys
-/

namespace RouteAtlas

/-! ## Without what requests carry -/

/-- The endpoint with its method and its URL only. -/
def Endpoint.bare (e : Endpoint) : Endpoint := { method := e.method, url := e.url }

@[simp] theorem Endpoint.key_bare (e : Endpoint) : e.bare.key = e.key := rfl

/-- The router with bare endpoints. -/
def Router.bare (r : Router) : Router := { r with routes := r.routes.map Endpoint.bare }

/-- The form with a bare endpoint. -/
def RouteForm.bare (f : RouteForm) : RouteForm := { f with endpoint := f.endpoint.bare }

/-- The route with a bare endpoint. -/
def Route.bare (r : Route) : Route := { r with endpoint := r.endpoint.bare }

/-- The outline with bare endpoints. -/
def Outline.bare (o : Outline) : Outline := { o with routes := o.routes.map Route.bare }

/-- `ofOutlines` numbers files alike with and without what requests carry. -/
private theorem Router.map_bare_ofOutlines (files : List Outline) :
    (ofOutlines files).map bare = ofOutlines (files.map Outline.bare) := by
  -- Files are found by their paths, which stay.
  have hnumber (p : Path) : (files.map Outline.bare).findIdx? (·.path.same p) =
      files.findIdx? (·.path.same p) := by
    rw [List.findIdx?_map]
    rfl
  unfold ofOutlines
  rw [List.map_map, List.map_map]
  refine List.map_congr_left fun o _ => ?_
  simp [bare, Outline.bare, Route.bare, hnumber]

namespace Catalogue

/-! ## Forms -/

/-- `router` of bare routers is the bare router. -/
private theorem router_map_bare (routers : List Router) (i : Nat) :
    router (routers.map Router.bare) i = (router routers i).bare := by
  unfold router
  rw [List.getElem?_map]
  cases routers[i]? <;> rfl

/-- `zipIdx` of the routes of a router, put in some form, gives forms that are alike with and
without what requests carry. -/
private theorem map_bare_zipIdx (routes : List Endpoint) (form : Endpoint → Nat → RouteForm)
    (hform : ∀ e k, (form e.bare k).bare = (form e k).bare) :
    ((routes.map Endpoint.bare).zipIdx.map fun (e, k) => form e k).map RouteForm.bare =
      (routes.zipIdx.map fun (e, k) => form e k).map RouteForm.bare := by
  rw [List.zipIdx_map, List.map_map, List.map_map, List.map_map]
  exact List.map_congr_left fun ek _ => hform ek.1 ek.2

/-- `directForms` are alike with and without what requests carry. -/
private theorem map_bare_directForms (routers : List Router) :
    (directForms (routers.map Router.bare)).map RouteForm.bare =
      (directForms routers).map RouteForm.bare := by
  unfold directForms
  rw [List.zipIdx_map, List.flatMap_map, List.map_flatMap, List.map_flatMap]
  congr 1
  funext ri
  exact map_bare_zipIdx ri.1.routes (fun e k => ⟨e, (ri.2, k), []⟩) fun _ _ => rfl

/-- `formsBelow` are alike with and without what requests carry. -/
private theorem map_bare_formsBelow (routers : List Router) (i : Nat) (front : String)
    (chain : List (Nat × Nat)) :
    (formsBelow (routers.map Router.bare) i front chain).map RouteForm.bare =
      (formsBelow routers i front chain).map RouteForm.bare := by
  unfold formsBelow
  rw [router_map_bare]
  exact map_bare_zipIdx (router routers i).routes
    (fun e k => ⟨e.relocate (Url.join front e.url), (i, k), chain⟩) fun _ _ => rfl

/-- `expand` gives forms that are alike with and without what requests carry. -/
private theorem map_bare_expand (routers : List Router) (depth i : Nat) (front : String)
    (chain : List (Nat × Nat)) (visiting : List Nat) :
    (expand (routers.map Router.bare) depth i front chain visiting).map RouteForm.bare =
      (expand routers depth i front chain visiting).map RouteForm.bare := by
  induction depth generalizing i front chain visiting with
  | zero => rfl
  | succ depth ih =>
    rw [expand, expand, List.map_append, List.map_append, map_bare_formsBelow, router_map_bare,
      List.map_flatMap, List.map_flatMap]
    congr 1
    -- The mounts are the same, and below each of them the forms are alike.
    show (router routers i).mounts.zipIdx.flatMap _ = _
    congr 1
    funext mount
    obtain ⟨⟨next, target?⟩, m⟩ := mount
    cases target? with
    | none => rfl
    | some target =>
      by_cases hvisiting : target ∈ visiting
      · simp only [hvisiting, if_true]
      · simp only [hvisiting, if_false]
        exact ih target (Url.join front next) ((i, m) :: chain) (target :: visiting)

/-- `mountedForms` are alike with and without what requests carry. -/
private theorem map_bare_mountedForms (routers : List Router) :
    (mountedForms (routers.map Router.bare)).map RouteForm.bare =
      (mountedForms routers).map RouteForm.bare := by
  unfold mountedForms
  rw [List.zipIdx_map, List.flatMap_map, List.map_flatMap, List.map_flatMap, List.length_map]
  congr 1
  funext ri
  rw [List.map_flatMap, List.map_flatMap]
  show ri.1.mounts.zipIdx.flatMap _ = _
  congr 1
  funext mount
  obtain ⟨⟨front, target?⟩, m⟩ := mount
  cases target? with
  | none => rfl
  | some target => exact map_bare_expand routers routers.length target front _ _

/-- `forms` have the same sources, chains, methods and URLs, whatever requests carry. -/
theorem map_bare_forms (routers : List Router) :
    (forms (routers.map Router.bare)).map RouteForm.bare = (forms routers).map RouteForm.bare := by
  rw [forms, forms, List.map_append, List.map_append, map_bare_directForms, map_bare_mountedForms]

/-! ## The choice of forms -/

/-- `fresh` leaves the same forms, whatever requests carry. -/
private theorem map_bare_fresh (seen : Std.HashSet (Method × String)) (fs : List RouteForm) :
    (fresh seen fs).map RouteForm.bare = fresh seen (fs.map RouteForm.bare) := by
  induction fs generalizing seen with
  | nil => rfl
  | cons f rest ih =>
    rw [List.map_cons, fresh, fresh]
    -- A form and its bare form have the same chain and the same key.
    show _ = if f.chain.isEmpty || !seen.contains f.endpoint.key then
      f.bare :: fresh (seen.insert f.endpoint.key) (rest.map RouteForm.bare)
      else fresh seen (rest.map RouteForm.bare)
    split
    · rw [List.map_cons, ih]
    · exact ih seen

/-- `distinct` leaves the same endpoints, whatever requests carry. -/
private theorem map_bare_distinct (seen : Std.HashSet (Method × String)) (es : List Endpoint) :
    (distinct seen es).map Endpoint.bare = distinct seen (es.map Endpoint.bare) := by
  induction es generalizing seen with
  | nil => rfl
  | cons e rest ih =>
    rw [List.map_cons, distinct, distinct, Endpoint.key_bare]
    split
    · exact ih seen
    · rw [List.map_cons, ih]

/-- The endpoints that a catalogue shows of some forms. -/
def shown (all : List RouteForm) : List Endpoint :=
  distinct ∅ (((fresh ∅ all).filter fun f => !all.any (isContinuedBy f)).map (·.endpoint))

/-- `ofRouters` are the endpoints `shown` of the forms. -/
private theorem ofRouters_eq_shown (routers : List Router) :
    ofRouters routers = shown (forms routers) := by
  -- The table by route is only a way to look faster among all forms.
  have hcontinued (f : RouteForm) : ((formsBySource (forms routers)).getD f.source []).any
      (isContinuedBy f) =
        (forms routers).any (isContinuedBy f) := by
    rw [Bool.eq_iff_iff, ← not_iff_not, Bool.not_eq_true, any_isContinuedBy_eq_false,
      Bool.not_eq_true, List.any_eq_false]
    simp [FullyMounted]
  simp only [ofRouters, shown, hcontinued]

/-- `shown` are the same endpoints, whatever requests carry. -/
private theorem map_bare_shown (all : List RouteForm) :
    (shown all).map Endpoint.bare = shown (all.map RouteForm.bare) := by
  have hcontinued (f : RouteForm) : (all.map RouteForm.bare).any (isContinuedBy f.bare) =
      all.any (isContinuedBy f) := by
    rw [List.any_map]
    rfl
  unfold shown
  rw [map_bare_distinct, ← map_bare_fresh, List.filter_map, List.map_map, List.map_map]
  simp only [Function.comp_def, hcontinued]
  rfl

/-- `ofOutlines` has the same keys in the same order for all files that declare the same methods and
URLs and mount the same routers, whatever is known of the requests. -/
theorem keys_ofOutlines_congr {files files' : List Outline}
    (h : files'.map Outline.bare = files.map Outline.bare) :
    (ofOutlines files').map Endpoint.key = (ofOutlines files).map Endpoint.key := by
  -- Stage by stage, the endpoints without what requests carry are made from such files.
  have hbare (files : List Outline) : (ofOutlines files).map Endpoint.bare =
      shown ((forms (Router.ofOutlines (files.map Outline.bare))).map RouteForm.bare) := by
    rw [ofOutlines, ofRouters_eq_shown, map_bare_shown, ← Router.map_bare_ofOutlines,
      map_bare_forms]
  have hkeys (es : List Endpoint) : es.map Endpoint.key =
      (es.map Endpoint.bare).map Endpoint.key := by
    rw [List.map_map]
    rfl
  rw [hkeys, hkeys (ofOutlines files), hbare, hbare, h]

end Catalogue

end RouteAtlas
