import RouteAtlas.Proofs.Catalogue.Endpoints
import RouteAtlas.Proofs.Module.Routes
import RouteAtlas.Proofs.Request.Fields
import RouteAtlas.Proofs.Survey.Closure

/-!
# Catalogues of well-formed endpoints

The endpoint of a route is declared, takes on what its handler reads, and is moved below chains of
mounts. It is well formed at every stage, so all endpoints of a catalogue are.

## Key results

- `Catalogue.wellFormed_of_mem_ofOutlines`: well-formed routes make a catalogue of well-formed
  endpoints
- `Survey.wellFormed_of_mem_inferred`: routes stay well formed when their handlers are looked at
- the endpoints that a scan finds are well formed
-/

namespace RouteAtlas

/-! ## Below mounts -/

/-- `join` gives no empty URL. -/
private theorem Url.join_ne_empty (front : String) {url : String} (hurl : url ≠ "") :
    Url.join front url ≠ "" := by
  have hchars : joinChars front.toList url.toList ≠ [] := by
    unfold joinChars
    split
    · simpa using hurl
    · -- A prefix that is not empty starts with a slash after joining.
      have hslash : ∀ cs, withLeadingSlash cs ≠ [] := by
        intro cs
        unfold withLeadingSlash
        split <;> exact List.cons_ne_nil _ _
      split
      · exact hslash _
      · exact List.append_ne_nil_of_left_ne_nil (hslash _) _
  intro hempty
  apply hchars
  rw [← String.toList_ofList (l := joinChars _ _)]
  exact congrArg String.toList hempty

namespace Catalogue

/-- `mounted` keeps an endpoint `WellFormed`. -/
private theorem mounted_wellFormed {routers : List Router} {e : Endpoint} (h : e.WellFormed)
    (chain : List (Nat × Nat)) : (mounted routers chain e).WellFormed := by
  unfold mounted
  split
  · exact h
  · rename_i hne
    apply Endpoint.relocate_wellFormed h
    rw [chainUrl_of_ne_nil hne]
    exact Url.join_ne_empty _ h.url

/-- `ofOutlines` makes `WellFormed` endpoints of well-formed routes. -/
private theorem wellFormed_of_mem_ofOutlines {files : List Outline}
    (h : ∀ o ∈ files, ∀ r ∈ o.routes, r.endpoint.WellFormed) :
    ∀ e ∈ ofOutlines files, e.WellFormed := by
  intro e he
  obtain ⟨f, ⟨_, declared, hroute, hend⟩, _, rfl⟩ := exists_form_of_mem_ofRouters he
  obtain ⟨o, route, ho, hr, rfl⟩ := route_ofOutlines.mp hroute
  rw [hend]
  exact mounted_wellFormed (h o (List.mem_of_getElem? ho) route (List.mem_of_getElem? hr)) _

end Catalogue

/-! ## With what handlers read -/

namespace Survey

variable {s : Survey}

/-- `facts?` of a route are `Flagged`. -/
private theorem flagged_facts? {file : Outline} {route : Route} {facts : Facts}
    (h : s.facts? file route = some facts) :
    facts.Flagged := by
  unfold facts? at h
  simp only [Option.bind_eq_bind, Option.bind_eq_some_iff] at h
  -- The facts are those of the function that the handler was located at.
  obtain ⟨_, _, _, _, function, _, hfacts⟩ := h
  obtain rfl := Option.some.inj hfacts
  exact function.flagged_handlerFacts

/-- `inferRoute` keeps the endpoint of a route `WellFormed`. -/
private theorem wellFormed_inferRoute {route : Route} (file : Outline)
    (h : route.endpoint.WellFormed) :
    (s.inferRoute file route).endpoint.WellFormed := by
  unfold inferRoute
  cases hfacts : s.facts? file route with
  | none => exact h
  | some facts => exact Facts.applyTo_wellFormed (flagged_facts? hfacts) h

/-- `inferred` has `WellFormed` endpoints if the outlines have. -/
private theorem wellFormed_of_mem_inferred
    (h : ∀ o ∈ s.outlines, ∀ r ∈ o.routes, r.endpoint.WellFormed) :
    ∀ o ∈ s.inferred, ∀ r ∈ o.routes, r.endpoint.WellFormed := by
  intro o ho r hr
  obtain ⟨file, hfile, rfl⟩ := List.mem_map.mp ho
  obtain ⟨route, hroute, rfl⟩ := List.mem_map.mp hr
  exact wellFormed_inferRoute file (h file hfile route hroute)

/-- Every outline is that of some source. -/
def OutlinesSources (load : Path → Except FileFault Outline) : Prop :=
  ∀ p o, load p = .ok o → ∃ resolve source, o = Outline.ofSource resolve source

/-- `outlines` of a `Sound` survey have `WellFormed` endpoints. -/
theorem Sound.routes_wellFormed {load : Path → Except FileFault Outline} {entries : List Path}
    (hload : OutlinesSources load) (hs : Sound load entries s) :
    ∀ o ∈ s.outlines, ∀ r ∈ o.routes, r.endpoint.WellFormed := by
  intro o ho r hr
  obtain ⟨v, hv, rfl⟩ := List.mem_map.mp ho
  unfold Visit.outline at hr
  cases hresult : v.result with
  | error fault =>
    rw [hresult] at hr
    exact absurd hr List.not_mem_nil
  | ok o =>
    rw [hresult] at hr
    obtain ⟨resolve, source, rfl⟩ := hload v.path o ((hs.loaded v hv).symm.trans hresult)
    exact Outline.routes_wellFormed hr

/-- `explore` leads to a catalogue of `WellFormed` endpoints. -/
private theorem wellFormed_of_mem_catalogue {load : Path → Except FileFault Outline}
    (hload : OutlinesSources load) (maxDepth visits : Nat) (entries : List Path) :
    ∀ e ∈ Catalogue.ofOutlines (explore load maxDepth visits entries).inferred, e.WellFormed :=
  Catalogue.wellFormed_of_mem_ofOutlines
    (wellFormed_of_mem_inferred (explore_sound.routes_wellFormed hload))

end Survey

/-! ## Of a project -/

/-- `ofFile` gives outlines of sources. -/
theorem Outline.ofFile_outlinesSources (disk : Disk) (root : Path) :
    Survey.OutlinesSources (Outline.ofFile disk root) := by
  intro p o ho
  obtain ⟨source, _, rfl⟩ := Outline.ofFile_eq_ok ho
  exact ⟨_, source, rfl⟩

/-- `scan` finds endpoints that are `WellFormed`, in any project and with any settings. So does a
survey of any files, whatever their trees are. -/
theorem Project.scan_endpoints_wellFormed :
    (∀ (project : Project) (disk : Disk) (r : ScanResult), project.scan disk = .ok r →
      ∀ e ∈ r.endpoints, e.WellFormed) ∧
    ∀ load : Path → Except FileFault Outline,
      (∀ p o, load p = .ok o → ∃ resolve source, o = Outline.ofSource resolve source) →
      ∀ (maxDepth visits : Nat) (entries : List Path),
        ∀ e ∈ Catalogue.ofOutlines (Survey.explore load maxDepth visits entries).inferred,
          e.WellFormed := by
  refine ⟨fun project disk r hscan => ?_, fun load hload =>
    Survey.wellFormed_of_mem_catalogue hload⟩
  unfold scan at hscan
  cases hentries : project.entries disk with
  | error failure =>
    rw [hentries] at hscan
    exact nomatch hscan
  | ok entries =>
    rw [hentries] at hscan
    -- Without entry points there is nothing to survey, and nothing is found.
    cases entries with
    | nil =>
      obtain rfl : {} = r := Except.ok.inj hscan
      exact fun e he => absurd he List.not_mem_nil
    | cons entry rest =>
      obtain rfl : project.scanFrom disk (entry :: rest) = r := Except.ok.inj hscan
      rw [scanFrom, Survey.ofEntries_eq_explore]
      exact Survey.wellFormed_of_mem_catalogue (Outline.ofFile_outlinesSources disk project.root)
        _ _ _

/-! ## A file with a route -/

namespace Syntax

/-- A named node between two bytes of the first line. -/
def Node.onLine (kind : Kind) (role : Option Role) (start stop : Nat) (text : String)
    (children : List Node := []) : Node :=
  .mk ⟨kind, true, role, ⟨start, stop, 1⟩, text⟩ children

/-- The tree of a file that registers one route, with a handler that reads one field of the
query. -/
def searchTree : Node :=
  let handler := Node.onLine .arrowFunction none 16 33 "q => q.query.page"
    [.onLine .identifier (some .parameter) 16 17 "q",
     .onLine .memberExpression (some .body) 21 33 "q.query.page"
      [.onLine .memberExpression (some .object) 21 28 "q.query"
        [.onLine .identifier (some .object) 21 22 "q",
         .onLine .propertyIdentifier (some .property) 23 28 "query"],
       .onLine .propertyIdentifier (some .property) 29 33 "page"]]
  .onLine .callExpression none 0 34 "r.get('/u/:id', q => q.query.page)"
    [.onLine .memberExpression (some .function) 0 5 "r.get"
      [.onLine .identifier (some .object) 0 1 "r",
       .onLine .propertyIdentifier (some .property) 2 5 "get"],
     .onLine .arguments (some .arguments) 5 34 "('/u/:id', q => q.query.page)"
      [.onLine .string none 6 14 "'/u/:id'", handler]]

end Syntax

namespace Survey

/-- The outline of that file, and of no other. -/
def searchFile (p : Path) : Except FileFault Outline :=
  if p.text = "/r.js" then
    .ok (Outline.ofSource (fun _ => none)
      ⟨⟨"/r.js"⟩, .javaScript, "r.get('/u/:id', q => q.query.page)", Syntax.searchTree⟩)
  else .error (.read .missing)

/-- The endpoint of its route: it has the parameter of its URL and the field that the handler
reads. -/
def searchEndpoint : Endpoint where
  method := .get
  url := "/u/:id"
  dataSource := .query
  params := [⟨"id", .string, true⟩]
  query := [⟨"page", .string, false⟩]

/-- `searchEndpoint` is in the catalogue of `searchFile`. -/
private theorem searchEndpoint_mem_catalogue :
    searchEndpoint ∈ Catalogue.ofOutlines (explore searchFile 1 3 [⟨"/r.js"⟩]).inferred := by
  have hrouters : Router.ofOutlines (explore searchFile 1 3 [⟨"/r.js"⟩]).inferred =
      [{ routes := [searchEndpoint] }] := by
    decide +kernel
  have hkey : searchEndpoint.key ∈ (Catalogue.ofRouters [{ routes := [searchEndpoint] }]).map
      Endpoint.key := by
    rw [Catalogue.key_mem_ofRouters_iff_exists_form]
    decide +kernel
  -- There is no other form of a route that the key could be of.
  have hforms : ∀ f ∈ Catalogue.forms [{ routes := [searchEndpoint] }], f.endpoint =
      searchEndpoint := by
    decide +kernel
  rw [Catalogue.ofOutlines, hrouters]
  obtain ⟨e, he, _⟩ := List.mem_map.mp hkey
  obtain ⟨f, hform, _, rfl⟩ := Catalogue.exists_form_of_mem_ofRouters he
  rw [hforms f (Catalogue.mem_forms.mpr hform)] at he
  exact he

/-- The catalogue of `searchFile` has a well-formed endpoint, and a project can be scanned. -/
theorem searchFile_endpoints_wellFormed :
    (∃ e ∈ Catalogue.ofOutlines (explore searchFile 1 3 [⟨"/r.js"⟩]).inferred,
      e.key = (.get, "/u/:id") ∧ e.WellFormed) ∧
    ∃ r, Project.scan ⟨⟨"/app"⟩, { entry? := some "server.js", heuristics := false }⟩
      Disk.mutualImports = .ok r ∧ ∀ e ∈ r.endpoints, e.WellFormed := by
  constructor
  · refine ⟨searchEndpoint, searchEndpoint_mem_catalogue, rfl,
      Project.scan_endpoints_wellFormed.2 searchFile ?_ 1 3 _ _ searchEndpoint_mem_catalogue⟩
    intro p o ho
    unfold searchFile at ho
    split at ho
    · exact ⟨_, _, (Except.ok.inj ho).symm⟩
    · exact nomatch ho
  · have hentries : Project.entries ⟨⟨"/app"⟩, { entry? := some "server.js", heuristics := false }⟩
        Disk.mutualImports = .ok [⟨"/app/server.js"⟩] := by
      decide +kernel
    obtain ⟨r, hscan, _⟩ := Project.scan_of_entries hentries
    exact ⟨r, hscan, Project.scan_endpoints_wellFormed.1 _ _ r hscan⟩

end Survey

end RouteAtlas
