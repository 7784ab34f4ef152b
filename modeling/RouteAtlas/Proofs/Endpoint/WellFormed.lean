import RouteAtlas.Proofs.Endpoint.Seeding

/-!
# Well-formed endpoints

An endpoint is well formed if it says nothing twice, lists all parameters of its URL, and has flags
and a data source that agree with where its fields are. Endpoints are made in three ways, by
declaring a route, by merging what a handler reads, and by moving a route below a mount. Each of
them leads to well-formed endpoints only.

## Key results

- `declare_wellFormed`: endpoints as they are declared
- `Facts.applyTo_wellFormed`: merging facts keeps an endpoint well formed, whatever the facts repeat
- `relocate_wellFormed`: so does moving it to another URL
-/

namespace RouteAtlas

/-! ## Lists of fields -/

namespace Field

variable {required : Bool} {fields more : List Field} {f : Field} {name : String}

/-- The fields have different names, and they all have to be sent or none has to. -/
structure Proper (required : Bool) (fields : List Field) : Prop where
  distinct : (fields.map (·.name)).Nodup
  uniform : ∀ f ∈ fields, f.required = required

theorem listed_iff : Listed name fields ↔ name ∈ fields.map (·.name) := List.mem_map.symm

private theorem proper_nil : Proper required [] := ⟨List.nodup_nil, by simp⟩

/-- A field with a new name and the right flag may be appended. -/
theorem Proper.append (h : Proper required fields) (hnew : ¬Listed f.name fields)
    (hf : f.required = required) : Proper required (fields ++ [f]) := by
  rw [listed_iff] at hnew
  constructor
  · -- The names of the longer list are the old ones and one that is not among them.
    rw [List.map_append, List.map_singleton, ← List.concat_eq_append]
    exact h.distinct.concat hnew
  · intro g hg
    rcases List.mem_append.mp hg with hold | hlast
    · exact h.uniform g hold
    · obtain rfl := List.mem_singleton.mp hlast
      exact hf

/-- What `change` leaves alone, `updateFirst` leaves alone in the whole list. -/
private theorem map_updateFirst {α : Type} (view : Field → α) {change : Field → Field}
    (hview : ∀ f, view (change f) = view f) : (updateFirst name change fields).map view =
    fields.map view := by
  induction fields with
  | nil => rfl
  | cons f rest ih =>
    unfold updateFirst
    split
    · rw [List.map_cons, List.map_cons, hview]
    · rw [List.map_cons, List.map_cons, ih]

/-- `updateFirst` keeps a flag that all fields have, if `change` keeps it. -/
theorem required_updateFirst {change : Field → Field}
    (hchange : ∀ f, (change f).required = f.required) (h : ∀ f ∈ fields, f.required = required) :
    ∀ f ∈ updateFirst name change fields, f.required = required := by
  -- The flags of the changed list are those of the old one, so a field has a partner with its flag.
  have hview : (updateFirst name change fields).map (·.required) = fields.map (·.required) :=
    map_updateFirst (·.required) hchange
  intro f hf
  have hmem : f.required ∈ fields.map (·.required) := hview ▸ List.mem_map_of_mem hf
  obtain ⟨g, hg, heq⟩ := List.mem_map.mp hmem
  rw [← heq]
  exact h g hg

/-- `updateFirst` keeps fields `Proper`, if `change` keeps name and flag. -/
theorem Proper.updateFirst {change : Field → Field} (h : Proper required fields)
    (hname : ∀ f, (change f).name = f.name) (hrequired : ∀ f, (change f).required = f.required) :
    Proper required (updateFirst name change fields) :=
  ⟨(map_updateFirst _ hname).symm ▸ h.distinct, required_updateFirst hrequired h.uniform⟩

/-- `addAbsent` keeps fields `Proper`. -/
theorem Proper.addAbsent (h : Proper required fields) (hf : f.required = required) :
    Proper required (addAbsent fields f) := by
  unfold Field.addAbsent
  split
  · exact h
  · rename_i hnew
    exact h.append hnew hf

/-- `mergeAbsent` keeps fields `Proper`, whatever names the new ones repeat. -/
theorem Proper.mergeAbsent (h : Proper required fields)
    (hmore : ∀ f ∈ more, f.required = required) :
    Proper required (mergeAbsent fields more) := by
  unfold Field.mergeAbsent
  -- Each field is judged by the list as it is by then, which is `Proper` by the step before.
  induction more generalizing fields with
  | nil => exact h
  | cons f rest ih =>
    obtain ⟨hf, hrest⟩ := List.forall_mem_cons.mp hmore
    exact ih (h.addAbsent hf) hrest

/-- `Proper` fields have one field for each name that is listed. -/
private theorem Proper.filter_name (h : Proper required fields) (hname : Listed name fields) :
    ∃ f, fields.filter (·.name = name) = [f] ∧ f.required = required := by
  obtain ⟨f, hf, rfl⟩ := hname
  exact ⟨f, filter_key_eq_singleton h.distinct hf, h.uniform f hf⟩

end Field

/-! ## Endpoints -/

namespace Endpoint

variable {e : Endpoint}

/-- What holds of every endpoint of a catalogue. -/
structure WellFormed (e : Endpoint) : Prop where
  /-- Every parameter of the URL has one entry among the path parameters, and it has to be sent. -/
  urlParams : ∀ name ∈ Url.params e.url, ∃ f, e.params.filter (·.name = name) = [f] ∧
    f.required = true
  params : Field.Proper true e.params
  query : Field.Proper false e.query
  body : Field.Proper true e.body
  headers : e.headers.Nodup
  dataSource : e.dataSource =
    if e.body ≠ [] then .body
    else if e.query ≠ [] then .query
    else if e.params ≠ [] then .params
    else .none
  url : e.url ≠ ""

/-- A `WellFormed` endpoint lists the parameters of its URL. -/
theorem WellFormed.listed (h : e.WellFormed) :
    ∀ name ∈ Url.params e.url, Field.Listed name e.params := by
  intro name hname
  obtain ⟨f, hf, _⟩ := h.urlParams name hname
  have hmem : f ∈ e.params.filter (·.name = name) := hf ▸ List.mem_singleton_self f
  rw [List.mem_filter, decide_eq_true_eq] at hmem
  exact ⟨f, hmem⟩

/-- `refresh` sets the data source by the fields, so it is enough to look at the rest. -/
private theorem refresh_wellFormed (hlisted : ∀ name ∈ Url.params e.url, Field.Listed name e.params)
    (hparams : Field.Proper true e.params) (hquery : Field.Proper false e.query)
    (hbody : Field.Proper true e.body) (hheaders : e.headers.Nodup) (hurl : e.url ≠ "") :
    e.refresh.WellFormed where
  urlParams name hname := hparams.filter_name (hlisted name hname)
  params := hparams
  query := hquery
  body := hbody
  headers := hheaders
  dataSource := by simp [refresh, primarySource]
  url := hurl

/-! ## Declaring and moving -/

/-- `seedParams` lists all parameters of the URL. -/
private theorem listed_seedParams (e : Endpoint) :
    ∀ name ∈ Url.params e.url, Field.Listed name e.seedParams.params := by
  intro name hname
  show Field.Listed name (Field.mergeAbsent e.params ((Url.params e.url).map (⟨·, .string, true⟩)))
  rw [mergeAbsent_map .string true (nodup_urlParams e.url)]
  -- A name is listed from before, or seeding appends a field for it.
  by_cases hold : Field.Listed name e.params
  · obtain ⟨f, hf, hfname⟩ := hold
    exact ⟨f, List.mem_append_left _ hf, hfname⟩
  · exact ⟨⟨name, .string, true⟩, by simp [hname, hold], rfl⟩

/-- `seedParams` keeps path parameters `Proper`. -/
private theorem proper_seedParams (h : Field.Proper true e.params) :
    Field.Proper true e.seedParams.params :=
  h.mergeAbsent (by simp)

/-- `declare` gives a well-formed endpoint for every URL but the empty one. -/
theorem declare_wellFormed (method : Method) {url : String} (hurl : url ≠ "") :
    (declare method url).WellFormed :=
  refresh_wellFormed (listed_seedParams { method, url }) (proper_seedParams Field.proper_nil)
    Field.proper_nil Field.proper_nil List.nodup_nil hurl

/-- `relocate` keeps an endpoint well formed, unless the URL is the empty one. -/
theorem relocate_wellFormed (h : e.WellFormed) {url : String} (hurl : url ≠ "") :
    (e.relocate url).WellFormed :=
  refresh_wellFormed (listed_seedParams { e with url }) (proper_seedParams h.params) h.query h.body
    h.headers hurl

/-! ## Headers -/

/-- `addHeader` changes nothing but the headers. -/
theorem foldl_addHeader (names : List String) :
    names.foldl addHeader e = { e with headers := (names.foldl addHeader e).headers } := by
  induction names generalizing e with
  | nil => rfl
  | cons name rest ih =>
    rw [List.foldl_cons, ih]
    unfold addHeader
    split <;> rfl

/-- `addHeader` never lists a header twice. -/
private theorem nodup_headers_foldl_addHeader (names : List String) (h : e.headers.Nodup) :
    (names.foldl addHeader e).headers.Nodup := by
  induction names generalizing e with
  | nil => exact h
  | cons name rest ih =>
    apply ih
    unfold addHeader
    split
    · exact h
    · rename_i hnew
      show (e.headers ++ [name]).Nodup
      rw [← List.concat_eq_append]
      exact h.concat hnew

end Endpoint

/-! ## Merging facts -/

namespace Facts

open RouteAtlas.Field

variable {fields : List Field} {p : Field}

/-- `mergeParam` keeps path parameters `Proper`: it appends a new name or changes a type. -/
private theorem proper_mergeParam (h : Proper true fields) (hp : p.required = true) :
    Proper true (mergeParam fields p) := by
  unfold mergeParam
  -- A listed name gets a type or nothing, and an absent one is appended.
  split
  · split
    · exact h
    · exact h.updateFirst (fun _ => rfl) (fun _ => rfl)
  · rename_i hnew
    exact h.append hnew hp

/-- `mergeParam` removes no name. -/
private theorem listed_mergeParam {name : String} (h : Listed name fields) :
    Listed name (mergeParam fields p) := by
  unfold mergeParam
  split
  · split
    · exact h
    · -- A type that changes does not show in the names.
      rw [listed_iff] at h ⊢
      rw [map_updateFirst]
      · exact h
      · exact fun _ => rfl
  · obtain ⟨f, hf, hname⟩ := h
    exact ⟨f, List.mem_append_left _ hf, hname⟩

/-- Merging any number of path parameters keeps them `Proper`. -/
private theorem proper_foldl_mergeParam {more : List Field} (h : Proper true fields)
    (hmore : ∀ f ∈ more, f.required = true) : Proper true (more.foldl mergeParam fields) := by
  induction more generalizing fields with
  | nil => exact h
  | cons p rest ih =>
    obtain ⟨hp, hrest⟩ := List.forall_mem_cons.mp hmore
    exact ih (proper_mergeParam h hp) hrest

/-- Merging any number of path parameters removes no name. -/
private theorem listed_foldl_mergeParam {more : List Field} {name : String}
    (h : Listed name fields) :
    Listed name (more.foldl mergeParam fields) := by
  induction more generalizing fields with
  | nil => exact h
  | cons p rest ih => exact ih (listed_mergeParam h)

/-- Facts whose fields have the flags of the places they are in. -/
structure Flagged (facts : Facts) : Prop where
  params : ∀ f ∈ facts.params, f.required = true
  query : ∀ f ∈ facts.query, f.required = false
  body : ∀ f ∈ facts.body, f.required = true

/-- `applyTo` keeps an endpoint well formed. The facts may name fields and headers any number of
times. -/
theorem applyTo_wellFormed {facts : Facts} (hfacts : facts.Flagged) {e : Endpoint}
    (h : e.WellFormed) :
    (facts.applyTo e).WellFormed := by
  show (facts.headers.foldl Endpoint.addHeader _).refresh.WellFormed
  -- With the headers set apart, each list of fields is seen to be merged on its own.
  rw [Endpoint.foldl_addHeader]
  apply Endpoint.refresh_wellFormed
  · exact fun name hname => listed_foldl_mergeParam (h.listed name hname)
  · exact proper_foldl_mergeParam h.params hfacts.params
  · exact h.query.mergeAbsent hfacts.query
  · exact h.body.mergeAbsent hfacts.body
  · exact Endpoint.nodup_headers_foldl_addHeader _ h.headers
  · exact h.url

end Facts

end RouteAtlas
