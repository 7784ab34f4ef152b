import Mathlib.Data.List.Induction
import RouteAtlas.Proofs.Endpoint.WellFormed

/-!
# Merging facts

What was learnt of a handler is merged into its endpoint field by field, and the lists of fields are
searched while they grow. In the end this comes to two steps: the fields whose names are not listed
are appended, and then the first path parameter of each name takes the last type that the facts give
it, `string` apart. Merging the same facts again finds all names listed and all types taken, so it
changes nothing.

## Key results

- `foldl_mergeParam_eq_retype`: path parameters are merged by appending and retyping
- `foldl_mergeParam_idem`, `mergeAbsent_idem`: merging again changes nothing
- `applyTo_settles`: merged facts stay as they are, and an endpoint keeps what it had
-/

namespace RouteAtlas

namespace Field

variable {fields more : List Field} {f p : Field} {name : String}
  {types types' : String → Option FieldType}

/-! ## Appending absent fields -/

/-- `mergeAbsent` takes up the last field after all others. -/
private theorem mergeAbsent_concat (fields more : List Field) (p : Field) :
    mergeAbsent fields (more ++ [p]) = addAbsent (mergeAbsent fields more) p := by
  unfold mergeAbsent
  rw [List.foldl_append, List.foldl_cons, List.foldl_nil]

/-- An appended field lists its own name and no other. -/
private theorem listed_concat :
    Listed name (fields ++ [p]) ↔ Listed name fields ∨ p.name = name := by
  simp [listed_iff, eq_comm]

/-- After `addAbsent` the name of the field is listed, and no other new one. -/
private theorem listed_addAbsent :
    Listed name (addAbsent fields p) ↔ Listed name fields ∨ p.name = name := by
  unfold addAbsent
  split
  · rename_i hlisted
    have hp : p.name = name → Listed name fields := fun h => h ▸ hlisted
    exact ⟨Or.inl, fun h => h.elim id hp⟩
  · exact listed_concat

/-- After `mergeAbsent` the names of both lists are listed, and no others. -/
private theorem listed_mergeAbsent : Listed name (mergeAbsent fields more) ↔ Listed name fields ∨
    Listed name more := by
  -- The last field is the last one to be taken up, so the induction takes fields off the end.
  induction more using List.reverseRecOn with
  | nil =>
    have hnone : ¬Listed name [] := by simp [Listed]
    exact ⟨Or.inl, fun h => h.resolve_right hnone⟩
  | append_singleton more p ih =>
    rw [mergeAbsent_concat, listed_addAbsent, ih, listed_concat, or_assoc]

/-- `mergeAbsent` of fields whose names are all listed adds nothing. -/
private theorem mergeAbsent_of_listed (h : ∀ f ∈ more, Listed f.name fields) :
    mergeAbsent fields more = fields := by
  unfold mergeAbsent
  -- The list does not change on the way, so the hypothesis stays true of it.
  induction more with
  | nil => rfl
  | cons p rest ih =>
    obtain ⟨hp, hrest⟩ := List.forall_mem_cons.mp h
    have hsame : addAbsent fields p = fields := if_pos hp
    rw [List.foldl_cons, hsame, ih hrest]

/-- `mergeAbsent` of the same fields again adds nothing. -/
theorem mergeAbsent_idem (fields more : List Field) :
    mergeAbsent (mergeAbsent fields more) more = mergeAbsent fields more := by
  apply mergeAbsent_of_listed
  intro f hf
  rw [listed_mergeAbsent]
  exact Or.inr ⟨f, hf, rfl⟩

/-- `mergeAbsent` leaves the fields that were there at the front, and appends some of the others. -/
private theorem exists_mergeAbsent_eq_append (fields more : List Field) :
    ∃ added, mergeAbsent fields more = fields ++ added ∧ added ⊆ more := by
  induction more using List.reverseRecOn with
  | nil => exact ⟨[], (List.append_nil fields).symm, List.Subset.refl []⟩
  | append_singleton more p ih =>
    obtain ⟨added, hadded, hsub⟩ := ih
    have hmore : added ⊆ more ++ [p] := List.Subset.trans hsub (List.subset_append_left more [p])
    rw [mergeAbsent_concat, addAbsent]
    -- The last field is left out, or it comes after all that was added before it.
    split
    · exact ⟨added, hadded, hmore⟩
    · refine ⟨added ++ [p], by rw [hadded, List.append_assoc], ?_⟩
      exact List.append_subset.mpr ⟨hmore, List.subset_append_right more [p]⟩

/-! ## Retyping -/

/-- Gives the first field of each name the type that is known for the name. -/
def retype (types : String → Option FieldType) : List Field → List Field
  | [] => []
  | f :: rest =>
    { f with type := (types f.name).getD f.type } ::
      retype (fun name => if name = f.name then none else types name) rest

/-- The last type other than `string` that some fields give a name. -/
def lastType? (more : List Field) (name : String) : Option FieldType :=
  ((more.filter fun p => p.name = name ∧ p.type ≠ .string).getLast?).map (·.type)

/-- `retype` changes nothing but types. -/
private theorem map_retype {α : Type} (view : Field → α)
    (hview : ∀ f type, view { f with type := type } = view f) (types : String → Option FieldType)
    (fields : List Field) :
    (retype types fields).map view = fields.map view := by
  induction fields generalizing types with
  | nil => rfl
  | cons f rest ih => rw [retype, List.map_cons, List.map_cons, hview, ih]

/-- `retype` lists the same names. -/
private theorem listed_retype : Listed name (retype types fields) ↔ Listed name fields := by
  rw [listed_iff, listed_iff, map_retype]
  exact fun _ _ => rfl

/-- `retype` with no known types changes nothing. -/
private theorem retype_none (fields : List Field) : retype (fun _ => none) fields = fields := by
  induction fields with
  | nil => rfl
  | cons f rest ih =>
    -- Past a field, `retype` knows still less, which here is nothing again.
    have hnone : (fun name => if name = f.name then none else none) = fun _ : String =>
        (none : Option FieldType) := by
      funext name
      exact ite_self none
    rw [retype, hnone, ih]
    rfl

/-- Of two types that `retype` gives one name, the later one stays. -/
private theorem retype_retype (types types' : String → Option FieldType) (fields : List Field) :
    retype types' (retype types fields) = retype (fun name => (types' name).or (types name))
      fields := by
  induction fields generalizing types types' with
  | nil => rfl
  | cons f rest ih =>
    have htype : (types' f.name).getD ((types f.name).getD f.type) =
        ((types' f.name).or (types f.name)).getD f.type := by
      cases types' f.name <;> rfl
    -- Past the first field both maps have forgotten its name, and so has their join.
    have hrest : (fun name => (if name = f.name then none else types' name).or
          (if name = f.name then none else types name)) =
        fun name => if name = f.name then none else (types' name).or (types name) := by
      funext name
      by_cases hname : name = f.name
      · simp only [if_pos hname, Option.or_none]
      · simp only [if_neg hname]
    rw [retype, retype, retype, ih, htype, hrest]

/-- A type set by `updateFirst` is a type that `retype` knows for one name. -/
private theorem updateFirst_eq_retype (name : String) (type : FieldType) (fields : List Field) :
    updateFirst name (fun f => { f with type := type }) fields =
      retype (fun n => if n = name then some type else none) fields := by
  induction fields with
  | nil => rfl
  | cons f rest ih =>
    rw [updateFirst, retype]
    by_cases hname : f.name = name
    · -- Past the first field of the name there is no type left to give.
      have hnone : (fun n => if n = f.name then none else if n = name then some type else none) =
          fun _ : String => (none : Option FieldType) := by
        funext n
        by_cases hn : n = f.name
        · exact if_pos hn
        · rw [if_neg hn, if_neg fun h => hn (h.trans hname.symm)]
      rw [if_pos hname, if_pos hname, hnone, retype_none]
      rfl
    · -- A field of another name takes nothing from what is known of this one.
      have hsame : (fun n => if n = f.name then none else if n = name then some type else none) =
          fun n => if n = name then some type else none := by
        funext n
        by_cases hn : n = f.name
        · rw [if_pos hn, if_neg fun h => hname (hn.symm.trans h)]
        · exact if_neg hn
      rw [if_neg hname, if_neg hname, hsame, ih]
      rfl

/-- `retype` gives a field at the end its type, if it is the first one of its name. -/
private theorem retype_concat_of_not_listed (types : String → Option FieldType)
    (h : ¬Listed p.name fields) :
    retype types (fields ++ [p]) =
      retype types fields ++ [{ p with type := (types p.name).getD p.type }] := by
  induction fields generalizing types with
  | nil => rfl
  | cons f rest ih =>
    have hf : ¬p.name = f.name := fun hname => h ⟨f, List.mem_cons_self, hname.symm⟩
    have hrest : ¬Listed p.name rest := fun ⟨g, hg, hname⟩ =>
      h ⟨g, List.mem_cons_of_mem _ hg, hname⟩
    rw [List.cons_append, retype, retype, ih _ hrest, if_neg hf, List.cons_append]

/-- `retype` asks only for types of the names that are there. -/
private theorem retype_congr (h : ∀ f ∈ fields, types f.name = types' f.name) :
    retype types fields = retype types' fields := by
  induction fields generalizing types types' with
  | nil => rfl
  | cons f rest ih =>
    obtain ⟨hf, hrest⟩ := List.forall_mem_cons.mp h
    rw [retype, retype, hf]
    refine congrArg _ (ih ?_)
    intro g hg
    -- For the name of the first field both maps have been used up.
    by_cases hname : g.name = f.name
    · rw [if_pos hname, if_pos hname]
    · rw [if_neg hname, if_neg hname, hrest g hg]

/-- The first field of a name is the one that `retype` gives the type. -/
private theorem find?_retype (types : String → Option FieldType) (fields : List Field)
    (name : String) :
    (retype types fields).find? (·.name = name) =
      (fields.find? (·.name = name)).map fun f => { f with type := (types name).getD f.type } := by
  induction fields generalizing types with
  | nil => rfl
  | cons f rest ih =>
    rw [retype]
    by_cases hname : f.name = name
    · subst hname
      rw [List.find?_cons_of_pos (by simp), List.find?_cons_of_pos (by simp)]
      rfl
    · rw [List.find?_cons_of_neg (by simpa using hname),
        List.find?_cons_of_neg (by simpa using hname), ih, if_neg (Ne.symm hname)]

/-- `retype` leaves each field its place, name and flag, and its type unless one is known for the
name. -/
private theorem getElem?_retype (types : String → Option FieldType) {i : Nat}
    (h : fields[i]? = some f) :
    ∃ type, (retype types fields)[i]? = some { f with type := type } ∧
      (type = f.type ∨ types f.name = some type) := by
  -- The types known shrink along the list, so this is shown for any of them.
  induction fields generalizing types i with
  | nil => exact nomatch h
  | cons g rest ih =>
    cases i with
    | zero =>
      obtain rfl : g = f := Option.some.inj h
      refine ⟨(types g.name).getD g.type, rfl, ?_⟩
      cases htype : types g.name with
      | none => exact Or.inl rfl
      | some type => exact Or.inr rfl
    | succ i =>
      rw [List.getElem?_cons_succ] at h
      obtain ⟨type, hget, htype⟩ := ih (fun name => if name = g.name then none else types name) h
      refine ⟨type, hget, htype.imp_right fun hsome => ?_⟩
      by_cases hname : f.name = g.name
      · rw [if_pos hname] at hsome
        exact nomatch hsome
      · rwa [if_neg hname] at hsome

/-! ## The last type of a name -/

/-- A type that `lastType?` gives is one of the fields', and not `string`. -/
private theorem lastType?_eq_some {type : FieldType} (h : lastType? more name = some type) :
    type ≠ .string ∧ ∃ p ∈ more, p.name = name ∧ p.type = type := by
  obtain ⟨p, hlast, rfl⟩ := Option.map_eq_some_iff.mp h
  have hp := List.mem_of_getLast? hlast
  rw [List.mem_filter, decide_eq_true_eq] at hp
  exact ⟨hp.2.2, p, hp.1, hp.2.1, rfl⟩

/-- `lastType?` has nothing for a name that no field has. -/
private theorem lastType?_of_not_listed (h : ¬Listed name more) : lastType? more name = none := by
  refine Option.eq_none_iff_forall_not_mem.mpr fun type htype => ?_
  obtain ⟨-, p, hp, hname, -⟩ := lastType?_eq_some htype
  exact h ⟨p, hp, hname⟩

/-- A `string` at the end does not change `lastType?`. -/
private theorem lastType?_concat_string (h : p.type = .string) :
    lastType? (more ++ [p]) = lastType? more := by
  funext name
  simp [lastType?, h]

/-- Any other type at the end is what `lastType?` gives for its name. -/
private theorem lastType?_concat (h : p.type ≠ .string) (name : String) :
    lastType? (more ++ [p]) name = if name = p.name then some p.type else lastType? more name := by
  by_cases hname : name = p.name
  · simp [lastType?, h, hname]
  · simp [lastType?, h, hname, Ne.symm hname]

end Field

/-! ## Merging path parameters -/

namespace Facts

open RouteAtlas.Field

/-- `mergeParam`, field by field, comes to `mergeAbsent` and then `retype`: fields that are not
listed are appended, and the first of each name takes the last type that is told of it. -/
theorem foldl_mergeParam_eq_retype (fields more : List Field) :
    more.foldl mergeParam fields = retype (lastType? more) (mergeAbsent fields more) := by
  induction more using List.reverseRecOn with
  | nil => exact (retype_none fields).symm
  | append_singleton more p ih =>
    rw [List.foldl_append, List.foldl_cons, List.foldl_nil, ih, mergeParam, mergeAbsent_concat,
      addAbsent]
    simp only [listed_retype]
    -- The last field is of a name that is listed by then, or it is a new one.
    by_cases hlisted : Listed p.name (mergeAbsent fields more)
    · rw [if_pos hlisted, if_pos hlisted]
      by_cases hstring : p.type = .string
      · rw [if_pos hstring, lastType?_concat_string hstring]
      · -- The last type replaces what was known before.
        have htypes :
            (fun name => (if name = p.name then some p.type else none).or (lastType? more name)) =
              lastType? (more ++ [p]) := by
          funext name
          rw [lastType?_concat hstring]
          by_cases hname : name = p.name
          · rw [if_pos hname, if_pos hname, Option.some_or]
          · rw [if_neg hname, if_neg hname, Option.none_or]
        rw [if_neg hstring, updateFirst_eq_retype, retype_retype, htypes]
    · rw [if_neg hlisted, if_neg hlisted, retype_concat_of_not_listed _ hlisted]
      -- No field of this name came before, neither in the endpoint nor in the facts.
      have hnew : ¬Listed p.name more := fun h => hlisted (listed_mergeAbsent.mpr (Or.inr h))
      by_cases hstring : p.type = .string
      · rw [lastType?_concat_string hstring, lastType?_of_not_listed hnew]
        rfl
      · have hothers : ∀ f ∈ mergeAbsent fields more, lastType? more f.name =
            lastType? (more ++ [p]) f.name := by
          intro f hf
          have hname : f.name ≠ p.name := fun h => hlisted ⟨f, hf, h⟩
          rw [lastType?_concat hstring, if_neg hname]
        rw [retype_congr hothers, lastType?_concat hstring, if_pos rfl]
        rfl

/-- `mergeParam`, field by field, lists the names of both lists. -/
private theorem listed_foldl_mergeParam_iff {fields more : List Field} {name : String} :
    Listed name (more.foldl mergeParam fields) ↔ Listed name fields ∨ Listed name more := by
  rw [foldl_mergeParam_eq_retype, listed_retype, listed_mergeAbsent]

/-- `mergeParam` of the same path parameters again changes nothing. -/
theorem foldl_mergeParam_idem (fields more : List Field) :
    more.foldl mergeParam (more.foldl mergeParam fields) = more.foldl mergeParam fields := by
  have hlisted : ∀ p ∈ more, Listed p.name (more.foldl mergeParam fields) := by
    intro p hp
    rw [listed_foldl_mergeParam_iff]
    exact Or.inr ⟨p, hp, rfl⟩
  have htypes : (fun name => (lastType? more name).or (lastType? more name)) = lastType? more := by
    funext name
    exact Option.or_self
  -- The second time nothing is appended, and the types are given twice.
  rw [foldl_mergeParam_eq_retype (more.foldl mergeParam fields), mergeAbsent_of_listed hlisted,
    foldl_mergeParam_eq_retype, retype_retype, htypes]

end Facts

/-! ## Headers -/

namespace Endpoint

variable {e : Endpoint} {names : List String}

/-- `addHeader`, name by name, appends some of the names, and all are listed then. -/
private theorem headers_foldl_addHeader (names : List String) (e : Endpoint) :
    ∃ added, (names.foldl addHeader e).headers = e.headers ++ added ∧ added ⊆ names ∧
      names ⊆ (names.foldl addHeader e).headers := by
  -- All three facts go together, as each header is looked up among those listed so far.
  induction names generalizing e with
  | nil => exact ⟨[], (List.append_nil _).symm, List.Subset.refl [], List.nil_subset _⟩
  | cons name rest ih =>
    obtain ⟨added, hadded, hrest, hlisted⟩ := ih (e.addHeader name)
    rw [List.foldl_cons]
    by_cases hname : name ∈ e.headers
    · have hsame : e.addHeader name = e := if_pos hname
      rw [hsame] at hadded hlisted ⊢
      refine ⟨added, hadded, List.Subset.trans hrest (List.subset_cons_self name rest), ?_⟩
      exact List.cons_subset.mpr ⟨hadded ▸ List.mem_append_left added hname, hlisted⟩
    · have hnew : (e.addHeader name).headers = e.headers ++ [name] := by
        rw [addHeader, if_neg hname]
      rw [hnew, List.append_assoc] at hadded
      refine ⟨name :: added, hadded, List.cons_subset_cons name hrest, ?_⟩
      refine List.cons_subset.mpr ⟨?_, hlisted⟩
      rw [hadded]
      exact List.mem_append_right _ List.mem_cons_self

/-- `addHeader` of headers that are all listed changes nothing. -/
private theorem foldl_addHeader_of_subset (h : names ⊆ e.headers) :
    names.foldl addHeader e = e := by
  induction names with
  | nil => rfl
  | cons name rest ih =>
    obtain ⟨hname, hrest⟩ := List.cons_subset.mp h
    have hsame : e.addHeader name = e := if_pos hname
    rw [List.foldl_cons, hsame, ih hrest]

end Endpoint

/-! ## Merging facts -/

namespace Facts

open RouteAtlas.Field

variable {facts : Facts} {e : Endpoint}

/-- `applyTo` changes the four lists and, after them, the data source. -/
private theorem exists_applyTo_eq (facts : Facts) (e : Endpoint) :
    ∃ headers, facts.applyTo e =
        ({ e with
          params := facts.params.foldl mergeParam e.params
          query := mergeAbsent e.query facts.query
          body := mergeAbsent e.body facts.body
          headers := headers } : Endpoint).refresh ∧
      e.headers <+: headers ∧ facts.headers ⊆ headers ∧ headers ⊆ e.headers ++ facts.headers := by
  have hfold := Endpoint.headers_foldl_addHeader facts.headers
    { e with
      params := facts.params.foldl mergeParam e.params
      query := mergeAbsent e.query facts.query
      body := mergeAbsent e.body facts.body }
  obtain ⟨added, hadded, hsub, hlisted⟩ := hfold
  refine ⟨e.headers ++ added, ?_, List.prefix_append _ _, hadded ▸ hlisted, ?_⟩
  · rw [applyTo, Endpoint.foldl_addHeader, hadded]
  · exact List.append_subset.mpr
      ⟨List.subset_append_left _ _, List.Subset.trans hsub (List.subset_append_right _ _)⟩

/-- `applyTo` of facts that an endpoint has taken up changes nothing but the data source. -/
private theorem applyTo_of_taken_up (hparams : facts.params.foldl mergeParam e.params = e.params)
    (hquery : mergeAbsent e.query facts.query = e.query)
    (hbody : mergeAbsent e.body facts.body = e.body) (hheaders : facts.headers ⊆ e.headers) :
    facts.applyTo e = e.refresh := by
  rw [applyTo, hparams, hquery, hbody, Endpoint.foldl_addHeader_of_subset hheaders]

/-- `applyTo` of the same facts again changes nothing. -/
private theorem applyTo_idem (facts : Facts) (e : Endpoint) :
    facts.applyTo (facts.applyTo e) = facts.applyTo e := by
  obtain ⟨headers, heq, -, hheaders, -⟩ := exists_applyTo_eq facts e
  rw [heq]
  -- What was merged once counts as taken up, list by list.
  apply applyTo_of_taken_up
  · exact foldl_mergeParam_idem e.params facts.params
  · exact mergeAbsent_idem e.query facts.query
  · exact mergeAbsent_idem e.body facts.body
  · exact hheaders

/-- An endpoint with facts merged into it, against what it was before. -/
structure Enriches (facts : Facts) (e merged : Endpoint) : Prop where
  method : merged.method = e.method
  url : merged.url = e.url
  /-- Headers and the fields of query and body stay as they are, at the front. -/
  headers : e.headers <+: merged.headers
  query : e.query <+: merged.query
  body : e.body <+: merged.body
  /-- A path parameter keeps its place, name and flag. Its type is kept too, or it is another one
  than `string` that the facts give a path parameter of this name. -/
  params : ∀ (i : Nat) (f : Field), e.params[i]? = some f →
    ∃ type, merged.params[i]? = some { f with type := type } ∧
    (type = f.type ∨ type ≠ .string ∧ ∃ p ∈ facts.params, p.name = f.name ∧ p.type = type)
  /-- All that the facts name is listed, and nothing else is new. -/
  headersListed : ∀ name, name ∈ merged.headers ↔ name ∈ e.headers ∨ name ∈ facts.headers
  queryListed : ∀ name, Listed name merged.query ↔ Listed name e.query ∨ Listed name facts.query
  bodyListed : ∀ name, Listed name merged.body ↔ Listed name e.body ∨ Listed name facts.body
  paramsListed : ∀ name, Listed name merged.params ↔ Listed name e.params ∨ Listed name facts.params
  /-- The first path parameter of a name has the last type that the facts give the name, `string`
  apart. -/
  typesTaken : ∀ name type, lastType? facts.params name = some type →
    (merged.params.find? (·.name = name)).map (·.type) = some type
  dataSource : merged.dataSource = merged.primarySource

/-- After `mergeParam` the first path parameter of a name has the `lastType?` of the name. -/
private theorem find?_foldl_mergeParam {fields more : List Field} {name : String} {type : FieldType}
    (h : lastType? more name = some type) :
    ((more.foldl mergeParam fields).find? (·.name = name)).map (·.type) = some type := by
  obtain ⟨-, p, hp, hname, -⟩ := lastType?_eq_some h
  obtain ⟨f, hf, hfname⟩ : Listed name (mergeAbsent fields more) :=
    listed_mergeAbsent.mpr (Or.inr ⟨p, hp, hname⟩)
  have hfound : ((mergeAbsent fields more).find? (·.name = name)).isSome :=
    List.find?_isSome.mpr ⟨f, hf, decide_eq_true hfname⟩
  obtain ⟨first, hfirst⟩ := Option.isSome_iff_exists.mp hfound
  rw [foldl_mergeParam_eq_retype, find?_retype, hfirst, h]
  rfl

/-- `mergeParam` leaves each path parameter its place, name and flag, and its type unless another
than `string` is told of the name. -/
private theorem getElem?_foldl_mergeParam {fields more : List Field} {i : Nat} {f : Field}
    (h : fields[i]? = some f) :
    ∃ type, (more.foldl mergeParam fields)[i]? = some { f with type := type } ∧
      (type = f.type ∨ type ≠ .string ∧ ∃ p ∈ more, p.name = f.name ∧ p.type = type) := by
  -- Appending leaves the place of a field alone, and so does retyping.
  obtain ⟨added, hadded, -⟩ := exists_mergeAbsent_eq_append fields more
  have hget : (mergeAbsent fields more)[i]? = some f := by
    obtain ⟨hi, -⟩ := List.getElem?_eq_some_iff.mp h
    rw [hadded, List.getElem?_append_left hi, h]
  obtain ⟨type, htype, hfrom⟩ := getElem?_retype (lastType? more) hget
  rw [foldl_mergeParam_eq_retype]
  exact ⟨type, htype, hfrom.imp_right lastType?_eq_some⟩

/-- `applyTo` merges facts for good: merging them again changes nothing. An endpoint keeps all it
had but for types of path parameters. -/
theorem applyTo_settles (facts : Facts) (e : Endpoint) :
    facts.applyTo (facts.applyTo e) = facts.applyTo e ∧ Enriches facts e (facts.applyTo e) := by
  refine ⟨applyTo_idem facts e, ?_⟩
  obtain ⟨headers, heq, hkept, hlisted, hfrom⟩ := exists_applyTo_eq facts e
  -- Query and body only get fields at their ends.
  obtain ⟨query, hquery, -⟩ := exists_mergeAbsent_eq_append e.query facts.query
  obtain ⟨body, hbody, -⟩ := exists_mergeAbsent_eq_append e.body facts.body
  rw [heq]
  constructor
  · rfl
  · rfl
  · exact hkept
  · exact ⟨query, hquery.symm⟩
  · exact ⟨body, hbody.symm⟩
  · exact fun i f h => getElem?_foldl_mergeParam h
  · intro name
    rw [← List.mem_append]
    exact ⟨fun h => hfrom h, fun h => List.append_subset.mpr ⟨hkept.subset, hlisted⟩ h⟩
  · exact fun name => listed_mergeAbsent
  · exact fun name => listed_mergeAbsent
  · exact fun name => listed_foldl_mergeParam_iff
  · exact fun name type h => find?_foldl_mergeParam h
  · rfl

end Facts

end RouteAtlas
