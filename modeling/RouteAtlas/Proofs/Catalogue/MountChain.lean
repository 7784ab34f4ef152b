import Mathlib.Data.List.Perm.Subperm
import RouteAtlas.Catalogue
import RouteAtlas.Proofs.Lists

/-!
# Chains of mounts

A chain of mounts leads from the file that holds its outermost mount to the file that its innermost
mount is for. No mount after the outermost one goes back to a file on the chain. The forms of routes
that a catalogue is made from are exactly those at the end of such chains.

Chains are written as in `RouteForm.chain`, the innermost mount first, so a chain that goes on
further outside has the shorter one as a prefix.

## Key results

- `LeadsTo.length_le`: a chain has no more mounts than there are files
- `expand_succ`: an expansion and those that are nested in it
- `mem_expand`: the forms that `expand` gives below a chain
- `mem_forms`: the forms of all routes, by their chains
-/

namespace RouteAtlas.Catalogue

variable {routers : List Router}

/-! ## Mounts and chains -/

/-- The prefix and the file of a mount, given the numbers of the file that holds it and of the mount
in that file. -/
def mount? (routers : List Router) (m : Nat × Nat) : Option (String × Option Nat) :=
  (router routers m.1).mounts[m.2]?

/-- The number of the file that a mount is for. -/
def target? (routers : List Router) (m : Nat × Nat) : Option Nat :=
  (mount? routers m).bind Prod.snd

/-- The prefix of a mount. -/
def front (routers : List Router) (m : Nat × Nat) : String :=
  ((mount? routers m).map Prod.fst).getD ""

/-- The mounts, the innermost first, lead to the file with number `i`: each mount is for the file
that holds the next one inside it, the innermost is for `i`, and what a mount after the outermost is
for is not already a file on the chain. -/
def LeadsTo (routers : List Router) : List (Nat × Nat) → Nat → Prop
  | [], _ => True
  | [m], i => target? routers m = some i
  | m :: n :: above, i =>
    target? routers m = some i ∧ (∀ a ∈ m :: n :: above, a.1 ≠ i) ∧ LeadsTo routers (n :: above) m.1

/-- The prefixes of a chain joined from the left, the outermost first. -/
def chainFront (routers : List Router) (chain : List (Nat × Nat)) : String :=
  (chain.reverse.map (front routers)).foldl Url.join ""

/-- The URL of a route at the end of a chain of mounts. -/
def chainUrl (routers : List Router) (chain : List (Nat × Nat)) (url : String) : String :=
  if chain = [] then url else Url.join (chainFront routers chain) url

/-- The endpoint of a route at the end of a chain of mounts. -/
def mounted (routers : List Router) (chain : List (Nat × Nat)) (e : Endpoint) : Endpoint :=
  if chain = [] then e else e.relocate (chainUrl routers chain e.url)

/-- The form shows a route of its file at the end of a chain that leads to the file. -/
def IsForm (routers : List Router) (f : RouteForm) : Prop :=
  LeadsTo routers f.chain f.source.1 ∧
    ∃ e, (router routers f.source.1).routes[f.source.2]? = some e ∧
      f.endpoint = mounted routers f.chain e

/-! ## Chains -/

@[simp] theorem leadsTo_nil (i : Nat) : LeadsTo routers [] i := trivial

theorem leadsTo_singleton {m : Nat × Nat} {i : Nat} :
    LeadsTo routers [m] i ↔ target? routers m = some i := Iff.rfl

/-- `LeadsTo` asks of a mount inside others that it does not go back to a file on the chain. -/
theorem leadsTo_cons {m : Nat × Nat} {chain : List (Nat × Nat)} {i : Nat} (hne : chain ≠ []) :
    LeadsTo routers (m :: chain) i ↔
      target? routers m = some i ∧ (∀ a ∈ m :: chain, a.1 ≠ i) ∧ LeadsTo routers chain m.1 := by
  cases chain with
  | nil => exact absurd rfl hne
  | cons n above => exact Iff.rfl

/-- `LeadsTo` makes the innermost mount one for the file. -/
theorem LeadsTo.target {m : Nat × Nat} {chain : List (Nat × Nat)} {i : Nat}
    (h : LeadsTo routers (m :: chain) i) : target? routers m = some i := by
  cases chain with
  | nil => exact h
  | cons n above => exact h.1

/-- `LeadsTo` holds, of a chain that is not empty, for one file only. -/
theorem LeadsTo.unique {chain : List (Nat × Nat)} {i j : Nat} (hne : chain ≠ [])
    (hi : LeadsTo routers chain i) (hj : LeadsTo routers chain j) : i = j := by
  cases chain with
  | nil => exact absurd rfl hne
  | cons m above =>
    have hij := hi.target.symm.trans hj.target
    exact Option.some.inj hij

/-- `LeadsTo` holds of the outer part of a chain. -/
theorem LeadsTo.of_append {inner chain : List (Nat × Nat)} {i : Nat}
    (h : LeadsTo routers (inner ++ chain) i) : ∃ j, LeadsTo routers chain j := by
  induction inner generalizing i with
  | nil => exact ⟨i, h⟩
  | cons m inner ih =>
    by_cases hne : inner ++ chain = []
    · obtain ⟨rfl, rfl⟩ := List.append_eq_nil_iff.mp hne
      exact ⟨i, leadsTo_nil i⟩
    · rw [List.cons_append, leadsTo_cons hne] at h
      exact ih h.2.2

/-- `target?` has something only for a mount of a file that there is. -/
theorem lt_length_of_target? {m : Nat × Nat} {i : Nat} (h : target? routers m = some i) :
    m.1 < routers.length := by
  by_contra hge
  have hnone : routers[m.1]? = none := List.getElem?_eq_none (by omega)
  simp [target?, mount?, router, hnone] at h

/-- `router` has routes only for a file that there is. -/
private theorem lt_length_of_route {i k : Nat} {e : Endpoint}
    (h : (router routers i).routes[k]? = some e) :
    i < routers.length := by
  by_contra hge
  have hnone : routers[i]? = none := List.getElem?_eq_none (by omega)
  simp [router, hnone] at h

/-- `LeadsTo` makes the mounts of a chain be for different files. -/
private theorem LeadsTo.nodup_targets {chain : List (Nat × Nat)} {i : Nat}
    (h : LeadsTo routers chain i) :
    (i :: chain.dropLast.map Prod.fst).Nodup := by
  induction chain generalizing i with
  | nil => simp
  | cons m above ih =>
    by_cases hne : above = []
    · subst hne; simp
    · obtain ⟨_, hnew, habove⟩ := (leadsTo_cons hne).mp h
      rw [List.dropLast_cons_of_ne_nil hne, List.map_cons, List.nodup_cons]
      refine ⟨?_, ih habove⟩
      -- A mount that was for a file further outside would go back to a file on the chain.
      intro hi
      rw [← List.map_cons, List.mem_map] at hi
      obtain ⟨a, ha, hai⟩ := hi
      have ha' : a ∈ m :: above := by
        rcases List.mem_cons.mp ha with rfl | hmem
        · exact List.mem_cons_self
        · exact List.mem_cons_of_mem _ (List.dropLast_subset _ hmem)
      exact hnew a ha' hai

/-- `LeadsTo` makes every mount of a chain be held by a file that there is. -/
private theorem LeadsTo.holder_lt {chain : List (Nat × Nat)} {i : Nat}
    (h : LeadsTo routers chain i) :
    ∀ m ∈ chain, m.1 < routers.length := by
  induction chain generalizing i with
  | nil => intro m hm; exact absurd hm List.not_mem_nil
  | cons n above ih =>
    intro m hm
    rcases List.mem_cons.mp hm with rfl | hmem
    · exact lt_length_of_target? h.target
    · exact ih ((leadsTo_cons (List.ne_nil_of_mem hmem)).mp h).2.2 m hmem

/-- `LeadsTo` holds of no chain to a file that there is with more mounts than there are files. -/
theorem LeadsTo.length_le {chain : List (Nat × Nat)} {i : Nat} (h : LeadsTo routers chain i)
    (hi : i < routers.length) : chain.length ≤ routers.length := by
  have hsub : i :: chain.dropLast.map Prod.fst ⊆ List.range routers.length := by
    intro j hj
    rw [List.mem_range]
    rcases List.mem_cons.mp hj with rfl | hmem
    · exact hi
    · obtain ⟨m, hm, rfl⟩ := List.mem_map.mp hmem
      exact h.holder_lt m (List.dropLast_subset _ hm)
  -- Different files of all files: there are no more of them.
  have hlen := (List.subperm_of_subset h.nodup_targets hsub).length_le
  simp only [List.length_cons, List.length_map, List.length_dropLast, List.length_range] at hlen
  omega

/-! ## Joined prefixes -/

@[simp] theorem join_empty (url : String) : Url.join "" url = url := by
  simp [Url.join, Url.joinChars, Url.dropTrailingSlashes]

/-- `chainFront` with one more mount inside has its prefix at the end. -/
theorem chainFront_cons (m : Nat × Nat) (chain : List (Nat × Nat)) :
    chainFront routers (m :: chain) = Url.join (chainFront routers chain) (front routers m) := by
  simp [chainFront, List.foldl_append]

@[simp] theorem chainFront_singleton (m : Nat × Nat) :
    chainFront routers [m] = front routers m := by
  rw [chainFront_cons]
  exact join_empty _

theorem chainUrl_of_ne_nil {chain : List (Nat × Nat)} (hne : chain ≠ []) (url : String) :
    chainUrl routers chain url = Url.join (chainFront routers chain) url := if_neg hne

/-- `mounted` gives a route the URL of its chain. -/
theorem mounted_url (chain : List (Nat × Nat)) (e : Endpoint) :
    (mounted routers chain e).url = chainUrl routers chain e.url := by
  by_cases hne : chain = []
  · simp [mounted, chainUrl, hne]
  · simp [mounted, hne, Endpoint.relocate, Endpoint.seedParams, Endpoint.refresh]

/-- `mounted` keeps the method of a route. -/
theorem mounted_method (chain : List (Nat × Nat)) (e : Endpoint) :
    (mounted routers chain e).method = e.method := by
  by_cases hne : chain = []
  · simp [mounted, hne]
  · simp [mounted, hne, Endpoint.relocate, Endpoint.seedParams, Endpoint.refresh]

/-! ## Nested expansions -/

/-- `target?` and `front` of a mount that is there. -/
private theorem mount?_eq_some {i m : Nat} {next : String} {target : Option Nat}
    (h : (router routers i).mounts[m]? = some (next, target)) :
    target? routers (i, m) = target ∧ front routers (i, m) = next := by
  simp [target?, front, mount?, h]

/-- `target?` has something for an entry of the file that holds the mount. -/
theorem exists_mount_of_target? {m : Nat × Nat} {t : Nat} (h : target? routers m = some t) :
    (router routers m.1).mounts[m.2]? = some (front routers m, some t) := by
  obtain ⟨⟨next, target⟩, hmount, htarget⟩ := Option.bind_eq_some_iff.mp h
  rw [mount?] at hmount
  simp only at htarget
  rw [front, mount?, hmount, htarget]
  rfl

/-- The mounts of a file that lead on to a file outside of a list, by their numbers, each with that
file. -/
def nested (routers : List Router) (i : Nat) (visiting : List Nat) : List (Nat × Nat) :=
  (List.range (router routers i).mounts.length).flatMap fun m =>
    ((target? routers (i, m)).toList.filter (· ∉ visiting)).map (m, ·)

/-- `nested` has the mounts that lead on to a file which is not visited. -/
theorem mem_nested {i m t : Nat} {visiting : List Nat} :
    (m, t) ∈ nested routers i visiting ↔ target? routers (i, m) = some t ∧ t ∉ visiting := by
  -- A mount that is for a file has a number among those of its file.
  have hmount : target? routers (i, m) = some t → m < (router routers i).mounts.length := by
    intro htarget
    have hget := exists_mount_of_target? htarget
    exact (List.getElem?_eq_some_iff.mp hget).1
  simp only [nested, List.mem_flatMap, List.mem_range, List.mem_map, List.mem_filter,
    Option.mem_toList, decide_eq_true_eq, Prod.mk.injEq]
  constructor
  · rintro ⟨_, -, _, ⟨htarget, hnew⟩, rfl, rfl⟩
    exact ⟨htarget, hnew⟩
  · rintro ⟨htarget, hnew⟩
    exact ⟨m, hmount htarget, t, ⟨htarget, hnew⟩, rfl, rfl⟩

/-- `expand` gives the forms of the file and those of the expansions `nested` in it. -/
theorem expand_succ (depth i : Nat) (start : String) (chain : List (Nat × Nat))
    (visiting : List Nat) :
    expand routers (depth + 1) i start chain visiting =
      formsBelow routers i start chain ++
        (nested routers i visiting).flatMap fun n =>
          expand routers depth n.2 (Url.join start (front routers (i, n.1))) ((i, n.1) :: chain)
            (n.2 :: visiting) := by
  rw [expand, nested, List.flatMap_assoc]
  congr 1
  apply flatMap_zipIdx
  intro mount m hmount
  obtain ⟨next, target⟩ := mount
  obtain ⟨htarget, hnext⟩ := mount?_eq_some hmount
  rw [htarget]
  cases target with
  | none => rfl
  | some t =>
    -- Both sides leave out a mount that goes back to a file which is visited.
    by_cases hvisited : t ∈ visiting
    · simp [hvisited]
    · simp [hvisited, hnext]

/-- `mountedForms` are made by the expansions that are not nested in others, those of each mount of
each file. -/
theorem mountedForms_eq (routers : List Router) :
    mountedForms routers = (List.range routers.length).flatMap fun i =>
      (nested routers i []).flatMap fun n =>
      expand routers routers.length n.2 (front routers (i, n.1)) [(i, n.1)] [i, n.2] := by
  rw [mountedForms]
  apply flatMap_zipIdx
  intro r i hr
  -- The routers are numbered one by one, and so are the mounts of each.
  have hrouter : router routers i = r := by simp [router, hr]
  subst hrouter
  rw [nested, List.flatMap_assoc]
  apply flatMap_zipIdx
  intro mount m hmount
  obtain ⟨next, target⟩ := mount
  obtain ⟨htarget, hnext⟩ := mount?_eq_some hmount
  rw [htarget]
  cases target with
  | none => rfl
  | some t => simp [hnext]

/-- `LeadsTo` holds of a chain with one more mount that leads on, and the file of that mount is
visited then. -/
theorem LeadsTo.nested {i m t : Nat} {chain : List (Nat × Nat)} {visiting : List Nat}
    (hne : chain ≠ []) (hchain : LeadsTo routers chain i)
    (hvisiting : ∀ t, t ∈ visiting ↔ t = i ∨ ∃ m ∈ chain, m.1 = t)
    (htarget : target? routers (i, m) = some t) (hnew : t ∉ visiting) :
    LeadsTo routers ((i, m) :: chain) t ∧ ∀ u, u ∈ t :: visiting ↔ u = t ∨
      ∃ a ∈ (i, m) :: chain, a.1 = u := by
  constructor
  · refine (leadsTo_cons hne).mpr ⟨htarget, ?_, hchain⟩
    intro a ha hat
    apply hnew
    rw [hvisiting]
    rcases List.mem_cons.mp ha with rfl | hmem
    · exact Or.inl hat.symm
    · exact Or.inr ⟨a, hmem, hat⟩
  · intro u
    simp only [List.mem_cons, hvisiting u, exists_eq_or_imp]
    grind

/-! ## Forms -/

/-- `directForms` are the forms at the end of the empty chain. -/
theorem mem_directForms {f : RouteForm} :
    f ∈ directForms routers ↔ IsForm routers f ∧ f.chain = [] := by
  simp only [directForms, List.mem_flatMap, List.mem_map, Prod.exists,
    List.mk_mem_zipIdx_iff_getElem?]
  constructor
  · rintro ⟨r, i, hr, e, k, he, rfl⟩
    exact ⟨⟨leadsTo_nil i, e, by simp [router, hr, he], by simp [mounted]⟩, rfl⟩
  · rintro ⟨⟨_, e, he, hend⟩, hnil⟩
    obtain ⟨endpoint, ⟨i, k⟩, chain⟩ := f
    simp only [mounted, if_pos hnil] at he hend hnil
    have hi := lt_length_of_route he
    refine ⟨routers[i], i, List.getElem?_eq_getElem hi, e, k, ?_, by rw [hend, hnil]⟩
    simpa [router, List.getElem?_eq_getElem hi] using he

/-- `formsBelow` are the forms of the routes of one file at the end of a chain. -/
private theorem mem_formsBelow {f : RouteForm} {i : Nat} {chain : List (Nat × Nat)}
    (hne : chain ≠ []) (hchain : LeadsTo routers chain i) :
    f ∈ formsBelow routers i (chainFront routers chain) chain ↔ IsForm routers f ∧
      f.chain = chain := by
  simp only [formsBelow, List.mem_map, Prod.exists, List.mk_mem_zipIdx_iff_getElem?]
  constructor
  · rintro ⟨e, k, he, rfl⟩
    exact ⟨⟨hchain, e, he, by simp [mounted, hne, chainUrl]⟩, rfl⟩
  · rintro ⟨⟨hform, e, he, hend⟩, rfl⟩
    obtain ⟨endpoint, ⟨j, k⟩, chain⟩ := f
    have hj : j = i := hform.unique hne hchain
    subst hj
    simp only [mounted, if_neg hne, chainUrl_of_ne_nil hne] at hend
    exact ⟨e, k, he, by rw [hend]⟩

/-- `expand` gives, below a chain, the forms at the end of the chain and of those that go on from it
by fewer than `depth` mounts. -/
theorem mem_expand {f : RouteForm} {depth i : Nat} {chain : List (Nat × Nat)} {visiting : List Nat}
    (hne : chain ≠ []) (hchain : LeadsTo routers chain i)
    (hvisiting : ∀ t, t ∈ visiting ↔ t = i ∨ ∃ m ∈ chain, m.1 = t) :
    f ∈ expand routers depth i (chainFront routers chain) chain visiting ↔
      IsForm routers f ∧ ∃ inner, f.chain = inner ++ chain ∧ inner.length < depth := by
  induction depth generalizing i chain visiting with
  | zero => simp [expand]
  | succ depth ih =>
    rw [expand_succ, List.mem_append, mem_formsBelow hne hchain, List.mem_flatMap]
    constructor
    · -- A form of the file itself, or one from further inside.
      rintro (⟨hform, hsame⟩ | ⟨⟨m, t⟩, hmem, hf⟩)
      · exact ⟨hform, [], by simp [hsame], by simp⟩
      · obtain ⟨htarget, hnew⟩ := mem_nested.mp hmem
        obtain ⟨hlonger, hvisiting'⟩ := hchain.nested hne hvisiting htarget hnew
        rw [← chainFront_cons, ih (List.cons_ne_nil _ _) hlonger hvisiting'] at hf
        obtain ⟨hform, inner, hinner, hlen⟩ := hf
        exact ⟨hform, inner ++ [(i, m)], by simp [hinner], by simp; omega⟩
    · rintro ⟨hform, inner, hinner, hlen⟩
      -- The chain of the form ends here, or its next mount is one of the nested ones.
      rcases List.eq_nil_or_concat inner with rfl | ⟨inner, n, rfl⟩
      · exact Or.inl ⟨hform, by simpa using hinner⟩
      · right
        rw [List.concat_eq_append, List.append_assoc, List.singleton_append] at hinner
        obtain ⟨t, ht⟩ := (hinner ▸ hform.1 : LeadsTo routers (inner ++ n :: chain) _).of_append
        obtain ⟨htarget, hnew, houter⟩ := (leadsTo_cons hne).mp ht
        obtain ⟨j, m⟩ := n
        have hj : j = i := houter.unique hne hchain
        subst hj
        have hvisit : t ∉ visiting := by
          rw [hvisiting]
          rintro (rfl | ⟨a, ha, rfl⟩)
          · exact hnew (t, m) List.mem_cons_self rfl
          · exact hnew a (List.mem_cons_of_mem _ ha) rfl
        obtain ⟨hlonger, hvisiting'⟩ := hchain.nested hne hvisiting htarget hvisit
        refine ⟨(m, t), mem_nested.mpr ⟨htarget, hvisit⟩, ?_⟩
        rw [← chainFront_cons, ih (List.cons_ne_nil _ _) hlonger hvisiting']
        exact ⟨hform, inner, hinner, by simp at hlen; omega⟩

/-- `mountedForms` are the forms at the end of a chain that is not empty. -/
theorem mem_mountedForms {f : RouteForm} :
    f ∈ mountedForms routers ↔ IsForm routers f ∧ f.chain ≠ [] := by
  -- The chain of one mount that the expansion starts from, and the files on it.
  have hstart : ∀ i m t, target? routers (i, m) = some t →
      (f ∈ expand routers routers.length t (front routers (i, m)) [(i, m)] [i, t] ↔
        IsForm routers f ∧
          ∃ inner, f.chain = inner ++ [(i, m)] ∧ inner.length < routers.length) := by
    intro i m t htarget
    rw [← chainFront_singleton (i, m)]
    refine mem_expand (List.cons_ne_nil _ _) (leadsTo_singleton.mpr htarget) ?_
    intro u
    simp [eq_comm, or_comm]
  simp only [mountedForms_eq, List.mem_flatMap, List.mem_range]
  constructor
  · rintro ⟨i, -, ⟨m, t⟩, hmem, hf⟩
    rw [hstart i m t (mem_nested.mp hmem).1] at hf
    obtain ⟨hform, inner, hinner, -⟩ := hf
    exact ⟨hform, by simp [hinner]⟩
  · rintro ⟨hform, hne⟩
    rcases List.eq_nil_or_concat f.chain with hnil | ⟨inner, ⟨i, m⟩, hinner⟩
    · exact absurd hnil hne
    · rw [List.concat_eq_append] at hinner
      obtain ⟨t, ht⟩ := (hinner ▸ hform.1 : LeadsTo routers (inner ++ [(i, m)]) _).of_append
      have htarget := leadsTo_singleton.mp ht
      -- The chain is no longer than there are files, so the depth is enough.
      have hlen : f.chain.length ≤ routers.length := by
        obtain ⟨e, he, _⟩ := hform.2
        exact hform.1.length_le (lt_length_of_route he)
      refine ⟨i, lt_length_of_target? htarget, (m, t), mem_nested.mpr ⟨htarget, List.not_mem_nil⟩,
        ?_⟩
      rw [hstart i m t htarget]
      exact ⟨hform, inner, hinner, by simp [hinner] at hlen; omega⟩

/-- `forms` are the forms of routes at the end of the chains that lead to their files. -/
theorem mem_forms {f : RouteForm} : f ∈ forms routers ↔ IsForm routers f := by
  rw [forms, List.mem_append, mem_directForms, mem_mountedForms, ← and_or_left]
  exact and_iff_left (em _)

end RouteAtlas.Catalogue
