import Mathlib.Order.WellFounded
import RouteAtlas.Proofs.Catalogue.Selection

/-!
# Each chain of mounts once

The forms below mounts are built by expanding files, one nested in the other. A file that is
expanded is never expanded again further inside, which is all that holds the recursion back. It is
enough: with each expansion that is nested in another, one file less is left to be visited. Two
expansions never build forms for the same chain, as the chain of each tells which mounts led to it.
Together with `mem_forms` this gives every route one form for each chain that leads to its file.

## Key results

- `nests_wellFounded`: nested expansions come to an end
- `expand_succ_of_length_lt`: no form is lost because expansions are nested too deep
- `pairwise_origin_forms`: no two forms show one route below one chain
- `forms_enumerate_chains`: the forms of all routes, one for each chain
-/

namespace RouteAtlas

/-- Where a form comes from: the route that it shows, and the mounts that lead to it. -/
def RouteForm.origin (f : RouteForm) : (Nat × Nat) × List (Nat × Nat) := (f.source, f.chain)

namespace Catalogue

variable {routers : List Router} {f : RouteForm} {i m t depth : Nat} {start : String}
  {chain : List (Nat × Nat)} {visiting : List Nat}

/-! ## Nested expansions end -/

/-- The expansion of one file, with the files that are visited then, is nested directly in that of
another. -/
def Nests (routers : List Router) (inner outer : Nat × List Nat) : Prop :=
  ∃ m, (m, inner.1) ∈ nested routers outer.1 outer.2 ∧ inner.2 = inner.1 :: outer.2

/-- The number of files that are not visited, one more if the file that is expanded exists. -/
def filesLeft (routers : List Router) (state : Nat × List Nat) : Nat :=
  ((List.range routers.length).filter (· ∉ state.2)).length +
    if state.1 < routers.length then 1 else 0

/-- `filesLeft` gets less with each expansion that is nested in another. -/
private theorem filesLeft_lt {inner outer : Nat × List Nat} (h : Nests routers inner outer) :
    filesLeft routers inner < filesLeft routers outer := by
  obtain ⟨m, hmem, hvisiting⟩ := h
  obtain ⟨htarget, hnew⟩ := mem_nested.mp hmem
  have houter : outer.1 < routers.length := lt_length_of_target? htarget
  -- What is left inside is what is left outside, without the file that is expanded.
  have hless : (List.range routers.length).filter (· ∉ inner.2) =
      ((List.range routers.length).filter (· ∉ outer.2)).filter (· ≠ inner.1) := by
    rw [List.filter_filter, hvisiting]
    apply List.filter_congr
    intro j _
    simp only [List.mem_cons, not_or, Bool.decide_and]
  unfold filesLeft
  rw [hless, if_pos houter]
  by_cases hinner : inner.1 < routers.length
  · -- The file that is expanded was left before.
    have hleft : inner.1 ∈ (List.range routers.length).filter (· ∉ outer.2) := by
      simp [hinner, hnew]
    have hlt : (((List.range routers.length).filter (· ∉ outer.2)).filter (· ≠ inner.1)).length <
        ((List.range routers.length).filter (· ∉ outer.2)).length :=
      List.length_filter_lt_length_iff_exists.mpr ⟨inner.1, hleft, by simp⟩
    rw [if_pos hinner]
    exact Nat.add_lt_add_right hlt 1
  · have hle :=
      List.length_filter_le (· ≠ inner.1) ((List.range routers.length).filter (· ∉ outer.2))
    rw [if_neg hinner]
    omega

/-- `Nests` is well founded: nested expansions come to an end. -/
theorem nests_wellFounded (routers : List Router) : WellFounded (Nests routers) :=
  (InvImage.wf (filesLeft routers) wellFounded_lt).mono fun _ _ h => filesLeft_lt h

/-- `expand` does not change by more depth than there are files left for a chain. -/
theorem expand_succ_of_length_lt (hne : chain ≠ []) (hchain : LeadsTo routers chain i)
    (hvisiting : ∀ t, t ∈ visiting ↔ t = i ∨ ∃ m ∈ chain, m.1 = t)
    (hdepth : routers.length < depth + chain.length) :
    expand routers (depth + 1) i start chain visiting =
      expand routers depth i start chain visiting := by
  induction depth generalizing i start chain visiting with
  | zero =>
    -- The chain is too long for a file that there is, so it leads to no routes and no mounts.
    have hi : routers.length ≤ i := by
      by_contra hlt
      have hlen := hchain.length_le (Nat.lt_of_not_le hlt)
      omega
    have hempty : router routers i = {} := by simp [router, List.getElem?_eq_none hi]
    rw [expand_succ, formsBelow, nested, hempty]
    rfl
  | succ depth ih =>
    -- Both sides give the forms of the file itself; what is nested has a chain that is one longer.
    rw [expand_succ (depth + 1), expand_succ depth]
    congr 1
    apply List.flatMap_congr
    rintro ⟨m, t⟩ hmem
    obtain ⟨htarget, hnew⟩ := mem_nested.mp hmem
    obtain ⟨hlonger, hvisiting'⟩ := hchain.nested hne hvisiting htarget hnew
    apply ih (List.cons_ne_nil _ _) hlonger hvisiting'
    rw [List.length_cons]
    omega

/-- The forms of routes if expansions may be nested to some depth. -/
def formsWithin (routers : List Router) (depth : Nat) : List RouteForm :=
  directForms routers ++ (List.range routers.length).flatMap fun i =>
    (nested routers i []).flatMap fun n =>
    expand routers depth n.2 (front routers (i, n.1)) [(i, n.1)] [i, n.2]

/-- `formsWithin` as many expansions as there are files are the `forms`. -/
private theorem formsWithin_length (routers : List Router) :
    formsWithin routers routers.length = forms routers := by
  rw [formsWithin, forms, mountedForms_eq]

/-- `formsWithin` a greater depth than there are files are the `forms`, too. -/
private theorem formsWithin_of_le (h : routers.length ≤ depth) :
    formsWithin routers depth = forms routers := by
  induction depth, h using Nat.le_induction with
  | base => exact formsWithin_length routers
  | succ depth hle ih =>
    rw [← ih, formsWithin, formsWithin]
    congr 1
    apply List.flatMap_congr
    intro i _
    apply List.flatMap_congr
    rintro ⟨m, t⟩ hmem
    obtain ⟨htarget, -⟩ := mem_nested.mp hmem
    apply expand_succ_of_length_lt (List.cons_ne_nil _ _) (leadsTo_singleton.mpr htarget)
    · intro u
      simp [eq_comm, or_comm]
    · -- The chain has one mount already, so there are fewer files left than the depth.
      rw [List.length_singleton]
      omega

/-! ## Chains apart -/

/-- `nested` has each mount once. -/
private theorem nodup_fst_nested (routers : List Router) (i : Nat) (visiting : List Nat) :
    (nested routers i visiting).Pairwise fun a b => a.1 ≠ b.1 := by
  rw [nested, List.pairwise_flatMap]
  constructor
  · -- A mount is for one file at most.
    intro m _
    rw [List.pairwise_map]
    cases target? routers (i, m) with
    | none => exact List.Pairwise.nil
    | some t => exact (List.pairwise_singleton _ t).filter _
  · refine List.nodup_range.imp ?_
    intro m m' hne a ha b hb
    obtain ⟨_, -, rfl⟩ := List.mem_map.mp ha
    obtain ⟨_, -, rfl⟩ := List.mem_map.mp hb
    exact hne

/-- `expand` builds forms at the end of chains that go on from its own. -/
private theorem chain_suffix_of_mem_expand (h : f ∈ expand routers depth i start chain visiting) :
    chain <:+ f.chain := by
  induction depth generalizing i start chain visiting with
  | zero => exact absurd h List.not_mem_nil
  | succ depth ih =>
    rw [expand_succ, List.mem_append, List.mem_flatMap] at h
    rcases h with hbelow | ⟨n, -, hnested⟩
    · obtain ⟨x, -, rfl⟩ := List.mem_map.mp hbelow
      exact List.suffix_rfl
    · exact (List.suffix_cons (i, n.1) chain).trans (ih hnested)

/-- `origin` tells the forms of the routes of one file apart. -/
private theorem pairwise_origin_map {routes : List Endpoint} {form : Endpoint × Nat → RouteForm}
    (hsource : ∀ x, (form x).source = (i, x.2)) :
    (routes.zipIdx.map form).Pairwise fun f g => f.origin ≠ g.origin := by
  have hnumbers : (routes.zipIdx.map Prod.snd).Nodup := by
    rw [List.zipIdx_map_snd]
    exact List.nodup_range'
  rw [List.pairwise_map]
  refine (List.pairwise_map.mp hnumbers).imp ?_
  intro x y hne horigin
  have hsame : (form x).source = (form y).source := congrArg Prod.fst horigin
  rw [hsource, hsource] at hsame
  exact hne (Prod.mk.inj hsame).2

/-- `origin` tells forms apart at the ends of chains that go on from different mounts. -/
private theorem origin_ne_of_suffix {f g : RouteForm} {n n' : Nat × Nat} (hne : n ≠ n')
    (hf : n :: chain <:+ f.chain) (hg : n' :: chain <:+ g.chain) :
    f.origin ≠ g.origin := by
  intro horigin
  have hchain : f.chain = g.chain := congrArg Prod.snd horigin
  rw [← hchain] at hg
  -- Two ends of one chain that are equally long are the same.
  have hsame : n :: chain = n' :: chain :=
    (List.suffix_of_suffix_length_le hf hg (by simp)).eq_of_length (by simp)
  exact hne (List.cons_eq_cons.mp hsame).1

/-- `expand` builds no two forms of one `origin`. -/
private theorem pairwise_origin_expand (depth i : Nat) (start : String) (chain : List (Nat × Nat))
    (visiting : List Nat) :
    (expand routers depth i start chain visiting).Pairwise fun f g => f.origin ≠ g.origin := by
  induction depth generalizing i start chain visiting with
  | zero => exact List.Pairwise.nil
  | succ depth ih =>
    rw [expand_succ, List.pairwise_append, List.pairwise_flatMap]
    refine ⟨pairwise_origin_map fun _ => rfl, ⟨fun n _ => ih .., ?_⟩, ?_⟩
    · refine (nodup_fst_nested routers i visiting).imp ?_
      intro n n' hne f hf g hg
      have hmounts : (i, n.1) ≠ (i, n'.1) := fun h => hne (Prod.mk.inj h).2
      exact origin_ne_of_suffix hmounts (chain_suffix_of_mem_expand hf)
        (chain_suffix_of_mem_expand hg)
    · -- Chains that go on are longer.
      intro f hf g hg horigin
      obtain ⟨x, -, rfl⟩ := List.mem_map.mp hf
      obtain ⟨n, -, hnested⟩ := List.mem_flatMap.mp hg
      have hlonger := (chain_suffix_of_mem_expand hnested).length_le
      have hchain : chain = g.chain := congrArg Prod.snd horigin
      rw [← hchain, List.length_cons] at hlonger
      omega

/-- `mountedForms` has no two forms of one `origin`. -/
private theorem pairwise_origin_mountedForms (routers : List Router) :
    (mountedForms routers).Pairwise fun f g => f.origin ≠ g.origin := by
  rw [mountedForms_eq, List.pairwise_flatMap]
  -- Chains from one file differ in the number of their outermost mount, others in its file.
  constructor
  · intro i _
    rw [List.pairwise_flatMap]
    refine ⟨fun n _ => pairwise_origin_expand .., (nodup_fst_nested routers i []).imp ?_⟩
    intro n n' hne f hf g hg
    have hmounts : (i, n.1) ≠ (i, n'.1) := fun h => hne (Prod.mk.inj h).2
    exact origin_ne_of_suffix hmounts (chain_suffix_of_mem_expand hf)
      (chain_suffix_of_mem_expand hg)
  · refine List.nodup_range.imp ?_
    intro i i' hne f hf g hg
    obtain ⟨n, -, hf⟩ := List.mem_flatMap.mp hf
    obtain ⟨n', -, hg⟩ := List.mem_flatMap.mp hg
    have hmounts : (i, n.1) ≠ (i', n'.1) := fun h => hne (Prod.mk.inj h).1
    exact origin_ne_of_suffix hmounts (chain_suffix_of_mem_expand hf)
      (chain_suffix_of_mem_expand hg)

/-- `directForms` has no two forms of one `origin`. -/
private theorem pairwise_origin_directForms (routers : List Router) :
    (directForms routers).Pairwise fun f g => f.origin ≠ g.origin := by
  have hnumbers : (routers.zipIdx.map Prod.snd).Nodup := by
    rw [List.zipIdx_map_snd]
    exact List.nodup_range'
  rw [directForms, List.pairwise_flatMap]
  constructor
  · intro x _
    exact pairwise_origin_map fun _ => rfl
  · refine (List.pairwise_map.mp hnumbers).imp ?_
    intro x y hne f hf g hg horigin
    obtain ⟨_, -, rfl⟩ := List.mem_map.mp hf
    obtain ⟨_, -, rfl⟩ := List.mem_map.mp hg
    exact hne (Prod.mk.inj (congrArg Prod.fst horigin)).1

/-- `forms` has no two forms that show one route below one chain of mounts. -/
theorem pairwise_origin_forms (routers : List Router) :
    (forms routers).Pairwise fun f g => f.origin ≠ g.origin := by
  rw [forms, List.pairwise_append]
  refine ⟨pairwise_origin_directForms routers, pairwise_origin_mountedForms routers, ?_⟩
  intro f hf g hg horigin
  have hchain : f.chain = g.chain := congrArg Prod.snd horigin
  exact (mem_mountedForms.mp hg).2 (hchain ▸ (mem_directForms.mp hf).2)

/-! ## All forms -/

/-- `forms` has one form of a route for each chain that leads to its file. -/
private theorem filter_origin_forms {k : Nat} {e : Endpoint}
    (he : (router routers i).routes[k]? = some e) (hchain : LeadsTo routers chain i) :
    (forms routers).filter (fun f => f.origin = ((i, k), chain)) =
      [⟨mounted routers chain e, (i, k), chain⟩] := by
  have hform : ⟨mounted routers chain e, (i, k), chain⟩ ∈ forms routers :=
    mem_forms.mpr ⟨hchain, e, he, rfl⟩
  have hdistinct : ((forms routers).map RouteForm.origin).Nodup :=
    List.pairwise_map.mpr (pairwise_origin_forms routers)
  exact filter_key_eq_singleton hdistinct hform

/-- `expand` takes finitely many steps for the mounts of any files, whether they lead in circles or
nowhere. The `forms` that are built are one for each route and each chain of mounts that leads to
its file. Of the forms with one key, `fresh` leaves the first for the catalogue, and no other but
those that their files declare. -/
theorem forms_enumerate_chains (routers : List Router) :
    (WellFounded (Nests routers) ∧ ∀ depth, routers.length ≤ depth →
      formsWithin routers depth = forms routers) ∧
    (∀ i k e chain, (router routers i).routes[k]? = some e → LeadsTo routers chain i →
      (forms routers).filter (fun f => f.origin = ((i, k), chain)) =
        [⟨mounted routers chain e, (i, k), chain⟩]) ∧
    (∀ f ∈ forms routers, IsForm routers f) ∧
    (∀ f ∈ forms routers, ∃ first ∈ fresh ∅ (forms routers),
      (forms routers).find? (·.endpoint.key == f.endpoint.key) = some first) ∧
    (∀ f ∈ fresh ∅ (forms routers), f.chain = [] ∨
      (forms routers).find? (·.endpoint.key == f.endpoint.key) = some f) := by
  refine ⟨⟨nests_wellFounded routers, fun _ => formsWithin_of_le⟩,
    fun _ _ _ _ => filter_origin_forms, fun _ => mem_forms.mp, ?_, ?_⟩
  · intro f hf
    obtain ⟨first, hfirst, hkey⟩ := exists_first hf
    -- The first form with a key claims it.
    have hclaims : Claims routers first :=
      ⟨List.mem_of_find?_eq_some hfirst, Or.inr (hkey ▸ hfirst)⟩
    exact ⟨first, mem_fresh_forms.mpr hclaims, hfirst⟩
  · intro f hf
    exact (mem_fresh_forms.mp hf).2

/-- Two files that mount each other. The first also mounts itself, and something that was not
found. -/
def circularMounts : List Router :=
  [{ routes := [.declare .get "/a"], mounts :=
    [("/next", some 1), ("/again", some 0), ("/lost", none)] },
    { routes := [.declare .get "/b"], mounts := [("/back", some 0)] }]

/-- In `circularMounts`, the mount of the first file in itself comes first, and the one of the
second file in it after that. -/
theorem circularMounts_again_next :
    LeadsTo circularMounts [(0, 0), (0, 1)] 1 ∧
      ((forms circularMounts).filter (fun f => f.origin = ((1, 0), [(0, 0), (0, 1)]))).map
        (·.endpoint.url) =
        ["/again/next/b"] := by
  have hchain : LeadsTo circularMounts [(0, 0), (0, 1)] 1 := ⟨rfl, by decide, rfl⟩
  refine ⟨hchain, ?_⟩
  rw [(forms_enumerate_chains circularMounts).2.1 1 0 _ _ rfl hchain]
  decide +kernel

end Catalogue

end RouteAtlas
