import Mathlib.Logic.Equiv.Basic
import RouteAtlas.Proofs.Catalogue.Selection
import RouteAtlas.Proofs.Path.Names

/-!
# The order of the files

If the files of a project come in another order, routers get other numbers, and the forms of routes
are the same but for these numbers. Which form of a key comes first may change, though, and with it
whether the key is in the catalogue. That can only happen to a key that no file declares and of
whose forms some are continued and some are not.

## Key results

- `Renumbers.mem_forms_iff`, `Renumbers.fullyMounted`: forms are the same but for the numbers
- `exists_renumbers`: another order of the files gives the routers other numbers
- `key_mem_ofRouters_of_contested`, `key_mem_ofRouters_of_not_contested`: which keys depend on the
  order
-/

namespace RouteAtlas.Catalogue

/-! ## Other numbers -/

/-- A permutation of the numbers from one on. -/
def shiftPerm (σ : Equiv.Perm Nat) : Equiv.Perm Nat where
  toFun
    | 0 => 0
    | i + 1 => σ i + 1
  invFun
    | 0 => 0
    | i + 1 => σ.symm i + 1
  left_inv i := by cases i <;> simp
  right_inv i := by cases i <;> simp

/-- `Perm` of two lists gives their elements other numbers. -/
private theorem exists_renumbering {α : Type} {l l' : List α} (h : l.Perm l') :
    ∃ σ : Equiv.Perm Nat, ∀ i, l'[σ i]? = l[i]? := by
  -- One permutation for each way to change the order, and their composition.
  induction h with
  | nil => exact ⟨Equiv.refl _, fun _ => rfl⟩
  | cons x _ ih =>
    obtain ⟨σ, hσ⟩ := ih
    refine ⟨shiftPerm σ, fun i => ?_⟩
    cases i with
    | zero => rfl
    | succ i => simpa [shiftPerm] using hσ i
  | swap x y l =>
    refine ⟨Equiv.swap 0 1, fun i => ?_⟩
    match i with
    | 0 => simp
    | 1 => simp
    | i + 2 => rw [Equiv.swap_apply_of_ne_of_ne (by omega) (by omega)]; rfl
  | trans _ _ ih ih' =>
    obtain ⟨σ, hσ⟩ := ih
    obtain ⟨τ, hτ⟩ := ih'
    exact ⟨σ.trans τ, fun i => (hτ (σ i)).trans (hσ i)⟩

/-- A mount, by the new number of the file that holds it. -/
def renumberMount (σ : Nat → Nat) (m : Nat × Nat) : Nat × Nat := (σ m.1, m.2)

/-- A form with other numbers of files. -/
def renumber (σ : Nat → Nat) (f : RouteForm) : RouteForm :=
  { f with source := renumberMount σ f.source, chain := f.chain.map (renumberMount σ) }

/-- The second routers are the first ones under other numbers. -/
structure Renumbers (σ : Equiv.Perm Nat) (routers routers' : List Router) : Prop where
  routes : ∀ i, (router routers' (σ i)).routes = (router routers i).routes
  mounts : ∀ i, (router routers' (σ i)).mounts =
    (router routers i).mounts.map fun m => (m.1, m.2.map σ)

section Renumbers

variable {σ : Equiv.Perm Nat} {routers routers' : List Router}

/-- `renumberMount` makes no two mounts one. -/
private theorem renumberMount_injective (σ : Equiv.Perm Nat) :
    Function.Injective (renumberMount σ) := by
  rintro ⟨i, k⟩ ⟨j, l⟩ h
  simp only [renumberMount, Prod.mk.injEq, EmbeddingLike.apply_eq_iff_eq] at h
  rw [h.1, h.2]

@[simp] theorem renumberMount_symm (m : Nat × Nat) :
    renumberMount σ (renumberMount σ.symm m) = m := by
  simp [renumberMount]

@[simp] theorem renumber_symm (f : RouteForm) : renumber σ (renumber σ.symm f) = f := by
  have hchain : (f.chain.map (renumberMount σ.symm)).map (renumberMount σ) = f.chain := by
    simp [Function.comp_def]
  simp only [renumber, renumberMount_symm, hchain]

@[simp] theorem endpoint_renumber (f : RouteForm) : (renumber σ f).endpoint = f.endpoint := rfl

@[simp] theorem chain_renumber_eq_nil (f : RouteForm) : (renumber σ f).chain = [] ↔ f.chain = [] :=
  List.map_eq_nil_iff

/-- `Renumbers` the other way round, by the inverse. -/
theorem Renumbers.symm (h : Renumbers σ routers routers') : Renumbers σ.symm routers' routers := by
  refine ⟨fun i => ?_, fun i => ?_⟩
  · simpa using (h.routes (σ.symm i)).symm
  · -- The mounts under the old number, with the numbers of their files taken back.
    have hmounts := h.mounts (σ.symm i)
    rw [Equiv.apply_symm_apply] at hmounts
    rw [hmounts, List.map_map]
    refine ((List.map_congr_left fun m _ => ?_).trans (List.map_id _)).symm
    simp [Option.map_map, Function.comp_def]

/-- `mount?` under new numbers. -/
theorem Renumbers.mount? (h : Renumbers σ routers routers') (m : Nat × Nat) :
    mount? routers' (renumberMount σ m) = (mount? routers m).map fun m => (m.1, m.2.map σ) := by
  rw [Catalogue.mount?, renumberMount, h.mounts, List.getElem?_map, Catalogue.mount?]

/-- `target?` under new numbers. -/
theorem Renumbers.target? (h : Renumbers σ routers routers') (m : Nat × Nat) :
    target? routers' (renumberMount σ m) = (target? routers m).map σ := by
  rw [Catalogue.target?, h.mount?, Catalogue.target?]
  cases Catalogue.mount? routers m <;> rfl

/-- `front` does not depend on the numbers. -/
theorem Renumbers.front (h : Renumbers σ routers routers') (m : Nat × Nat) :
    front routers' (renumberMount σ m) = front routers m := by
  rw [Catalogue.front, h.mount?, Catalogue.front]
  cases Catalogue.mount? routers m <;> rfl

/-- `LeadsTo` under new numbers. -/
private theorem Renumbers.leadsTo (h : Renumbers σ routers routers') {chain : List (Nat × Nat)}
    {i : Nat} (hchain : LeadsTo routers chain i) :
    LeadsTo routers' (chain.map (renumberMount σ)) (σ i) := by
  induction chain generalizing i with
  | nil => exact leadsTo_nil _
  | cons m above ih =>
    have htarget : Catalogue.target? routers' (renumberMount σ m) = some (σ i) := by
      rw [h.target?, hchain.target]
      rfl
    by_cases hne : above = []
    · subst hne
      exact leadsTo_singleton.mpr htarget
    · obtain ⟨_, hnew, habove⟩ := (leadsTo_cons hne).mp hchain
      rw [List.map_cons, leadsTo_cons (by simpa using hne)]
      refine ⟨htarget, fun a ha => ?_, ih habove⟩
      rw [← List.map_cons] at ha
      -- Different files have different new numbers, too.
      obtain ⟨b, hb, rfl⟩ := List.mem_map.mp ha
      exact fun heq => hnew b hb (σ.injective heq)

/-- `chainUrl` does not depend on the numbers. -/
theorem Renumbers.chainUrl (h : Renumbers σ routers routers') (chain : List (Nat × Nat))
    (url : String) :
    chainUrl routers' (chain.map (renumberMount σ)) url = chainUrl routers chain url := by
  have hfronts : ((chain.map (renumberMount σ)).reverse.map (Catalogue.front routers')) =
      chain.reverse.map (Catalogue.front routers) := by
    rw [← List.map_reverse, List.map_map]
    exact List.map_congr_left fun m _ => h.front m
  simp only [Catalogue.chainUrl, chainFront, hfronts, List.map_eq_nil_iff]

/-- `mounted` does not depend on the numbers. -/
theorem Renumbers.mounted (h : Renumbers σ routers routers') (chain : List (Nat × Nat))
    (e : Endpoint) :
    mounted routers' (chain.map (renumberMount σ)) e = mounted routers chain e := by
  simp only [Catalogue.mounted, h.chainUrl, List.map_eq_nil_iff]

/-- `IsForm` under new numbers. -/
private theorem Renumbers.isForm (h : Renumbers σ routers routers') {f : RouteForm}
    (hf : IsForm routers f) :
    IsForm routers' (renumber σ f) := by
  obtain ⟨hchain, e, he, hend⟩ := hf
  refine ⟨h.leadsTo hchain, e, ?_, ?_⟩
  · rw [← he, ← h.routes]
    rfl
  · rw [← h.mounted] at hend
    exact hend

/-- `forms` are the same but for the numbers. -/
theorem Renumbers.mem_forms_iff (h : Renumbers σ routers routers') {f : RouteForm} :
    f ∈ forms routers' ↔ ∃ g ∈ forms routers, f = renumber σ g := by
  simp only [mem_forms]
  constructor
  · -- Going back to the old numbers gives the form that this one comes from.
    intro hf
    exact ⟨renumber σ.symm f, h.symm.isForm hf, (renumber_symm f).symm⟩
  · rintro ⟨g, hg, rfl⟩
    exact h.isForm hg

/-- `isContinuedBy` does not depend on the numbers. -/
private theorem isContinuedBy_renumber (f g : RouteForm) :
    isContinuedBy (renumber σ f) (renumber σ g) = isContinuedBy f g := by
  have hinj := renumberMount_injective σ
  have hsource : (renumberMount σ g.source == renumberMount σ f.source) =
      (g.source == f.source) := by
    rw [Bool.eq_iff_iff, beq_iff_eq, beq_iff_eq, hinj.eq_iff]
  -- Prefixes are kept both ways, as no two mounts become one.
  have hpre : (f.chain.map (renumberMount σ)).isPrefixOf (g.chain.map (renumberMount σ)) =
      f.chain.isPrefixOf g.chain := by
    rw [Bool.eq_iff_iff, List.isPrefixOf_iff_prefix, List.isPrefixOf_iff_prefix]
    exact List.prefix_map_iff_of_injective hinj
  simp only [isContinuedBy, renumber, hsource, List.length_map, hpre]

/-- `FullyMounted` does not depend on the numbers. -/
theorem Renumbers.fullyMounted (h : Renumbers σ routers routers') {f : RouteForm} :
    FullyMounted routers' (renumber σ f) ↔ FullyMounted routers f := by
  constructor
  · intro hfull g hg
    rw [← isContinuedBy_renumber]
    exact hfull _ (h.mem_forms_iff.mpr ⟨g, hg, rfl⟩)
  · intro hfull g hg
    obtain ⟨g, hg', rfl⟩ := h.mem_forms_iff.mp hg
    rw [isContinuedBy_renumber]
    exact hfull g hg'

/-- `forms` under new numbers have one with a property if the old ones have. -/
private theorem Renumbers.exists_forms (h : Renumbers σ routers routers') {P : RouteForm → Prop} :
    (∃ f ∈ forms routers', P f) ↔ ∃ f ∈ forms routers, P (renumber σ f) := by
  constructor
  · rintro ⟨f, hf, hP⟩
    obtain ⟨g, hg, rfl⟩ := h.mem_forms_iff.mp hf
    exact ⟨g, hg, hP⟩
  · rintro ⟨g, hg, hP⟩
    exact ⟨renumber σ g, h.mem_forms_iff.mpr ⟨g, hg, rfl⟩, hP⟩

/-- `forms` under new numbers all have a property if the old ones have. -/
private theorem Renumbers.forall_forms (h : Renumbers σ routers routers') {P : RouteForm → Prop} :
    (∀ f ∈ forms routers', P f) ↔ ∀ f ∈ forms routers, P (renumber σ f) := by
  constructor
  · intro hall g hg
    exact hall _ (h.mem_forms_iff.mpr ⟨g, hg, rfl⟩)
  · intro hall f hf
    obtain ⟨g, hg, rfl⟩ := h.mem_forms_iff.mp hf
    exact hall g hg

end Renumbers

/-! ## Files in another order -/

/-- `findIdx?` finds an element under its number, where at most one element satisfies the
predicate. -/
private theorem findIdx?_eq_some_iff_of_pairwise {α : Type} {l : List α} {P : α → Bool}
    (h : l.Pairwise fun x y => ¬(P x = true ∧ P y = true)) {i : Nat} :
    l.findIdx? P = some i ↔ ∃ x, l[i]? = some x ∧ P x = true := by
  rw [List.findIdx?_eq_some_iff_getElem]
  constructor
  · rintro ⟨hi, hP, _⟩
    exact ⟨l[i], List.getElem?_eq_getElem hi, hP⟩
  · rintro ⟨x, hx, hP⟩
    obtain ⟨hi, rfl⟩ := List.getElem?_eq_some_iff.mp hx
    refine ⟨hi, hP, fun j hj hPj => ?_⟩
    exact List.pairwise_iff_getElem.mp h j i (by omega) hi hj ⟨hPj, hP⟩

/-- No two of the files are at the same place. -/
def DistinctPaths (files : List Outline) : Prop :=
  files.Pairwise fun o o' => o.path.same o'.path = false

/-- `DistinctPaths` does not depend on the order. -/
private theorem DistinctPaths.perm {files files' : List Outline} (h : DistinctPaths files)
    (hperm : files.Perm files') : DistinctPaths files' := by
  refine (hperm.pairwise_iff fun {o o'} hsame => ?_).mp h
  rw [Path.same_comm, hsame]

/-- `findIdx?` finds the one file at a place. -/
private theorem DistinctPaths.findIdx?_eq_some_iff {files : List Outline} (h : DistinctPaths files)
    {p : Path} {i : Nat} :
    files.findIdx? (·.path.same p) = some i ↔
      ∃ o, files[i]? = some o ∧ o.path.same p = true := by
  refine findIdx?_eq_some_iff_of_pairwise (h.imp fun {o o'} hne hboth => ?_)
  rw [Path.same_congr hboth.1, Path.same_comm, hboth.2] at hne
  exact absurd hne (by decide)

/-- `findIdx?` finds each file under its new number, in another order. -/
theorem DistinctPaths.findIdx?_map {files files' : List Outline} {σ : Equiv.Perm Nat}
    (h : DistinctPaths files) (h' : DistinctPaths files') (hσ : ∀ i, files'[σ i]? = files[i]?)
    (p : Path) :
    files'.findIdx? (·.path.same p) = (files.findIdx? (·.path.same p)).map σ := by
  refine Option.ext fun j => ?_
  rw [Option.map_eq_some_iff, h'.findIdx?_eq_some_iff]
  constructor
  · rintro ⟨o, ho, hsame⟩
    refine ⟨σ.symm j, h.findIdx?_eq_some_iff.mpr ⟨o, ?_, hsame⟩, σ.apply_symm_apply j⟩
    -- The file under the new number is the file under the old one.
    rw [← hσ, σ.apply_symm_apply, ho]
  · rintro ⟨i, hi, rfl⟩
    obtain ⟨o, ho, hsame⟩ := h.findIdx?_eq_some_iff.mp hi
    exact ⟨o, (hσ i).trans ho, hsame⟩

/-- `Renumbers`: another order of the files gives the routers other numbers. -/
theorem exists_renumbers {files files' : List Outline} (h : DistinctPaths files)
    (hperm : files.Perm files') :
    ∃ σ, Renumbers σ (Router.ofOutlines files) (Router.ofOutlines files') := by
  obtain ⟨σ, hσ⟩ := exists_renumbering hperm
  refine ⟨σ, fun i => ?_, fun i => ?_⟩
  · rw [router, router, Router.ofOutlines, Router.ofOutlines, List.getElem?_map, List.getElem?_map,
      hσ]
    cases files[i]? <;> rfl
  · rw [router, router, Router.ofOutlines, Router.ofOutlines, List.getElem?_map, List.getElem?_map,
      hσ]
    cases files[i]? with
    | none => rfl
    | some o =>
      simp only [Option.map_some, Option.getD_some, List.map_map]
      refine List.map_congr_left fun m _ => ?_
      -- A mount is for the number of its file, which changes like all numbers.
      cases hfile : m.file? with
      | none => simp [hfile]
      | some p => simp [hfile, h.findIdx?_map (h.perm hperm) hσ p]

/-! ## Contested keys -/

/-- No file declares the key, and of the forms that have it some are continued and some are not. -/
def Contested (routers : List Router) (key : Method × String) : Prop :=
  (∀ f ∈ forms routers, f.endpoint.key = key → f.chain ≠ []) ∧
    (∃ f ∈ forms routers, f.endpoint.key = key ∧ FullyMounted routers f) ∧
    ∃ f ∈ forms routers, f.endpoint.key = key ∧ ¬FullyMounted routers f

/-- The first form with the key is not continued. -/
def FirstFullyMounted (routers : List Router) (key : Method × String) : Prop :=
  ∃ f, (forms routers).find? (·.endpoint.key == key) = some f ∧ FullyMounted routers f

section Contested

variable {routers : List Router} {key : Method × String}

/-- `FirstFullyMounted` keys are in the catalogue. -/
theorem FirstFullyMounted.key_mem (h : FirstFullyMounted routers key) :
    key ∈ (ofRouters routers).map Endpoint.key := by
  obtain ⟨f, hfirst, hfull⟩ := h
  have hkey : f.endpoint.key = key := by simpa using List.find?_some hfirst
  exact key_mem_ofRouters.mpr
    ⟨f, ⟨List.mem_of_find?_eq_some hfirst, Or.inr (hkey ▸ hfirst)⟩, hfull, hkey⟩

/-- `find?` finds a declared form first, if a file declares the key. -/
private theorem chain_eq_nil_of_first {f g : RouteForm} (hg : g ∈ forms routers)
    (hkey : g.endpoint.key = key) (hnil : g.chain = [])
    (hfirst : (forms routers).find? (·.endpoint.key == key) = some f) :
    f.chain = [] := by
  have hdirect : g ∈ directForms routers := mem_directForms.mpr ⟨mem_forms.mp hg, hnil⟩
  have hsome : ((directForms routers).find? (·.endpoint.key == key)).isSome :=
    List.find?_isSome.mpr ⟨g, hdirect, by simp [hkey]⟩
  obtain ⟨d, hd⟩ := Option.isSome_iff_exists.mp hsome
  -- Declared forms come before those below mounts.
  rw [forms, List.find?_append, hd, Option.some_or, Option.some.injEq] at hfirst
  subst hfirst
  exact (mem_directForms.mp (List.mem_of_find?_eq_some hd)).2

/-- `Contested` keys are in the catalogue or not by the form that comes first. -/
theorem key_mem_ofRouters_of_contested (h : Contested routers key) :
    key ∈ (ofRouters routers).map Endpoint.key ↔ FirstFullyMounted routers key := by
  refine ⟨fun hmem => ?_, FirstFullyMounted.key_mem⟩
  obtain ⟨f, ⟨hf, hclaim⟩, hfull, rfl⟩ := key_mem_ofRouters.mp hmem
  rcases hclaim with hnil | hfirst
  · exact absurd hnil (h.1 f hf rfl)
  · exact ⟨f, hfirst, hfull⟩

/-- `Contested` aside, whether a key is in the catalogue does not depend on which form comes
first. -/
theorem key_mem_ofRouters_of_not_contested (h : ¬Contested routers key) :
    key ∈ (ofRouters routers).map Endpoint.key ↔
      ∃ f ∈ forms routers, f.endpoint.key = key ∧ FullyMounted routers f ∧
        (f.chain = [] ∨ ∀ g ∈ forms routers, g.endpoint.key = key → g.chain ≠ []) := by
  constructor
  · intro hmem
    obtain ⟨f, ⟨hf, hclaim⟩, hfull, rfl⟩ := key_mem_ofRouters.mp hmem
    refine ⟨f, hf, rfl, hfull, ?_⟩
    rcases hclaim with hnil | hfirst
    · exact Or.inl hnil
    · -- A declared form with the key would come before one below a mount.
      by_cases hnil : f.chain = []
      · exact Or.inl hnil
      · exact Or.inr fun g hg hkey hdeclared =>
          hnil (chain_eq_nil_of_first hg hkey hdeclared hfirst)
  · rintro ⟨f, hf, rfl, hfull, hnil | hmounted⟩
    · exact key_mem_ofRouters.mpr ⟨f, ⟨hf, Or.inl hnil⟩, hfull, rfl⟩
    · -- No form with the key is continued, or the key would be contested.
      have hall : ∀ g ∈ forms routers, g.endpoint.key = f.endpoint.key →
          FullyMounted routers g := by
        intro g hg hkey
        by_contra hnot
        exact h ⟨hmounted, ⟨f, hf, rfl, hfull⟩, g, hg, hkey, hnot⟩
      obtain ⟨g, hg, hkey⟩ := exists_first hf
      exact FirstFullyMounted.key_mem ⟨g, hg, hall g (List.mem_of_find?_eq_some hg) hkey⟩

variable {routers' : List Router} {σ : Equiv.Perm Nat}

/-- `Contested` does not depend on the numbers. -/
theorem Renumbers.contested (h : Renumbers σ routers routers') :
    Contested routers' key ↔ Contested routers key := by
  simp only [Contested, h.exists_forms, h.forall_forms, h.fullyMounted, endpoint_renumber, ne_eq,
    chain_renumber_eq_nil]

/-- `ofRouters` has a key that is not `Contested` under other numbers if it had it before, and only
then. -/
theorem Renumbers.key_mem (h : Renumbers σ routers routers') (hkey : ¬Contested routers key) :
    key ∈ (ofRouters routers').map Endpoint.key ↔ key ∈ (ofRouters routers).map Endpoint.key := by
  rw [key_mem_ofRouters_of_not_contested hkey,
    key_mem_ofRouters_of_not_contested (mt h.contested.mp hkey)]
  simp only [h.exists_forms, h.forall_forms, h.fullyMounted, endpoint_renumber, ne_eq,
    chain_renumber_eq_nil]

end Contested

end RouteAtlas.Catalogue
