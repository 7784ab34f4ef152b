import Mathlib.Data.List.Nodup
import RouteAtlas.Project.EntryPoints
import RouteAtlas.Proofs.Path.Names

/-!
# Trees of files

A directory has each of its members under a name of its own. What is below an entry is found along
names, one directory after the other, and links are not followed. Sorting a tree puts the members of
every directory in the order of their names and keeps them otherwise.

## Key results

- `memberIn?_eq_some_iff`: what a directory has under a name is the member with that name
- `Proper.isName_of_below?`: what leads to something below an entry are names
- `mem_members_sorted`, `pairwise_members_sorted`: the members of a sorted directory, and their
  order
-/

namespace RouteAtlas.Entry

/-- A tree that a disk can have: the members of a directory have names, and no two of them the same
one. -/
inductive Proper : Entry → Prop where
  | file (text? : Option String) : Proper (.file text?)
  | link (target : String) : Proper (.link target)
  | directory {members : List (String × Entry)} (distinct : (members.map Prod.fst).Nodup)
      (isName : ∀ m ∈ members, Path.IsName m.1) (below : ∀ m ∈ members, Proper m.2) :
      Proper (.directory members)

variable {e below : Entry} {name : String} {names : List String} {members : List (String × Entry)}

/-- The members of a `Proper` entry have distinct names. -/
theorem Proper.distinct (h : e.Proper) : (e.members.map Prod.fst).Nodup := by
  cases h with
  | file text? => exact List.nodup_nil
  | link target => exact List.nodup_nil
  | directory hdistinct _ _ => exact hdistinct

/-- The members of a `Proper` entry are `Proper`. -/
theorem Proper.of_mem_members (h : e.Proper) : ∀ m ∈ e.members, m.2.Proper := by
  cases h with
  | file text? => exact fun _ hm => absurd hm List.not_mem_nil
  | link target => exact fun _ hm => absurd hm List.not_mem_nil
  | directory _ _ hbelow => exact hbelow

/-- Induction on `Proper` trees: what holds of a tree if it holds of the members at its top holds of
all trees. -/
theorem Proper.induction {P : Entry → Prop}
    (step : ∀ e : Entry, e.Proper → (∀ m ∈ e.members, P m.2) → P e) (h : e.Proper) :
    P e := by
  induction h with
  | file text? => exact step _ (.file text?) fun _ hm => absurd hm List.not_mem_nil
  | link target => exact step _ (.link target) fun _ hm => absurd hm List.not_mem_nil
  | directory hdistinct hnames hproper ih => exact step _ (.directory hdistinct hnames hproper) ih

/-! ## What is below an entry -/

/-- What is below an entry, at the end of some names. -/
def below? : Entry → List String → Option Entry
  | e, [] => some e
  | e, name :: rest => (memberIn? name e.members).bind (below? · rest)

/-- `below?`, with one name more, leads on to the member that has it. -/
theorem below?_concat (h : e.below? names = some below) {m : Entry}
    (hmember : memberIn? name below.members = some m) : e.below? (names ++ [name]) = some m := by
  -- The names in front are gone along first, from whatever entry.
  induction names generalizing e with
  | nil =>
    obtain rfl := Option.some.inj h
    rw [List.nil_append, below?, hmember]
    rfl
  | cons first rest ih =>
    obtain ⟨next, hnext, hrest⟩ := Option.bind_eq_some_iff.mp h
    rw [List.cons_append, below?, hnext]
    exact ih hrest

/-- `memberIn?` finds a member with the name. -/
theorem mem_of_memberIn? (h : memberIn? name members = some e) : (name, e) ∈ members := by
  induction members with
  | nil => exact nomatch h
  | cons m rest ih =>
    obtain ⟨k, first⟩ := m
    rw [memberIn?] at h
    by_cases hk : k = name
    · rw [if_pos hk, Option.some.injEq] at h
      rw [hk, h]
      exact List.mem_cons_self
    · rw [if_neg hk] at h
      exact List.mem_cons_of_mem _ (ih h)

/-- `memberIn?` finds the member with the name, if names are distinct. -/
theorem memberIn?_eq_some_iff (hdistinct : (members.map Prod.fst).Nodup) :
    memberIn? name members = some e ↔ (name, e) ∈ members := by
  refine ⟨mem_of_memberIn?, fun hmem => ?_⟩
  induction members with
  | nil => exact absurd hmem List.not_mem_nil
  | cons m rest ih =>
    obtain ⟨k, first⟩ := m
    obtain ⟨hfirst, hrest⟩ := List.nodup_cons.mp hdistinct
    rw [memberIn?]
    rcases List.mem_cons.mp hmem with heq | hmem
    · obtain ⟨rfl, rfl⟩ := Prod.mk.inj heq
      rw [if_pos rfl]
    · have hname : name ∈ rest.map Prod.fst := List.mem_map.mpr ⟨_, hmem, rfl⟩
      -- The member comes later, so the first one has another name and is passed.
      have hother : k ≠ name := fun hk => hfirst (hk ▸ hname)
      rw [if_neg hother]
      exact ih hrest hmem

/-- What leads to something `below?` an entry are names. -/
theorem Proper.isName_of_below? (h : e.Proper) (hbelow : e.below? names = some below) :
    ∀ n ∈ names, Path.IsName n := by
  induction names generalizing e with
  | nil => exact fun _ hn => absurd hn List.not_mem_nil
  | cons name rest ih =>
    obtain ⟨next, hnext, hrest⟩ := Option.bind_eq_some_iff.mp hbelow
    have hmem := mem_of_memberIn? hnext
    cases h with
    | file text? => exact absurd hmem List.not_mem_nil
    | link target => exact absurd hmem List.not_mem_nil
    | directory _ hnames hproper =>
      exact List.forall_mem_cons.mpr ⟨hnames _ hmem, ih (hproper _ hmem) hrest⟩

/-! ## Sorted trees -/

/-- `sortedMembers` sorts each member. -/
private theorem sortedMembers_eq_map (members : List (String × Entry)) :
    sortedMembers members = members.map fun m => (m.1, m.2.sorted) := by
  induction members with
  | nil => rfl
  | cons m rest ih => rw [sortedMembers, ih, List.map_cons]

/-- `sorted` sorts each member, and then the members by name. -/
private theorem members_sorted (e : Entry) :
    e.sorted.members = (e.members.map fun m => (m.1, m.2.sorted)).mergeSort fun a b =>
      a.1 ≤ b.1 := by
  cases e with
  | file text? => exact List.mergeSort_nil.symm
  | link target => exact List.mergeSort_nil.symm
  | directory members => rw [sorted, sortedMembers_eq_map]; rfl

/-- `sorted` has the members of the directory, each sorted. -/
theorem mem_members_sorted {m : String × Entry} :
    m ∈ e.sorted.members ↔ ∃ m' ∈ e.members, (m'.1, m'.2.sorted) = m := by
  rw [members_sorted, List.mem_mergeSort, List.mem_map]

/-- `sorted` has the members in the order of their names. -/
theorem pairwise_members_sorted (hdistinct : (e.members.map Prod.fst).Nodup) :
    e.sorted.members.Pairwise fun a b => a.1 < b.1 := by
  -- Sorting gives an order in which equal names may meet, and distinct names rule that out.
  have hordered : e.sorted.members.Pairwise fun a b => decide (a.1 ≤ b.1) = true := by
    rw [members_sorted]
    refine List.pairwise_mergeSort (fun a b c => ?_) (fun a b => ?_) _
    · simpa only [decide_eq_true_eq] using String.le_trans
    · simpa only [Bool.or_eq_true, decide_eq_true_eq] using String.le_total a.1 b.1
  have hnames : (e.sorted.members.map Prod.fst).Nodup := by
    rw [members_sorted, ((List.mergeSort_perm _ _).map _).nodup_iff, List.map_map]
    exact hdistinct
  refine (hordered.and (List.pairwise_map.mp hnames)).imp fun {a b} ⟨hle, hne⟩ => ?_
  -- Names that are not in the other order either are equal.
  refine String.not_le.mp fun hge => ?_
  exact hne (String.le_antisymm (of_decide_eq_true hle) hge)

end RouteAtlas.Entry
