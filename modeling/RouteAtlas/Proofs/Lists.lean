import Mathlib.Data.List.Nodup

/-!
# Lists

Facts about lists that are not about routes: removing repetitions, the one item with a key, reading
item by item, going through numbered items, and joining with a separator.
-/

namespace RouteAtlas

/-! ## Removing repetitions -/

section EraseDups

variable {α : Type} [BEq α]

/-- Induction along `eraseDups`: the first item stays, and its repetitions go from the rest. -/
private theorem eraseDups_induction {motive : List α → Prop} (nil : motive [])
    (cons : ∀ a l, motive (l.filter fun x => !x == a) → motive (a :: l)) (l : List α) :
    motive l := by
  -- The rest without the repetitions is shorter but no sublist that recursion would see.
  induction h : l.length using Nat.strongRecOn generalizing l with
  | ind n ih =>
    cases l with
    | nil => exact nil
    | cons a rest =>
      have hlen : (rest.filter fun x => !x == a).length < n := by
        have hle := List.length_filter_le (fun x => !x == a) rest
        simp only [List.length_cons] at h
        omega
      exact cons a rest (ih _ hlen _ rfl)

variable [LawfulBEq α]

/-- `eraseDups` leaves no repetition. -/
theorem nodup_eraseDups (l : List α) : l.eraseDups.Nodup := by
  induction l using eraseDups_induction with
  | nil => simp
  | cons a l ih =>
    rw [List.eraseDups_cons, List.nodup_cons, List.mem_eraseDups, List.mem_filter]
    exact ⟨by simp, ih⟩

/-- `eraseDups` keeps a list without repetitions as it is. -/
theorem eraseDups_of_nodup {l : List α} (h : l.Nodup) : l.eraseDups = l := by
  induction l with
  | nil => rfl
  | cons a l ih =>
    obtain ⟨ha, hl⟩ := List.nodup_cons.mp h
    have hkeep : (l.filter fun x => !x == a) = l := by
      rw [List.filter_eq_self]
      intro x hx
      have hne : x ≠ a := fun heq => ha (heq ▸ hx)
      simpa using hne
    rw [List.eraseDups_cons, hkeep, ih hl]

/-- `filter` and `eraseDups` can be done in either order. -/
private theorem filter_eraseDups (p : α → Bool) (l : List α) :
    l.eraseDups.filter p = (l.filter p).eraseDups := by
  induction l using eraseDups_induction with
  | nil => rfl
  | cons a l ih =>
    rw [List.eraseDups_cons]
    -- If `p` keeps the first item, both orders remove its repetitions; if not, they are gone
    -- already.
    by_cases ha : p a = true
    · rw [List.filter_cons_of_pos ha, List.filter_cons_of_pos ha, List.eraseDups_cons, ih]
      simp only [List.filter_filter, Bool.and_comm]
    · -- What `p` keeps is not the first item, so nothing more goes with it.
      have hkeep : (l.filter fun x => !x == a).filter p = l.filter p := by
        rw [List.filter_filter]
        refine List.filter_congr fun x _ => ?_
        by_cases hx : x = a
        · simp [hx, ha]
        · simp [hx]
      rw [List.filter_cons_of_neg ha, List.filter_cons_of_neg ha, ih, hkeep]

/-- `eraseDups` may be done within the two parts of a list first. -/
theorem eraseDups_append_eraseDups (l m : List α) :
    (l.eraseDups ++ m.eraseDups).eraseDups = (l ++ m).eraseDups := by
  -- What is removed depends on the members of the first part, and those are kept.
  have hold : m.eraseDups.removeAll l.eraseDups = m.eraseDups.removeAll l := by
    refine List.filter_congr fun x _ => ?_
    simp
  have hnew : m.eraseDups.removeAll l = (m.removeAll l).eraseDups := filter_eraseDups _ m
  rw [List.eraseDups_append, List.eraseDups_append, eraseDups_of_nodup (nodup_eraseDups l), hold,
    hnew, eraseDups_of_nodup (nodup_eraseDups _)]

/-- `eraseDups` may be done within what each item gives first. -/
theorem eraseDups_flatMap_eraseDups {β : Type} (f : β → List α) (l : List β) :
    (l.flatMap fun x => (f x).eraseDups).eraseDups = (l.flatMap f).eraseDups := by
  induction l with
  | nil => rfl
  | cons x l ih =>
    calc (((x :: l).flatMap fun x => (f x).eraseDups)).eraseDups
        = ((f x).eraseDups.eraseDups ++
          (l.flatMap fun x => (f x).eraseDups).eraseDups).eraseDups := by
          rw [List.flatMap_cons, eraseDups_append_eraseDups]
      _ = ((f x).eraseDups ++ (l.flatMap f).eraseDups).eraseDups := by
          rw [eraseDups_of_nodup (nodup_eraseDups (f x)), ih]
      _ = ((x :: l).flatMap f).eraseDups := by
          rw [eraseDups_append_eraseDups, List.flatMap_cons]

end EraseDups

/-! ## The item with a key -/

/-- Among items with distinct keys, `filter` finds one item with the key of a given one. -/
theorem filter_key_eq_singleton {α β : Type} [DecidableEq β] {key : α → β} {l : List α}
    (h : (l.map key).Nodup) {a : α} (ha : a ∈ l) :
    l.filter (fun x => key x = key a) = [a] := by
  obtain ⟨before, after, rfl⟩ := List.append_of_mem ha
  simp only [List.map_append, List.map_cons, List.nodup_append, List.nodup_cons, List.mem_map,
    List.mem_cons] at h
  -- The other items come before or after it, under other keys.
  have hbefore : before.filter (fun x => key x = key a) = [] := by
    rw [List.filter_eq_nil_iff]
    intro x hx
    simpa using h.2.2 (key x) ⟨x, hx, rfl⟩ (key a) (Or.inl rfl)
  have hafter : after.filter (fun x => key x = key a) = [] := by
    rw [List.filter_eq_nil_iff]
    intro x hx
    simpa using fun heq => h.2.1.1 ⟨x, hx, heq⟩
  simp [List.filter_append, hbefore, hafter]

/-! ## Reading item by item -/

/-- `mapM read` reads back what has been written item by item. -/
theorem mapM_map_eq_some {α β γ : Type} {read : β → Option γ} {write : α → β} {result : α → γ}
    {l : List α} (h : ∀ x ∈ l, read (write x) = some (result x)) :
    (l.map write).mapM read = some (l.map result) := by
  induction l with
  | nil => rfl
  | cons x l ih =>
    have hrest := ih fun y hy => h y (List.mem_cons_of_mem _ hy)
    simp [h x List.mem_cons_self, hrest]

/-! ## Numbered items -/

/-- `flatMap` over numbered items is `flatMap` over `range`, if the numbers are enough to go by. -/
theorem flatMap_zipIdx {α β : Type} {l : List α} {f : α × Nat → List β} {g : Nat → List β}
    (h : ∀ a i, l[i]? = some a → f (a, i) = g i) :
    l.zipIdx.flatMap f = (List.range l.length).flatMap g := by
  -- The numbers of the items are a range, so both sides go through the same numbers.
  have hnumbers : l.zipIdx.map Prod.snd = List.range l.length := by
    rw [List.zipIdx_map_snd, List.range_eq_range']
  rw [← hnumbers, List.flatMap_map]
  apply List.flatMap_congr
  intro x hx
  obtain ⟨a, i⟩ := x
  exact h a i (List.mk_mem_zipIdx_iff_getElem?.mp hx)

/-! ## Separators -/

/-- What `intercalate` puts together starts with the first item. -/
theorem intercalate_cons_eq_append {α : Type} (sep t : List α) (ts : List (List α)) :
    ∃ more, sep.intercalate (t :: ts) = t ++ more := by
  cases ts with
  | nil => exact ⟨[], by simp⟩
  | cons u us => exact ⟨_, by rw [List.intercalate_cons_cons, List.append_assoc]⟩

/-- Beside each item, `intercalate` leaves room for as many more as there are items, as long as
something separates them. -/
theorem length_add_length_le_intercalate {α : Type} {sep t : List α} (hsep : sep ≠ [])
    {ts : List (List α)} (ht : t ∈ ts) :
    t.length + ts.length ≤ (sep.intercalate ts).length + 1 := by
  have hpos := List.length_pos_iff.mpr hsep
  induction ts generalizing t with
  | nil => exact absurd ht List.not_mem_nil
  | cons u us ih =>
    cases us with
    | nil => simp [List.mem_singleton.mp ht]
    | cons v vs =>
      rw [List.intercalate_cons_cons, List.length_append, List.length_append, List.length_cons]
      -- The given item is the first one, or one of those after the first separator.
      obtain rfl | ht := List.mem_cons.mp ht
      · have hnext := ih (List.mem_cons_self (a := v) (l := vs))
        omega
      · have hnext := ih ht
        omega

end RouteAtlas
