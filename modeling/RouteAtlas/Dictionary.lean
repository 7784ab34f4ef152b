/-!
# Dictionaries

Values under names. A name has one place, the one where it was first put.
-/

namespace RouteAtlas

/-- Values under names. -/
structure Dictionary (α : Type) where
  entries : List (String × α) := []
deriving DecidableEq, Repr, Inhabited

namespace Dictionary

variable {α : Type}

/-- The value in a list of entries under a name. -/
def findIn (name : String) : List (String × α) → Option α
  | [] => none
  | (k, v) :: rest => if k = name then some v else findIn name rest

/-- The entries with a value put under a name. -/
def putIn (name : String) (value : α) : List (String × α) → List (String × α)
  | [] => [(name, value)]
  | (k, v) :: rest => if k = name then (k, value) :: rest else (k, v) :: putIn name value rest

/-- The value under a name. -/
def find? (d : Dictionary α) (name : String) : Option α := findIn name d.entries

/-- There is a value under the name. -/
def has (d : Dictionary α) (name : String) : Bool := (d.find? name).isSome

/-- Puts a value under a name, in place of the one that was there. -/
def put (d : Dictionary α) (name : String) (value : α) : Dictionary α :=
  ⟨putIn name value d.entries⟩

/-- Puts a value under a name that has none. -/
def putAbsent (d : Dictionary α) (name : String) (value : α) : Dictionary α :=
  if d.has name then d else d.put name value

/-- The names that have a value. -/
def names (d : Dictionary α) : List String := d.entries.map Prod.fst

/-- Puts several values, one after the other. -/
def putAll (d : Dictionary α) (more : List (String × α)) : Dictionary α :=
  more.foldl (fun d (k, v) => d.put k v) d

/-- `findIn` finds what `putIn` has put, and all else as before. -/
theorem findIn_putIn (name other : String) (value : α) (entries : List (String × α)) :
    findIn other (putIn name value entries) =
      if name = other then some value else findIn other entries := by
  induction entries with
  | nil => simp [putIn, findIn]
  | cons e rest ih => grind [putIn, findIn]

/-- `find?` finds the value that `put` has put under its name, and all others as before. -/
@[simp] theorem find?_put (d : Dictionary α) (name other : String) (value : α) :
    (d.put name value).find? other = if name = other then some value else d.find? other :=
  findIn_putIn name other value d.entries

/-- `find?` finds the value that `putAbsent` has put under a name that had none, and all others as
before. -/
theorem find?_putAbsent (d : Dictionary α) (name other : String) (value : α) :
    (d.putAbsent name value).find? other = (d.find? other).or
      (if name = other then some value else none) := by
  rw [putAbsent, has]
  by_cases hname : name = other
  · rw [if_pos hname, ← hname]
    cases hfound : d.find? name with
    | none => simp
    | some old => simpa using hfound
  · rw [if_neg hname, Option.or_none]
    split
    · rfl
    · rw [find?_put, if_neg hname]

/-- `putIn` adds one entry, and leaves no others than there were. -/
theorem mem_putIn {name : String} {value : α} {entries : List (String × α)} {e : String × α}
    (h : e ∈ putIn name value entries) : e = (name, value) ∨ e ∈ entries := by
  induction entries with
  | nil => exact Or.inl (List.mem_singleton.mp h)
  | cons first rest ih =>
    obtain ⟨k, v⟩ := first
    rw [putIn] at h
    split at h
    · rename_i hk
      rcases List.mem_cons.mp h with rfl | hrest
      · exact Or.inl (by rw [hk])
      · exact Or.inr (List.mem_cons_of_mem _ hrest)
    · rcases List.mem_cons.mp h with rfl | hrest
      · exact Or.inr List.mem_cons_self
      · exact (ih hrest).imp_right (List.mem_cons_of_mem _)

/-- `put` adds one entry, and leaves no others than there were. -/
theorem mem_put {d : Dictionary α} {name : String} {value : α} {e : String × α}
    (h : e ∈ (d.put name value).entries) : e = (name, value) ∨ e ∈ d.entries :=
  mem_putIn h

/-- `putAll` adds the entries given, and leaves no others than there were. -/
theorem mem_putAll {d : Dictionary α} {more : List (String × α)} {e : String × α}
    (h : e ∈ (d.putAll more).entries) : e ∈ more ∨ e ∈ d.entries := by
  induction more generalizing d with
  | nil => exact Or.inr h
  | cons first rest ih =>
    rcases ih (d := d.put first.1 first.2) h with hrest | hput
    · exact Or.inl (List.mem_cons_of_mem _ hrest)
    · rcases mem_put hput with rfl | hmem
      · exact Or.inl List.mem_cons_self
      · exact Or.inr hmem

/-- `find?` gives the value of an entry. -/
theorem mem_of_find? {d : Dictionary α} {name : String} {value : α}
    (h : d.find? name = some value) : (name, value) ∈ d.entries := by
  obtain ⟨entries⟩ := d
  induction entries with
  | nil => exact nomatch h
  | cons first rest ih =>
    obtain ⟨k, v⟩ := first
    rw [find?, findIn] at h
    split at h
    · rename_i hk
      rw [hk, Option.some.inj h]
      exact List.mem_cons_self
    · exact List.mem_cons_of_mem _ (ih h)

end Dictionary

end RouteAtlas
