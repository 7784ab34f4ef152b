import Mathlib.Data.List.DropRight
import Mathlib.Data.Option.Basic
import RouteAtlas.Json.Reader
import RouteAtlas.Json.Writer
import RouteAtlas.Proofs.Lists

/-!
# Reading what was written

A value that is written over several lines is read back as it was. Each reader is shown to stop
where its part of the text ends, whatever comes after: the closing quote of a string is the first
one that is not escaped, and the closing mark of a list is the first one that is not inside an item.

Numbers are kept as they are written and need not be numerals, so they are left out.

## Key results

- `readText_name`: strings, with every character that has to be escaped
- `readList_writeList`: lists of whatever can be read back
- `read_pretty`: values without numbers
-/

namespace RouteAtlas.JsonValue

/-! ## Strings -/

/-- `hexDigit?` reads what `hexChar` writes. -/
private theorem hexDigit?_hexChar : ∀ n < 16, hexDigit? (hexChar n) = some n := by
  decide

/-- `readUnits` reads a backslash and a letter as the character that `escaped?` has for it. -/
private theorem readUnits_escape {e c : Char} (h : escaped? e = some c) (cs : List Char) :
    readUnits ('\\' :: e :: cs) = (readUnits cs).map fun p => (.char c :: p.1, p.2) := by
  rw [readUnits, h]
  · cases readUnits cs <;> rfl
  · -- The letter that announces a number stands for no character itself.
    rintro _ _ _ _ _ rfl
    have hnone : escaped? 'u' = none := by decide
    rw [hnone] at h
    cases h

/-- `readUnits` reads four digits after `u` as the unit they spell. -/
private theorem readUnits_hex {a b c d : Char} {i j k l : Nat} (ha : hexDigit? a = some i)
    (hb : hexDigit? b = some j) (hc : hexDigit? c = some k) (hd : hexDigit? d = some l)
    (cs : List Char) :
    readUnits ('\\' :: 'u' :: a :: b :: c :: d :: cs) =
      (readUnits cs).map fun p => (.unit (4096 * i + 256 * j + 16 * k + l) :: p.1, p.2) := by
  rw [readUnits, ha, hb, hc, hd]
  cases readUnits cs <;> rfl

/-- `readUnits` reads a control character that is given by its number. -/
private theorem readUnits_control {n : Nat} (h : n < 0x20) (cs : List Char) :
    readUnits ('\\' :: 'u' :: '0' :: '0' :: hexChar (n / 16) :: hexChar (n % 16) :: cs) =
      (readUnits cs).map fun p => (.unit n :: p.1, p.2) := by
  have hzero : hexDigit? '0' = some 0 := by decide
  have hhigh := hexDigit?_hexChar (n / 16) (by omega)
  have hlow := hexDigit?_hexChar (n % 16) (by omega)
  -- Two digits are enough, so the first two are zeros.
  have hsum : 4096 * 0 + 256 * 0 + 16 * (n / 16) + n % 16 = n := by omega
  rw [readUnits_hex hzero hzero hhigh hlow, hsum]

/-- `readUnits` reads a character that need not be escaped as itself. -/
private theorem readUnits_plain {c : Char} (hquote : c ≠ '\x22') (hslash : c ≠ '\\')
    (hcontrol : ¬ c.toNat < 0x20) (cs : List Char) :
    readUnits (c :: cs) = (readUnits cs).map fun p => (.char c :: p.1, p.2) := by
  have hguard : (decide (0x20 ≤ c.toNat) && c != '\\') = true := by
    simp [hslash, Nat.not_lt.mp hcontrol]
  rw [readUnits, guard, if_pos hguard]
  · cases readUnits cs <;> rfl
  · -- The other cases of the reader need a quote or a backslash.
    exact hquote
  · intro _ _ _ _ _ h _
    exact hslash h
  · intro _ _ h _
    exact hslash h

/-- `decodeUnits` takes a unit that is no surrogate for a character, whatever comes after it. -/
private theorem decodeUnits_unit {n : Nat} (h : n < 0xd800) (us : List StringUnit) :
    decodeUnits (.unit n :: us) = (decodeUnits us).map (Char.ofNat n :: ·) := by
  have hhigh : isHigh n = false := by
    simp only [isHigh, Bool.and_eq_false_iff, decide_eq_false_iff_not]
    omega
  have hlow : isLow n = false := by
    simp only [isLow, Bool.and_eq_false_iff, decide_eq_false_iff_not]
    omega
  cases us with
  | nil => simp [decodeUnits, hhigh, hlow]
  | cons u us => cases u <;> simp [decodeUnits, hhigh, hlow]

/-- What `writeChar` writes is one unit for `readUnits`, and `decodeUnits` gives the character for
it. -/
private theorem readUnits_writeChar (c : Char) : ∃ u : StringUnit,
    (∀ cs, readUnits (writeChar c ++ cs) = (readUnits cs).map fun p => (u :: p.1, p.2)) ∧
    ∀ us, decodeUnits (u :: us) = (decodeUnits us).map (c :: ·) := by
  unfold writeChar
  split
  case h_1 | h_2 | h_3 | h_4 | h_5 | h_6 | h_7 =>
    -- These characters have a letter of their own.
    exact ⟨.char _, readUnits_escape (by decide), fun _ => rfl⟩
  case h_8 hquote hslash _ _ _ _ _ =>
    -- The rest is written by number or as it is.
    by_cases hcontrol : c.toNat < 0x20
    · rw [if_pos hcontrol]
      refine ⟨.unit c.toNat, readUnits_control hcontrol, fun us => ?_⟩
      rw [decodeUnits_unit (by omega), Char.ofNat_toNat]
    · rw [if_neg hcontrol]
      exact ⟨.char c, readUnits_plain hquote hslash hcontrol, fun _ => rfl⟩

/-- `readUnits` stops at the quote that was written after a text. -/
private theorem readUnits_flatMap_writeChar (cs rest : List Char) :
    ∃ us, readUnits (cs.flatMap writeChar ++ '\x22' :: rest) = some (us, rest) ∧
      decodeUnits us = some cs := by
  -- Each character is one unit, so no quote inside the text is taken for the last one.
  induction cs with
  | nil => exact ⟨[], rfl, rfl⟩
  | cons c cs ih =>
    obtain ⟨us, hread, hdecode⟩ := ih
    obtain ⟨u, hchar, hunit⟩ := readUnits_writeChar c
    refine ⟨u :: us, ?_, ?_⟩
    · rw [List.flatMap_cons, List.append_assoc, hchar, hread, Option.map_some]
    · rw [hunit, hdecode, Option.map_some]

/-- `readText` reads a string back from its quotes, or finds it to be no text if it is none. -/
theorem readText_name (name : Option String) : ∃ cs, (name.map writeText).getD brokenText =
    '\x22' :: cs ∧
    ∀ rest, readText (cs ++ rest) = some (name, rest) := by
  cases name with
  | none =>
    -- What is written is half of a surrogate pair: one unit, and no character.
    refine ⟨['\\', 'u', 'd', '8', '0', '0', '\x22'], rfl, fun rest => ?_⟩
    have hread : readUnits ('\\' :: 'u' :: 'd' :: '8' :: '0' :: '0' :: '\x22' :: rest) =
        some ([.unit 0xd800], rest) :=
      readUnits_hex (i := 13) (j := 8) (k := 0) (l := 0) (by decide) (by decide) (by decide)
        (by decide) _
    have hdecode : decodeUnits [.unit 0xd800] = none := by decide
    simp [readText, hread, hdecode]
  | some s =>
    refine ⟨s.toList.flatMap writeChar ++ ['\x22'], rfl, fun rest => ?_⟩
    obtain ⟨us, hread, hdecode⟩ := readUnits_flatMap_writeChar s.toList rest
    rw [readText, List.append_assoc, List.singleton_append, hread]
    simp [hdecode]

/-! ## Blanks -/

/-- `skipBlanks` stops at a character that is no blank. -/
private theorem skipBlanks_cons {c : Char} (h : isJsonBlank c = false) (cs : List Char) :
    skipBlanks (c :: cs) = c :: cs :=
  List.dropWhile_cons_of_neg (by simp [h])

/-- `skipBlanks` passes over what `newLine` writes. -/
private theorem skipBlanks_newLine (level : Nat) (cs : List Char) :
    skipBlanks (newLine level ++ cs) = skipBlanks cs := by
  refine List.dropWhile_append_of_pos fun c hc => ?_
  simp only [newLine, List.mem_cons, List.mem_replicate] at hc
  obtain rfl | ⟨_, rfl⟩ := hc <;> decide

/-- After `skipBlanks` there is no blank to pass over. -/
private theorem skipBlanks_idem (cs : List Char) : skipBlanks (skipBlanks cs) = skipBlanks cs :=
  List.dropWhile_idempotent _ _

/-- A reader that passes over blanks in front of what it reads. -/
def SkipsBlanks {α : Type} (item : Reads α) : Prop := ∀ cs, item (skipBlanks cs) = item cs

/-- `readValue` passes over blanks. -/
private theorem readValue_skipsBlanks (n : Nat) : SkipsBlanks (readValue n) := by
  intro cs
  cases n with
  | zero => rfl
  | succ n => rw [readValue, readValue, skipBlanks_idem]

/-- `readMember` passes over blanks. -/
private theorem readMember_skipsBlanks (value : Reads JsonValue) :
    SkipsBlanks (readMember value) := by
  intro cs
  rw [readMember, readMember, skipBlanks_idem]

/-! ## Lists -/

section Lists

variable {α : Type} {item : Reads α} {close : Char}

/-- A reader that passes over blanks passes over what `newLine` writes. -/
theorem SkipsBlanks.newLine (h : SkipsBlanks item) (level : Nat) (cs : List Char) :
    item (newLine level ++ cs) = item cs := by
  rw [← h (JsonValue.newLine level ++ cs), skipBlanks_newLine, h]

/-- `readItems` passes over blanks, if the reader of an item does. -/
theorem SkipsBlanks.readItems (h : SkipsBlanks item) (close : Char) (n : Nat) :
    SkipsBlanks (readItems item close n) := by
  intro cs
  cases n with
  | zero => rfl
  | succ n => rw [JsonValue.readItems, JsonValue.readItems, h]

/-- `readItems` stops where the closing mark comes after an item. -/
private theorem readItems_last {x : α} {cs after rest : List Char} (n : Nat)
    (hitem : item cs = some (x, after)) (hafter : skipBlanks after = close :: rest)
    (hcomma : close ≠ ',') :
    readItems item close (n + 1) cs = some ([x], rest) := by
  simp [readItems, hitem, hafter]

/-- `readItems` reads on where a comma comes after an item. -/
private theorem readItems_comma {x : α} {cs after rest : List Char} (n : Nat)
    (hitem : item cs = some (x, after)) (hafter : skipBlanks after = ',' :: rest) :
    readItems item close (n + 1) cs = (readItems item close n rest).map fun p =>
      (x :: p.1, p.2) := by
  rw [readItems, hitem]
  simp only [Option.bind_eq_bind, Option.bind_some, hafter]
  cases readItems item close n rest <;> rfl

/-- `readList` reads items unless the closing mark comes first. -/
private theorem readList_of_ne (hskips : SkipsBlanks item) {c : Char} {cs more : List Char}
    (hcs : skipBlanks cs = c :: more) (hne : c ≠ close) (n : Nat) :
    readList item close n cs = readItems item close n cs := by
  rw [← hskips.readItems close n cs, readList, hcs]
  exact if_neg hne

variable {text : α → List Char}

/-- `readItems` reads back items on lines of their own, one by one, up to the closing mark on the
last line. -/
private theorem readItems_intercalate (hskips : SkipsBlanks item)
    (hblank : isJsonBlank close = false) (hcomma : close ≠ ',') {x : α} {xs : List α}
    (hitems : ∀ y ∈ x :: xs, ∀ rest, item (text y ++ rest) = some (y, rest)) (level : Nat) {n : Nat}
    (hn : xs.length < n) (rest : List Char) :
    readItems item close n
      (([','] ++ newLine (level + 1)).intercalate ((x :: xs).map text) ++
        (newLine level ++ close :: rest)) =
        some (x :: xs, rest) := by
  -- Each item uses up one of the `n` steps, and the last one finds the closing mark.
  induction xs generalizing x n with
  | nil =>
    obtain ⟨m, rfl⟩ : ∃ m, n = m + 1 := ⟨n - 1, by omega⟩
    have hend : skipBlanks (newLine level ++ close :: rest) = close :: rest := by
      rw [skipBlanks_newLine, skipBlanks_cons hblank]
    rw [List.map_singleton, List.intercalate_singleton]
    exact readItems_last m (hitems x List.mem_cons_self _) hend hcomma
  | cons y ys ih =>
    obtain ⟨m, rfl⟩ : ∃ m, n = m + 1 := ⟨n - 1, by omega⟩
    -- The new line after the comma is passed over by whoever reads the next item.
    have hmore := ih (fun z hz => hitems z (List.mem_cons_of_mem _ hz)) (Nat.lt_of_succ_lt_succ hn)
    rw [List.map_cons, List.map_cons, List.intercalate_cons_cons, ← List.map_cons,
      List.append_assoc, List.append_assoc, List.append_assoc, List.singleton_append]
    rw [readItems_comma m (hitems x List.mem_cons_self _) (skipBlanks_cons (by decide) _),
      (hskips.readItems close m).newLine, hmore, Option.map_some]

/-- `writeList` starts with the opening mark. -/
private theorem writeList_eq_cons (opening closing : Char) (level : Nat)
    (items : List (List Char)) :
    writeList opening closing level items =
      opening :: (writeList opening closing level items).tail := by
  cases items <;> rfl

/-- What `writeList` writes is longer than the text of each item, and by at least as many characters
as there are items. -/
private theorem length_lt_length_writeList (opening closing : Char) (level : Nat) {x : α}
    {xs : List α} (h : x ∈ xs) :
    (text x).length + xs.length < (writeList opening closing level (xs.map text)).length := by
  have hsep : [','] ++ newLine (level + 1) ≠ [] := List.cons_ne_nil _ _
  have hle := length_add_length_le_intercalate hsep (List.mem_map_of_mem (f := text) h)
  rw [List.length_map] at hle
  -- The separators make up for the number of items, and the marks for the rest.
  cases xs with
  | nil => exact absurd h List.not_mem_nil
  | cons y ys =>
    simp only [List.map_cons] at hle ⊢
    simp only [writeList, List.cons_append, List.nil_append, List.length_append, List.length_cons]
      at hle ⊢
    omega

/-- `readList` reads back what `writeList` has written after the opening mark, if its items are read
back and none of them starts like the closing mark. What is left of the text bounds the number of
items. -/
theorem readList_writeList (hskips : SkipsBlanks item) (hblank : isJsonBlank close = false)
    (hcomma : close ≠ ',') {xs : List α}
    (hitems : ∀ x ∈ xs, ∀ rest, item (text x ++ rest) = some (x, rest))
    (hstart : ∀ x ∈ xs, ∃ c cs, text x = c :: cs ∧ isJsonBlank c = false ∧ c ≠ close)
    (opening : Char) (level : Nat) (rest : List Char) :
    let after := (writeList opening close level (xs.map text)).tail ++ rest
    readList item close after.length after = some (xs, rest) := by
  intro after
  cases xs with
  | nil => simp [after, readList, writeList, skipBlanks_cons hblank]
  | cons x xs =>
    -- The text that is left is at least as long as the list, so the steps suffice.
    have hcount : (x :: xs).length ≤ after.length := by
      have hlonger : (text x).length + (x :: xs).length < _ :=
        length_lt_length_writeList opening close level List.mem_cons_self
      rw [List.length_append, List.length_tail]
      omega
    have hafter : after = newLine (level + 1) ++
        (([','] ++ newLine (level + 1)).intercalate ((x :: xs).map text) ++
          (newLine level ++ close :: rest)) := by
      simp [after, writeList]
    -- The first item starts with a character that is neither blank nor the closing mark.
    obtain ⟨c, cs, hc, hcblank, hne⟩ := hstart x List.mem_cons_self
    obtain ⟨more, hmore⟩ :=
      intercalate_cons_eq_append ([','] ++ newLine (level + 1)) (text x) (xs.map text)
    have hfirst : skipBlanks after = c :: (cs ++ more ++ (newLine level ++ close :: rest)) := by
      rw [hafter, skipBlanks_newLine, List.map_cons, hmore, hc]
      exact skipBlanks_cons hcblank _
    rw [readList_of_ne hskips hfirst hne]
    generalize after.length = n at hcount ⊢
    rw [hafter, (hskips.readItems close n).newLine]
    exact readItems_intercalate hskips hblank hcomma hitems level hcount rest

end Lists

/-! ## Values -/

/-- A value in which there are no numbers. -/
inductive NumberFree : JsonValue → Prop where
  | null : NumberFree null
  | bool (b : Bool) : NumberFree (bool b)
  | text (s : String) : NumberFree (text s)
  | broken : NumberFree broken
  | array {items : List JsonValue} (h : ∀ v ∈ items, NumberFree v) : NumberFree (array items)
  | object {members : List (Option String × JsonValue)} (h : ∀ m ∈ members, NumberFree m.2) :
    NumberFree (object members)

/-- A member of an object at a level. -/
def writeMember (level : Nat) (m : Option String × JsonValue) : List Char :=
  (m.1.map writeText).getD brokenText ++ [':', ' '] ++ write level m.2

/-- `writeItems` writes each item at the level. -/
private theorem writeItems_eq_map (level : Nat) (items : List JsonValue) :
    writeItems level items = items.map (write level) := by
  induction items with
  | nil => rw [writeItems, List.map_nil]
  | cons v rest ih => rw [writeItems, List.map_cons, ih]

/-- `writeMembers` writes each member at the level. -/
private theorem writeMembers_eq_map (level : Nat) (members : List (Option String × JsonValue)) :
    writeMembers level members = members.map (writeMember level) := by
  induction members with
  | nil => rw [writeMembers, List.map_nil]
  | cons m rest ih =>
    obtain ⟨name, v⟩ := m
    rw [writeMembers, List.map_cons, ih, writeMember]

/-- Where `write` starts a value, there is neither a blank nor the closing mark of an array. -/
private theorem NumberFree.write_eq_cons {v : JsonValue} (h : NumberFree v) (level : Nat) :
    ∃ c cs, write level v = c :: cs ∧ isJsonBlank c = false ∧ c ≠ ']' := by
  cases h with
  | null => exact ⟨'n', ['u', 'l', 'l'], by rw [write]; rfl, by decide, by decide⟩
  | bool b =>
    cases b with
    | false => exact ⟨'f', ['a', 'l', 's', 'e'], by rw [write]; rfl, by decide, by decide⟩
    | true => exact ⟨'t', ['r', 'u', 'e'], by rw [write]; rfl, by decide, by decide⟩
  | text s => exact ⟨'\x22', _, by rw [write]; rfl, by decide, by decide⟩
  | broken => exact ⟨'\x22', _, by rw [write]; rfl, by decide, by decide⟩
  | array h => exact ⟨'[', _, by rw [write, writeList_eq_cons], by decide, by decide⟩
  | object h => exact ⟨'\x7b', _, by rw [write, writeList_eq_cons], by decide, by decide⟩

/-- `readMember` reads a member back, if `value` reads back its value. -/
private theorem readMember_writeMember {value : Reads JsonValue} (hskips : SkipsBlanks value)
    {level : Nat} {m : Option String × JsonValue}
    (hvalue : ∀ rest, value (write level m.2 ++ rest) = some (m.2, rest)) (rest : List Char) :
    readMember value (writeMember level m ++ rest) = some (m, rest) := by
  obtain ⟨name, v⟩ := m
  obtain ⟨cs, hname, hread⟩ := readText_name name
  -- The reader of the value passes over the blank after the colon.
  have hblank : value (' ' :: (write level v ++ rest)) = some (v, rest) := by
    rw [← hskips, ← hvalue rest, ← hskips (write level v ++ rest)]
    rfl
  have htext : writeMember level (name, v) ++ rest =
      '\x22' :: (cs ++ ':' :: ' ' :: (write level v ++ rest)) := by
    simp [writeMember, hname]
  have hcolon : skipBlanks (':' :: ' ' :: (write level v ++ rest)) =
      ':' :: ' ' :: (write level v ++ rest) :=
    skipBlanks_cons (by decide) _
  rw [htext, readMember, skipBlanks_cons (by decide)]
  simp [hread, hcolon, hblank]

/-- Where `writeMember` starts, there is neither a blank nor the closing mark of an object. -/
private theorem writeMember_eq_cons (level : Nat) (m : Option String × JsonValue) :
    ∃ c cs, writeMember level m = c :: cs ∧ isJsonBlank c = false ∧ c ≠ '\x7d' := by
  obtain ⟨cs, hname, _⟩ := readText_name m.1
  exact ⟨'\x22', _, by rw [writeMember, hname]; rfl, by decide, by decide⟩

/-- `readValue` reads a string back, and finds it to be no text if it is none. -/
private theorem readValue_name (name : Option String) (n : Nat) (rest : List Char) :
    readValue (n + 1) ((name.map writeText).getD brokenText ++ rest) =
      some ((name.map text).getD broken, rest) := by
  obtain ⟨cs, hname, hread⟩ := readText_name name
  rw [hname, List.cons_append, readValue, skipBlanks_cons (by decide)]
  simp [hread]

/-- `readValue` reads an array, if `readList` reads its items. -/
private theorem readValue_array {items : List JsonValue} {cs rest : List Char} {n : Nat}
    (h : readList (readValue n) ']' cs.length cs = some (items, rest)) :
    readValue (n + 1) ('[' :: cs) = some (array items, rest) := by
  rw [readValue, skipBlanks_cons (by decide)]
  simp [h]

/-- `readValue` reads an object, if `readList` reads its members. -/
private theorem readValue_object {members : List (Option String × JsonValue)} {cs rest : List Char}
    {n : Nat} (h : readList (readMember (readValue n)) '\x7d' cs.length cs = some (members, rest)) :
    readValue (n + 1) ('\x7b' :: cs) = some (object members, rest) := by
  rw [readValue, skipBlanks_cons (by decide)]
  simp [h]

/-- `readValue` reads back what `write` has written of a value without numbers, whatever comes after
it. Its text is longer than the texts of the values in it, so its length is enough to nest as deep
as the value does. -/
private theorem NumberFree.readValue_write {v : JsonValue} (h : NumberFree v) {level n : Nat}
    (hn : (write level v).length ≤ n) (rest : List Char) :
    readValue (n + 1) (write level v ++ rest) = some (v, rest) := by
  -- The values inside are at the next level and have one step of nesting less to go.
  induction h generalizing level n rest with
  | null =>
    rw [write]
    rfl
  | bool b => cases b <;> (rw [write]; rfl)
  | text s =>
    rw [write]
    exact readValue_name (some s) n rest
  | broken =>
    rw [write]
    exact readValue_name none n rest
  | @array items h ih =>
    rw [write, writeItems_eq_map] at hn ⊢
    -- Each item is shorter than the array, so the induction hypothesis has steps enough for it.
    have hitems : ∀ v ∈ items, ∀ rest, readValue n (write (level + 1) v ++ rest) =
        some (v, rest) := by
      intro v hv rest
      have hshorter : (write (level + 1) v).length + _ < _ :=
        length_lt_length_writeList '[' ']' level hv
      obtain ⟨m, rfl⟩ : ∃ m, n = m + 1 := ⟨n - 1, by omega⟩
      exact ih v hv (by omega) rest
    rw [writeList_eq_cons]
    exact readValue_array
      (readList_writeList (readValue_skipsBlanks n) (by decide) (by decide) hitems
        (fun v hv => (h v hv).write_eq_cons _) _ _ rest)
  | @object members h ih =>
    rw [write, writeMembers_eq_map] at hn ⊢
    -- The same for the members, whose values are shorter still by the name.
    have hmembers : ∀ m ∈ members, ∀ rest,
        readMember (readValue n) (writeMember (level + 1) m ++ rest) = some (m, rest) := by
      intro m hm rest
      have hshorter : (writeMember (level + 1) m).length + _ < _ :=
        length_lt_length_writeList '\x7b' '\x7d' level hm
      have hvalue : (write (level + 1) m.2).length ≤ (writeMember (level + 1) m).length := by
        rw [writeMember, List.length_append]
        omega
      obtain ⟨k, rfl⟩ : ∃ k, n = k + 1 := ⟨n - 1, by omega⟩
      exact readMember_writeMember (readValue_skipsBlanks _) (ih m hm (by omega)) rest
    rw [writeList_eq_cons]
    exact readValue_object
      (readList_writeList (readMember_skipsBlanks _) (by decide) (by decide) hmembers
        (fun m _ => writeMember_eq_cons _ m) _ _ rest)

/-- `read` of what `pretty` writes for a value without numbers is that value. -/
theorem NumberFree.read_pretty {v : JsonValue} (h : NumberFree v) : read v.pretty = some v := by
  have hread := h.readValue_write (Nat.le_refl (write 0 v).length) []
  rw [List.append_nil] at hread
  rw [read, pretty, String.toList_ofList, readChars, hread]
  rfl

end RouteAtlas.JsonValue
