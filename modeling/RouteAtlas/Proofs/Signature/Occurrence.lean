import Mathlib.Data.List.Infix
import RouteAtlas.Signature

/-!
# Occurrences of signatures

A text is read once, and after each character it is known what can still come of every signature
that may have begun. What can come after a character are the signatures for the rest of the texts
that start with it, so nothing is missed, however the runs of white space and other characters
overlap. A text therefore belongs to an application exactly if some part of it is one of the eleven
marks, which are given here without any of the pieces that signatures are made of.

## Key results

- `takes_cons_iff`: what comes after the first character of a text that a signature takes
- `occursIn_iff`: a signature occurs in a text if it takes a part of it
- `isApplicationText_iff_mark`: a text of an application has one of the marks as a part
-/

namespace RouteAtlas

/-! ## Texts that signatures take -/

/-- The piece takes the text. -/
def SignaturePiece.Takes (p : SignaturePiece) (w : List Char) : Prop :=
  (∀ c ∈ w, p.takes c = true) ∧ (p.isRepeated = false → w.length = 1)

namespace Signature

open SignaturePiece

/-- The pieces take the text, each some part of it, one after the other. -/
def Takes : Signature → List Char → Prop
  | [], w => w = []
  | p :: ps, w => ∃ front rest, front ++ rest = w ∧ p.Takes front ∧ Takes ps rest

variable {s t : Signature} {p : SignaturePiece} {w text : List Char} {c : Char}

/-- Two signatures one after the other take two texts one after the other. -/
private theorem takes_append : Takes (s ++ t) w ↔ ∃ front rest, front ++ rest = w ∧ s.Takes front ∧
    t.Takes rest := by
  -- The text is split once more at each piece, and the splits are put together by associativity.
  induction s generalizing w with
  | nil => simp [Takes]
  | cons p ps ih =>
    simp only [List.cons_append, Takes, ih]
    constructor
    · rintro ⟨first, _, rfl, hfirst, front, rest, rfl, hfront, hrest⟩
      exact ⟨first ++ front, rest, List.append_assoc .., ⟨first, front, rfl, hfirst, hfront⟩, hrest⟩
    · rintro ⟨_, rest, rfl, ⟨first, front, rfl, hfirst, hfront⟩, hrest⟩
      exact ⟨first, front ++ rest, (List.append_assoc ..).symm, hfirst, front, rest, rfl, hfront,
        hrest⟩

private theorem takes_singleton : Takes [p] w ↔ p.Takes w := by
  simp [Takes]

/-- The empty text is taken if `isOver`: only pieces for many characters may take nothing. -/
private theorem takes_nil_iff : s.Takes [] ↔ s.isOver = true := by
  induction s with
  | nil => simp [Takes, isOver]
  | cons p ps ih =>
    -- One piece may take nothing just if it is for many characters.
    have hpiece : p.Takes [] ↔ p.isRepeated = true := by simp [SignaturePiece.Takes]
    unfold isOver at ih ⊢
    rw [List.all_cons, Bool.and_eq_true, ← ih, ← hpiece]
    simp [Takes]

/-- A text with a first character is taken by one of the signatures that `after` gives for this
character. -/
theorem takes_cons_iff : s.Takes (c :: w) ↔ ∃ t ∈ s.after c, t.Takes w := by
  induction s with
  | nil => simp [Takes, after]
  | cons p ps ih =>
    rw [after]
    by_cases hrepeated : p.isRepeated = true
    · -- The first piece takes the character and goes on, or it has taken nothing.
      rw [if_pos hrepeated]
      constructor
      · rintro ⟨front, rest, hsplit, hfront, hrest⟩
        cases front with
        | nil =>
          obtain ⟨t, ht, htakes⟩ := ih.mp (hsplit ▸ hrest)
          exact ⟨t, List.mem_append_right _ ht, htakes⟩
        | cons a front =>
          obtain ⟨rfl, rfl⟩ := List.cons_eq_cons.mp hsplit
          obtain ⟨ha, hmore⟩ := List.forall_mem_cons.mp hfront.1
          refine ⟨p :: ps, by simp [ha], front, rest, rfl, ⟨hmore, ?_⟩, hrest⟩
          intro honce
          rw [hrepeated] at honce
          exact nomatch honce
      · rintro ⟨t, ht, htakes⟩
        rcases List.mem_append.mp ht with hmem | hmem
        · by_cases hc : p.takes c = true
          · rw [if_pos hc, List.mem_singleton] at hmem
            subst hmem
            obtain ⟨front, rest, rfl, hfront, hrest⟩ := htakes
            refine ⟨c :: front, rest, rfl, ⟨List.forall_mem_cons.mpr ⟨hc, hfront.1⟩, ?_⟩, hrest⟩
            intro honce
            rw [hrepeated] at honce
            exact nomatch honce
          · rw [if_neg hc] at hmem
            exact absurd hmem List.not_mem_nil
        · refine ⟨[], c :: w, rfl, ⟨by simp, ?_⟩, ih.mpr ⟨t, hmem, htakes⟩⟩
          intro honce
          rw [hrepeated] at honce
          exact nomatch honce
    · -- The first piece takes just this character.
      rw [if_neg hrepeated]
      have honce : p.isRepeated = false := Bool.eq_false_iff.mpr hrepeated
      constructor
      · rintro ⟨front, rest, hsplit, hfront, hrest⟩
        obtain ⟨a, rfl⟩ := List.length_eq_one_iff.mp (hfront.2 honce)
        obtain ⟨rfl, rfl⟩ := List.cons_eq_cons.mp hsplit
        have ha : p.takes a = true := hfront.1 a List.mem_cons_self
        exact ⟨ps, by simp [ha], hrest⟩
      · rintro ⟨t, ht, htakes⟩
        by_cases hc : p.takes c = true
        · rw [if_pos hc, List.mem_singleton] at ht
          exact ⟨[c], w, rfl, ⟨by simpa using hc, fun _ => rfl⟩, ht ▸ htakes⟩
        · rw [if_neg hc] at ht
          exact absurd ht List.not_mem_nil

/-! ## Reading a text -/

/-- The signature takes some characters at the front of the text. -/
def TakesFront (s : Signature) (text : List Char) : Prop := ∃ w, w <+: text ∧ s.Takes w

/-- At the end of a text, a signature takes no more only if `isOver`. -/
private theorem takesFront_nil_iff : s.TakesFront [] ↔ s.isOver = true := by
  simp [TakesFront, takes_nil_iff]

/-- A signature takes the front of a text if it `isOver`, or one of those `after` the first
character takes the front of the rest. -/
private theorem takesFront_cons_iff :
    s.TakesFront (c :: text) ↔ s.isOver = true ∨ ∃ t ∈ s.after c, t.TakesFront text := by
  rw [← takes_nil_iff]
  constructor
  · rintro ⟨w, hfront, htakes⟩
    -- The part taken is empty, or it starts with this character.
    rcases List.prefix_cons_iff.mp hfront with rfl | ⟨v, rfl, hv⟩
    · exact Or.inl htakes
    · obtain ⟨t, ht, hrest⟩ := takes_cons_iff.mp htakes
      exact Or.inr ⟨t, ht, v, hv, hrest⟩
  · rintro (hnil | ⟨t, ht, v, hv, hrest⟩)
    · exact ⟨[], List.nil_prefix, hnil⟩
    · exact ⟨c :: v, List.cons_prefix_cons.mpr ⟨rfl, hv⟩, takes_cons_iff.mpr ⟨t, ht, hrest⟩⟩

/-- `occursFrom` finds that one of the signatures still to come takes the next characters, or that
the signature takes some part of the text. -/
private theorem occursFrom_iff {pending : List Signature} :
    s.occursFrom pending text = true ↔
      (∃ t ∈ pending, t.TakesFront text) ∨ ∃ w, w <:+: text ∧ s.Takes w := by
  -- The signatures still to come change with each character, so this is shown for any of them.
  induction text generalizing pending with
  | nil =>
    have hpart : (∃ w, w <:+: [] ∧ s.Takes w) ↔ s.isOver = true := by
      simp [List.infix_nil, takes_nil_iff]
    rw [occursFrom, List.any_cons, Bool.or_eq_true, List.any_eq_true, hpart, or_comm]
    simp only [takesFront_nil_iff]
  | cons c text ih =>
    -- A part of the text starts at its front or further on.
    have hpart : (∃ w, w <:+: c :: text ∧ s.Takes w) ↔
        s.TakesFront (c :: text) ∨ ∃ w, w <:+: text ∧ s.Takes w := by
      simp only [List.infix_cons_iff, or_and_right, exists_or]
      rfl
    rw [occursFrom, Bool.or_eq_true, ih, List.any_eq_true, hpart]
    simp only [List.mem_eraseDups, List.mem_flatMap, takesFront_cons_iff, List.mem_cons]
    grind

/-- `occursIn` finds out whether a signature takes some part of a text. -/
theorem occursIn_iff : s.occursIn text = true ↔ ∃ w, w <:+: text ∧ s.Takes w := by
  rw [occursIn, occursFrom_iff]
  simp

/-! ## The marks of an application -/

/-- All characters are white space. -/
def Blanks (w : List Char) : Prop := ∀ c ∈ w, Text.isBlank c = true

/-- The name of the framework between two quotes, which may be different ones. -/
def IsQuotedName (w : List Char) : Prop :=
  ∃ q q', (q = '\x22' ∨ q = '\x27') ∧ (q' = '\x22' ∨ q' = '\x27') ∧
    w = [q] ++ "express".toList ++ [q']

/-- The call `require( 'express' )`, with white space wherever it may stand. -/
def IsRequirement (w : List Char) : Prop :=
  ∃ b₁ b₂ name b₃, Blanks b₁ ∧ Blanks b₂ ∧ IsQuotedName name ∧ Blanks b₃ ∧
    w = "require".toList ++ b₁ ++ "(".toList ++ b₂ ++ name ++ b₃ ++ ")".toList

/-- The statement `import .. from 'express'`, where no semicolon stands before `from`, and white
space on both sides of what stands there. -/
def IsImportation (w : List Char) : Prop :=
  ∃ b₁ run b₂ b₃ name, (Blanks b₁ ∧ b₁ ≠ []) ∧ ';' ∉ run ∧ (Blanks b₂ ∧ b₂ ≠ []) ∧
    (Blanks b₃ ∧ b₃ ≠ []) ∧
    IsQuotedName name ∧ w = "import".toList ++ b₁ ++ run ++ b₂ ++ "from".toList ++ b₃ ++ name

/-- The call `express( )`, with white space wherever it may stand. -/
def IsCreation (w : List Char) : Prop :=
  ∃ b₁ b₂, Blanks b₁ ∧ Blanks b₂ ∧ w = "express".toList ++ b₁ ++ "(".toList ++ b₂ ++ ")".toList

/-- A name and the parenthesis that opens its arguments. -/
def IsCallOf (name : String) (w : List Char) : Prop :=
  ∃ b, Blanks b ∧ w = name.toList ++ b ++ "(".toList

/-- One of the eleven texts by which an application is known. -/
def IsMark (w : List Char) : Prop :=
  IsRequirement w ∨ IsImportation w ∨ IsCreation w ∨
    ∃ name ∈ [".get", ".post", ".put", ".patch", ".delete", ".use", ".listen", "Router"],
      IsCallOf name w

/-- `exactly word` takes the word. -/
private theorem takes_exactly {word : String} : (exactly word).Takes w ↔ w = word.toList := by
  unfold exactly
  -- A word is taken character by character, each by a piece of its own.
  induction word.toList generalizing w with
  | nil => simp [Takes]
  | cons a rest ih =>
    have hchar : ∀ front, (char a).Takes front ↔ front = [a] := by
      intro front
      constructor
      · rintro ⟨htakes, honce⟩
        obtain ⟨b, rfl⟩ := List.length_eq_one_iff.mp (honce rfl)
        have hb := htakes b List.mem_cons_self
        rw [eq_of_beq hb]
      · rintro rfl
        exact ⟨by simp [takes], fun _ => rfl⟩
    simp [Takes, hchar, ih, eq_comm]

/-- `blanks` takes any amount of white space. -/
private theorem takes_blanks : Takes [blanks] w ↔ Blanks w := by
  simp [takes_singleton, SignaturePiece.Takes, Blanks, takes, isRepeated]

/-- `clause` takes any text without a semicolon. -/
private theorem takes_clause : Takes [clause] w ↔ ';' ∉ w := by
  rw [takes_singleton, SignaturePiece.Takes]
  simp only [takes, isRepeated, bne_iff_ne, Bool.true_eq_false, false_imp_iff, and_true]
  -- All characters of the text are other than `;` just if `;` is not one of them.
  exact ⟨fun h hmem => h ';' hmem rfl, fun h c hc heq => h (heq ▸ hc)⟩

/-- `blank` and `blanks` together take white space, at least one character of it. -/
private theorem takes_blank_blanks : Takes [blank, blanks] w ↔ Blanks w ∧ w ≠ [] := by
  have happend : Takes [blank, blanks] w ↔ ∃ front rest, front ++ rest = w ∧ blank.Takes front ∧
      Blanks rest := by
    rw [← List.singleton_append, takes_append]
    simp only [takes_singleton (p := blank), takes_blanks]
  rw [happend]
  -- The first character goes to the one piece, the others to the other.
  constructor
  · rintro ⟨front, rest, rfl, ⟨hfront, honce⟩, hrest⟩
    obtain ⟨c, rfl⟩ := List.length_eq_one_iff.mp (honce rfl)
    exact ⟨List.forall_mem_cons.mpr ⟨hfront c List.mem_cons_self, hrest⟩, List.cons_ne_nil c rest⟩
  · rintro ⟨hblank, hne⟩
    obtain ⟨c, rest, rfl⟩ := List.exists_cons_of_ne_nil hne
    obtain ⟨hc, hrest⟩ := List.forall_mem_cons.mp hblank
    exact ⟨[c], rest, rfl, ⟨by simpa [takes] using hc, fun _ => rfl⟩, hrest⟩

/-- `quote` takes one quote, a single or a double one. -/
private theorem takes_quote : Takes [quote] w ↔ ∃ q, (q = '\x22' ∨ q = '\x27') ∧ w = [q] := by
  rw [takes_singleton]
  constructor
  · rintro ⟨htakes, honce⟩
    obtain ⟨q, rfl⟩ := List.length_eq_one_iff.mp (honce rfl)
    have hq := htakes q List.mem_cons_self
    exact ⟨q, by simpa [takes] using hq, rfl⟩
  · rintro ⟨q, hq, rfl⟩
    exact ⟨by simpa [takes] using hq, fun _ => rfl⟩

/-- `quotedName` takes the name of the framework between quotes. -/
private theorem takes_quotedName : quotedName.Takes w ↔ IsQuotedName w := by
  simp only [quotedName, takes_append, takes_quote, takes_exactly]
  constructor
  · rintro ⟨_, _, rfl, ⟨_, _, rfl, ⟨q, hq, rfl⟩, rfl⟩, q', hq', rfl⟩
    exact ⟨q, q', hq, hq', rfl⟩
  · rintro ⟨q, q', hq, hq', rfl⟩
    exact ⟨_, _, rfl, ⟨_, _, rfl, ⟨q, hq, rfl⟩, rfl⟩, q', hq', rfl⟩

/-- `callOf name` takes the name and an opening parenthesis. -/
private theorem takes_callOf {name : String} : (callOf name).Takes w ↔ IsCallOf name w := by
  simp only [callOf, takes_append, takes_blanks, takes_exactly]
  constructor
  · rintro ⟨_, _, rfl, ⟨_, b, rfl, rfl, hb⟩, rfl⟩
    exact ⟨b, hb, rfl⟩
  · rintro ⟨b, hb, rfl⟩
    exact ⟨_, _, rfl, ⟨_, b, rfl, rfl, hb⟩, rfl⟩

/-- `requirement` takes the calls of `require` for the framework. -/
private theorem takes_requirement : requirement.Takes w ↔ IsRequirement w := by
  -- The pieces are split from the right, so the witnesses come out last piece first.
  simp only [requirement, takes_append, takes_blanks, takes_callOf, takes_quotedName, takes_exactly]
  constructor
  · rintro ⟨_, _, rfl, ⟨_, b₃, rfl, ⟨_, name, rfl, ⟨_, b₂, rfl, ⟨b₁, h₁, rfl⟩, h₂⟩, hname⟩, h₃⟩,
      rfl⟩
    exact ⟨b₁, b₂, name, b₃, h₁, h₂, hname, h₃, rfl⟩
  · rintro ⟨b₁, b₂, name, b₃, h₁, h₂, hname, h₃, rfl⟩
    exact ⟨_, _, rfl, ⟨_, b₃, rfl, ⟨_, name, rfl, ⟨_, b₂, rfl, ⟨b₁, h₁, rfl⟩, h₂⟩, hname⟩, h₃⟩, rfl⟩

/-- The signature of a call without arguments takes the calls `express()`. -/
private theorem takes_creation :
    Takes (callOf "express" ++ [blanks] ++ exactly ")") w ↔ IsCreation w := by
  simp only [takes_append, takes_blanks, takes_callOf, takes_exactly]
  constructor
  · rintro ⟨_, _, rfl, ⟨_, b₂, rfl, ⟨b₁, h₁, rfl⟩, h₂⟩, rfl⟩
    exact ⟨b₁, b₂, h₁, h₂, rfl⟩
  · rintro ⟨b₁, b₂, h₁, h₂, rfl⟩
    exact ⟨_, _, rfl, ⟨_, b₂, rfl, ⟨b₁, h₁, rfl⟩, h₂⟩, rfl⟩

/-- `importation` takes the imports from the framework. -/
private theorem takes_importation : importation.Takes w ↔ IsImportation w := by
  -- The run between the words stands apart from the white space on its sides.
  have hpieces : importation =
      exactly "import" ++ [blank, blanks] ++ [clause] ++ [blank, blanks] ++ exactly "from" ++
        [blank, blanks] ++ quotedName := rfl
  simp only [hpieces, takes_append, takes_blank_blanks, takes_clause, takes_quotedName,
    takes_exactly]
  constructor
  · rintro ⟨_, name, rfl,
      ⟨_, b₃, rfl, ⟨_, _, rfl, ⟨_, b₂, rfl, ⟨_, run, rfl, ⟨_, b₁, rfl, rfl, h₁⟩, hrun⟩, h₂⟩, rfl⟩,
        h₃⟩, hname⟩
    exact ⟨b₁, run, b₂, b₃, name, h₁, hrun, h₂, h₃, hname, rfl⟩
  · rintro ⟨b₁, run, b₂, b₃, name, h₁, hrun, h₂, h₃, hname, rfl⟩
    exact ⟨_, name, rfl,
      ⟨_, b₃, rfl, ⟨_, _, rfl, ⟨_, b₂, rfl, ⟨_, run, rfl, ⟨_, b₁, rfl, rfl, h₁⟩, hrun⟩, h₂⟩, rfl⟩,
        h₃⟩, hname⟩

/-- The signatures of `Signature.all` take just the marks. -/
private theorem exists_takes_iff : (∃ s ∈ Signature.all, s.Takes w) ↔ IsMark w := by
  simp only [Signature.all, List.exists_mem_cons_iff, takes_requirement, takes_importation,
    takes_creation, takes_callOf, IsMark, List.not_mem_nil, false_and, exists_false]

end Signature

open Signature

/-- `isApplicationText` finds out whether some part of a text is one of the marks. -/
theorem isApplicationText_iff_mark {text : String} :
    isApplicationText text = true ↔ ∃ w, w <:+: text.toList ∧ IsMark w := by
  rw [isApplicationText, List.any_eq_true]
  simp only [occursIn_iff, ← exists_takes_iff]
  constructor
  · rintro ⟨s, hs, w, hpart, htakes⟩
    exact ⟨w, hpart, s, hs, htakes⟩
  · rintro ⟨w, hpart, s, hs, htakes⟩
    exact ⟨s, hs, w, hpart, htakes⟩

/-- `isApplicationText` holds of a text if and only if some part of it is one of the marks. So it
still does with other texts before and after it. -/
theorem isApplicationText_of_part (text : String) :
    (isApplicationText text = true ↔ ∃ w, w <:+: text.toList ∧ IsMark w) ∧
      ∀ before after : String, isApplicationText text = true →
        isApplicationText (before ++ text ++ after) = true := by
  refine ⟨isApplicationText_iff_mark, ?_⟩
  intro before after h
  obtain ⟨w, hpart, hmark⟩ := isApplicationText_iff_mark.mp h
  -- A part of the text is a part of the longer one too, so the marks are still there.
  have hwhole : text.toList <:+: (before ++ text ++ after).toList := by
    rw [String.toList_append, String.toList_append]
    exact ⟨before.toList, after.toList, rfl⟩
  exact isApplicationText_iff_mark.mpr ⟨w, hpart.trans hwhole, hmark⟩

/-- An import that starts within another one, which the semicolon has ended. -/
def secondImport : String := "import a; import c\n from  'express'"

/-- `secondImport` belongs to an application, alone and between texts that look like the start of
an import. -/
theorem secondImport_found :
    isApplicationText secondImport = true ∧
      isApplicationText ("import " ++ secondImport ++ "import") = true := by
  have hfound : isApplicationText secondImport = true := by decide +kernel
  exact ⟨hfound, (isApplicationText_of_part secondImport).2 "import " "import" hfound⟩

end RouteAtlas
