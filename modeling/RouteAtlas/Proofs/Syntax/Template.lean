import RouteAtlas.Syntax.Literal

/-!
# Templates

A template is written as literal parts with substitutions between them. A tree gives only where the
substitutions start and stop, in bytes; the literal parts are cut out of the text at these places,
and what is cut out is what was written there.

## Key results

- `Text.sliceBytes_middle`: cutting a text at bytes
- `Node.IsTemplate.fragments_eq`: the literal parts of a template
- `Node.IsTemplate.literalValue?_eq`: its value
-/

namespace RouteAtlas

open Syntax

/-! ## Cutting at bytes -/

namespace Text

/-- `dropBytes` passes over a character whose bytes are all dropped. -/
private theorem dropBytes_cons (c : Char) (n : Nat) (cs : List Char) :
    dropBytes (c.utf8Size + n) (c :: cs) = dropBytes n cs := by
  -- A character has at least one byte, so the number of bytes is a successor.
  obtain ⟨k, hk⟩ := Nat.exists_eq_add_of_lt c.utf8Size_pos
  rw [hk, Nat.add_right_comm, dropBytes, hk]
  congr 1
  omega

/-- `takeBytes` keeps a character whose bytes are all taken. -/
private theorem takeBytes_cons (c : Char) (n : Nat) (cs : List Char) :
    takeBytes (c.utf8Size + n) (c :: cs) = c :: takeBytes n cs := by
  obtain ⟨k, hk⟩ := Nat.exists_eq_add_of_lt c.utf8Size_pos
  rw [hk, Nat.add_right_comm, takeBytes, hk]
  congr 2
  omega

/-- `dropBytes` of all bytes of a text leaves what comes after it. -/
private theorem dropBytes_append (s : String) (cs : List Char) :
    dropBytes s.utf8ByteSize (s.toList ++ cs) = cs := by
  rw [← String.ofList_toList (s := s), String.toList_ofList]
  induction s.toList with
  | nil => simp [dropBytes]
  | cons d ds ih =>
    rw [String.ofList_cons, String.utf8ByteSize_append, String.utf8ByteSize_singleton,
      List.cons_append, dropBytes_cons, ih]

/-- `takeBytes` of all bytes of a text gives the text. -/
private theorem takeBytes_append (s : String) (cs : List Char) :
    takeBytes s.utf8ByteSize (s.toList ++ cs) = s.toList := by
  rw [← String.ofList_toList (s := s), String.toList_ofList]
  induction s.toList with
  | nil => simp [takeBytes]
  | cons d ds ih =>
    rw [String.ofList_cons, String.utf8ByteSize_append, String.utf8ByteSize_singleton,
      List.cons_append, takeBytes_cons, ih]

/-- `sliceBytes` between the two ends of a text in the middle gives this text. -/
private theorem sliceBytes_middle (a b c : String) :
    sliceBytes (a ++ b ++ c).toList a.utf8ByteSize (a ++ b).utf8ByteSize = b.toList := by
  rw [sliceBytes, String.utf8ByteSize_append, Nat.add_sub_cancel_left, String.append_assoc,
    String.toList_append, dropBytes_append, String.toList_append, takeBytes_append]

end Text

/-! ## Literal parts -/

/-- What is written between the quotes of a template. -/
structure Template where
  /-- Each literal part that a substitution follows, with that substitution. -/
  opening : List (String × String)
  /-- The literal part at the end. -/
  last : String

namespace Template

/-- The literal parts that a substitution follows. -/
def heads (t : Template) : List String := t.opening.map Prod.fst

/-- The literal parts, one more than there are substitutions. -/
def literals (t : Template) : List String := t.heads ++ [t.last]

/-- Literal parts and substitutions as they are written, up to the last literal part. -/
def textOf (last : String) : List (String × String) → String
  | [] => last
  | (literal, hole) :: rest => literal ++ hole ++ textOf last rest

/-- The text between the quotes. -/
def text (t : Template) : String := textOf t.last t.opening

/-- The literal parts with a placeholder for each substitution. -/
def value (t : Template) : String := placeholder.intercalate t.literals

/-- The bytes that the substitutions cover, for a text that starts at the given byte. -/
def holesFrom (start : Nat) : List (String × String) → List (Nat × Nat)
  | [] => []
  | (literal, hole) :: rest =>
    (start + literal.utf8ByteSize, start + (literal ++ hole).utf8ByteSize) ::
      holesFrom (start + (literal ++ hole).utf8ByteSize) rest

end Template

namespace Syntax.Node

/-- The node is the template: it covers its text and the two quotes, and its substitutions are where
they are written. -/
structure IsTemplate (n : Node) (t : Template) : Prop where
  kind : n.kind = .templateString
  text : n.text = "`" ++ t.text ++ "`"
  stop : n.span.stop = n.span.start + n.text.utf8ByteSize
  holes : (n.children.filter (·.kind == .templateSubstitution)).map
    (fun c => (c.span.start, c.span.stop)) =
    Template.holesFrom (n.span.start + 1) t.opening

/-- `templateParts` gives the literal parts of a text that stands between two others, if the spans
are where its substitutions are. -/
private theorem templateParts_eq (last after : String) {base : Nat}
    {opening : List (String × String)} {before : String} {spans : List Span}
    (h : spans.map (fun s => (s.start, s.stop)) =
      Template.holesFrom (base + before.utf8ByteSize) opening) :
    templateParts (before ++ Template.textOf last opening ++ after).toList base
        (before ++ Template.textOf last opening).utf8ByteSize before.utf8ByteSize spans =
      (opening.map Prod.fst ++ [last]).map String.toList := by
  -- From one substitution to the next: all up to the end of the substitution moves to the text
  -- before.
  induction opening generalizing before spans with
  | nil =>
    obtain rfl : spans = [] := List.map_eq_nil_iff.mp h
    rw [templateParts, Template.textOf, Text.sliceBytes_middle]
    rfl
  | cons first rest ih =>
    obtain ⟨literal, hole⟩ := first
    cases spans with
    | nil => exact nomatch h
    | cons s ss =>
      simp only [List.map_cons, Template.holesFrom, List.cons.injEq, Prod.mk.injEq] at h
      obtain ⟨⟨hstart, hstop⟩, hrest⟩ := h
      have hnext : before ++ Template.textOf last ((literal, hole) :: rest) =
          before ++ literal ++ hole ++ Template.textOf last rest := by
        simp only [Template.textOf, String.append_assoc]
      have hfrom : s.start - base = (before ++ literal).utf8ByteSize := by
        rw [hstart, String.utf8ByteSize_append]
        omega
      have hto : s.stop - base = (before ++ literal ++ hole).utf8ByteSize := by
        simp only [hstop, String.utf8ByteSize_append]
        omega
      -- The literal part is what is between the text before and its own substitution.
      have hfirst : Text.sliceBytes
          (before ++ literal ++ hole ++ Template.textOf last rest ++ after).toList
            before.utf8ByteSize (before ++ literal).utf8ByteSize = literal.toList := by
        have hmiddle :=
          Text.sliceBytes_middle before literal (hole ++ Template.textOf last rest ++ after)
        simpa only [String.append_assoc] using hmiddle
      have hspans : ss.map (fun s => (s.start, s.stop)) =
          Template.holesFrom (base + (before ++ literal ++ hole).utf8ByteSize) rest := by
        rw [hrest]
        simp only [String.utf8ByteSize_append, Nat.add_assoc]
      rw [templateParts, hnext, hfrom, hto, hfirst, ih hspans]
      rfl

/-- `fragments` gives the literal parts of a template. -/
private theorem IsTemplate.fragments_eq {n : Node} {t : Template} (h : n.IsTemplate t) :
    n.fragments = t.literals := by
  have hquote : "`".utf8ByteSize = 1 := by decide
  -- The two quotes have one byte each, and the parts lie between them.
  have hlength : n.span.stop - n.span.start - 1 = ("`" ++ t.text).utf8ByteSize := by
    simp only [h.stop, h.text, String.utf8ByteSize_append, hquote]
    omega
  have hspans : ((n.children.filter (·.kind == .templateSubstitution)).map (·.span)).map
      (fun s => (s.start, s.stop)) = Template.holesFrom (n.span.start + "`".utf8ByteSize)
        t.opening := by
    rw [List.map_map, hquote, ← h.holes]
    rfl
  have hparts := templateParts_eq t.last "`" hspans
  rw [fragments, hlength, h.text]
  rw [hquote] at hparts
  show (templateParts _ _ _ _ _).map String.ofList = _
  rw [Template.text, hparts, List.map_map, Template.literals, Template.heads]
  simp

/-- `literalValue?` of a template has a placeholder between any two literal parts. -/
theorem IsTemplate.literalValue?_eq {n : Node} {t : Template} (h : n.IsTemplate t) :
    n.literalValue? = some t.value := by
  have hsize : n.span.start + 2 ≤ n.span.stop := by
    rw [h.stop, h.text, String.utf8ByteSize_append, String.utf8ByteSize_append]
    have hquote : "`".utf8ByteSize = 1 := by decide
    omega
  rw [literalValue?, stringValue?, templateValue?, h.kind, h.fragments_eq]
  simp [hsize, Template.value]

end Syntax.Node

end RouteAtlas
