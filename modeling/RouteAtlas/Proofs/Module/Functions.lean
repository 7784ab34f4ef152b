import RouteAtlas.Proofs.Module.Provenance
import RouteAtlas.Proofs.Syntax.Locate

/-!
# The functions that an outline records

An outline keeps functions by their spans, in six places. Whichever way a span has come there, it is
that of a function of the file's own tree, and so the function can be located again.

## Key results

- `Collection.FunctionsOf.note`: one note keeps the functions inside the tree
- `Collection.functionsOf_ofTree`: and so does the whole walk
- `Outline.hasFunction_of_records`: what the outline of a source records is a function of its tree
-/

namespace RouteAtlas

open Syntax

namespace Collection

/-- The functions that have been collected are functions of the tree. -/
structure FunctionsOf (c : Collection) (t : Node) : Prop where
  functions : ∀ e ∈ c.functions.entries, t.HasFunction e.2
  exports : ∀ e ∈ c.exports.entries, e.2.Within t
  default? : ∀ value, c.default? = some value → value.Within t
  vars : ∀ e ∈ c.vars.entries, e.2.Within t
  routes : ∀ r ∈ c.routes, ∀ s, .inline s ∈ r.handlers → t.HasFunction s

variable {c : Collection} {t n : Node}

private theorem functionsOf_empty (t : Node) : FunctionsOf {} t where
  functions := fun _ => nofun
  exports := fun _ => nofun
  default? := fun _ => nofun
  vars := fun _ => nofun
  routes := fun _ => nofun

/-- `listExport` keeps `FunctionsOf`. -/
theorem FunctionsOf.listExport (h : c.FunctionsOf t) (name : String) :
    (c.listExport name).FunctionsOf t := by
  unfold Collection.listExport
  split
  · exact h
  · exact ⟨h.functions, h.exports, h.default?, h.vars, h.routes⟩

/-- `addFunction` of a function of the tree keeps `FunctionsOf`. -/
theorem FunctionsOf.addFunction (h : c.FunctionsOf t) (name : String) {span : Span}
    (topLevel : Bool) (hspan : t.HasFunction span) :
    (c.addFunction name span topLevel).FunctionsOf t := by
  -- What is put under the name is the new function, all else was there before.
  have hput : ∀ e ∈ (c.functions.put name span).entries, t.HasFunction e.2 := by
    intro e he
    rcases Dictionary.mem_put he with rfl | hold
    · exact hspan
    · exact h.functions e hold
  refine ⟨?_, h.exports, h.default?, h.vars, h.routes⟩
  unfold Collection.addFunction
  dsimp only
  split
  · exact hput
  · -- Away from the top level a name that there is keeps its function.
    unfold Dictionary.putAbsent
    split
    · exact h.functions
    · exact hput

/-- `note` keeps `FunctionsOf`, if it speaks only of functions of the tree. -/
theorem FunctionsOf.note (h : c.FunctionsOf t) {note : Note} (hfrom : note.From n)
    (hn : n ∈ t.subtrees) :
    (c.note note).FunctionsOf t := by
  -- Each kind of note changes one of the five places, and there by a function of the node.
  cases hfrom with
  | imported i => exact ⟨h.functions, h.exports, h.default?, h.vars, h.routes⟩
  | ofExport hexport =>
    cases hexport with
    | listed name => exact h.listExport name
    | exported name hvalue =>
      refine ⟨h.functions, fun e he => ?_, h.default?, h.vars, h.routes⟩
      rcases Dictionary.mem_put he with rfl | hold
      · exact hvalue.mono hn
      · exact h.exports e hold
    | defaultExport hvalue =>
      exact ⟨h.functions, h.exports, fun value hsome => (hvalue value hsome).mono hn, h.vars,
        h.routes⟩
  | function name topLevel hspan => exact h.addFunction name topLevel (hspan.mono hn)
  | declared name hheld =>
    refine ⟨h.functions, h.exports, h.default?, fun e he => ?_, h.routes⟩
    rcases Dictionary.mem_put he with rfl | hold
    · exact hheld.mono hn
    · exact h.vars e hold
  | route hinline =>
    refine ⟨h.functions, h.exports, h.default?, h.vars, fun r hr s hs => ?_⟩
    rcases List.mem_append.mp hr with hold | hnew
    · exact h.routes r hold s hs
    · obtain rfl := List.mem_singleton.mp hnew
      exact (hinline s hs).mono hn
  | mount front router => exact ⟨h.functions, h.exports, h.default?, h.vars, h.routes⟩

/-- `note` of several such notes keeps `FunctionsOf`. -/
theorem FunctionsOf.foldl_note (h : c.FunctionsOf t) {notes : List Note}
    (hfrom : ∀ note ∈ notes, note.From n) (hn : n ∈ t.subtrees) :
    (notes.foldl Collection.note c).FunctionsOf t := by
  induction notes generalizing c with
  | nil => exact h
  | cons note notes ih =>
    obtain ⟨hnote, hrest⟩ := List.forall_mem_cons.mp hfrom
    exact ih (h.note hnote hn) hrest

/-- `ofTree` collects functions of the tree. -/
private theorem functionsOf_ofTree (root : Cursor) : (ofTree root).FunctionsOf root.node :=
  ofTree_keeps (P := (FunctionsOf · root.node))
    (fun _ place hplace hc => hc.foldl_note (Note.from_of_mem_ofNode place) hplace)
      (functionsOf_empty _)

end Collection

namespace Outline

/-- The outline has the span as that of a function: under a name, as an export or the default
export, as the value of a variable or of a member of an object, or as a handler in its place. -/
inductive Records (o : Outline) (s : Span) : Prop where
  | function {name : String} : (name, s) ∈ o.functions.entries → Records o s
  | exported {name : String} : (name, .function s) ∈ o.exports.entries → Records o s
  | defaultExport : o.default? = some (.function s) → Records o s
  | held {name : String} : (name, .function s) ∈ o.vars.entries → Records o s
  | member {name property : String} {members : Dictionary Value} :
      (name, .object members) ∈ o.vars.entries →
    (property, .function s) ∈ members.entries → Records o s
  | inline {r : Route} : r ∈ o.routes → .inline s ∈ r.handlers → Records o s

/-- `Records` holds, for the outline of a source, of functions of the source's own tree only. -/
private theorem hasFunction_of_records {resolve : String → Option Path} {source : SourceFile}
    {s : Span} (h : (ofSource resolve source).Records s) :
    source.tree.HasFunction s := by
  have hc := Collection.functionsOf_ofTree source.root
  cases h with
  | function hmem => exact hc.functions _ hmem
  | exported hmem => exact hc.exports _ hmem
  | defaultExport hsome => exact hc.default? _ hsome
  | held hmem => exact hc.vars _ hmem
  | member hmem hmember => exact hc.vars _ hmem _ hmember
  | inline hr hs => exact hc.routes _ hr s hs

/-- `locate?` finds every function that the outline of a source records. -/
theorem exists_locate?_of_records {resolve : String → Option Path} {source : SourceFile} {s : Span}
    (htree : source.tree.IsSourceTree) (h : (ofSource resolve source).Records s) :
    ∃ g, source.root.locate? s = some g ∧ g.IsFunctionAt source.tree s ∧
      (source.tree.LinesByStart → g.node.span = s) := by
  obtain ⟨f, hf, hfunction, rfl⟩ := hasFunction_of_records h
  obtain ⟨g, hlocate, hg⟩ := htree.exists_locate? hf hfunction
  exact ⟨g, hlocate, hg, fun hlines => hg.span_eq hlines hf⟩

end Outline

end RouteAtlas
