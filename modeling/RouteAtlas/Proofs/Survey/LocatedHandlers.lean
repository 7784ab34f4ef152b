import RouteAtlas.Proofs.Catalogue.WellFormed
import RouteAtlas.Proofs.Module.Functions
import RouteAtlas.Proofs.Survey.Bookkeeping

/-!
# Every handler that is found can be read

The search for the handler of a route goes through several files and ends with a file and a span.
The span is one that the file's own outline records, so the function is located in that file's tree
and what it reads of requests is found out.

## Key results

- `Outline.records_exportedFunction?`, `Outline.records_exportedMember?`: what a look-up gives is
  recorded
- `records_handler?`: the handler of a route is recorded in the file that it was found in
- every span that is recorded is located, and every handler that is found is read
-/

namespace RouteAtlas

open Syntax

/-! ## What a file is asked for -/

namespace Outline

variable {o : Outline} {s : Span}

/-- `functionOf?` a value is a function that is recorded, if the value is recorded itself. -/
private theorem records_functionOf? {value : Value} (h : o.functionOf? value = some s)
    (hvalue : value = .function s → o.Records s) : o.Records s := by
  cases value with
  | function span =>
    obtain rfl : span = s := Option.some.inj h
    exact hvalue rfl
  | named name => exact .function (Dictionary.mem_of_find? h)

/-- `defaultFunction?` gives a function that is recorded. -/
private theorem records_defaultFunction? (h : o.defaultFunction? = some s) : o.Records s := by
  obtain ⟨value, hdefault, hfunction⟩ := Option.bind_eq_some_iff.mp h
  refine records_functionOf? hfunction fun heq => ?_
  rw [heq] at hdefault
  exact .defaultExport hdefault

/-- `exportedFunction?` gives a function that is recorded. -/
private theorem records_exportedFunction? {name : String} (h : o.exportedFunction? name = some s) :
    o.Records s := by
  rw [exportedFunction?] at h
  -- The name `default` stands for the default export.
  split at h
  · exact records_defaultFunction? h
  · obtain ⟨value, hexported, hfunction⟩ := Option.bind_eq_some_iff.mp h
    refine records_functionOf? hfunction fun heq => ?_
    rw [heq] at hexported
    exact .exported (Dictionary.mem_of_find? hexported)

/-- `localMember?` gives a function that is recorded. -/
private theorem records_localMember? {object property : String}
    (h : o.localMember? object property = some s) :
    o.Records s := by
  rw [localMember?] at h
  cases hheld : o.vars.find? object with
  | none =>
    rw [hheld] at h
    cases h
  | some held =>
    rw [hheld] at h
    -- Only an object has members.
    cases held with
    | object members =>
      obtain ⟨value, hmember, hfunction⟩ := Option.bind_eq_some_iff.mp h
      refine records_functionOf? hfunction fun heq => ?_
      rw [heq] at hmember
      exact .member (Dictionary.mem_of_find? hheld) (Dictionary.mem_of_find? hmember)
    | function span => cases h
    | required specifier => cases h
    | other => cases h

/-- `exportedMember?` gives a function that is recorded. -/
private theorem records_exportedMember? {exported property : String}
    (h : o.exportedMember? exported property = some s) :
    o.Records s := by
  rw [exportedMember?] at h
  -- A value that is exported is looked into; a function of the file under that name is the second
  -- choice.
  cases hvalue : (if exported = "default" then o.default? else o.exports.find? exported) with
  | some value =>
    rw [hvalue] at h
    cases value with
    | named name => exact records_localMember? h
    | function span => exact nomatch h
  | none =>
    rw [hvalue] at h
    simp only at h
    split at h
    · exact records_exportedFunction? h
    · exact nomatch h

/-- `boundFunction?` gives a function that is recorded. -/
private theorem records_boundFunction? {binding : ImportBinding}
    (h : o.boundFunction? binding = some s) :
    o.Records s := by
  cases binding with
  | named exported => exact records_exportedFunction? h
  | default => exact records_defaultFunction? h
  | wholeModule => exact nomatch h

/-- `boundMember?` gives a function that is recorded. -/
private theorem records_boundMember? {property : String} {binding : ImportBinding}
    (h : o.boundMember? property binding = some s) : o.Records s := by
  cases binding with
  | named exported => exact records_exportedMember? h
  | default => exact records_exportedMember? h
  | wholeModule => exact records_exportedFunction? h

/-- `Records` holds of nothing in a file that could not be read. -/
private theorem not_records_blank (p : Path) : ¬ ({ path := p } : Outline).Records s := by
  intro h
  cases h with
  | function hmem => exact absurd hmem List.not_mem_nil
  | exported hmem => exact absurd hmem List.not_mem_nil
  | defaultExport hsome => exact nomatch hsome
  | held hmem => exact absurd hmem List.not_mem_nil
  | member hmem => exact absurd hmem List.not_mem_nil
  | inline hmem => exact absurd hmem List.not_mem_nil

end Outline

/-! ## What the search for a handler gives -/

namespace Survey

variable {s : Survey} {file target : Outline} {span : Span}

/-- What is found by a look at the file that `importedFrom?` gives is found in a file of the
survey. -/
private theorem exists_of_importedFrom? {name : String}
    (look? : Outline → ImportBinding → Option Span)
    (h : ((s.importedFrom? file name).bind fun found => (look? found.1 found.2).map (found.1, ·)) =
      some (target, span)) :
    (∃ p, s.outline? p = some target) ∧ ∃ binding, look? target binding = some span := by
  obtain ⟨⟨o, binding⟩, himport, h⟩ := Option.bind_eq_some_iff.mp h
  obtain ⟨found, hfound, h⟩ := Option.map_eq_some_iff.mp h
  obtain ⟨rfl, rfl⟩ := Prod.mk.inj h
  refine ⟨?_, binding, hfound⟩
  -- The file is reached by the binding, the path it was resolved to, and the outline there.
  obtain ⟨_, _, himport⟩ := Option.bind_eq_some_iff.mp himport
  obtain ⟨p, _, himport⟩ := Option.bind_eq_some_iff.mp himport
  obtain ⟨target, htarget, himport⟩ := Option.bind_eq_some_iff.mp himport
  obtain ⟨rfl, _⟩ := Prod.mk.inj (Option.some.inj himport)
  exact ⟨p, htarget⟩

/-- `namedHandler?` gives a function that is recorded where it was found. -/
private theorem records_namedHandler? {name : String}
    (h : s.namedHandler? file name = some (target, span)) :
    target.Records span ∧ (target = file ∨ ∃ p, s.outline? p = some target) := by
  -- A function of the file itself goes before an imported one.
  cases hlocal : file.functions.find? name with
  | some found =>
    rw [namedHandler?, hlocal] at h
    obtain ⟨rfl, rfl⟩ := Prod.mk.inj (Option.some.inj h)
    exact ⟨.function (Dictionary.mem_of_find? hlocal), Or.inl rfl⟩
  | none =>
    rw [namedHandler?_of_import hlocal] at h
    obtain ⟨hother, binding, hfound⟩ := exists_of_importedFrom? Outline.boundFunction? h
    exact ⟨Outline.records_boundFunction? hfound, Or.inr hother⟩

/-- `memberHandler?` gives a function that is recorded where it was found. -/
private theorem records_memberHandler? {object property : String}
    (h : s.memberHandler? file object property = some (target, span)) :
    target.Records span ∧ (target = file ∨ ∃ p, s.outline? p = some target) := by
  cases hlocal : file.localMember? object property with
  | some found =>
    rw [memberHandler?, hlocal] at h
    obtain ⟨rfl, rfl⟩ := Prod.mk.inj (Option.some.inj h)
    exact ⟨Outline.records_localMember? hlocal, Or.inl rfl⟩
  | none =>
    rw [memberHandler?_of_import hlocal] at h
    obtain ⟨hother, binding, hfound⟩ := exists_of_importedFrom? (Outline.boundMember? · property) h
    exact ⟨Outline.records_boundMember? hfound, Or.inr hother⟩

/-- `handler?` gives a function that is recorded where it was found: in the file of the route or in
another file of the survey. -/
theorem records_handler? {route : Route} (hroute : route ∈ file.routes)
    (h : s.handler? file route = some (target, span)) :
    target.Records span ∧ (target = file ∨ ∃ p, s.outline? p = some target) := by
  obtain ⟨argument, hargument, hfound⟩ := List.exists_of_findSome?_eq_some h
  cases argument with
  | inline place =>
    obtain ⟨rfl, rfl⟩ := Prod.mk.inj (Option.some.inj hfound)
    exact ⟨.inline hroute (List.mem_reverse.mp hargument), Or.inl rfl⟩
  | name text => exact records_namedHandler? hfound
  | member object property => exact records_memberHandler? hfound
  | other => exact nomatch hfound

/-! ## In a survey -/

/-- Every outline is that of a source, and its tree is laid out like one. -/
def OutlinesSourceTrees (load : Path → Except FileFault Outline) : Prop :=
  ∀ p o, load p = .ok o → ∃ resolve source, o = Outline.ofSource resolve source ∧
    source.tree.IsSourceTree

/-- `outline?` gives one of the `outlines`. -/
private theorem mem_outlines_of_outline? {p : Path} {o : Outline} (h : s.outline? p = some o) :
    o ∈ s.outlines := by
  obtain ⟨v, hv, rfl⟩ := Option.map_eq_some_iff.mp h
  exact List.mem_map_of_mem (List.mem_of_find?_eq_some hv)

/-- A file of a `Sound` survey that records a function has been read. -/
private theorem Sound.exists_source_of_records {load : Path → Except FileFault Outline}
    {entries : List Path} (hload : OutlinesSourceTrees load) (hs : Sound load entries s)
    (htarget : target ∈ s.outlines) (h : target.Records span) :
    ∃ resolve source, target = Outline.ofSource resolve source ∧ source.tree.IsSourceTree := by
  obtain ⟨v, hv, rfl⟩ := List.mem_map.mp htarget
  cases hresult : v.result with
  | ok o =>
    have houtline : v.outline = o := by rw [Visit.outline, hresult]
    rw [houtline]
    exact hload v.path o ((hs.loaded v hv).symm.trans hresult)
  | error fault =>
    -- The outline of a file that could not be read has nothing in it.
    rw [Visit.outline, hresult] at h
    exact absurd h (Outline.not_records_blank v.path)

/-- `locate?` finds every span that an outline records, in the tree of its file and at a function
with that span. So the handler that `handler?` finds for a route, in whatever file, can be read: its
file has been parsed, and `facts?` of the route are what the function there reads. -/
theorem handlers_located :
    (∀ (resolve : String → Option Path) (source : SourceFile) (span : Span),
      source.tree.IsSourceTree →
      (Outline.ofSource resolve source).Records span →
      ∃ g, source.root.locate? span = some g ∧ g.IsFunctionAt source.tree span ∧
        (source.tree.LinesByStart → g.node.span = span)) ∧
    ∀ (load : Path → Except FileFault Outline) (maxDepth visits : Nat) (calls : List Call),
      OutlinesSourceTrees load →
      ∀ file ∈ (afterCalls load maxDepth visits calls).outlines, ∀ route ∈ file.routes,
      ∀ target span, (afterCalls load maxDepth visits calls).handler? file route =
        some (target, span) →
        ∃ source g, target.source? = some source ∧ source.root.locate? span = some g ∧
          g.IsFunctionAt source.tree span ∧
          (afterCalls load maxDepth visits calls).facts? file route = some g.handlerFacts := by
  refine ⟨fun resolve source span htree => Outline.exists_locate?_of_records htree, ?_⟩
  intro load maxDepth visits calls hload file hfile route hroute target span hhandler
  obtain ⟨hrecords, hwhere⟩ := records_handler? hroute hhandler
  -- In the file of the route or in another, it is a file of the survey.
  have htarget : target ∈ (afterCalls load maxDepth visits calls).outlines := by
    rcases hwhere with rfl | ⟨p, hp⟩
    · exact hfile
    · exact mem_outlines_of_outline? hp
  obtain ⟨resolve, source, rfl, htree⟩ :=
    afterCalls_sound.exists_source_of_records hload htarget hrecords
  obtain ⟨g, hlocate, hg, _⟩ := Outline.exists_locate?_of_records htree hrecords
  refine ⟨source, g, rfl, hlocate, hg, ?_⟩
  rw [facts?, hhandler]
  show (source.root.locate? span).bind _ = _
  rw [hlocate]
  rfl

/-- In `searchFile`, whose one route has its handler in place, the handler is located in the tree,
and read after a walk from the file. -/
theorem searchFile_handlers_located :
    Syntax.searchTree.IsSourceTree ∧
    (∃ g, (Cursor.ofRoot Syntax.searchTree).locate? ⟨16, 33, 1⟩ = some g ∧
      g.node.span = ⟨16, 33, 1⟩) ∧
    ∃ file ∈ (afterCalls searchFile 1 3 [.walk ⟨"/r.js"⟩]).outlines, ∃ route ∈ file.routes,
      ∃ g : Cursor, g.kind.isFunction = true ∧
        (afterCalls searchFile 1 3 [.walk ⟨"/r.js"⟩]).facts? file route = some g.handlerFacts := by
  have htree : Syntax.searchTree.IsSourceTree := ⟨by decide, by decide, by decide⟩
  have hlines : Syntax.searchTree.LinesByStart := by
    unfold Node.LinesByStart
    decide
  let source : SourceFile :=
    ⟨⟨"/r.js"⟩, .javaScript, "r.get('/u/:id', q => q.query.page)", Syntax.searchTree⟩
  let file := Outline.ofSource (fun _ => none) source
  have hload : OutlinesSourceTrees searchFile := by
    intro p o ho
    unfold searchFile at ho
    split at ho
    · exact ⟨_, source, (Except.ok.inj ho).symm, htree⟩
    · exact nomatch ho
  -- The survey has this one outline, and its one route has the handler in place.
  have houtlines : (afterCalls searchFile 1 3 [.walk ⟨"/r.js"⟩]).outlines = [file] := by
    have hfiles : (afterCalls searchFile 1 3 [.walk ⟨"/r.js"⟩]).files = [⟨"/r.js"⟩] := by
      decide +kernel
    rw [outlines, afterCalls_sound.visits_eq, hfiles]
    rfl
  have hroutes : file.routes = [⟨.declare .get "/u/:id", [.inline ⟨16, 33, 1⟩], ⟨0, 34, 1⟩⟩] := by
    decide +kernel
  have hfile : file ∈ (afterCalls searchFile 1 3 [.walk ⟨"/r.js"⟩]).outlines := by simp [houtlines]
  have hroute : ⟨.declare .get "/u/:id", [.inline ⟨16, 33, 1⟩], ⟨0, 34, 1⟩⟩ ∈ file.routes := by
    simp [hroutes]
  obtain ⟨hlocated, hread⟩ := handlers_located
  obtain ⟨g, hg, _, hspan⟩ :=
    hlocated (fun _ => none) source ⟨16, 33, 1⟩ htree (.inline hroute List.mem_cons_self)
  obtain ⟨_, g', _, _, hfunction, hfacts⟩ :=
    hread searchFile 1 3 [.walk ⟨"/r.js"⟩] hload file hfile _ hroute
    file ⟨16, 33, 1⟩ rfl
  exact ⟨htree, ⟨g, hg, hspan hlines⟩, file, hfile, _, hroute, g', hfunction.function, hfacts⟩

end Survey

end RouteAtlas
