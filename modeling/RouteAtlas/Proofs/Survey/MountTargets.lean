import RouteAtlas.Proofs.Catalogue.WellFormed
import RouteAtlas.Proofs.Module.Provenance
import RouteAtlas.Proofs.Survey.Bookkeeping

/-!
# Mounted routers are visited

The file of a mounted router is found by the import that binds the router's name, or by the module
that its variable holds; a survey follows imports only. But a variable that holds a module was
declared together with an import of that module, so either way the file is one that is imported.
After a survey it has been visited, and the catalogue has a router for it.

## Key results

- `Collection.requiredImported_ofTree`: modules that variables hold are imported
- `Outline.mem_importedFiles_of_mount`: the file of a mounted router is imported
- mounts of a survey that are resolved lead to a file that has been visited
-/

namespace RouteAtlas

open Syntax

/-! ## Variables that hold modules -/

/-- Where a variable is noted that holds a module, an import of the module is noted as well. -/
def Note.RequiredImported (notes : List Note) : Prop :=
  ∀ name specifier, .declared name (.required specifier) ∈ notes →
    ∃ i, .imported i ∈ notes ∧ i.specifier = specifier

namespace Note

/-- `importOfDeclarator` keeps the specifier. -/
private theorem specifier_importOfDeclarator (name : Node) (specifier : String)
    (member : Option String) :
    (Node.importOfDeclarator name specifier member).specifier = specifier := by
  unfold Node.importOfDeclarator
  split
  · split <;> rfl
  · rfl
  · rfl
  · rfl

/-- `ofDeclared` notes an import with every variable that holds a module. -/
private theorem requiredImported_ofDeclared (topLevel : Bool) (name value : Node) :
    RequiredImported (ofDeclared topLevel name value) := by
  unfold ofDeclared
  cases value.required? with
  | some required =>
    intro x specifier hmem
    refine ⟨_, List.mem_cons_self, ?_⟩
    rw [specifier_importOfDeclarator]
    rcases List.mem_cons.mp hmem with heq | hdeclared
    · exact nomatch heq
    · split at hdeclared
      · have heq := List.mem_singleton.mp hdeclared
        simp only [declared.injEq, Variable.required.injEq] at heq
        exact heq.2.symm
      · exact absurd hdeclared List.not_mem_nil
  | none =>
    -- What is not a call of `require` is not noted as a module.
    dsimp only
    split
    · split
      · rintro x specifier (_ | ⟨_, hmem⟩)
        exact nomatch List.mem_singleton.mp hmem
      · intro x specifier hmem
        have heq := List.mem_singleton.mp hmem
        simp only [declared.injEq] at heq
        split at heq
        · exact nomatch heq.2
        · exact nomatch heq.2
    · exact fun _ _ => nofun

/-- `ofNode` notes an import with every variable that holds a module. -/
private theorem requiredImported_ofNode (place : Cursor) : RequiredImported (ofNode place) := by
  intro name specifier hmem
  -- Declarators alone note what variables hold; the notes of other nodes are of other kinds.
  cases takenFrom_of_mem_ofNode hmem with
  | declarator kind name_eq value_eq mem =>
    obtain ⟨i, hi, hspecifier⟩ := requiredImported_ofDeclared _ _ _ name specifier mem
    exact ⟨i, mem_ofNode_iff.mpr (.declarator kind name_eq value_eq hi), hspecifier⟩
  | exportStatement _ mem => exact nomatch exportFrom_of_mem_ofExportStatement _ mem
  | assignment _ _ _ mem =>
    exact nomatch exportFrom_of_mem_ofAssignment _ (Node.self_mem_subtrees _) _ mem

end Note

namespace Collection

variable {c : Collection}

/-- Every module that a variable holds is imported. -/
def RequiredImported (c : Collection) : Prop :=
  ∀ name specifier, c.vars.find? name = some (.required specifier) →
    ∃ i ∈ c.imports, i.specifier = specifier

/-- `note` removes no imports. -/
private theorem imports_subset_note (note : Note) : c.imports ⊆ (c.note note).imports := by
  cases note with
  | imported i => exact List.subset_append_left _ _
  | listed name =>
    show c.imports ⊆ (c.listExport name).imports
    unfold listExport
    split <;> exact List.Subset.refl _
  | exported name value => exact List.Subset.refl _
  | defaultExport value? => exact List.Subset.refl _
  | function name span topLevel => exact List.Subset.refl _
  | declared name held => exact List.Subset.refl _
  | route r => exact List.Subset.refl _
  | mount front router => exact List.Subset.refl _

/-- `note` of several notes leaves the old imports and those that are noted. -/
private theorem mem_imports_foldl_note {notes : List Note} {i : Import}
    (h : .imported i ∈ notes ∨ i ∈ c.imports) :
    i ∈ (notes.foldl note c).imports := by
  induction notes generalizing c with
  | nil => exact h.resolve_left List.not_mem_nil
  | cons first rest ih =>
    refine ih ?_
    rcases h with hmem | hold
    · rcases List.mem_cons.mp hmem with rfl | hrest
      · exact Or.inr (List.mem_append_right _ List.mem_cons_self)
      · exact Or.inl hrest
    · exact Or.inr (imports_subset_note first hold)

/-- `note` of what is noted at a node keeps `RequiredImported`. -/
theorem RequiredImported.foldl_note (h : c.RequiredImported) {notes : List Note}
    (hnotes : Note.RequiredImported notes) : (notes.foldl note c).RequiredImported := by
  intro name specifier hheld
  rw [find?_vars_foldl_note] at hheld
  -- What a variable holds was noted here, with its import, or before.
  rcases Option.or_eq_some_iff.mp hheld with hlast | ⟨_, hold⟩
  · obtain ⟨note, hnote, hdeclared⟩ := List.mem_filterMap.mp (List.mem_of_getLast? hlast)
    obtain rfl := Note.declaredAs?_eq_some_iff.mp hdeclared
    obtain ⟨i, hi, hspecifier⟩ := hnotes name specifier hnote
    exact ⟨i, mem_imports_foldl_note (Or.inl hi), hspecifier⟩
  · obtain ⟨i, hi, hspecifier⟩ := h name specifier hold
    exact ⟨i, mem_imports_foldl_note (Or.inr hi), hspecifier⟩

/-- `ofTree` has an import for every module that a variable holds. -/
private theorem requiredImported_ofTree (root : Cursor) : (ofTree root).RequiredImported :=
  ofTree_keeps (P := RequiredImported)
    (fun _ place _ hc => hc.foldl_note (Note.requiredImported_ofNode place)) (fun _ _ => nofun)

end Collection

namespace Outline

variable {resolve : String → Option Path} {source : SourceFile}

/-- `importedFiles` has the file of every mounted router. -/
private theorem mem_importedFiles_of_mount {m : Mount} {p : Path}
    (hm : m ∈ (ofSource resolve source).mounts) (hp : m.file? = some p) :
    p ∈ (ofSource resolve source).importedFiles := by
  obtain ⟨⟨front, router⟩, _, rfl⟩ := List.mem_map.mp hm
  have hfile : Collection.routerFile? resolve (ofSource resolve source).imports
      (Collection.ofTree source.root).vars router = some p := hp
  unfold Collection.routerFile? at hfile
  cases hbinding : bindingIn? (ofSource resolve source).imports router with
  | some found =>
    -- By the import that binds the name.
    rw [hbinding] at hfile
    obtain ⟨i, hi, hfound⟩ := List.exists_of_findSome?_eq_some hbinding
    obtain ⟨binding, _, rfl⟩ := Option.map_eq_some_iff.mp hfound
    exact List.mem_filterMap.mpr ⟨i, hi, hfile⟩
  | none =>
    -- By the module that the variable holds, which is imported too.
    rw [hbinding] at hfile
    cases hheld : (Collection.ofTree source.root).vars.find? router with
    | none =>
      rw [hheld] at hfile
      exact nomatch hfile
    | some held =>
      rw [hheld] at hfile
      cases held with
      | required specifier =>
        obtain ⟨i, hi, rfl⟩ := Collection.requiredImported_ofTree source.root router specifier hheld
        exact List.mem_filterMap.mpr ⟨_, List.mem_map_of_mem hi, hfile⟩
      | function span => exact nomatch hfile
      | object members => exact nomatch hfile
      | other => exact nomatch hfile

end Outline

/-! ## After a survey -/

namespace Catalogue

/-- `target?` of a mount whose file is among some files is the router of that file. -/
private theorem exists_target?_ofOutlines {files : List Outline} {i k : Nat} {o : Outline}
    {m : Mount} {p : Path} (ho : files[i]? = some o) (hm : o.mounts[k]? = some m)
    (hp : m.file? = some p) (hfile : ∃ f ∈ files, f.path.same p = true) :
    ∃ j f, target? (Router.ofOutlines files) (i, k) = some j ∧ files[j]? = some f ∧
      f.path.same p = true := by
  obtain ⟨f, hf, hsame⟩ := hfile
  -- The number of the first file at that place.
  obtain ⟨j, hj⟩ : ∃ j, files.findIdx? (·.path.same p) = some j := by
    rw [← Option.isSome_iff_exists, List.findIdx?_isSome, List.any_eq_true]
    exact ⟨f, hf, hsame⟩
  have hmount : mount? (Router.ofOutlines files) (i, k) = some (m.front, some j) := by
    simp [mount?, router, Router.ofOutlines, ho, hm, hp, hj]
  obtain ⟨hlt, hfound, _⟩ := List.findIdx?_eq_some_iff_getElem.mp hj
  exact ⟨j, files[j], by rw [target?, hmount]; rfl, List.getElem?_eq_getElem hlt, hfound⟩

end Catalogue

namespace Survey

variable {load : Path → Except FileFault Outline} {entries all : List Path} {s : Survey}

/-- Every mount of a file of the survey whose router's file is known, outside packages: that file
has been visited, and the catalogue has a router for it. -/
def MountsVisited (s : Survey) : Prop :=
  ∀ files ∈ [s.outlines, s.inferred], ∀ (i k : Nat) (o : Outline) (m : Mount) (p : Path),
    files[i]? = some o → o.mounts[k]? = some m → m.file? = some p → p.isForeign = false →
    (s.outline? p).isSome = true ∧
      ∃ j f, Catalogue.target? (Router.ofOutlines files) (i, k) = some j ∧ files[j]? = some f ∧
        f.path.same p = true

/-- A mount of a file of a `Sound` survey is one of an outline that was read, and its router's file
is `Due`. -/
private theorem Sound.due_of_mount (hload : OutlinesSources load) (hs : Sound load entries s)
    {o : Outline} {m : Mount} {p : Path} (ho : o ∈ s.outlines) (hm : m ∈ o.mounts)
    (hp : m.file? = some p) :
    s.Due entries p := by
  obtain ⟨v, hv, rfl⟩ := List.mem_map.mp ho
  refine Or.inr ⟨v, hv, ?_⟩
  rw [Visit.imports]
  -- A file that could not be read has no mounts.
  cases hresult : v.result with
  | ok o =>
    have houtline : v.outline = o := by rw [Visit.outline, hresult]
    obtain ⟨resolve, source, rfl⟩ := hload v.path o ((hs.loaded v hv).symm.trans hresult)
    rw [houtline] at hm ⊢
    exact Outline.mem_importedFiles_of_mount hm hp
  | error fault =>
    rw [Visit.outline, hresult] at hm
    exact absurd hm List.not_mem_nil

/-- `inferred` changes neither the mounts of a file nor its path. -/
private theorem exists_outline_of_inferred {files : List Outline}
    (hfiles : files ∈ [s.outlines, s.inferred]) {o : Outline} (ho : o ∈ files) :
    ∃ o' ∈ s.outlines, o'.mounts = o.mounts ∧ o'.path = o.path := by
  rcases List.mem_cons.mp hfiles with rfl | hinferred
  · exact ⟨o, ho, rfl, rfl⟩
  · obtain rfl := List.mem_singleton.mp hinferred
    obtain ⟨o', ho', rfl⟩ := List.mem_map.mp ho
    exact ⟨o', ho', rfl, rfl⟩

/-- `inferred` leaves out no file. -/
private theorem exists_inferred_of_outline {files : List Outline}
    (hfiles : files ∈ [s.outlines, s.inferred]) {o : Outline} (ho : o ∈ s.outlines) :
    ∃ o' ∈ files, o'.path = o.path := by
  rcases List.mem_cons.mp hfiles with rfl | hinferred
  · exact ⟨o, ho, rfl⟩
  · obtain rfl := List.mem_singleton.mp hinferred
    exact ⟨_, List.mem_map_of_mem ho, rfl⟩

/-- `explore` leads to `MountsVisited`, if it may make enough visits. -/
private theorem explore_mountsVisited (hsources : OutlinesSources load)
    (hpath : ∀ p o, load p = .ok o → o.path = p) (hwithin : ImportsWithin load all) (maxDepth : Nat)
    {visits : Nat} (hvisits : all.length + 2 ≤ visits) (entries : List Path) :
    (explore load maxDepth visits entries).MountsVisited := by
  intro files hfiles i k o m p ho hm hp hown
  have hsound : Sound load entries (explore load maxDepth visits entries) := explore_sound
  obtain ⟨o', ho', hmounts, _⟩ := exists_outline_of_inferred hfiles (List.mem_of_getElem? ho)
  -- The file of the router is imported, hence due, hence visited.
  have hdue := hsound.due_of_mount hsources ho' (hmounts ▸ List.mem_of_getElem? hm) hp
  have hhas := has_explore_of_due hwithin hvisits hown hdue
  refine ⟨(isSome_outline? _ p).trans hhas, Catalogue.exists_target?_ofOutlines ho hm hp ?_⟩
  -- The visit to the file under some path for its place.
  obtain ⟨v, hv, hsame⟩ := has_eq_true.mp hhas
  obtain ⟨f, hf, hfpath⟩ := exists_inferred_of_outline hfiles (List.mem_map_of_mem hv)
  refine ⟨f, hf, ?_⟩
  rw [hfpath, hsound.path_outline hpath hv]
  exact hsame

/-- `importedFiles` has the file of a mounted router, however it is found. So after `explore` from
any entry points it has been visited, packages apart, and the catalogue has a router for it; after
`ofEntries` on a disk, too. -/
theorem mounts_lead_to_visited :
    (∀ (resolve : String → Option Path) (source : SourceFile),
      ∀ m ∈ (Outline.ofSource resolve source).mounts,
      ∀ p, m.file? = some p → p ∈ (Outline.ofSource resolve source).importedFiles) ∧
    (∀ (load : Path → Except FileFault Outline) (all : List Path) (maxDepth visits : Nat)
      (entries : List Path),
      OutlinesSources load → (∀ p o, load p = .ok o → o.path = p) → ImportsWithin load all →
      all.length + 2 ≤ visits → (explore load maxDepth visits entries).MountsVisited) ∧
    ∀ (disk : Disk) (root : Path) (maxDepth : Nat) (entries : List Path),
      (ofEntries disk root maxDepth entries).MountsVisited := by
  refine ⟨fun resolve source m hm p => Outline.mem_importedFiles_of_mount hm, ?_, ?_⟩
  · intro load all maxDepth visits entries hsources hpath hwithin hvisits
    exact explore_mountsVisited hsources hpath hwithin maxDepth hvisits entries
  · intro disk root maxDepth entries
    rw [ofEntries_eq_explore]
    exact explore_mountsVisited (Outline.ofFile_outlinesSources disk root)
      (fun _ _ => Outline.path_ofFile) (Outline.ofFile_importsWithin disk root) maxDepth
      (Nat.le_of_eq disk.length_filePaths_add_two) entries

end Survey

/-! ## A file with a mount -/

/-- The tree of a file that requires a module and mounts what it gets. -/
def Syntax.mountTree : Node :=
  .onLine .program none 0 40 "const u = require('./u'); r.use('/a', u)"
    [.onLine .lexicalDeclaration none 0 25 "const u = require('./u');"
      [.onLine .variableDeclarator none 6 24 "u = require('./u')"
        [.onLine .identifier (some .name) 6 7 "u",
         .onLine .callExpression (some .value) 10 24 "require('./u')"
          [.onLine .identifier (some .function) 10 17 "require",
           .onLine .arguments (some .arguments) 17 24 "('./u')"
             [.onLine .string none 18 23 "'./u'"]]]],
     .onLine .expressionStatement none 26 40 "r.use('/a', u)"
      [.onLine .callExpression none 26 40 "r.use('/a', u)"
        [.onLine .memberExpression (some .function) 26 31 "r.use"
          [.onLine .identifier (some .object) 26 27 "r",
           .onLine .propertyIdentifier (some .property) 28 31 "use"],
         .onLine .arguments (some .arguments) 31 40 "('/a', u)"
          [.onLine .string none 32 36 "'/a'", .onLine .identifier none 38 39 "u"]]]]

namespace Survey

/-- The outline of that file, and of every other path as a file with nothing in it. -/
def mountFiles (p : Path) : Except FileFault Outline :=
  .ok (Outline.ofSource (fun specifier => if specifier = "./u" then some ⟨"/u.js"⟩ else none)
    ⟨p, .javaScript, "",
      if p.text = "/s.js" then Syntax.mountTree else .onLine .program none 0 0 ""⟩)

/-- The mount of `mountFiles` leads to the file of the module that is required, which a survey from
the first file visits. -/
theorem mountFiles_lead_to_visited :
    let s := explore mountFiles 1 3 [⟨"/s.js"⟩]
    ∃ o m, s.outlines[0]? = some o ∧ o.mounts[0]? = some m ∧ m.file? = some ⟨"/u.js"⟩ ∧
      ⟨"/u.js"⟩ ∈ o.importedFiles ∧ (s.outline? ⟨"/u.js"⟩).isSome = true ∧
      ∃ j f, Catalogue.target? (Router.ofOutlines s.outlines) (0, 0) = some j ∧
        s.outlines[j]? = some f ∧
        f.path.same ⟨"/u.js"⟩ = true := by
  intro s
  obtain ⟨himported, hvisited, _⟩ := mounts_lead_to_visited
  have hsources : OutlinesSources mountFiles := fun p o ho => ⟨_, _, (Except.ok.inj ho).symm⟩
  have hpath : ∀ p o, mountFiles p = .ok o → o.path = p := by
    intro p o ho
    obtain rfl := Except.ok.inj ho
    rfl
  -- Only one specifier leads anywhere, and it leads to the one file.
  have hwithin : ImportsWithin mountFiles [⟨"/u.js"⟩] := by
    intro p o ho q hq
    obtain rfl := Except.ok.inj ho
    obtain ⟨_, hi, hfile⟩ := List.mem_filterMap.mp hq
    obtain ⟨i, _, rfl⟩ := List.mem_map.mp hi
    have hresolved : (if i.specifier = "./u" then some ⟨"/u.js"⟩ else none) = some q := hfile
    split at hresolved
    · exact List.mem_singleton.mpr (Option.some.inj hresolved).symm
    · exact nomatch hresolved
  have hmount : (s.outlines[0]?.bind (·.mounts[0]?)) = some ⟨"/a", "u", some ⟨"/u.js"⟩⟩ := by
    decide +kernel
  obtain ⟨o, ho, hm⟩ := Option.bind_eq_some_iff.mp hmount
  have hown : Path.isForeign ⟨"/u.js"⟩ = false := by decide +kernel
  obtain ⟨hsome, hrouter⟩ :=
    hvisited mountFiles [⟨"/u.js"⟩] 1 3 [⟨"/s.js"⟩] hsources hpath hwithin (Nat.le_refl 3)
    s.outlines List.mem_cons_self 0 0 o _ ⟨"/u.js"⟩ ho hm rfl hown
  have hread : ∃ p, mountFiles p = .ok o := by
    obtain ⟨v, hv, rfl⟩ := List.mem_map.mp (List.mem_of_getElem? ho)
    have hloaded : v.result = mountFiles v.path := explore_sound.loaded v hv
    exact ⟨v.path, by rw [Visit.outline, hloaded]; rfl⟩
  obtain ⟨p, hp⟩ := hread
  have himport : ⟨"/u.js"⟩ ∈ o.importedFiles := by
    obtain rfl := Except.ok.inj hp
    exact himported _ _ _ (List.mem_of_getElem? hm) _ rfl
  exact ⟨o, _, ho, hm, rfl, himport, hsome, hrouter⟩

end Survey

end RouteAtlas
