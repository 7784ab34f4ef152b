import Mathlib.Data.List.Forall2
import RouteAtlas.Project.Resolver
import RouteAtlas.Proofs.Disk.Lookup

/-!
# Specifiers that start at the root

A specifier with a slash at the front is to be found from the root of the project, as the one with a
point in front of the slash is found from a file in this root. The two are completed from different
texts. But each path that is tried for one of them is a spelling of the path that is tried in its
place for the other, and so both find the same file, from wherever the first one is imported. The
one exception is a specifier with a second slash: what comes after the first slash is absolute then,
and it leads away from the project to the root of the disk.

## Key results

- `respelled_candidates`: spellings of a path stand for spellings of the same files
- `find?_respelled`: the same file is found if spellings of the same paths are tried
- `resolve_root_absolute`: a specifier with a slash at the front, against the one with a point in
  front of it
-/

namespace RouteAtlas.Resolver

open RouteAtlas.Path RouteAtlas.Disk

variable {d : Disk} {root importer p q r s : Path} {rest : String}

/-! ## Paths that are tried -/

/-- The paths that are tried for a specifier, one after the other. -/
def tried (root : Path) (specifier : String) (importer : Path) : List Path :=
  ((base? root specifier importer).map candidates).getD []

/-- `resolve` takes the first of the `tried` paths that is a file. -/
private theorem resolve_eq_find? (d : Disk) (root : Path) (specifier : String) (importer : Path) :
    resolve d root specifier importer = ((tried root specifier importer).find? d.isFile).bind
      d.canonical? := by
  rw [resolve, tried]
  cases base? root specifier importer <;> rfl

/-- `compiledFrom` gives extensions without slashes. -/
private theorem slash_not_mem_compiledFrom (extension : String) :
    ∀ e ∈ compiledFrom extension, '/' ∉ e.toList := by
  unfold compiledFrom
  split <;> decide

/-- `Language.extensions` has no slashes, nor does the point before them. -/
private theorem slash_not_mem_extensions : ∀ e ∈ Language.extensions, '/' ∉ ("." ++ e).toList := by
  decide

/-- The name of an index file is no absolute path. -/
private theorem isAbsolute_index :
    ∀ e ∈ Language.extensions, (Path.mk ("index." ++ e)).isAbsolute = false := by
  decide +kernel

/-- Spellings of the same path for each item make two lists of them. -/
private theorem forall₂_map {α : Type} {f g : α → Path} {l : List α}
    (h : ∀ x ∈ l, Respelled (f x) (g x)) :
    List.Forall₂ Respelled (l.map f) (l.map g) := by
  rw [List.forall₂_map_left_iff, List.forall₂_map_right_iff, List.forall₂_same]
  exact h

/-- `candidates` of two spellings of a path are spellings of the same files, in the same order. -/
theorem respelled_candidates (h : Respelled p q) :
    List.Forall₂ Respelled (candidates p) (candidates q) := by
  -- The four kinds of candidates are spelled one by one and put together at the end.
  have hextended : List.Forall₂ Respelled (Language.extensions.map fun e => ⟨p.text ++ "." ++ e⟩)
      (Language.extensions.map fun e => ⟨q.text ++ "." ++ e⟩) := by
    apply forall₂_map
    intro e he
    rw [String.append_assoc, String.append_assoc]
    exact h.append (slash_not_mem_extensions e he)
  have hcompiled : List.Forall₂ Respelled
      (((p.extension?.map compiledFrom).getD []).map p.withExtension)
        (((q.extension?.map compiledFrom).getD []).map q.withExtension) := by
    rw [← h.extension?]
    cases hextension : p.extension? with
    | none => exact List.Forall₂.nil
    | some extension =>
      -- An extension can be replaced only in a last part that is a name.
      obtain ⟨name, hname, -⟩ := Option.bind_eq_some_iff.mp hextension
      apply forall₂_map
      intro e he
      exact h.withExtension hname (slash_not_mem_compiledFrom extension e he)
  have hindex : List.Forall₂ Respelled (Language.extensions.map fun e => p.join ("index." ++ e))
      (Language.extensions.map fun e => q.join ("index." ++ e)) := by
    apply forall₂_map
    intro e he
    exact h.join (isAbsolute_index e he)
  exact List.rel_append (List.rel_append (List.Forall₂.cons h hextended) hcompiled) hindex

/-! ## What is found -/

/-- Among spellings of the same paths, `find?` finds the same file first, if none of them is too
long where its counterpart is not. -/
theorem find?_respelled {cs cs' : List Path} (h : List.Forall₂ Respelled cs cs')
    (hlong : ∀ c ∈ cs.zip cs', IsTooLong c.1 ↔ IsTooLong c.2) :
    (cs.find? d.isFile).bind d.canonical? = (cs'.find? d.isFile).bind d.canonical? := by
  -- The paths are tried in pairs, and whether one of a pair is a file does not depend on the
  -- spelling.
  induction h with
  | nil => rfl
  | @cons c c' cs cs' hspelling hrest ih =>
    rw [List.zip_cons_cons, List.forall_mem_cons] at hlong
    obtain ⟨hfile, hcanonical⟩ := isFile_respelled hspelling hlong.1
    by_cases hfound : d.isFile c = true
    · rw [List.find?_cons_of_pos hfound, List.find?_cons_of_pos (hfile ▸ hfound)]
      exact hcanonical hfound
    · rw [List.find?_cons_of_neg hfound, List.find?_cons_of_neg (hfile ▸ hfound)]
      exact ih hlong.2

/-! ## Slashes and points at the front -/

/-- A specifier with a slash at the front is not `isRelative`. -/
private theorem isRelative_slash (rest : String) : isRelative ("/" ++ rest) = false := by
  have hslash : "/".toList = ['/'] := rfl
  have hpoint : ".".toList = ['.'] := rfl
  have hpoints : "..".toList = ['.', '.'] := rfl
  have hpointSlash : "./".toList = ['.', '/'] := rfl
  have hpointsSlash : "../".toList = ['.', '.', '/'] := rfl
  -- Every relative specifier starts with a point.
  rw [Bool.eq_false_iff, isRelative]
  simp only [ne_eq, Bool.or_eq_true, beq_iff_eq, String.startsWith_string_iff, ← String.toList_inj,
    String.toList_append, hslash, hpoint, hpoints, hpointSlash, hpointsSlash]
  simp

/-- A specifier with a point and a slash at the front `isRelative`. -/
private theorem isRelative_point (rest : String) : isRelative ("./" ++ rest) = true := by
  simp [isRelative, startsWith_append "./" rest]

/-- `tried`, with a slash at the front: what is after it is joined to the root, from wherever it is
imported. -/
private theorem tried_slash (root importer : Path) (rest : String) :
    tried root ("/" ++ rest) importer = candidates (root.join rest) := by
  have hrest : String.ofList (("/" ++ rest).toList.drop 1) = rest := by
    have hslash : "/".toList = ['/'] := rfl
    rw [String.toList_append, hslash]
    exact String.ofList_toList
  rw [tried, base?, isRelative_slash, if_neg Bool.false_ne_true,
    if_pos (startsWith_append "/" rest), hrest]
  rfl

/-- `tried`, with a point before the slash: all is joined to the directory of the importer. -/
private theorem tried_point (h : r.parent? = some p) :
    tried root ("./" ++ rest) r = candidates (p.join ("./" ++ rest)) := by
  rw [tried, base?, if_pos (isRelative_point rest), h]
  rfl

/-- The path is that of something directly in the directory. -/
def isDirectlyIn (p directory : Path) : Bool := p.parent?.any (·.same directory)

/-- What `isDirectlyIn` a directory has a spelling of this directory as its parent. -/
private theorem exists_of_isDirectlyIn {directory : Path} (h : isDirectlyIn r directory = true) :
    ∃ p, r.parent? = some p ∧ p.same directory = true := by
  unfold isDirectlyIn at h
  cases hparent : r.parent? with
  | none => simp [hparent] at h
  | some p => exact ⟨p, rfl, by simpa [hparent] using h⟩

/-- With a slash at the front, spellings of the same paths are `tried` as with a point before the
slash in a file directly in the root of the project. -/
private theorem respelled_tried (hr : isDirectlyIn r root = true)
    (hrest : (Path.mk rest).isAbsolute = false) :
    List.Forall₂ Respelled (tried root ("/" ++ rest) importer) (tried root ("./" ++ rest) r) := by
  obtain ⟨p, hparent, hsame⟩ := exists_of_isDirectlyIn hr
  rw [tried_slash, tried_point hparent]
  exact respelled_candidates (respelled_join hsame hrest)

/-- With two slashes at the front, the paths are `tried` that a file directly in the root of the
disk would try. -/
private theorem respelled_tried_of_isAbsolute (hs : isDirectlyIn s ⟨"/"⟩ = true)
    (hrest : (Path.mk rest).isAbsolute = true) :
    List.Forall₂ Respelled (tried root ("/" ++ rest) importer) (tried root ("./" ++ rest) s) := by
  obtain ⟨p, hparent, hsame⟩ := exists_of_isDirectlyIn hs
  rw [tried_slash, tried_point hparent, join_of_isAbsolute root hrest]
  exact respelled_candidates (respelled_join_root hsame hrest)

/-- `resolve` of a specifier with a slash at the front gives the same file as of the one with a
point before the slash in any file directly in the root of the project, wherever it is imported. If
it has a second slash, it gives the same file as the other one does in any file directly in the root
of the disk. Both are so unless some path that is tried is too long to be looked up in one of the
two spellings only. -/
theorem resolve_root_absolute (hr : isDirectlyIn r root = true) (hs : isDirectlyIn s ⟨"/"⟩ = true)
    (hlong : ∀ c ∈ (tried root ("/" ++ rest) importer).zip
      (tried root ("./" ++ rest) (if (Path.mk rest).isAbsolute then s else r)), IsTooLong c.1 ↔
        IsTooLong c.2) :
    resolve d root ("/" ++ rest) importer =
      resolve d root ("./" ++ rest) (if (Path.mk rest).isAbsolute then s else r) := by
  rw [resolve_eq_find?, resolve_eq_find?]
  refine find?_respelled ?_ hlong
  -- An absolute rest takes the place of the root when it is joined to it.
  cases hrest : (Path.mk rest).isAbsolute with
  | true => exact respelled_tried_of_isAbsolute hs hrest
  | false => exact respelled_tried hr hrest

/-- A project in the directory `app` with one source, and another source beside the project. -/
def dbProject : Disk :=
  ⟨.directory [("app", .directory [("lib", .directory [("db.ts", .file (some ""))])]),
    ("lib", .directory [("cache.ts", .file (some ""))])], ⟨"/"⟩⟩

/-- In `dbProject`, a compiled file is imported from the root, with parts in between that count for
nothing. -/
theorem dbProject_root_absolute :
    resolve dbProject ⟨"/app"⟩ "/lib//./db.js" ⟨"/app/routes/users.js"⟩ =
      some ⟨"/app/lib/db.ts"⟩ := by
  have hsame : resolve dbProject ⟨"/app"⟩ ("/" ++ "lib//./db.js") ⟨"/app/routes/users.js"⟩ =
      resolve dbProject ⟨"/app"⟩ ("./" ++ "lib//./db.js")
        (if (Path.mk "lib//./db.js").isAbsolute then ⟨"/server.js"⟩ else ⟨"/app/server.js"⟩) :=
    resolve_root_absolute (by decide +kernel) (by decide +kernel) (by decide +kernel)
  -- From the file in the root it is a relative specifier, and that one is looked up.
  refine hsame.trans ?_
  decide +kernel

/-- In `dbProject`, with a second slash, a source of the project is not found, and one outside of it
is. -/
theorem secondSlash_leaves_project :
    isDirectlyIn ⟨"/app/server.js"⟩ ⟨"/app"⟩ = true ∧
      resolve dbProject ⟨"/app"⟩ ("/" ++ "/lib/db") ⟨"/app/server.js"⟩ = none ∧
      resolve dbProject ⟨"/app"⟩ ("./" ++ "/lib/db") ⟨"/app/server.js"⟩ = some ⟨"/app/lib/db.ts"⟩ ∧
      resolve dbProject ⟨"/app"⟩ ("/" ++ "/lib/cache") ⟨"/app/server.js"⟩ =
        some ⟨"/lib/cache.ts"⟩ := by
  decide +kernel

end RouteAtlas.Resolver
