import RouteAtlas.Proofs.Endpoint.WellFormed
import RouteAtlas.Proofs.Module.Provenance

/-!
# Where routes come from

Of all that is noted in an outline, only calls are noted as routes. So every route of an outline is
one that some call registers, and its endpoint is as it was declared there.

## Key results

- `Note.route?_of_mem_ofNode`: a route is noted where a call registers it
- `Collection.exists_call_of_mem_routes_ofTree`: every route is registered by a call
- `Outline.routes_wellFormed`: the endpoints of an outline are well formed
-/

namespace RouteAtlas

open Syntax

namespace Note

/-- `ofNode` notes the route that a call registers, and no other. -/
private theorem route?_of_mem_ofNode {place : Cursor} {r : Route} (h : .route r ∈ ofNode place) :
    place.node.route? = some r := by
  -- Declarators and exports give rise to notes too, but of other kinds.
  cases takenFrom_of_mem_ofNode h with
  | route _ route_eq => exact route_eq
  | declarator _ _ _ mem =>
    rcases exists_of_mem_ofDeclared mem with ⟨_, hnote⟩ | ⟨_, _, hnote⟩ | ⟨_, _, hnote⟩ <;>
      exact nomatch hnote
  | exportStatement _ mem => exact nomatch exportFrom_of_mem_ofExportStatement _ mem
  | assignment _ _ _ mem =>
    exact nomatch exportFrom_of_mem_ofAssignment _ (Node.self_mem_subtrees _) _ mem

end Note

namespace Collection

variable {c : Collection} {r : Route}

/-- `note` adds the route that the note is about, if it is about one. -/
private theorem mem_routes_note {note : Note} (h : r ∈ (c.note note).routes) :
    r ∈ c.routes ∨ note = .route r := by
  cases note with
  | route new =>
    rcases List.mem_append.mp h with hold | hnew
    · exact .inl hold
    · exact .inr (congrArg Note.route (List.mem_singleton.mp hnew).symm)
  | listed name =>
    rw [Collection.note, listExport_eq] at h
    exact .inl h
  | imported | exported | defaultExport | function | declared | mount => exact .inl h

/-- `note` of several notes adds the routes that they are about. -/
private theorem mem_routes_foldl_note {notes : List Note}
    (h : r ∈ (notes.foldl note c).routes) : r ∈ c.routes ∨ .route r ∈ notes := by
  induction notes generalizing c with
  | nil => exact .inl h
  | cons first rest ih =>
    rcases ih h with hfirst | hrest
    · rcases mem_routes_note hfirst with hold | rfl
      · exact .inl hold
      · exact .inr List.mem_cons_self
    · exact .inr (List.mem_cons_of_mem _ hrest)

/-- `ofTree` has routes that a call registers, and no others. -/
private theorem exists_call_of_mem_routes_ofTree {root : Cursor}
    (hr : r ∈ (ofTree root).routes) : ∃ call : Node, call.route? = some r := by
  refine ofTree_keeps (P := fun c => ∀ r ∈ c.routes, ∃ call : Node, call.route? = some r) ?_ ?_ r hr
  · intro c place _ hc r hr
    rcases mem_routes_foldl_note hr with hold | hnew
    · exact hc r hold
    · exact ⟨place.node, Note.route?_of_mem_ofNode hnew⟩
  · exact fun _ => nofun

end Collection

/-- `route?` gives a route with the endpoint that is declared there, under a URL that is not
empty. -/
private theorem Syntax.Node.endpoint_route? {call : Node} {r : Route} (h : call.route? = some r) :
    ∃ method url, url ≠ "" ∧ r.endpoint = .declare method url := by
  obtain ⟨⟨property, args⟩, _, h⟩ := Option.bind_eq_some_iff.mp h
  obtain ⟨method, _, h⟩ := Option.bind_eq_some_iff.mp h
  -- Two arguments at least: the URL and a handler.
  cases args with
  | nil => exact nomatch h
  | cons first rest =>
    cases rest with
    | nil => exact nomatch h
    | cons handler more =>
      obtain ⟨url, _, h⟩ := Option.bind_eq_some_iff.mp h
      obtain ⟨_, hguard, hr⟩ := Option.bind_eq_some_iff.mp h
      obtain rfl := Option.some.inj hr
      refine ⟨method, url, ?_, rfl⟩
      rintro rfl
      exact nomatch hguard

namespace Outline

/-- `routes` of an outline have endpoints that are `WellFormed`. -/
theorem routes_wellFormed {resolve : String → Option Path} {source : SourceFile} {r : Route}
    (hr : r ∈ (ofSource resolve source).routes) : r.endpoint.WellFormed := by
  obtain ⟨call, hcall⟩ := Collection.exists_call_of_mem_routes_ofTree hr
  obtain ⟨method, url, hurl, hend⟩ := Node.endpoint_route? hcall
  rw [hend]
  exact Endpoint.declare_wellFormed method hurl

end Outline

end RouteAtlas
