import RouteAtlas.Module.Outline
import Std.Data.HashMap
import Std.Data.HashSet

/-!
# The catalogue of a project

Each route appears first in the form that its file declares. Every chain of mounts that leads to the
file adds a form below the joined prefixes. Of the forms of one route, those are dropped that a
longer chain continues to another URL; of the forms with one method and URL, the first is kept.
-/

namespace RouteAtlas

/-- A file as a router: the endpoints it declares, and the routers it mounts, each with its prefix
and the number of its file if that is known. -/
structure Router where
  routes : List Endpoint := []
  mounts : List (String × Option Nat) := []
deriving DecidableEq, Repr, Inhabited

/-- The routers that some files are. -/
def Router.ofOutlines (files : List Outline) : List Router :=
  files.map fun o =>
    { routes := o.routes.map (·.endpoint)
      mounts := o.mounts.map fun m =>
        (m.front, m.file?.bind fun p => files.findIdx? (·.path.same p)) }

/-- A form in which a route appears. -/
structure RouteForm where
  endpoint : Endpoint
  /-- The numbers of the route's file and of the route in it. -/
  source : Nat × Nat
  /-- The mounts that lead to the file, the innermost first: the numbers of a file and of a mount in
  it. -/
  chain : List (Nat × Nat)
deriving DecidableEq, Repr, Inhabited

namespace Catalogue

/-- The router with the given number. -/
def router (routers : List Router) (i : Nat) : Router := routers[i]?.getD {}

/-- The forms in which files declare their routes. -/
def directForms (routers : List Router) : List RouteForm :=
  routers.zipIdx.flatMap fun (r, i) => r.routes.zipIdx.map fun (e, k) => ⟨e, (i, k), []⟩

/-- The forms of the routes of one file at the end of a chain of mounts. -/
def formsBelow (routers : List Router) (i : Nat) (front : String) (chain : List (Nat × Nat)) :
    List RouteForm :=
  (router routers i).routes.zipIdx.map fun (e, k) =>
    ⟨e.relocate (Url.join front e.url), (i, k), chain⟩

/-- The forms of the routes of a file, and of those it mounts in turn, below a prefix. `visiting`
holds the files on the chain, none of which is mounted again. -/
def expand (routers : List Router) : Nat → Nat → String → List (Nat × Nat) → List Nat →
    List RouteForm
  | 0, _, _, _, _ => []
  | depth + 1, i, front, chain, visiting =>
    formsBelow routers i front chain ++
      (router routers i).mounts.zipIdx.flatMap fun ((next, target?), m) =>
        match target? with
        | none => []
        | some target =>
          if target ∈ visiting then []
          else expand routers depth target (Url.join front next) ((i, m) :: chain)
            (target :: visiting)

/-- The forms of routes below mounts. A chain never returns to a file, so it is no longer than there
are files. -/
def mountedForms (routers : List Router) : List RouteForm :=
  routers.zipIdx.flatMap fun (r, i) =>
    r.mounts.zipIdx.flatMap fun ((front, target?), m) =>
      match target? with
      | none => []
      | some target => expand routers routers.length target front [(i, m)] [i, target]

/-- All forms in which the routes appear. -/
def forms (routers : List Router) : List RouteForm :=
  directForms routers ++ mountedForms routers

/-- The first form is continued by the second: it has the same route, a longer chain that ends in
the first one's, and another URL. -/
def isContinuedBy (form other : RouteForm) : Bool :=
  other.source == form.source && form.chain.length < other.chain.length &&
    form.chain.isPrefixOf other.chain && other.endpoint.url != form.endpoint.url

/-- The forms of each route. -/
def formsBySource (all : List RouteForm) : Std.HashMap (Nat × Nat) (List RouteForm) :=
  all.foldl (fun m f => m.insert f.source (f :: m.getD f.source [])) ∅

/-- The forms below mounts whose method and URL no form before them has, and all forms without
mounts. -/
def fresh (seen : Std.HashSet (Method × String)) : List RouteForm → List RouteForm
  | [] => []
  | f :: rest =>
    if f.chain.isEmpty || !seen.contains f.endpoint.key then
      f :: fresh (seen.insert f.endpoint.key) rest
    else fresh seen rest

/-- The first endpoint of each method and URL. -/
def distinct (seen : Std.HashSet (Method × String)) : List Endpoint → List Endpoint
  | [] => []
  | e :: rest =>
    if seen.contains e.key then distinct seen rest else e :: distinct (seen.insert e.key) rest

/-- The endpoints of some routers. -/
def ofRouters (routers : List Router) : List Endpoint :=
  let all := forms routers
  let bySource := formsBySource all
  let final := (fresh ∅ all).filter fun f => !(bySource.getD f.source []).any (isContinuedBy f)
  distinct ∅ (final.map (·.endpoint))

/-- The endpoints of a project, given the outlines of its files. -/
def ofOutlines (files : List Outline) : List Endpoint := ofRouters (Router.ofOutlines files)

end Catalogue

end RouteAtlas
