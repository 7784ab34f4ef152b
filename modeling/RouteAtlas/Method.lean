/-!
# HTTP methods

The methods a router can register a handler for. `all` is the router call that answers every method.
-/

namespace RouteAtlas

/-- A method under which a route can be registered. -/
inductive Method where
  | get | post | put | patch | delete | head | options | all
deriving DecidableEq, Hashable, Repr, Inhabited

namespace Method

/-- Every method, in the order in which they are documented. -/
def every : List Method := [get, post, put, patch, delete, head, options, all]

/-- The name of a method in a catalogue. -/
def name : Method → String
  | get => "GET"
  | post => "POST"
  | put => "PUT"
  | patch => "PATCH"
  | delete => "DELETE"
  | head => "HEAD"
  | options => "OPTIONS"
  | all => "ALL"

/-- The router property that registers a handler for a method. -/
def router : Method → String
  | get => "get"
  | post => "post"
  | put => "put"
  | patch => "patch"
  | delete => "delete"
  | head => "head"
  | options => "options"
  | all => "all"

/-- The method registered by a router property of the given name. -/
def ofRouter? (property : String) : Option Method :=
  every.find? (·.router == property)

/-- The method with the given catalogue name. -/
def ofName? (text : String) : Option Method :=
  every.find? (·.name == text)

/-- A word that names no method. -/
structure Unknown where
  word : String
deriving DecidableEq, Repr

/-- The complaint about a word that names no method. -/
def Unknown.message (e : Unknown) : String :=
  "unknown HTTP method: " ++ e.word

/-- Reads a method name in any mixture of cases. The router names are ASCII, and no other character
lowers to a letter that one of them holds, so lowering ASCII letters is enough. -/
def parse (word : String) : Except Unknown Method :=
  match ofRouter? (String.ofList (word.toList.map Char.toLower)) with
  | some m => .ok m
  | none => .error ⟨word⟩

@[simp] theorem ofRouter?_router (m : Method) : ofRouter? m.router = some m := by
  cases m <;> decide

@[simp] theorem ofName?_name (m : Method) : ofName? m.name = some m := by
  cases m <;> decide

end Method

end RouteAtlas
