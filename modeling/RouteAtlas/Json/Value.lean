/-!
# JSON values

A JSON text as data. Members of an object are kept in order and may repeat a name. A string that
holds half of a surrogate pair is no text; it is kept as `broken`.
-/

namespace RouteAtlas

/-- A JSON value. -/
inductive JsonValue where
  | null
  | bool (value : Bool)
  /-- A number, as it is written. -/
  | number (digits : String)
  | text (value : String)
  | broken
  | array (items : List JsonValue)
  /-- Members with their names; there is no name where it is broken. -/
  | object (members : List (Option String × JsonValue))
deriving Inhabited, Repr

namespace JsonValue

/-- The text that the value is. -/
def text? : JsonValue → Option String
  | text s => some s
  | _ => none

/-- The truth value that the value is. -/
def bool? : JsonValue → Option Bool
  | bool b => some b
  | _ => none

/-- The items that the value lists. -/
def items? : JsonValue → Option (List JsonValue)
  | array items => some items
  | _ => none

/-- The word that the value is one of: a text, or an object with that word for its only member,
which is null. -/
def word? : JsonValue → Option String
  | text s => some s
  | object [(some s, null)] => some s
  | _ => none

/-- The only member with a name, or nothing if there are more. -/
def single? (name : String) (members : List (Option String × JsonValue)) :
    Option (Option JsonValue) :=
  match members.filter (·.1 == some name) with
  | [] => some none
  | [(_, v)] => some (some v)
  | _ => none

/-- The values of a record with the given fields, each of them there or not. A record is an object,
whose other members do not matter but whose names have to be texts, or an array of the fields in
order, in which those at the end may be left out. -/
def fields? (names : List String) : JsonValue → Option (List (Option JsonValue))
  | object members =>
    if members.all (·.1.isSome) then names.mapM fun name => single? name members else none
  | array items =>
    if items.length ≤ names.length then
      some (items.map some ++ List.replicate (names.length - items.length) none)
    else none
  | _ => none

/-- The values of a record that has to have all of the given fields. -/
def record? (names : List String) (v : JsonValue) : Option (List JsonValue) := do
  let values ← v.fields? names
  values.mapM id

end JsonValue

end RouteAtlas
