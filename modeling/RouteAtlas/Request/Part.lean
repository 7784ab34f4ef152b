import RouteAtlas.Endpoint

/-!
# Parts of a request

The members of a request object that hold its data: path parameters, query, body and headers.
-/

namespace RouteAtlas

/-- A part of a request. -/
inductive Part where
  | params | query | body | headers
deriving DecidableEq, Repr, Inhabited

namespace Part

/-- The part that a member of the request holds. -/
def ofProperty? (name : String) : Option Part :=
  match name with
  | "params" => some params
  | "query" => some query
  | "body" => some body
  | "headers" => some headers
  | _ => none

/-- The fields of the part have to be sent: those of the query do not. -/
def isRequired : Part → Bool
  | query => false
  | _ => true

end Part

/-- A reading of one field: the part it is in, its name and what the reading says about its type. -/
structure Reading where
  part : Part
  name : String
  type : FieldType
deriving DecidableEq, Repr, Inhabited

/-- Lists the field that a reading of a part is about. A field that is listed keeps its type, except
that a path parameter takes a type that says more than `string`. -/
def Part.addReading (part : Part) (fields : List Field) (r : Reading) : List Field :=
  if Field.Listed r.name fields then
    if part = .params ∧ r.type ≠ .string then
      Field.updateFirst r.name (fun f => { f with type := r.type }) fields
    else fields
  else fields ++ [⟨r.name, r.type, part.isRequired⟩]

/-- The fields that some readings find in a part. -/
def Part.fields (part : Part) (readings : List Reading) : List Field :=
  (readings.filter (·.part == part)).foldl part.addReading []

/-- A field that is used as a number: a string becomes a number. -/
def Field.asNumber (f : Field) : Field :=
  if f.type = .string then { f with type := .number } else f

/-- The fields of a part when the given ones, each named with its part, are used as numbers. -/
def Part.withNumbers (part : Part) (numeric : List (Part × String)) (fields : List Field) :
    List Field :=
  (numeric.filter (·.1 == part)).foldl
    (fun fs (_, name) => Field.updateFirst name Field.asNumber fs) fields

end RouteAtlas
