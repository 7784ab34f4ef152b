/-!
# Request fields

A field is one named datum that a handler reads from a request: a path parameter, a query parameter
or a member of the body.
-/

namespace RouteAtlas

/-- What is known of the type of a request field. -/
inductive FieldType where
  | string | number | boolean | array | object | any
deriving DecidableEq, Repr, Inhabited

namespace FieldType

/-- Every field type, in the order in which they are documented. -/
def every : List FieldType := [string, number, boolean, array, object, any]

/-- The name of a field type in a catalogue. -/
def name : FieldType → String
  | string => "string"
  | number => "number"
  | boolean => "boolean"
  | array => "array"
  | object => "object"
  | any => "any"

/-- The field type with the given catalogue name. -/
def ofName? (text : String) : Option FieldType :=
  every.find? (·.name == text)

@[simp] theorem ofName?_name (t : FieldType) : ofName? t.name = some t := by
  cases t <;> decide

end FieldType

/-- One named datum of a request. -/
structure Field where
  name : String
  type : FieldType
  required : Bool
deriving DecidableEq, Repr, Inhabited

namespace Field

/-- Some field of the list has the name. -/
def Listed (name : String) (fields : List Field) : Prop :=
  ∃ f ∈ fields, f.name = name

instance (name : String) (fields : List Field) : Decidable (Listed name fields) :=
  inferInstanceAs (Decidable (∃ f ∈ fields, f.name = name))

/-- Appends the field unless its name is listed. -/
def addAbsent (fields : List Field) (f : Field) : List Field :=
  if Listed f.name fields then fields else fields ++ [f]

/-- Appends, one after the other, the fields whose names are not yet listed. -/
def mergeAbsent (fields more : List Field) : List Field :=
  more.foldl addAbsent fields

/-- Changes the first field with the given name. -/
def updateFirst (name : String) (change : Field → Field) : List Field → List Field
  | [] => []
  | f :: rest => if f.name = name then change f :: rest else f :: updateFirst name change rest

end Field

end RouteAtlas
