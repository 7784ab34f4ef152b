import RouteAtlas.Endpoint
import RouteAtlas.Json.Reader
import RouteAtlas.Json.Writer

/-!
# Catalogues as JSON

A catalogue is written as an array of endpoints and read back from one.
-/

namespace RouteAtlas

namespace Field

/-- The names of the members of a field. -/
def memberNames : List String := ["name", "type", "required"]

/-- The field as JSON. -/
def toJson (f : Field) : JsonValue :=
  .object [(some "name", .text f.name), (some "type", .text f.type.name),
    (some "required", .bool f.required)]

/-- The field that JSON describes. -/
def ofJson? (v : JsonValue) : Option Field := do
  match ← v.record? memberNames with
  | [name, type, required] =>
    return ⟨← name.text?, ← FieldType.ofName? (← type.word?), ← required.bool?⟩
  | _ => none

/-- The fields that JSON lists. -/
def listOfJson? (v : JsonValue) : Option (List Field) := do
  (← v.items?).mapM ofJson?

end Field

namespace Endpoint

/-- The names of the members of an endpoint. -/
def memberNames : List String :=
  ["method", "url", "headers", "requestDataType", "paramTypes", "queryParamTypes", "bodyParamTypes"]

/-- The endpoint as JSON. -/
def toJson (e : Endpoint) : JsonValue :=
  .object
    [(some "method", .text e.method.name), (some "url", .text e.url),
      (some "headers", .array (e.headers.map .text)),
        (some "requestDataType", .text e.dataSource.name),
      (some "paramTypes", .array (e.params.map Field.toJson)),
      (some "queryParamTypes", .array (e.query.map Field.toJson)),
      (some "bodyParamTypes", .array (e.body.map Field.toJson))]

/-- The endpoint that JSON describes. -/
def ofJson? (v : JsonValue) : Option Endpoint := do
  match ← v.record? memberNames with
  | [method, url, headers, source, params, query, body] =>
    return {
      method := ← Method.ofName? (← method.word?)
      url := ← url.text?
      headers := ← (← headers.items?).mapM JsonValue.text?
      dataSource := ← DataSource.ofName? (← source.word?)
      params := ← Field.listOfJson? params
      query := ← Field.listOfJson? query
      body := ← Field.listOfJson? body }
  | _ => none

end Endpoint

namespace Catalogue

/-- A catalogue as text. -/
def toText (endpoints : List Endpoint) : String :=
  (JsonValue.array (endpoints.map Endpoint.toJson)).pretty

/-- The catalogue that a text describes. -/
def ofText? (text : String) : Option (List Endpoint) := do
  (← (← JsonValue.read text).items?).mapM Endpoint.ofJson?

end Catalogue

end RouteAtlas
