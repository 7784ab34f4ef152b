import RouteAtlas.Field
import RouteAtlas.Method
import RouteAtlas.Url

/-!
# Endpoints

An endpoint is one entry of a catalogue: a method, a URL pattern and the request data that its
handler reads. `Facts` is what was learnt of one handler; `Facts.applyTo` merges it into an
endpoint.
-/

namespace RouteAtlas

/-- The place a request carries its data in. -/
inductive DataSource where
  | params | query | body | none
deriving DecidableEq, Repr, Inhabited

namespace DataSource

/-- Every data source, in the order in which they are documented. -/
def every : List DataSource := [params, query, body, none]

/-- The name of a data source in a catalogue. -/
def name : DataSource → String
  | params => "params"
  | query => "query"
  | body => "body"
  | none => "none"

/-- The data source with the given catalogue name. -/
def ofName? (text : String) : Option DataSource :=
  every.find? (·.name == text)

@[simp] theorem ofName?_name (d : DataSource) : ofName? d.name = some d := by
  cases d <;> decide

end DataSource

/-- One entry of a catalogue. -/
structure Endpoint where
  method : Method
  url : String
  headers : List String := []
  dataSource : DataSource := .none
  params : List Field := []
  query : List Field := []
  body : List Field := []
deriving DecidableEq, Repr, Inhabited

namespace Endpoint

/-- What tells two endpoints of a catalogue apart. -/
def key (e : Endpoint) : Method × String := (e.method, e.url)

/-- A required string field for every parameter of the URL that is not yet listed. -/
def seedParams (e : Endpoint) : Endpoint :=
  { e with params := Field.mergeAbsent e.params ((Url.params e.url).map (⟨·, .string, true⟩)) }

/-- Where the request data is found: the body comes before the query, the query before the path. -/
def primarySource (e : Endpoint) : DataSource :=
  if !e.body.isEmpty then .body
  else if !e.query.isEmpty then .query
  else if !e.params.isEmpty then .params
  else .none

/-- Sets the data source to the one that the fields call for. -/
def refresh (e : Endpoint) : Endpoint :=
  { e with dataSource := e.primarySource }

/-- Lists a header, once. -/
def addHeader (e : Endpoint) (name : String) : Endpoint :=
  if name ∈ e.headers then e else { e with headers := e.headers ++ [name] }

/-- The endpoint of a route as it is declared, its path parameters taken from the URL. -/
def declare (method : Method) (url : String) : Endpoint :=
  ({ method, url } : Endpoint).seedParams.refresh

/-- The endpoint under another URL. -/
def relocate (e : Endpoint) (url : String) : Endpoint :=
  ({ e with url }).seedParams.refresh

end Endpoint

/-- What a handler reads of its request. -/
structure Facts where
  params : List Field := []
  query : List Field := []
  body : List Field := []
  headers : List String := []
deriving DecidableEq, Repr, Inhabited

namespace Facts

/-- Nothing was learnt. -/
def isEmpty (f : Facts) : Bool :=
  f.params.isEmpty && f.query.isEmpty && f.body.isEmpty && f.headers.isEmpty

/-- Merges a path parameter: a listed one keeps its place and takes the type if that says more than
`string`, another one is appended. -/
def mergeParam (fields : List Field) (p : Field) : List Field :=
  if Field.Listed p.name fields then
    if p.type = .string then fields
    else Field.updateFirst p.name (fun f => { f with type := p.type }) fields
  else fields ++ [p]

/-- Merges what was learnt of the handler into the endpoint it serves. -/
def applyTo (f : Facts) (e : Endpoint) : Endpoint :=
  let merged : Endpoint :=
    { e with
      params := f.params.foldl mergeParam e.params
      query := Field.mergeAbsent e.query f.query
      body := Field.mergeAbsent e.body f.body }
  (f.headers.foldl Endpoint.addHeader merged).refresh

end Facts

end RouteAtlas
