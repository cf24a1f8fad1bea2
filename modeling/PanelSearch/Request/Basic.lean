import PanelSearch.Request.Aggregation
import PanelSearch.Text.Blank
import PanelSearch.Time.Format

/-! Search requests: the filters that hits must pass, their order and number, and the aggregations
over them. -/

namespace PanelSearch

/-- A filter on the hits. -/
inductive Filter where
  /-- A time field lies between two instants, both included. -/
  | timeRange (field first last : String)
  /-- A free-text query, whose words are joined by an operator. -/
  | queryString (query operator : String)

/-- The order of hits by one field. -/
inductive SortOrder where
  | asc
  | desc
  deriving DecidableEq, Repr

def SortOrder.name : SortOrder → String
  | asc => "asc"
  | desc => "desc"

def SortOrder.ofName? (name : String) : Option SortOrder :=
  if name = "asc" then some .asc else if name = "desc" then some .desc else none

/-- A field that hits are sorted by. The values come back in the format, if there is one. -/
structure SortKey where
  field : String
  order : SortOrder
  format : String
  deriving DecidableEq, Repr

/-- The format in which time fields that are sorted by come back. -/
def epochNanosFormat : String := "epoch_nanos_int"

def Filter.json : Filter → Json
  | timeRange field first last =>
    .obj [("range", .obj [(field, .obj [("gte", .str first), ("lte", .str last)])])]
  | queryString query operator =>
    .obj [("query_string", .obj [("query", .str query), ("analyze_wildcard", .bool true),
      ("default_operator", .str operator)])]

def SortKey.json (k : SortKey) : Json :=
  .obj [(k.field, .obj (("order", .str k.order.name) ::
    if k.format.isEmpty then [] else [("format", .str k.format)]))]

/-- One search of a batch. -/
structure SearchRequest where
  index : List String := []
  /-- The interval that placeholders in the body stand for, in milliseconds. -/
  intervalMs : Int := 0
  size : Int := 0
  filters : List Filter := []
  sort : List SortKey := []
  aggs : List Aggregation := []
  /-- The sort values behind which the hits begin. -/
  searchAfter : Option Json := none

namespace SearchRequest

def addTimeRange (r : SearchRequest) (field : String) (fromMs toMs : Int) :
    Except Fault SearchRequest := do
  let first ← Time.rfc3339Text (fromMs * 1000000)
  let last ← Time.rfc3339Text (toMs * 1000000)
  return { r with filters := r.filters ++ [.timeRange field first last] }

/-- The request with a free-text filter; blanks match everything. -/
def addQueryString (r : SearchRequest) (query : String) : SearchRequest :=
  if Text.isAllBlank query then r
  else { r with filters := r.filters ++ [.queryString query "AND"] }

/-- The request with one more sort field. An order without a name is passed over. -/
def addSort (r : SearchRequest) (field order format : String) : SearchRequest :=
  match SortOrder.ofName? order with
  | some order => { r with sort := r.sort ++ [⟨field, order, format⟩] }
  | none => r

/-- The members of a body that hold something only if it is there. -/
def optionalMembers (r : SearchRequest) : List (String × Json) :=
  (if r.sort.isEmpty then [] else [("sort", .arr (r.sort.map SortKey.json))]) ++
    if r.aggs.isEmpty then [] else [("aggs", .obj (Aggregation.siblingsJson r.aggs))]

/-- The body of the request, without the sort values behind which the hits begin. -/
def members (r : SearchRequest) : Entries Json :=
  [("size", .int r.size),
    ("query", .obj [("bool", .obj [("filter", .arr (r.filters.map Filter.json))])])] ++
    r.optionalMembers

/-- The body of the request. It has none while a node of its trees is abstract, or while the hits
are to begin behind what cannot be gone through. -/
def body (r : SearchRequest) : Except Fault Json :=
  if Aggregation.areConcrete r.aggs then
    match r.searchAfter with
    | none => .ok (.obj r.members)
    | some value =>
      match value.elements? with
      | some items => .ok (.obj (r.members ++ [("search_after", .arr items)]))
      | none => .error .notAList
  else .error .abstractNode

end SearchRequest

end PanelSearch
