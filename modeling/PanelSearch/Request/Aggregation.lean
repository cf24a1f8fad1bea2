import PanelSearch.Json.Basic
import PanelSearch.Fault

/-! Aggregation trees: every node has a key among its siblings, a body of its type, and children
that are computed inside its buckets. -/

namespace PanelSearch

/-- Where a pipeline aggregation finds what it is computed from. -/
inductive BucketsPath where
  | single (path : String)
  | named (paths : Entries String)

/-- What a node of an aggregation tree computes. -/
inductive AggBody where
  /-- Nothing yet: such a node has no written form. -/
  | abstract
  | dateHistogram (field interval : String) (minDocCount : Int) (bounds : Option (Int × Int))
      (offset missing timeZone : Option String)
  | histogram (field : String) (interval minDocCount : Int) (missing : Option Int)
  | terms (field : String) (size shardSize : Int) (order : Entries String)
      (minDocCount : Option Int) (missing : Option String)
  | filters (queries : Entries String)
  | nested (path : String)
  | geohashGrid (field : String) (precision : Int)
  | metric (type field : String) (settings : Entries Json)
  | pipeline (type : String) (path : BucketsPath) (settings : Entries Json)

/-- A node of an aggregation tree. -/
inductive Aggregation where
  | node (key : String) (body : AggBody) (children : List Aggregation)

instance : Inhabited Aggregation := ⟨.node "" .abstract []⟩

namespace AggBody

def typeName : AggBody → String
  | abstract => ""
  | dateHistogram .. => "date_histogram"
  | histogram .. => "histogram"
  | terms .. => "terms"
  | filters .. => "filters"
  | nested .. => "nested"
  | geohashGrid .. => "geohash_grid"
  | metric type .. => type
  | pipeline type .. => type

/-- A member that is written only if there is a value for it. -/
def optional (key : String) (value : Option Json) : List (String × Json) :=
  (value.map fun v => (key, v)).toList

def optionalText (key : String) (value : Option String) : List (String × Json) :=
  optional key ((value.filter (!·.isEmpty)).map .str)

/-- The key that buckets are ordered by, under its present name. -/
def orderKey (key : String) : String := if key = "_term" then "_key" else key

def boundsJson (bounds : Int × Int) : Json := .obj [("min", .int bounds.1), ("max", .int bounds.2)]

def filterJson (query : String) : Json :=
  .obj [("query_string", .obj [("query", .str query), ("analyze_wildcard", .bool true)])]

def pathJson : BucketsPath → Json
  | .single path => .str path
  | .named paths => .obj (paths.mapValues .str)

/-- The members of a body. Settings are written over the members that come from the query. -/
def members : AggBody → Entries Json
  | abstract => []
  | dateHistogram field interval minDocCount bounds offset missing timeZone =>
    [("field", .str field), ("fixed_interval", .str interval),
      ("min_doc_count", .int minDocCount)] ++ optional "extended_bounds" (bounds.map boundsJson) ++
      optionalText "offset" offset ++ optional "missing" (missing.map .str) ++
      optionalText "time_zone" timeZone
  | histogram field interval minDocCount missing =>
    [("field", .str field), ("interval", .int interval), ("min_doc_count", .int minDocCount)] ++
      optional "missing" (missing.map .int)
  | terms field size shardSize order minDocCount missing =>
    [("field", .str field), ("size", .int size), ("shard_size", .int shardSize),
      ("order", .obj (Entries.ofList (order.map fun (k, v) => (orderKey k, .str v))))] ++
      optional "min_doc_count" (minDocCount.map .int) ++ optional "missing" (missing.map .str)
  | filters queries => [("filters", .obj (queries.mapValues filterJson))]
  | nested path => [("path", .str path)]
  | geohashGrid field precision => [("field", .str field), ("precision", .int precision)]
  | metric _ field settings =>
    Entries.putAll (if field.isEmpty then [] else [("field", .str field)]) settings
  | pipeline _ path settings => Entries.putAll [("buckets_path", pathJson path)] settings

end AggBody

namespace Aggregation

def key : Aggregation → String
  | node key _ _ => key

def body : Aggregation → AggBody
  | node _ body _ => body

def children : Aggregation → List Aggregation
  | node _ _ children => children

def addChildren : Aggregation → List Aggregation → Aggregation
  | node key body children, more => node key body (children ++ more)

mutual

/-- The node and all nodes inside it have a written form. -/
def isConcrete : Aggregation → Bool
  | node _ body children =>
    (match body with
      | .abstract => false
      | _ => true) && areConcrete children

def areConcrete : List Aggregation → Bool
  | [] => true
  | agg :: rest => agg.isConcrete && areConcrete rest

end

mutual

/-- The members of a node: its body under its type, and its children if it has any. -/
def members : Aggregation → Entries Json
  | node _ body children =>
    let own : Entries Json := [(body.typeName, .obj body.members)]
    match children with
    | [] => own
    | agg :: rest => own.put "aggs" (.obj (Entries.ofList (siblings (agg :: rest))))

/-- Sibling nodes under their keys, one entry each. -/
def siblings : List Aggregation → List (String × Json)
  | [] => []
  | agg :: rest => (agg.key, .obj agg.members) :: siblings rest

end

/-- The object of sibling nodes: of equal keys the last one counts. -/
def siblingsJson (aggs : List Aggregation) : Entries Json := Entries.ofList (siblings aggs)

end Aggregation

end PanelSearch
