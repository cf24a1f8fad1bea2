import PanelSearch.Query.MetricSettings
import PanelSearch.Request.Basic
import PanelSearch.Text.Digit
import PanelSearch.Text.Replace

/-! Search requests from panel queries: queries for hits are sorted on the time field, and every
other query becomes a tree in which each bucket aggregation holds the next and the last one holds
the metrics. -/

namespace PanelSearch

open Json (member)

/-- What a request is built for: the time field, the indexes and the precision of geohashes. -/
structure Target where
  timeField : String
  index : String
  geohashPrecision : Int

def defaultSize : Int := 100

def defaultHistogramInterval : Int := 1000

/-- The interval of a date histogram that follows the panel: a placeholder for milliseconds, and
their unit. -/
def autoInterval : String := "$__interval_msms"

namespace Query

/-- A bucket aggregation that may be built without a field. -/
def needsField : BucketKind → Bool
  | .dateHistogram | .filters => false
  | _ => true

/-- A query that can be built: it asks for something, and its bucket aggregations have the fields
they need. -/
def check (q : Query) : Except InvalidQuery Unit :=
  if q.buckets.isEmpty then
    if q.wantsHits then .ok () else .error .nothingAsked
  else
    match q.buckets.find? fun b => needsField b.kind && b.field.isEmpty with
    | some b => .error (.bucketWithoutField b.id b.kind.name)
    | none => .ok ()

/-- The bucket path of a reference to another metric of the query: a count is a statistic of every
bucket, and ids are digits. -/
def resolvePath? (q : Query) (reference : String) : Option String :=
  if Text.isDigits reference.toList then
    (q.findMetric? reference).map fun m => if m.kind = .count then "_count" else reference
  else none

/-- The node that computes a metric, if there is anything to compute. -/
def metricNode (q : Query) (m : Metric) : Except Fault (Option Aggregation) :=
  if m.kind = .count then .ok none
  else if !m.kind.isPipeline then do
    let settings ← Metric.sentSettings m.kind m.settings
    return some (.node m.id (.metric m.kind.name m.field settings) [])
  else if m.kind.hasVariables then
    let paths := m.inputs.filterMap fun (name, reference) =>
      (q.resolvePath? reference).map (name, ·)
    if paths.isEmpty then .ok none
    else do
      let settings ← Metric.sentSettings m.kind m.settings
      return some (.node m.id (.pipeline m.kind.name (.named paths) settings) [])
  else
    match q.resolvePath? m.reference with
    | none => .ok none
    | some path => do
      let settings ← Metric.sentSettings m.kind m.settings
      return some (.node m.id (.pipeline m.kind.name (.single path) settings) [])

end Query

namespace BucketAgg

open Setting

/-- The settings with the least document count as an integer, if it was stored as a numeral. -/
def countedSettings (settings : Entries Json) : Entries Json :=
  match settings.get? "min_doc_count" with
  | some (.str s) =>
    match Numeral.int? s.toList with
    | some n => settings.put "min_doc_count" (.int n)
    | none => settings
  | _ => settings

def minDocCount (settings : Entries Json) : Int :=
  integer (member settings "min_doc_count") 0 false

def dateInterval (settings : Entries Json) : String :=
  match member settings "interval" with
  | .str s => if s = "auto" then autoInterval else s
  | _ => autoInterval

def dateHistogramNode (b : BucketAgg) (settings : Entries Json) (q : Query) (target : Target) :
    Except QueryError Aggregation :=
  let field := if b.field.isEmpty then target.timeField else b.field
  if field.isEmpty then .error (.invalid (.noTimeField b.id))
  else
    let timeZone := (member settings "timeZone").str?.filter (· != "utc")
    .ok (.node b.id
      (.dateHistogram field (dateInterval settings) (minDocCount settings)
        (some (q.rangeFrom, q.rangeTo)) (member settings "offset").str?
        (member settings "missing").str? timeZone) [])

def histogramNode (b : BucketAgg) (settings : Entries Json) : Aggregation :=
  .node b.id
    (.histogram b.field (integer (member settings "interval") defaultHistogramInterval true)
      (minDocCount settings) (whole? (member settings "missing"))) []

/-- The metric id that an ordering begins with: a run of digits. -/
def orderedMetric (orderBy : String) : String :=
  String.ofList (orderBy.toList.takeWhile Text.isDecimalDigit)

/-- The order of the buckets of a terms aggregation, and the node that it needs: an ordering by a
metric needs the metric inside the buckets, unless that is a count. -/
def termsOrder (settings : Entries Json) (metrics : List Metric) :
    Entries String × List Aggregation :=
  match member settings "orderBy" with
  | .str orderBy =>
    let order := (member settings "order").str?.getD SortOrder.desc.name
    let id := orderedMetric orderBy
    if id.isEmpty then ([(orderBy, order)], [])
    else
      match metrics.find? (·.id == id) with
      | none => ([], [])
      | some m =>
        if m.kind = .count then ([("_count", order)], [])
        else ([(orderBy, order)], [.node m.id (.metric m.kind.name m.field []) []])
  | _ => ([], [])

def termsNode (b : BucketAgg) (settings : Entries Json) (metrics : List Metric) : Aggregation :=
  let (order, children) := termsOrder settings metrics
  .node b.id
    (.terms b.field (integer (member settings "size") defaultSize true)
      (integer (member settings "shard_size") defaultSize true) order
      (whole? (member settings "min_doc_count")) (member settings "missing").str?) children

/-- One filter of a filters aggregation: its label, the query itself without one, and the query. -/
def labelledFilter : Json → Option (String × String)
  | .obj entry =>
    let query := (member entry "query").str?.getD ""
    let label := (member entry "label").str?.getD ""
    some (if label.isEmpty then query else label, query)
  | _ => none

/-- A filters aggregation, if it has any filter. -/
def filtersNode (b : BucketAgg) (settings : Entries Json) :
    Except QueryError (Option Aggregation) := do
  let value := member settings "filters"
  let items ←
    if value.isGiven then
      match value.elements? with
      | some items => pure items
      | none => throw (.fault .notAList)
    else pure []
  let filters := Entries.ofList (items.filterMap labelledFilter)
  return if filters.isEmpty then none else some (.node b.id (.filters filters) [])

def geohashNode (b : BucketAgg) (settings : Entries Json) (target : Target) : Aggregation :=
  .node b.id
    (.geohashGrid b.field ((whole? (member settings "precision")).getD target.geohashPrecision)) []

/-- The node of a bucket aggregation. A kind that is not known has none. -/
def node (q : Query) (target : Target) (b : BucketAgg) : Except QueryError (Option Aggregation) :=
  let settings := countedSettings b.settings
  match b.kind with
  | .dateHistogram => (b.dateHistogramNode settings q target).map some
  | .histogram => .ok (some (b.histogramNode settings))
  | .terms => .ok (some (b.termsNode settings q.metrics))
  | .filters => b.filtersNode settings
  | .geohashGrid => .ok (some (b.geohashNode settings target))
  | .nested => .ok (some (.node b.id (.nested b.field) []))
  | .other _ => .ok none

end BucketAgg

namespace SearchRequest

/-- Nodes one inside the next, and leaves inside the last one. Children that a node brought with it
come first. -/
def nest : List Aggregation → List Aggregation → List Aggregation
  | [], leaves => leaves
  | node :: rest, leaves => [node.addChildren (nest rest leaves)]

def liftFault {α : Type} : Except Fault α → Except QueryError α
  | .ok a => .ok a
  | .error f => .error (.fault f)

/-- The aggregation tree of a query: its bucket aggregations, outermost first, and its metrics
inside the last one. -/
def aggregationsOf (q : Query) (target : Target) : Except QueryError (List Aggregation) := do
  let levels ← q.buckets.mapM (BucketAgg.node q target)
  let metrics ← liftFault (q.metrics.mapM q.metricNode)
  return nest (levels.filterMap id) (metrics.filterMap id)

/-- The settings of the first metric, which for a query for hits are those of the query. -/
def hitSettings (q : Query) : Entries Json :=
  match q.metrics with
  | [] => []
  | m :: _ => m.settings

/-- The request for log lines: newest first unless the query says otherwise, and behind a given
line if it says so. -/
def forLogs (r : SearchRequest) (q : Query) (timeField : String) : SearchRequest :=
  let settings := hitSettings q
  let order := if (member settings "sortDirection").str? = some "asc" then "asc" else "desc"
  let r := r.addSort timeField order epochNanosFormat
  let r := { r with size := Setting.integer (member settings "limit") defaultSize true }
  match member settings "searchAfter" with
  | .arr (item :: rest) => { r with searchAfter := some (.arr (item :: rest)) }
  | _ => r

/-- The request for documents: newest first, and of equal times in the order of the index. -/
def forDocuments (r : SearchRequest) (q : Query) (timeField : String) : SearchRequest :=
  let r := (r.addSort timeField "desc" epochNanosFormat).addSort "_doc" "desc" ""
  { r with size := Setting.integer (member (hitSettings q) "size") defaultSize true }

def ofQuery (target : Target) (q : Query) : Except QueryError SearchRequest := do
  let index := (Text.splitAt ',' target.index.toList).map String.ofList
  let r : SearchRequest := { index, intervalMs := q.intervalMs }
  let r ← liftFault (r.addTimeRange target.timeField q.rangeFrom q.rangeTo)
  let r := r.addQueryString q.rawQuery
  match q.shape with
  | .logs => return r.forLogs q target.timeField
  | .rawData | .rawDocument => return r.forDocuments q target.timeField
  | .aggregation =>
    let aggs ← aggregationsOf q target
    return { r with aggs }

/-- The requests of queries, in order. All queries are checked before the first is built. -/
def ofQueries (target : Target) (qs : List Query) : Except QueryError (List SearchRequest) := do
  qs.forM fun q =>
    match q.check with
    | .ok () => .ok ()
    | .error reason => .error (.invalid reason)
  qs.mapM (ofQuery target)

end SearchRequest

end PanelSearch
