import PanelSearch.Json.Basic

/-! Panel queries: a free-text filter, bucket aggregations that nest one inside the next, and
metrics. -/

namespace PanelSearch

/-- The kind of a bucket aggregation. -/
inductive BucketKind where
  | dateHistogram
  | histogram
  | terms
  | filters
  | nested
  | geohashGrid
  /-- A kind that is not known here. -/
  | other (name : String)
  deriving DecidableEq, Repr

def BucketKind.ofName (name : String) : BucketKind :=
  match name with
  | "date_histogram" => .dateHistogram
  | "histogram" => .histogram
  | "terms" => .terms
  | "filters" => .filters
  | "nested" => .nested
  | "geohash_grid" => .geohashGrid
  | name => .other name

def BucketKind.name : BucketKind → String
  | dateHistogram => "date_histogram"
  | histogram => "histogram"
  | terms => "terms"
  | filters => "filters"
  | nested => "nested"
  | geohashGrid => "geohash_grid"
  | other name => name

/-- The kind of a metric. -/
inductive MetricKind where
  | count
  | avg
  | sum
  | max
  | min
  | extendedStats
  | percentiles
  | cardinality
  | topMetrics
  | movingAvg
  | movingFn
  | cumulativeSum
  | derivative
  | serialDiff
  | bucketScript
  | rawDocument
  | rawData
  | logs
  /-- A kind that is not known here. -/
  | other (name : String)
  deriving DecidableEq, Repr

def MetricKind.ofName (name : String) : MetricKind :=
  match name with
  | "count" => .count
  | "avg" => .avg
  | "sum" => .sum
  | "max" => .max
  | "min" => .min
  | "extended_stats" => .extendedStats
  | "percentiles" => .percentiles
  | "cardinality" => .cardinality
  | "top_metrics" => .topMetrics
  | "moving_avg" => .movingAvg
  | "moving_fn" => .movingFn
  | "cumulative_sum" => .cumulativeSum
  | "derivative" => .derivative
  | "serial_diff" => .serialDiff
  | "bucket_script" => .bucketScript
  | "raw_document" => .rawDocument
  | "raw_data" => .rawData
  | "logs" => .logs
  | name => .other name

def MetricKind.name : MetricKind → String
  | count => "count"
  | avg => "avg"
  | sum => "sum"
  | max => "max"
  | min => "min"
  | extendedStats => "extended_stats"
  | percentiles => "percentiles"
  | cardinality => "cardinality"
  | topMetrics => "top_metrics"
  | movingAvg => "moving_avg"
  | movingFn => "moving_fn"
  | cumulativeSum => "cumulative_sum"
  | derivative => "derivative"
  | serialDiff => "serial_diff"
  | bucketScript => "bucket_script"
  | rawDocument => "raw_document"
  | rawData => "raw_data"
  | logs => "logs"
  | other name => name

/-- The metric is computed from other metrics of the query. -/
def MetricKind.isPipeline : MetricKind → Bool
  | movingAvg | movingFn | cumulativeSum | derivative | serialDiff | bucketScript => true
  | _ => false

/-- The metric is computed from several others, each under a variable. -/
def MetricKind.hasVariables : MetricKind → Bool
  | bucketScript => true
  | _ => false

def MetricKind.hasScript : MetricKind → Bool
  | avg | sum | min | max | cardinality | percentiles | extendedStats | bucketScript | movingFn =>
    true
  | _ => false

/-- A bucket aggregation of a query. -/
structure BucketAgg where
  id : String
  kind : BucketKind
  field : String
  settings : Entries Json

/-- A metric of a query. -/
structure Metric where
  id : String
  kind : MetricKind
  field : String
  hide : Bool
  /-- The metric that a pipeline metric is computed from, if `field` does not say. -/
  source : String
  /-- The metrics that a script is computed from, under the names of its variables. -/
  inputs : Entries String
  settings : Entries Json
  /-- What else the editor stored: the statistics that are switched on. -/
  flags : Entries Json

def Metric.reference (m : Metric) : String := if m.field.isEmpty then m.source else m.field

/-- A panel query with its time range in epoch milliseconds. -/
structure Query where
  refId : String
  rawQuery : String
  buckets : List BucketAgg
  metrics : List Metric
  aliasPattern : String
  intervalMs : Int
  maxDataPoints : Int
  rangeFrom : Int
  rangeTo : Int

namespace Query

/-- What a query asks for, which its first metric tells. -/
inductive Shape where
  | logs
  | rawData
  | rawDocument
  | aggregation
  deriving DecidableEq, Repr

def shape (q : Query) : Shape :=
  match q.metrics with
  | [] => .aggregation
  | first :: _ =>
    match first.kind with
    | .logs => .logs
    | .rawData => .rawData
    | .rawDocument => .rawDocument
    | _ => .aggregation

/-- The query asks for hits, not for aggregations. -/
def wantsHits (q : Query) : Bool := q.shape != .aggregation

def findBucket? (q : Query) (id : String) : Option BucketAgg := q.buckets.find? (·.id == id)

def findMetric? (q : Query) (id : String) : Option Metric := q.metrics.find? (·.id == id)

end Query

/-- The fields of an index that are known by configuration or discovery. -/
structure ConfiguredFields where
  timeField : String := ""
  timeFormat : String := ""
  messageField : String := ""
  levelField : String := ""
  deriving DecidableEq, Repr

end PanelSearch
