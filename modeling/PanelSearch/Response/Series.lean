import PanelSearch.Frame.Basic
import PanelSearch.Response.Leaf

/-! Time series: what the visible metrics of a query say over the buckets of a date histogram. -/

namespace PanelSearch

open Json (member)

abbrev Point := Instant × Option Double

/-- A time series. Its labels tell the path of buckets it was found under, and the two others what
of the metric it shows. -/
structure Series where
  metric : Metric
  metricLabel : String
  fieldLabel : String
  labels : Entries String
  points : List Point

namespace Series

/-- The instant of a bucket: its key is in epoch milliseconds. A key that is no number gives
none. -/
def instant? (b : Bucket) : Except Fault (Option Instant) := do
  match ← (member b "key").toDouble with
  | none => return none
  | some key =>
    match key with
    | .nan => throw .notANumber
    | .infinite _ => throw .beyondRange
    | key =>
      match Instant.ofNanos? (key.truncate?.getD 0 * 1000000) with
      | some t => return some t
      | none => throw .beyondRange

/-- The points over buckets, one for each bucket that has an instant. -/
def pointsOf (value : Bucket → Except Fault (Option Double)) (buckets : List Bucket) :
    Except Fault (List Point) := do
  let found ← buckets.mapM fun b => do
    let v ← value b
    let t ← instant? b
    return t.map (·, v)
  return found.filterMap id

/-- The value of a metric in a bucket: the normalized one, if there is one. -/
def plainValue (value : Entries Json) : Except Fault (Option Double) :=
  ((Entries.get? value "normalized_value").getD (member value "value")).toDouble

/-- The series of a metric with one value in a bucket. Buckets without the metric are left out. -/
def ofPlain (m : Metric) (labels : Entries String) (buckets : List Bucket) :
    Except Fault Series := do
  let values := buckets.filterMap fun b => (member b m.id).members?.map (b, ·)
  let found ← values.mapM fun (b, value) => do
    let v ← plainValue value
    let t ← instant? b
    return t.map (·, v)
  return {
    metric := m
    metricLabel := m.kind.name
    fieldLabel := if m.kind.isPipeline then m.reference else m.field
    labels
    points := found.filterMap id }

def percentileNames (m : Metric) (buckets : List Bucket) : List String :=
  match buckets with
  | [] => []
  | first :: _ => ((first.percentiles? m.id).map Entries.sortedKeys).getD []

def ofPercentiles (m : Metric) (labels : Entries String) (buckets : List Bucket) :
    Except Fault (List Series) :=
  (percentileNames m buckets).mapM fun name => do
    let points ← pointsOf (fun b => (member ((b.percentiles? m.id).getD []) name).toDouble) buckets
    return { metric := m, metricLabel := "p" ++ name, fieldLabel := m.field, labels, points }

/-- A series for each value of the top document that is asked for. -/
def ofTopMetrics (m : Metric) (labels : Entries String) (buckets : List Bucket) :
    Except Fault (List Series) :=
  ((member m.settings "metrics").items?.getD []).mapM fun name => do
    let points ← pointsOf (fun b => do (← b.topMetric m.id name).toDouble) buckets
    return {
      metric := m, metricLabel := MetricKind.topMetrics.name, fieldLabel := name.label, labels,
      points }

def ofStatistics (m : Metric) (labels : Entries String) (buckets : List Bucket) :
    Except Fault (List Series) :=
  m.statistics.mapM fun stat => do
    let points ← pointsOf (fun b => (b.statistic m.id stat).toDouble) buckets
    return { metric := m, metricLabel := stat, fieldLabel := m.field, labels, points }

def ofMetric (labels : Entries String) (buckets : List Bucket) (m : Metric) :
    Except Fault (List Series) :=
  match m.kind with
  | .count => do
    let points ← pointsOf Bucket.count buckets
    return [{ metric := m, metricLabel := "count", fieldLabel := "", labels, points }]
  | .percentiles => ofPercentiles m labels buckets
  | .topMetrics => ofTopMetrics m labels buckets
  | .extendedStats => ofStatistics m labels buckets
  | _ => (ofPlain m labels buckets).map ([·])

def ofLeaf (q : Query) (leaf : Leaf) : Except Fault (List Series) := do
  let buckets ← Bucket.ofResult leaf.result
  let groups ← (q.metrics.filter (!·.hide)).mapM (ofMetric leaf.labels buckets)
  return groups.flatten

/-- A series without points at either end. A series that is too short has no point left. -/
def trimmed (edge : Nat) (s : Series) : Series :=
  { s with points := (s.points.drop edge).take (s.points.length - 2 * edge) }

end Series

end PanelSearch
