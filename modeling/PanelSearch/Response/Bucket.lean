import PanelSearch.Fault
import PanelSearch.Json.Display
import PanelSearch.Number.Numeral
import PanelSearch.Query.Basic

/-! What the buckets of a response hold: labels, keys, counts and the values of metrics. -/

namespace PanelSearch

abbrev Bucket := Entries Json

open Json (member)

/-- A number, or a numeral, as a double; nothing for any other value. An integer may lie beyond the
doubles. -/
def Json.toDouble : Json → Except Fault (Option Double)
  | .int n =>
    match Double.ofInt? n with
    | some d => .ok (some d)
    | none => .error .beyondRange
  | .double d => .ok (some d)
  | .str s => .ok (Numeral.double? s.toList)
  | _ => .ok none

namespace Bucket

/-- The buckets of an aggregation: the objects in what its member for them holds. -/
def ofResult (result : Entries Json) : Except Fault (List Bucket) :=
  let value := member result "buckets"
  if value.isGiven then
    match value.elements? with
    | some items => .ok (items.filterMap Json.members?)
    | none => .error .notAList
  else .ok []

/-- The label of a bucket: the text of its key, or its key; a key without a fraction is an
integer. -/
def label? (b : Bucket) : Option String :=
  match member b "key_as_string" with
  | .str s => some s
  | _ =>
    match member b "key" with
    | .str s => some s
    | .int n => some (String.ofList (intText n))
    | .double d =>
      match d.toInt? with
      | some n => some (String.ofList (intText n))
      | none => some (String.ofList (d.text .plain))
    | _ => none

def under (b : Bucket) (keys : List String) : Json := (Json.obj b).path keys

def count (b : Bucket) : Except Fault (Option Double) := (member b "doc_count").toDouble

/-- A statistic of a metric: the two bounds of the standard deviation stand in an object of their
own. -/
def statistic (b : Bucket) (metricId stat : String) : Json :=
  match stat with
  | "std_deviation_bounds_upper" => b.under [metricId, "std_deviation_bounds", "upper"]
  | "std_deviation_bounds_lower" => b.under [metricId, "std_deviation_bounds", "lower"]
  | stat => b.under [metricId, stat]

def percentiles? (b : Bucket) (metricId : String) : Option (Entries Json) :=
  (b.under [metricId, "values"]).members?

/-- A member under a key of any kind: only texts are keys of objects, and arrays and objects are
keys of nothing. -/
def memberAt (members : Entries Json) (key : Json) : Except Fault Json :=
  match key with
  | .str s => .ok (member members s)
  | .arr _ | .obj _ => .error .unusableKey
  | _ => .ok .null

def topMetric (b : Bucket) (metricId : String) (name : Json) : Except Fault Json :=
  match b.under [metricId, "top"] with
  | .arr (.obj top :: _) =>
    match member top "metrics" with
    | .obj values => memberAt values name
    | _ => .ok .null
  | _ => .ok .null

end Bucket

/-- The statistics that are switched on for a metric, in the order of their names. -/
def Metric.statistics (m : Metric) : List String :=
  (m.flags.filterMap fun (k, v) =>
    match v with
    | .bool true => some k
    | _ => none).mergeSort Entries.keyLe

end PanelSearch
