import PanelSearch.Query.Basic
import PanelSearch.Query.Invalid
import PanelSearch.Setting

/-! Reading the queries that a dashboard sends. -/

namespace PanelSearch.Query

open Setting
open Json (member)

/-- The members of a list-valued member: nothing when it is not given. -/
def listed (members : Entries Json) (key : String) : Except QueryError (List Json) :=
  let value := member members key
  if value.isGiven then
    match value.elements? with
    | some items => .ok items
    | none => .error (.fault .notAList)
  else .ok []

/-- An integer field: what is no number counts as zero, and a double loses its fraction. -/
def fieldInt (value : Json) : Except QueryError Int :=
  match value with
  | .bool b => .ok (if b then 1 else 0)
  | .int n => .ok n
  | .double d =>
    match d with
    | .infinite _ => .error (.fault .beyondRange)
    | d => .ok (d.truncate?.getD 0)
  | .str s => .ok ((Numeral.int? s.toList).getD 0)
  | _ => .ok 0

def readBucket (raw : Json) : Except QueryError BucketAgg :=
  match raw with
  | .obj members =>
    if (member members "type").isNull || (member members "id").isNull then
      .error (.invalid .bucketWithoutTypeOrId)
    else
      .ok {
        id := fieldText (member members "id")
        kind := .ofName (fieldText (member members "type"))
        field := fieldText (member members "field")
        settings := (member members "settings").membersD }
  | _ => .error (.invalid .bucketNotObject)

/-- The variables of a script. What is no object is passed over, and so is an empty name. -/
def readVariables (items : List Json) : Entries String :=
  Entries.ofList <| items.filterMap fun
    | .obj members =>
      let name := fieldText (member members "name")
      if name.isEmpty then none else some (name, fieldText (member members "pipelineAgg"))
    | _ => none

/-- A setting that holds the text for null, as some editors stored empty settings. -/
def isStoredNull : Json → Bool
  | .str s => s == "null"
  | _ => false

def readMetric (raw : Json) : Except QueryError Metric :=
  match raw with
  | .obj members =>
    if (member members "type").isNull then .error (.invalid .metricWithoutType)
    else do
      let kind := MetricKind.ofName (fieldText (member members "type"))
      let inputs ← if kind.hasVariables then listed members "pipelineVariables" else pure []
      return {
        id := fieldText (member members "id")
        kind
        field := fieldText (member members "field")
        hide := (member members "hide").isGiven
        source := fieldText (member members "pipelineAgg")
        inputs := readVariables inputs
        settings := (member members "settings").membersD.filter fun (_, v) => !isStoredNull v
        flags := (member members "meta").membersD }
  | _ => .error (.invalid .metricNotObject)

def read (rangeFrom rangeTo : Int) (raw : Json) : Except QueryError Query :=
  match raw with
  | .obj members => do
    let buckets ← (← listed members "bucketAggs").mapM readBucket
    let metrics ← (← listed members "metrics").mapM readMetric
    let intervalMs ← fieldInt (member members "intervalMs")
    let maxDataPoints ← fieldInt (member members "maxDataPoints")
    return {
      refId := fieldText (member members "refId")
      rawQuery := fieldText (member members "query")
      buckets
      metrics
      aliasPattern := fieldText (member members "alias")
      intervalMs
      maxDataPoints
      rangeFrom
      rangeTo }
  | _ => .error (.fault .notAnObject)

/-- The queries of a panel, up to the first that is refused. -/
def readAll (rangeFrom rangeTo : Int) (raws : List Json) : Except QueryError (List Query) :=
  raws.mapM (read rangeFrom rangeTo)

end PanelSearch.Query
