import PanelSearch.Fault

/-! Queries that cannot be turned into a search. -/

namespace PanelSearch

/-- What is wrong with a query. -/
inductive InvalidQuery where
  | bucketNotObject
  | bucketWithoutTypeOrId
  | metricNotObject
  | metricWithoutType
  /-- Neither bucket aggregations nor a metric that asks for hits. -/
  | nothingAsked
  | bucketWithoutField (id type : String)
  /-- A date histogram names no field, and no time field is known. -/
  | noTimeField (id : String)
  deriving DecidableEq, Repr

def InvalidQuery.message : InvalidQuery → String
  | bucketNotObject => "invalid query, bucket aggregation must be an object"
  | bucketWithoutTypeOrId => "invalid query, bucket aggregation must have both 'type' and 'id'"
  | metricNotObject => "invalid query, metric must be an object"
  | metricWithoutType => "invalid query, metric must have a 'type'"
  | nothingAsked => "invalid query, missing metrics and aggregations"
  | bucketWithoutField id type =>
    "invalid query, bucket aggregation '" ++ id ++ "' (type: " ++ type ++
      ") is missing required field"
  | noTimeField id =>
    "date_histogram aggregation '" ++ id ++
      "' has no field specified and datasource timeField is empty"

/-- Why a query is refused: it is invalid, or a value in it stops the work. -/
inductive QueryError where
  | invalid (reason : InvalidQuery)
  | fault (fault : Fault)
  deriving DecidableEq, Repr

end PanelSearch
