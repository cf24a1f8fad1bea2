import PanelSearch.Query.Basic
import PanelSearch.Query.Invalid
import PanelSearch.Setting

/-! Metric settings as the search engine expects them: numbers that were stored as texts become
numbers, and a script that was stored inside an object stands alone. -/

namespace PanelSearch.Metric

/-- The settings with one of them read as a number, if it is a numeral. -/
def readNumber (settings : Entries Json) (key : String) : Entries Json :=
  match settings.get? key with
  | some (.str s) =>
    match Numeral.double? s.toList with
    | some d => settings.put key (.double d)
    | none => settings
  | _ => settings

/-- A percentile as a double: zero for what is no number. -/
def percentile : Json → Except Fault Double
  | .int n =>
    match Double.ofInt? n with
    | some d => .ok d
    | none => .error .beyondRange
  | .double d => .ok d
  | .str s => .ok ((Numeral.double? s.toList).getD (.zero false))
  | _ => .ok (.zero false)

def modelNumbers : List String := ["alpha", "beta", "gamma", "period"]

/-- The settings of a moving average, those of its model included. -/
def movingAverageSettings (settings : Entries Json) : Entries Json :=
  let settings := readNumber (readNumber settings "window") "predict"
  match settings.get? "settings" with
  | some (.obj model) => settings.put "settings" (.obj (modelNumbers.foldl readNumber model))
  | _ => settings

/-- The settings of percentiles: the percentiles are doubles. -/
def percentilesSettings (settings : Entries Json) : Except Fault (Entries Json) :=
  match settings.get? "percents" with
  | some (.arr percents) => do
    let ds ← percents.mapM percentile
    return settings.put "percents" (.arr (ds.map .double))
  | _ => .ok settings

/-- The settings with a script inside an object put in the object's place. -/
def unwrapScript (settings : Entries Json) : Entries Json :=
  match settings.get? "script" with
  | some (.obj script) =>
    match Json.member script "inline" with
    | .str text => settings.put "script" (.str text)
    | _ => settings
  | _ => settings

def sentSettings (kind : MetricKind) (settings : Entries Json) : Except Fault (Entries Json) := do
  let settings ←
    match kind with
    | .movingAvg => pure (movingAverageSettings settings)
    | .serialDiff => pure (readNumber settings "lag")
    | .percentiles => percentilesSettings settings
    | _ => pure settings
  return if kind.hasScript then unwrapScript settings else settings

end PanelSearch.Metric
