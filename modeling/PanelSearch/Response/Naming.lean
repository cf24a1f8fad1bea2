import PanelSearch.Response.Series
import PanelSearch.Text.Blank
import PanelSearch.Text.Replace

/-! The display names of series: an alias pattern that is filled in, or what the metric computes and
the labels that tell the series of one metric apart. -/

namespace PanelSearch

open Json (member)

def metricWords : List (String × String) := [
  ("count", "Count"), ("avg", "Average"), ("sum", "Sum"), ("max", "Max"), ("min", "Min"),
  ("extended_stats", "Extended Stats"), ("percentiles", "Percentiles"),
  ("cardinality", "Unique Count"), ("moving_avg", "Moving Average"),
  ("moving_fn", "Moving Function"), ("cumulative_sum", "Cumulative Sum"),
  ("derivative", "Derivative"), ("serial_diff", "Serial Difference"),
  ("bucket_script", "Bucket Script"), ("raw_document", "Raw Document"), ("raw_data", "Raw Data"),
  ("logs", "Logs"), ("top_metrics", "Top Metrics")]

def statisticWords : List (String × String) := [
  ("avg", "Avg"), ("min", "Min"), ("max", "Max"), ("sum", "Sum"), ("count", "Count"),
  ("std_deviation", "Std Dev"), ("std_deviation_bounds_upper", "Std Dev Upper"),
  ("std_deviation_bounds_lower", "Std Dev Lower")]

/-- The word for a statistic, itself if there is none. -/
def statisticWord (name : String) : String := (Entries.get? statisticWords name).getD name

/-- The word for a metric, or else for a statistic. -/
def metricWord (name : String) : String := (Entries.get? metricWords name).getD (statisticWord name)

/-- A metric in words: what it computes, and of which field. A count has no field. -/
def describe (kind : MetricKind) (field : String) : String :=
  if kind = .count then metricWord kind.name else metricWord kind.name ++ " " ++ field

namespace Alias

/-- The group behind an opening mark: the shortest text that is not empty and ends before two
closing braces. -/
def group? : List Char → Option (List Char)
  | [] => none
  | c :: rest =>
    match rest with
    | '}' :: '}' :: _ => some [c]
    | rest => (group? rest).map (c :: ·)

/-- What the groups of a pattern stand for. -/
structure Meaning where
  labels : Entries String
  metric : String
  field : String

/-- The value of a group: a label, by a leading word or by its name, or the metric or the field. -/
def Meaning.value? (m : Meaning) (group : List Char) : Option String :=
  let byTerm := if "term ".toList.isPrefixOf group then
      Entries.get? m.labels (String.ofList (group.drop 5))
    else none
  match byTerm with
  | some value => some value
  | none =>
    match Entries.get? m.labels (String.ofList group) with
    | some value => some value
    | none =>
      if group = "metric".toList then some m.metric
      else if group = "field".toList then some m.field
      else none

/-- The pattern behind the next `skip` characters with its groups filled in. A group without a
value stays as it is, and what is filled in is not looked at again. -/
def fillFrom (m : Meaning) : Nat → List Char → List Char
  | _, [] => []
  | skip + 1, _ :: rest => fillFrom m skip rest
  | 0, c :: rest =>
    match (if c = '{' ∧ rest.head? = some '{' then group? (rest.drop 1) else none) with
    | some group =>
      let text := match m.value? group with
        | some value => value.toList
        | none => '{' :: '{' :: group ++ ['}', '}']
      text ++ fillFrom m (group.length + 3) rest
    | none => c :: fillFrom m 0 rest

def fill (pattern : String) (m : Meaning) : String := String.ofList (fillFrom m 0 pattern.toList)

end Alias

namespace Metric

/-- The script of a metric, which may stand inside an object. -/
def script (m : Metric) : String :=
  match member m.settings "script" with
  | .str s => s
  | .obj script => (member script "inline").str?.getD ""
  | _ => ""

def describeVariable (q : Query) (script : List Char) (variableOf : String × String) : List Char :=
  match q.findMetric? variableOf.2 with
  | some m =>
    Text.replaceAll ("params." ++ variableOf.1).toList (describe m.kind m.field).toList script
  | none => script

/-- The script with its variables replaced by the metrics they stand for, longer names first. -/
def describeScript (m : Metric) (q : Query) : String :=
  let inputs := m.inputs.mergeSort fun a b => decide (b.1.length ≤ a.1.length)
  String.ofList (inputs.foldl (describeVariable q) m.script.toList)

end Metric

namespace Series

/-- What a series shows, in words. -/
def metricName (s : Series) (q : Query) : String :=
  let word := metricWord s.metricLabel
  let kind := s.metric.kind
  if kind.isPipeline then
    if kind.hasVariables then s.metric.describeScript q
    else if s.fieldLabel.isEmpty then word
    else
      match q.findMetric? s.fieldLabel with
      | some m => word ++ " " ++ describe m.kind m.field
      | none => "Unset"
  else if s.fieldLabel.isEmpty then word
  else word ++ " " ++ s.fieldLabel

/-- The values of the labels of a series, one after the other. -/
def labelText (s : Series) : String :=
  let values := s.labels.map (·.2.toList)
  String.ofList (Text.strip ([' '].intercalate values))

/-- The name of a series among series that show `kinds` different things. -/
def displayName (s : Series) (q : Query) (kinds : Nat) : String :=
  if q.aliasPattern.isEmpty then
    let name := s.metricName q
    if s.labels.isEmpty then name
    else if kinds = 1 then s.labelText
    else s.labelText ++ " " ++ name
  else Alias.fill q.aliasPattern ⟨s.labels, metricWord s.metricLabel, s.fieldLabel⟩

/-- Names for series, where `owners` holds the metrics that have taken a name: a metric that comes
to the name of another one adds its own id. -/
def namedFrom (q : Query) (kinds : Nat) (owners : Entries String) :
    List Series → List (Series × String)
  | [] => []
  | s :: rest =>
    let name := s.displayName q kinds
    match Entries.get? owners name with
    | some owner =>
      let clash := owner ≠ s.metric.id ∧ s.metric.id ≠ ""
      (s, if clash then name ++ " " ++ s.metric.id else name) :: namedFrom q kinds owners rest
    | none => (s, name) :: namedFrom q kinds (Entries.put owners name s.metric.id) rest

/-- Series with their names, in order. -/
def named (q : Query) (series : List Series) : List (Series × String) :=
  namedFrom q (series.map (·.metricLabel)).eraseDups.length [] series

end Series

end PanelSearch
