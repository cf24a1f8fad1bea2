import PanelSearch.Response.Naming

/-! Tables: one row for each bucket of an innermost aggregation that is no date histogram, with
columns for the labels, the key and the visible metrics. -/

namespace PanelSearch

open Json (member)

/-- The columns of a table, in the order in which they were first written. -/
abbrev Table := List Column

namespace Table

/-- The table with a value at the end of the first column of a name; the column is made with a type
and a configuration if there is none. -/
def push (name : String) (type : ColumnType) (config : Option ColumnConfig) (cell : Cell) :
    Table → Table
  | [] => [{ name, type, config, values := [cell] }]
  | c :: rest =>
    if c.name = name then { c with values := c.values ++ [cell] } :: rest
    else c :: push name type config cell rest

/-- The table with a value at the end of the first column of a name, if there is one. -/
def pushExisting (name : String) (cell : Cell) : Table → Table
  | [] => []
  | c :: rest =>
    if c.name = name then { c with values := c.values ++ [cell] } :: rest
    else c :: pushExisting name cell rest

def pushNumber (name : String) (value : Option Double) (t : Table) : Table :=
  t.push name .number none (.ofNumber value)

def ofLabels (labels : Entries String) : Table :=
  labels.map fun (name, _) => { name, type := .string }

/-- A column name of two parts, without blanks where one is missing. -/
def joined (a b : String) : String := String.ofList (Text.strip (a ++ " " ++ b).toList)

/-- The column of a metric with one value: its word, and what tells it from other metrics of its
kind. -/
def metricColumn (q : Query) (m : Metric) : String :=
  let word := metricWord m.kind.name
  let alike := q.metrics.filter (·.kind == m.kind)
  if alike.length ≤ 1 then word
  else if m.kind = .bucketScript then m.script
  else
    let name := word ++ " " ++ m.field
    if alike.any fun other => other.id != m.id && other.field == m.field then name ++ " " ++ m.id
    else name

/-- The values that a metric writes into the row of a bucket, each under the name of its column. A
percentile that is missing, or a value of no top document, is left out. -/
def metricCells (q : Query) (b : Bucket) (m : Metric) :
    Except Fault (List (String × Option Double)) :=
  match m.kind with
  | .count => do return [(metricWord m.kind.name, ← b.count)]
  | .percentiles =>
    let values := (b.percentiles? m.id).getD []
    values.sortedKeys.mapM fun name => do
      return (joined ("p" ++ name) m.field, ← (member values name).toDouble)
  | .extendedStats =>
    m.statistics.mapM fun stat => do
      return (joined (statisticWord stat) m.field, ← (b.statistic m.id stat).toDouble)
  | .topMetrics => do
    let names := (member m.settings "metrics").items?.getD []
    let word := metricWord m.kind.name
    let cells ← names.mapM fun name => do
      let value ← b.topMetric m.id name
      if value.isNull then return none
      else
        let column := if 1 < names.length then word ++ " " ++ name.label else word
        return some (column, ← value.toDouble)
    return cells.filterMap id
  | _ => do return [(metricColumn q m, ← (b.under [m.id, "value"]).toDouble)]

/-- The cell of a bucket's key, and the type of a column that it is the first value of. -/
def keyCell (b : Bucket) : Except Fault (ColumnType × Cell) :=
  match member b "key" with
  | .str s => .ok (.string, .value (.str s))
  | key => do return (.number, .ofNumber (← key.toDouble))

def addRow (q : Query) (leaf : Leaf) (t : Table) (b : Bucket) : Except Fault Table := do
  let t := leaf.labels.foldl (fun t (k, v) => t.pushExisting k (.value (.str v))) t
  let (type, cell) ← keyCell b
  let t := t.push leaf.agg.field type (some { filterable := some true }) cell
  let cells ← (q.metrics.filter (!·.hide)).mapM (metricCells q b)
  return cells.flatten.foldl (fun t (name, value) => t.pushNumber name value) t

/-- The table with the rows of one more leaf. The first leaf with an array of buckets makes it. -/
def addLeaf (q : Query) (leaf : Leaf) (t : Option Table) : Except Fault (Option Table) :=
  match member leaf.result "buckets" with
  | .arr [] => .ok t
  | .arr buckets => do
    let start := t.getD (ofLabels leaf.labels)
    return some (← (buckets.filterMap Json.members?).foldlM (addRow q leaf) start)
  | _ => .ok t

end Table

end PanelSearch
