import PanelSearch.Frame.Basic
import PanelSearch.Query.Basic
import PanelSearch.Request.OfQuery
import PanelSearch.Response.Flatten
import PanelSearch.Setting
import PanelSearch.Time.Format

/-! The frames of hits: documents as rows, with a column for each of their fields that is typed by
its first value, or with whole documents in one column. -/

namespace PanelSearch

open Json (member)

abbrev Hit := Entries Json

abbrev Document := Entries Json

namespace Hit

/-- The hits of a response: the objects in what its member for them holds. -/
def ofResponse (response : Entries Json) : Except Fault (List Hit) :=
  let value := (member response "hits").path ["hits"]
  if value.isGiven then
    match value.elements? with
    | some items => .ok (items.filterMap Json.members?)
    | none => .error .notAList
  else .ok []

/-- The number of hits that a response counts: a number, or an object that holds one. -/
def total (response : Entries Json) : Int :=
  let total := (member response "hits").path ["total"]
  let total := match total with
    | .obj members => member members "value"
    | total => total
  match total with
  | .int n => n
  | _ => 0

def source (hit : Hit) : Document :=
  Flatten.flatten Flatten.defaultDepth (member hit "_source").membersD

def fields (hit : Hit) : Entries Json := (member hit "fields").membersD

/-- The document of a hit: its source, and its fields over it. -/
def document (hit : Hit) : Document := hit.source.putAll hit.fields

/-- The first value that a hit was sorted by, if it is a number or a boolean. -/
def sortValue (hit : Hit) : Json :=
  match member hit "sort" with
  | .arr (value :: _) => if value.isNumber || value.isBool then value else .null
  | _ => .null

end Hit

namespace Document

def lineName : String := "line"

def levelName : String := "level"

def logName (known : ConfiguredFields) (name : String) : String :=
  if known.levelField ≠ "" ∧ name = known.levelField then levelName
  else if known.messageField ≠ "" ∧ name = known.messageField then lineName
  else name

/-- The document of a log line: its source with the level and the message under names of their own,
the fields of the hit, the source as a whole, and the values the hit was sorted by. -/
def ofLogHit (known : ConfiguredFields) (hit : Hit) : Document :=
  let source := hit.source
  let renamed := Entries.ofList (source.map fun (k, v) => (logName known k, v))
  let doc := (renamed.putAll hit.fields).put "_source" (.obj source)
  match Entries.get? hit "sort" with
  | some sort => doc.put "sort" sort
  | none => doc

/-- The value that holds the time of a document: its time field, or else the first value that the
hit was sorted by. -/
def timeValue (known : ConfiguredFields) (doc : Document) (hit : Hit) : Json :=
  match member doc known.timeField with
  | .null => hit.sortValue
  | value => value

/-- A time by the known format, or without one. -/
def decodeTime (known : ConfiguredFields) (value : Json) : Except TimeError Int :=
  if known.timeFormat.isEmpty then Time.infer value else Time.decode known.timeFormat value

/-- The time of a document. What cannot be decoded, or lies outside the calendar, is no time; but a
layout that is no good stops the work. -/
def time? (known : ConfiguredFields) (doc : Document) (hit : Hit) :
    Except Fault (Option Instant) :=
  let value := timeValue known doc hit
  if value.isNull || value.isBool then .ok none
  else
    match decodeTime known value with
    | .ok ns => .ok (Instant.ofNanos? ns)
    | .error (.repeatedDirective _) => .error .repeatedDirective
    | .error _ => .ok none

def typeOf (values : List Json) : ColumnType :=
  match values.find? (!·.isNull) with
  | some (.bool _) => .boolean
  | some (.int _) | some (.double _) => .number
  | some (.str _) => .string
  | _ => .json

/-- A value as a cell of a typed column: null when it is of another type. -/
def cellOf (type : ColumnType) (value : Json) : Except Fault Cell :=
  match type, value with
  | .boolean, .bool b => .ok (.value (.bool b))
  | .number, .int n =>
    match Double.ofInt? n with
    | some d => .ok (.value (.double d))
    | none => .error .beyondRange
  | .number, .double d => .ok (.value (.double d))
  | .string, .str s => .ok (.value (.str s))
  | .json, value => .ok (.value value)
  | _, _ => .ok .null

/-- The column of a field, typed by its first value. -/
def typedColumn (name : String) (values : List Json) : Except Fault Column := do
  let type := typeOf values
  return { name, type, values := ← values.mapM (cellOf type) }

abbrev Row := Document × Hit

def timeColumn (known : ConfiguredFields) (rows : List Row) : Except Fault Column := do
  let times ← rows.mapM fun (doc, hit) => time? known doc hit
  return {
    name := known.timeField, type := .time
    values := times.map fun t => (t.map Cell.time).getD .null }

/-- The names of the fields of documents, each once, in the order of their code points. -/
def fieldNames (docs : List Document) : List String :=
  (docs.flatMap Entries.keys).eraseDups.mergeSort Entries.keyLe

/-- The names of the columns: the time field if there is any document, then the leading names that
some document has, then all others in their order. -/
def columnNames (docs : List Document) (timeField : String) (leading : List String) :
    List String :=
  let seen := fieldNames docs
  let first := if timeField ≠ "" ∧ !docs.isEmpty then [timeField] else []
  let names := first ++ leading.filter fun name => seen.contains name && !first.contains name
  names ++ seen.filter (!names.contains ·)

def columns (known : ConfiguredFields) (rows : List Row) (names : List String) :
    Except Fault (List Column) :=
  names.mapM fun name => do
    let column ←
      if known.timeField ≠ "" ∧ name = known.timeField then timeColumn known rows
      else typedColumn name (rows.map fun (doc, _) => member doc name)
    return { column with config := some { filterable := some true } }

def rawDataFrame (known : ConfiguredFields) (response : Entries Json) : Except Fault Frame := do
  let rows := (← Hit.ofResponse response).map fun hit => (hit.document, hit)
  let names := columnNames (rows.map (·.1)) known.timeField []
  return { columns := ← columns known rows names }

/-- The frame of whole documents in a column under the name of the query. -/
def rawDocumentFrame (refId : String) (response : Entries Json) : Except Fault Frame := do
  let hits ← Hit.ofResponse response
  return { columns := [{
    name := refId, type := .json, values := hits.map fun hit => .value (.obj hit.document)
    config := some { filterable := some true } }] }

def logLimit (q : Query) : Int :=
  Setting.integer (member (SearchRequest.hitSettings q) "limit") defaultSize true

/-- How the words to highlight are found in a query. -/
abbrev Highlighter := String → Except Fault (List String)

/-- The frame of log lines, with the words to highlight, the number of lines asked for and the
number of lines found. -/
def logsFrame (highlight : Highlighter) (q : Query) (known : ConfiguredFields)
    (response : Entries Json) : Except Fault Frame := do
  let rows := (← Hit.ofResponse response).map fun hit => (ofLogHit known hit, hit)
  let names := columnNames (rows.map (·.1)) known.timeField [lineName]
  let columns ← columns known rows names
  let words ← highlight q.rawQuery
  return {
    columns
    about := some {
      visualisation := some "logs"
      custom := [("searchWords", .arr (words.map .str)), ("limit", .int (logLimit q)),
        ("total", .int (Hit.total response))] } }

end Document

end PanelSearch
