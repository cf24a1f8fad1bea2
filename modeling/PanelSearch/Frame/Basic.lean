import PanelSearch.Json.Basic
import PanelSearch.Time.Instant

/-! Frames: named columns of one type each, as panels draw them, and the results of queries. -/

namespace PanelSearch

/-- The type of a column. -/
inductive ColumnType where
  | time
  | number
  | string
  | boolean
  | json
  deriving DecidableEq, Repr

def ColumnType.name : ColumnType → String
  | time => "time"
  | number => "number"
  | string => "string"
  | boolean => "boolean"
  | json => "json"

/-- One value of a column. -/
inductive Cell where
  | value (j : Json)
  | time (t : Instant)

def Cell.null : Cell := .value .null

/-- The cell of a number, if there is one. -/
def Cell.ofNumber (d : Option Double) : Cell := .value ((d.map Json.double).getD .null)

/-- What a panel should know of a column. -/
structure ColumnConfig where
  filterable : Option Bool := none
  displayName : Option String := none
  deriving DecidableEq, Repr

/-- A column. -/
structure Column where
  name : String
  type : ColumnType
  values : List Cell := []
  labels : Entries String := []
  config : Option ColumnConfig := none

/-- What a panel should know of a frame. -/
structure FrameMeta where
  visualisation : Option String
  custom : Entries Json

/-- A frame. -/
structure Frame where
  name : String := ""
  columns : List Column := []
  about : Option FrameMeta := none

/-- The number of rows, which the first column tells. -/
def Frame.rowCount (f : Frame) : Nat :=
  match f.columns with
  | [] => 0
  | c :: _ => c.values.length

def Frame.columnIndex? (f : Frame) (name : String) : Option Nat :=
  f.columns.findIdx? (·.name == name)

/-- The outcome of a query: frames, or an error and its status. -/
structure QueryResult where
  frames : List Frame := []
  error : Option String := none
  status : Option Int := none

def QueryResult.failed (message : String) (status : Int) : QueryResult :=
  { error := some message, status := some status }

def timeColumnName : String := "Time"

def valueColumnName : String := "Value"

def Frame.ofSeries (points : List (Instant × Option Double)) (labels : Entries String)
    (displayName : String) : Frame :=
  { columns := [
      { name := timeColumnName, type := .time, values := points.map fun p => .time p.1 },
      { name := valueColumnName, type := .number, values := points.map fun p => .ofNumber p.2,
        labels, config := some { displayName := some displayName } }] }

end PanelSearch
