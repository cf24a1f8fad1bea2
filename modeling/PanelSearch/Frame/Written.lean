import PanelSearch.Frame.Basic

/-! The written form of frames: times as epoch milliseconds, and null for every double that is not
finite. -/

namespace PanelSearch

mutual

/-- A value with null for every double in it that is not finite. -/
def Json.finite : Json → Json
  | .double d => if d.isFinite then .double d else .null
  | .arr items => .arr (finiteItems items)
  | .obj members => .obj (finiteMembers members)
  | j => j

/-- The items of an array with null for doubles that are not finite. -/
def Json.finiteItems : List Json → List Json
  | [] => []
  | j :: rest => j.finite :: finiteItems rest

/-- The members of an object with null for doubles that are not finite. -/
def Json.finiteMembers : List (String × Json) → List (String × Json)
  | [] => []
  | (k, j) :: rest => (k, j.finite) :: finiteMembers rest

end

def Json.ofText? (s : Option String) : Json := (s.map Json.str).getD .null

/-- The written form of a cell in a column of a type: an instant is a number in a time column and a
text in any other. -/
def Cell.json (type : ColumnType) : Cell → Json
  | value j => j.finite
  | time t => if type = .time then .int t.millis else .str (t.extendedText "Z")

def ColumnConfig.json (c : ColumnConfig) : Json :=
  .obj [("filterable", (c.filterable.map Json.bool).getD .null),
    ("displayNameFromDS", .ofText? c.displayName)]

def Column.json (c : Column) : Json :=
  .obj [("name", .str c.name), ("type", .str c.type.name),
    ("values", .arr (c.values.map (Cell.json c.type))),
    ("labels", .obj (c.labels.mapValues .str)),
    ("config", (c.config.map ColumnConfig.json).getD .null)]

def FrameMeta.json (m : FrameMeta) : Json :=
  .obj [("preferred_visualisation_type", .ofText? m.visualisation),
    ("custom", (Json.obj m.custom).finite)]

def Frame.json (f : Frame) : Json :=
  .obj [("name", .str f.name), ("fields", .arr (f.columns.map Column.json)),
    ("meta", (f.about.map FrameMeta.json).getD .null)]

def QueryResult.json (r : QueryResult) : Json :=
  .obj [("frames", .arr (r.frames.map Frame.json)), ("error", .ofText? r.error),
    ("status", (r.status.map Json.int).getD .null)]

end PanelSearch
