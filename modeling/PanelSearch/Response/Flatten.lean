import PanelSearch.Json.Basic

/-! Nested objects as flat ones: a value stands under the keys on the way to it, joined by dots. -/

namespace PanelSearch.Flatten

/-- A key below a path. Nothing is joined to the empty path. -/
def joined (path key : String) : String := if path.isEmpty then key else path ++ "." ++ key

mutual

/-- The values below the members of an object, `depth` levels below the top. -/
def ofMembers (maxDepth depth : Nat) (path : String) :
    List (String × Json) → List (String × Json)
  | [] => []
  | (key, value) :: rest =>
    ofValue maxDepth depth (joined path key) value ++ ofMembers maxDepth depth path rest

/-- The values below one value: itself, unless it is an object with members that is not too deep. -/
def ofValue (maxDepth depth : Nat) (path : String) : Json → List (String × Json)
  | .obj (m :: members) =>
    if depth < maxDepth then ofMembers maxDepth (depth + 1) path (m :: members)
    else [(path, .obj (m :: members))]
  | value => [(path, value)]

end

def defaultDepth : Nat := 10

/-- The flat object of an object: of values under the same joined keys the last one counts. -/
def flatten (maxDepth : Nat) (members : Entries Json) : Entries Json :=
  Entries.ofList (ofMembers maxDepth 0 "" members)

end PanelSearch.Flatten
