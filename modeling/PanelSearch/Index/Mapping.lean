import PanelSearch.Json.Basic

/-! The mappings of an index: which fields its documents have, as a forest in which object fields
hold further fields, and the field that holds the time. -/

namespace PanelSearch

open Json (member)

/-- The type of a mapped field, as far as it matters here. -/
inductive FieldType where
  | datetime
  | object
  | other
  deriving DecidableEq, Repr

def FieldType.ofName (name : String) : FieldType :=
  match name with
  | "datetime" => .datetime
  | "object" => .object
  | _ => .other

/-- A mapped field: its name, its type, the format in which its values come back, and the fields
inside it. -/
inductive FieldMapping where
  | field (name : String) (type : FieldType) (outputFormat : Option String)
      (inner : List FieldMapping)

/-- The mapping of an index. -/
structure IndexMapping where
  timestampField : String := ""
  fields : List FieldMapping := []

def requiredText? (members : Entries Json) (key : String) : Option String :=
  (members.get? key).bind Json.str?

/-- A text that may be left out, and is empty then. -/
def plainText? (members : Entries Json) (key : String) : Option String :=
  match members.get? key with
  | none => some ""
  | some value => value.str?

def nullableText? (members : Entries Json) (key : String) : Option (Option String) :=
  match member members key with
  | .null => some none
  | .str s => some (some s)
  | _ => none

namespace FieldMapping

mutual

/-- A mapping from its JSON form: nothing when a member has the wrong type. -/
def read? : Json → Option FieldMapping
  | .obj members => do
    let name ← requiredText? members "name"
    let type ← plainText? members "type"
    let outputFormat ← nullableText? members "output_format"
    let inner ← readInner? members
    return field name (.ofName type) outputFormat inner
  | _ => none

/-- The mappings under a mapping, whose members are given. -/
def readInner? : List (String × Json) → Option (List FieldMapping)
  | [] => some []
  | (key, value) :: rest =>
    if key = "field_mappings" then readNullable? value else readInner? rest

def readNullable? : Json → Option (List FieldMapping)
  | .null => some []
  | .arr items => readAll? items
  | _ => none

def readAll? : List Json → Option (List FieldMapping)
  | [] => some []
  | item :: rest => do
    let mapping ← read? item
    let mappings ← readAll? rest
    return mapping :: mappings

end

mutual

/-- The number of levels of a field and what it holds. -/
def height : FieldMapping → Nat
  | field _ _ _ inner => levels inner + 1

/-- The number of levels of fields and what they hold. -/
def levels : List FieldMapping → Nat
  | [] => 0
  | mapping :: rest => Nat.max (height mapping) (levels rest)

end

def maxLevels : Nat := 254

/-- The path of a field under a path: an empty path adds nothing. -/
def pathUnder (parent name : String) : String :=
  if parent.isEmpty then name else parent ++ "." ++ name

mutual

/-- The output format of the time field with a path, when this field is it or holds it. Only
objects are searched, and a time field without a format is passed over. -/
def formatOf? (path parent : String) : FieldMapping → Option String
  | field name type outputFormat inner =>
    match type with
    | .datetime => if pathUnder parent name = path then outputFormat else none
    | .object => formatIn? path (pathUnder parent name) inner
    | .other => none

/-- The output format of the first time field with a path among fields and what they hold. -/
def formatIn? (path parent : String) : List FieldMapping → Option String
  | [] => none
  | mapping :: rest =>
    match formatOf? path parent mapping with
    | some format => some format
    | none => formatIn? path parent rest

end

end FieldMapping

namespace IndexMapping

/-- The member of an object that is an object itself or left out. -/
def section? (members : Entries Json) (key : String) : Option (Entries Json) :=
  match members.get? key with
  | none => some []
  | some value => value.members?

/-- The mapping in the metadata of an index: nothing when a part of it has the wrong type. What is
left out is empty, and members that are not known are passed over. -/
def ofMetadata? (metadata : Json) : Option IndexMapping := do
  let config ← section? (← metadata.members?) "index_config"
  let mapping ← section? config "doc_mapping"
  let timestampField ← plainText? mapping "timestamp_field"
  let fields ←
    match mapping.get? "field_mappings" with
    | none => some []
    | some value => value.items?.bind FieldMapping.readAll?
  return { timestampField, fields }

end IndexMapping

end PanelSearch
