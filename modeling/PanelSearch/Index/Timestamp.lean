import PanelSearch.Fault
import PanelSearch.Index.Mapping
import PanelSearch.Json.Bytes
import PanelSearch.Json.Writer

/-! The time field of an index, or the one that all indexes of a listing share. -/

namespace PanelSearch

/-- A time field and the format in which its values come back. Both are empty when not known. -/
structure TimestampField where
  field : String := ""
  format : String := ""
  deriving DecidableEq, Repr

def TimestampField.shown (t : TimestampField) : String := t.field ++ " (" ++ t.format ++ ")"

/-- Why the time field of an index cannot be told. -/
inductive MetadataError where
  /-- The metadata is refused with a status. -/
  | refused (status : Int) (url : String)
  /-- The metadata is not of the right form. -/
  | unreadable (body : String)
  /-- Two indexes have different time fields. -/
  | disagreement (first second : TimestampField)
  deriving DecidableEq, Repr

namespace MetadataError

def status : MetadataError → Int
  | refused status _ => status
  | unreadable _ => 500
  | disagreement _ _ => 400

/-- The wording of a failure. What is wrong with a body is left open. -/
def message : MetadataError → String
  | refused _ url => "Error when calling url = " ++ url
  | unreadable body => "Unmarshalling body error: err = <detail>, body = " ++ body
  | disagreement first second =>
    "Index matching the pattern should have the same timestamp fields, two found: " ++
      first.shown ++ " and " ++ second.shown

def text (e : MetadataError) : String :=
  (Json.obj [("message", .str e.message), ("status", .int e.status)]).compact

end MetadataError

namespace TimestampField

def ofMapping (mapping : IndexMapping) : TimestampField where
  field := mapping.timestampField
  format := (FieldMapping.formatIn? mapping.timestampField "" mapping.fields).getD ""

/-- The time field that further indexes share with a first one. The first one gives way as long as
it has no time field. -/
def agree : TimestampField → List TimestampField → Except MetadataError TimestampField
  | first, [] => .ok first
  | first, next :: rest =>
    if first.field.isEmpty then agree next rest
    else if next = first then agree first rest
    else .error (.disagreement first next)

/-- The time field that all mappings share: none when there is no mapping. -/
def ofMappings : List IndexMapping → Except MetadataError TimestampField
  | [] => .ok {}
  | first :: rest => agree (ofMapping first) (rest.map ofMapping)

def ofIndex (body : String) (metadata : Option Json) : Except MetadataError TimestampField :=
  match metadata.bind IndexMapping.ofMetadata? with
  | some mapping => .ok (ofMapping mapping)
  | none => .error (.unreadable body)

/-- The mappings of a listing: nothing when one of them is not of the right form, or nests its
fields too deeply. -/
def mappingsOf? (listing : Json) : Option (List IndexMapping) := do
  let mappings ← (← listing.items?).mapM IndexMapping.ofMetadata?
  if mappings.all fun m => FieldMapping.levels m.fields ≤ FieldMapping.maxLevels then some mappings
  else none

/-- The time field of all indexes of a listing that is read already. -/
def ofListing (body : String) (listing : Option Json) : Except MetadataError TimestampField :=
  match listing.bind mappingsOf? with
  | some mappings => ofMappings mappings
  | none => .error (.unreadable body)

def ofIndexBytes (bytes : List UInt8) : Except MetadataError TimestampField :=
  ofIndex (String.ofList (Text.Utf8.decode bytes)) (Json.ofUtf8? bytes)

/-- The time field of all indexes of a listing. There is no answer to one that is nested too
deeply. -/
def ofListingBytes (limits : Limits) (bytes : List UInt8) :
    Except Fault (Except MetadataError TimestampField) :=
  match Json.ofBytes (.guarded limits) bytes with
  | .error .tooDeep => .error .tooDeep
  | read => .ok (ofListing (String.ofList (Text.Utf8.decode bytes)) read.toOption)

def json (t : TimestampField) : Json :=
  .obj [("timestamp_field", .str t.field), ("timestamp_output_format", .str t.format)]

end TimestampField

end PanelSearch
