import PanelSearch.Service.Basic

/-! The time field of a datasource: where it is not configured, the metadata of the index tells
it, once. -/

namespace PanelSearch

/-- An index that stands for several: a pattern, or names between commas. -/
def isPattern (index : String) : Bool := index.toList.any fun c => c = '*' || c = ','

def Call.forMetadata (url index : String) : Call :=
  if isPattern index then .metadata (Datasource.baseOf url ++ "/indexes") (some index)
  else .metadata (Datasource.baseOf url ++ "/indexes/" ++ index) none

namespace TimestampField

def ofReply (limits : Limits) (index url : String) (r : Reply) :
    Except Fault (Except MetadataError TimestampField) :=
  if r.status < 200 || 400 ≤ r.status then .ok (.error (.refused r.status url))
  else if isPattern index then ofListingBytes limits r.body
  else .ok (ofIndexBytes r.body)

end TimestampField

def Call.url : Call → String
  | metadata url _ => url
  | batch url _ => url
  | relay _ url _ _ => url

namespace Service

def timestampField (s : Service) (url index : String) :
    Except ServiceError TimestampField × Service :=
  let c := Call.forMetadata url index
  match s.call c with
  | (.failed f, s) => (.error (.transport f), s)
  | (.reply r, s) =>
    match TimestampField.ofReply s.limits index c.url r with
    | .ok (.ok t) => (.ok t, s)
    | .ok (.error e) => (.error (.metadata e), s)
    | .error f => (.error (.fault f), s)

/-- The fields after a time field was told: what is configured stays. -/
def fieldsWith (fields : ConfiguredFields) (t : TimestampField) : ConfiguredFields :=
  { fields with
    timeField := t.field
    timeFormat := if fields.timeFormat.isEmpty then t.format else fields.timeFormat }

def withTimestamp (s : Service) (t : TimestampField) : Service :=
  { s with datasource := { s.datasource with
      fields := fieldsWith s.datasource.fields t
      discovered := true } }

/-- The time field of the datasource has to be asked for. -/
def needsTimestamp (s : Service) : Bool :=
  s.datasource.fields.timeField.isEmpty && !s.datasource.discovered

/-- Asks for the time field if it is not known and was not told before. -/
def ensureTimestamp (s : Service) : Except ServiceError Unit × Service :=
  if s.needsTimestamp then
    match s.timestampField s.datasource.url s.datasource.index with
    | (.ok t, s) => (.ok (), s.withTimestamp t)
    | (.error e, s) => (.error e, s)
  else (.ok (), s)

end Service

end PanelSearch
