import PanelSearch.Json.Display
import PanelSearch.Fault
import PanelSearch.Time.Layout.Reader
import PanelSearch.Time.Layout.Writer
import PanelSearch.Time.Rfc3339

/-! The formats in which an index emits its times, and times without a format: numbers in one of
four units, and texts by RFC 3339, RFC 2822 or a layout. Times are epoch nanoseconds. -/

namespace PanelSearch

/-- The format of a time. -/
inductive TimeFormat where
  /-- A number of units of some nanoseconds. -/
  | unix (nanosPerUnit : Int)
  | rfc3339
  /-- RFC 2822 with a named zone. -/
  | rfc2822
  /-- RFC 2822 with an offset. -/
  | rfc2822z
  /-- No format, under the empty name. -/
  | unset
  | layout (text : String)
  deriving DecidableEq, Repr

namespace TimeFormat

/-- The format of a name: a name that is no other is a layout. -/
def ofName (name : String) : TimeFormat :=
  match name with
  | "iso8601" | "rfc3339" => .rfc3339
  | "rfc2822" => .rfc2822
  | "rfc2822z" => .rfc2822z
  | "unix_timestamp_secs" => .unix 1000000000
  | "unix_timestamp_millis" => .unix 1000000
  | "unix_timestamp_micros" => .unix 1000
  | "unix_timestamp_nanos" => .unix 1
  | "" => .unset
  | text => .layout text

/-- The layout that an RFC 2822 text with a named zone is read by. -/
def rfc2822Layout : String := "%a, %d %b %Y %T %Z"

/-- The layout that an RFC 2822 text with an offset is read by. -/
def rfc2822zLayout : String := "%a, %d %b %Y %T %z"

end TimeFormat

/-- Why a value is not decoded to a time. -/
inductive TimeError where
  | notRfc3339 (text : String)
  | notByLayout (text layout : String)
  /-- Texts and numbers have formats of their own. -/
  | incoherent (format : String) (value : Json)
  /-- Only numbers are timestamps. -/
  | unsupported (value : Json)
  /-- Only finite numbers are timestamps. -/
  | notFinite (value : Json)
  /-- The layout is refused, as it holds a directive twice. -/
  | repeatedDirective (layout : String)

def TimeError.message : TimeError → String
  | notRfc3339 text => "cannot parse " ++ (Json.str text).shown ++ " as RFC3339"
  | notByLayout text layout =>
    "cannot parse " ++ (Json.str text).shown ++ " with layout " ++ (Json.str layout).shown
  | incoherent format value =>
    "incoherent inputs: timeOutputFormat: " ++ (Json.str format).shown ++ " value: " ++
      value.shown ++ " (" ++ value.kindName ++ ")"
  | unsupported value =>
    "unsupported timestamp value of type " ++ value.kindName ++ ": " ++ value.shown
  | notFinite value => "cannot convert " ++ value.shown ++ " to a timestamp"
  | repeatedDirective layout => "directive repeated in layout " ++ (Json.str layout).shown

namespace Time

def wholeNumber (value : Json) : Except TimeError Int :=
  match value with
  | .int n => .ok n
  | .double d =>
    match d.truncate? with
    | some n => .ok n
    | none => .error (.notFinite value)
  | _ => .error (.unsupported value)

def ofRfc3339 (text : String) : Except TimeError Int :=
  match Rfc3339.nanos? text with
  | some ns => .ok ns
  | none => .error (.notRfc3339 text)

def ofLayout (layout text : String) : Except TimeError Int :=
  match Layout.nanos layout text with
  | .ok ns => .ok ns
  | .error .repeated => .error (.repeatedDirective layout)
  | .error .unreadable => .error (.notByLayout text layout)

/-- Decodes a value by the format of a name. Texts go with the textual formats and all other values
with the numbers. -/
def decode (format : String) (value : Json) : Except TimeError Int :=
  match TimeFormat.ofName format, value with
  | .rfc3339, .str text => ofRfc3339 text
  | .rfc2822, .str text => ofLayout TimeFormat.rfc2822Layout text
  | .rfc2822z, .str text => ofLayout TimeFormat.rfc2822zLayout text
  | .layout layout, .str text => ofLayout layout text
  | .unix _, .str text => .error (.incoherent format (.str text))
  | .unix nanosPerUnit, value => (wholeNumber value).map (· * nanosPerUnit)
  | _, value => .error (.incoherent format value)

/-- The nanoseconds in the unit of a timestamp without a format: instants from 1973 to 5138 have
magnitudes that tell the four units apart. -/
def unitOfMagnitude (n : Int) : Int :=
  let magnitude := n.natAbs
  if tenPow 17 ≤ magnitude then 1
  else if tenPow 14 ≤ magnitude then 1000
  else if tenPow 11 ≤ magnitude then 1000000
  else 1000000000

/-- Decodes a value without a format: a text by RFC 3339, a number in the unit that its magnitude
tells. -/
def infer (value : Json) : Except TimeError Int :=
  match value with
  | .str text => ofRfc3339 text
  | value => (wholeNumber value).map fun n => n * unitOfMagnitude n

def rfc3339Text (ns : Int) : Except Fault String :=
  if inCalendar ns then .ok (Rfc3339.text ns) else .error .beyondRange

def layoutText (layout : String) (ns : Int) : Except Fault String :=
  if inCalendar ns then .ok (Layout.text layout (.ofNanos ns)) else .error .beyondRange

/-- Encodes epoch nanoseconds in the format of a name; what is finer than the format is cut off
downwards. -/
def encode (format : String) (ns : Int) : Except Fault Json :=
  match TimeFormat.ofName format with
  | .unix nanosPerUnit => .ok (.int (ns / nanosPerUnit))
  | .rfc3339 => (rfc3339Text ns).map .str
  | .rfc2822 => (layoutText "%a, %d %b %Y %H:%M:%S GMT" ns).map .str
  | .rfc2822z => (layoutText "%a, %d %b %Y %H:%M:%S %z" ns).map .str
  | .unset => (layoutText "" ns).map .str
  | .layout layout => (layoutText layout ns).map .str

end Time

end PanelSearch
