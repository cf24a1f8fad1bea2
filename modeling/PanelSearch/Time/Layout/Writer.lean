import PanelSearch.Text.CaseFold
import PanelSearch.Time.Instant
import PanelSearch.Time.Layout

/-! Writing an instant by a layout. Between the percent sign and the letter may stand flags for the
padding and the case, a least width, and a mark for an alternative form, which changes nothing. -/

namespace PanelSearch.Layout

/-- What stands between a percent sign and its letter. `raw` is its text so far, backwards. -/
structure Spec where
  raw : List Char := ['%']
  /-- The padding that a flag asks for: a blank, a zero, or none. -/
  pad : Option Char := none
  upper : Bool := false
  swap : Bool := false
  width : Nat := 0
  alternative : Option Char := none
  /-- A width or a mark has been read, so that no more flags can follow. -/
  flagsDone : Bool := false

/-- The text of a broken form: as it stands, padded to its width. -/
def Spec.fill (spec : Spec) (cs : List Char) : List Char :=
  List.replicate (spec.width - cs.length) (if spec.pad = some '0' then '0' else ' ') ++
    if spec.upper then cs.map Text.upper else cs

/-- A number of at least some digits, with zeros or blanks in front. -/
def Spec.number (spec : Spec) (digits : Nat) (zeros : Bool) (n : Int) : List Char :=
  let text := intText n
  let front := Nat.max digits spec.width - text.length
  let fill : Char := if zeros then '0' else ' '
  match spec.pad with
  | some '-' => spec.fill text
  | some '_' => List.replicate front ' ' ++ text
  | some _ => List.replicate front '0' ++ text
  | none => List.replicate front fill ++ text

/-- The date and the clock in a twelve-hour day: the hour from one to twelve. -/
def hourOnDial (t : DateTime) : Nat := (t.hour + 11) % 12 + 1

/-- The number of the week that a day lies in, for weeks that begin when `weekday` is zero. The
days before the first whole week are in week zero. -/
def weekNumber (position weekday : Nat) : Nat := (position + 7 - weekday) / 7

/-- The ISO year and week of a day: those of the Thursday of its week. -/
def isoWeekOf (day : Int) : Int × Nat :=
  let thursday := day - weekdayOfDay day + 3
  let year := yearOfDay thursday
  (year, (thursday - daysBeforeYear year).toNat / 7 + 1)

def halfOfDay (t : DateTime) : List Char := if t.hour < 12 then ['A', 'M'] else ['P', 'M']

/-- The letters that allow no mark, and those that allow one mark only. -/
def Spec.allows (spec : Spec) (letter : Char) : Bool :=
  match spec.alternative with
  | none => true
  | some 'E' => letter ∉ "aAbhBDdeFgGHIjklMmSUVWw".toList
  | some _ => letter ∉ "aAcDFxXY".toList

/-- What a letter writes, without letters that stand for layouts. Behind flags and widths the
offset and the zone are empty. -/
def Spec.simple? (spec : Spec) (t : DateTime) (letter : Char) : Option (List Char) :=
  let day := t.date.dayNumber
  let weekday := weekdayOfDay day
  let position := t.date.dayOfYear
  let name (s : String) : List Char :=
    { spec with upper := spec.upper || spec.swap }.fill s.toList
  match letter with
  | 'a' => some (name (shortName (weekdayNames.getD weekday "")))
  | 'A' => some (name (weekdayNames.getD weekday ""))
  | 'b' | 'h' => some (name (shortName (monthNames.getD (t.date.month - 1) "")))
  | 'B' => some (name (monthNames.getD (t.date.month - 1) ""))
  | 'C' => some (spec.number 1 true (t.date.year / 100))
  | 'd' => some (spec.number 2 true t.date.day)
  | 'e' => some (spec.number 2 false t.date.day)
  | 'g' => some (spec.number 2 true ((isoWeekOf day).1 % 100))
  | 'G' => some (spec.number 1 true (isoWeekOf day).1)
  | 'H' => some (spec.number 2 true t.hour)
  | 'I' => some (spec.number 2 true (hourOnDial t))
  | 'j' => some (spec.number 3 true (position + 1))
  | 'k' => some (spec.number 2 false t.hour)
  | 'l' => some (spec.number 2 false (hourOnDial t))
  | 'm' => some (spec.number 2 true t.date.month)
  | 'M' => some (spec.number 2 true t.minute)
  | 'n' => some (spec.fill ['\n'])
  | 'p' =>
    let half := halfOfDay t
    some (if spec.swap then { spec with upper := false }.fill (half.map Char.toLower)
      else spec.fill half)
  | 'P' => some ({ spec with upper := false }.fill ((halfOfDay t).map Char.toLower))
  | 's' => some (spec.fill (intText (t.nanos / nanosPerSecond)))
  | 'S' => some (spec.number 2 true t.second)
  | 't' => some (spec.fill ['\t'])
  | 'u' => some (spec.number 1 true (weekday + 1))
  | 'U' => some (spec.number 2 true (weekNumber position ((weekday + 1) % 7)))
  | 'V' => some (spec.number 2 true (isoWeekOf day).2)
  | 'w' => some (spec.number 1 true ((weekday + 1) % 7 : Nat))
  | 'W' => some (spec.number 2 true (weekNumber position weekday))
  | 'y' => some (spec.number 2 true (t.date.year % 100))
  | 'Y' => some (spec.number 1 true t.date.year)
  | 'z' => some []
  | 'Z' => some (spec.fill [])
  | '%' => some (spec.fill ['%'])
  | _ => none

/-- What stands for a layout of its own: its parts and what stands between them. -/
def compoundText? (t : DateTime) (letter : Char) : Option (List Char) :=
  let part (c : Char) : List Char := (({} : Spec).simple? t c).getD []
  let clock := part 'H' ++ ':' :: part 'M' ++ ':' :: part 'S'
  match letter with
  | 'c' => some (part 'a' ++ ' ' :: part 'b' ++ ' ' :: part 'e' ++ ' ' :: clock ++ ' ' :: part 'Y')
  | 'D' | 'x' => some (part 'm' ++ '/' :: part 'd' ++ '/' :: part 'y')
  | 'F' => some (part 'Y' ++ '-' :: part 'm' ++ '-' :: part 'd')
  | 'r' => some (part 'I' ++ ':' :: part 'M' ++ ':' :: part 'S' ++ ' ' :: part 'p')
  | 'R' => some (part 'H' ++ ':' :: part 'M')
  | 'T' | 'X' => some clock
  | _ => none

/-- What a form with its letter writes: an unknown one writes itself. -/
def Spec.text (spec : Spec) (t : DateTime) (letter : Char) : List Char :=
  let upper := spec.upper || (spec.swap && (letter = 'b' || letter = 'h'))
  let itself := { spec with upper }.fill (letter :: spec.raw).reverse
  if spec.allows letter then
    match spec.simple? t letter with
    | some text => text
    | none =>
      match compoundText? t letter with
      | some text => spec.fill text
      | none => itself
  else itself

/-- The form with one more character, if that is no letter yet. A width counts as far as it fits
into `room`. -/
def Spec.extend? (room : Nat) (spec : Spec) (c : Char) : Option Spec :=
  let spec' := { spec with raw := c :: spec.raw }
  let flags := !spec.flagsDone
  if flags && (c = '_' || c = '-' || c = '0') then some { spec' with pad := some c }
  else if flags && c = '^' then some { spec' with upper := true }
  else if flags && c = '#' then some { spec' with swap := true }
  else if spec.alternative.isNone && '0' ≤ c && c ≤ '9' then
    let width := Nat.min room (10 * spec.width + (c.toNat - 0x30))
    some { spec' with width, flagsDone := true }
  else if spec.alternative.isNone && (c = 'E' || c = 'O') then
    some { spec' with alternative := some c, flagsDone := true }
  else none

/-- The text of a date and a clock by a layout; a form may be open at its front. -/
def write (room : Nat) (t : DateTime) : Option Spec → List Char → List Char
  | none, [] => []
  | some spec, [] => spec.fill spec.raw.reverse
  | none, c :: rest => if c = '%' then write room t (some {}) rest else c :: write room t none rest
  | some spec, c :: rest =>
    match spec.extend? room c with
    | some spec => write room t (some spec) rest
    | none => spec.text t c ++ write room t none rest

/-- The layout with the bare forms for the microseconds, the offset and the zone filled in. A null
character ends it. -/
def fillBare (t : DateTime) : List Char → List Char
  | '%' :: 'f' :: rest => padded 6 (t.nano / 1000) ++ fillBare t rest
  | '%' :: 'z' :: rest => "+0000".toList ++ fillBare t rest
  | '%' :: 'Z' :: rest => "UTC".toList ++ fillBare t rest
  | '%' :: '\x00' :: _ => ['%']
  | '%' :: c :: rest => '%' :: c :: fillBare t rest
  | '\x00' :: _ => []
  | c :: rest => c :: fillBare t rest
  | [] => []

/-- The room for a text, by the length of its layout: the first of 1024, 2048 and so on that is at
least 256 times as much. -/
def roomFor (length : Nat) : Nat := 256 * (Nat.max 4 length).nextPowerOfTwo

/-- The text of an instant by a layout: an empty one when the room for it is not enough. -/
def text (layout : String) (t : DateTime) : String :=
  let form := fillBare t (expand layout)
  let room := roomFor form.length
  let cs := write room t none form
  if cs.length < room then String.ofList cs else ""

end PanelSearch.Layout
