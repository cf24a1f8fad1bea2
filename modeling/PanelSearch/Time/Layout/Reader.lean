import PanelSearch.Number.Numeral
import PanelSearch.Text.CaseFold
import PanelSearch.Time.Instant
import PanelSearch.Time.Layout

/-! Reading a text by a layout. Directives and blanks are matched in order, each taking the first
of its alternatives that lets the rest of the layout match; then the parts are put together to an
instant. -/

namespace PanelSearch.Layout

open Text

/-! ### Matching -/

/-- One character of an alternative: a digit of any script, or a character of a range. -/
inductive Cell where
  | digit
  | between (low high : Char)

def Cell.fits (cell : Cell) (c : Char) : Bool :=
  match cell with
  | digit => isDecimalDigit c
  | between low high => low ≤ c && c ≤ high

def Cell.only (c : Char) : Cell := .between c c

/-- The text at the front that fits the cells one by one, and what follows it. -/
def take? : List Cell → List Char → Option (List Char × List Char)
  | [], cs => some ([], cs)
  | cell :: cells, c :: cs =>
    if cell.fits c then (take? cells cs).map fun (text, rest) => (c :: text, rest) else none
  | _ :: _, [] => none

/-- The alternatives of a directive that is a number, in the order in which they are tried. -/
def numberAlternatives : Directive → List (List Cell)
  | .day => [[.only '3', .between '0' '1'], [.between '1' '2', .digit],
      [.only '0', .between '1' '9'], [.between '1' '9'], [.only ' ', .between '1' '9']]
  | .month => [[.only '1', .between '0' '2'], [.only '0', .between '1' '9'], [.between '1' '9']]
  | .year | .isoYear => [[.digit, .digit, .digit, .digit]]
  | .shortYear => [[.digit, .digit]]
  | .dayOfYear => [[.only '3', .only '6', .between '0' '6'], [.only '3', .between '0' '5', .digit],
      [.between '1' '2', .digit, .digit], [.only '0', .between '1' '9', .digit],
      [.only '0', .only '0', .between '1' '9'], [.between '1' '9', .digit],
      [.only '0', .between '1' '9'], [.between '1' '9']]
  | .hour => [[.only '2', .between '0' '3'], [.between '0' '1', .digit], [.digit]]
  | .hour12 => [[.only '1', .between '0' '2'], [.only '0', .between '1' '9'], [.between '1' '9']]
  | .minute => [[.between '0' '5', .digit], [.digit]]
  | .second => [[.only '6', .between '0' '1'], [.between '0' '5', .digit], [.digit]]
  | .micros => [6, 5, 4, 3, 2, 1].map fun n => List.replicate n (.between '0' '9')
  | .weekdayFromSunday => [[.between '0' '6']]
  | .weekdayFromMonday => [[.between '1' '7']]
  | .weekFromSunday | .weekFromMonday =>
    [[.only '5', .between '0' '3'], [.between '0' '4', .digit], [.digit]]
  | .isoWeek => [[.only '5', .between '0' '3'], [.only '0', .between '1' '9'],
      [.between '1' '4', .digit], [.digit]]
  | _ => []

/-- The alternatives of an offset: hours and minutes, then perhaps seconds, then perhaps up to six
digits of a fraction, with colons between the pairs or without; or a capital Z. -/
def offsetAlternatives : List (List Cell) :=
  let colons : List (List Cell) := [[.only ':'], []]
  let sixty : List Cell := [.between '0' '5', .digit]
  let fractions : List (List Cell) :=
    ([6, 5, 4, 3, 2, 1].map fun n => .only '.' :: List.replicate n .digit) ++ [[]]
  let tails : List (List Cell) :=
    (colons.flatMap fun colon => fractions.map fun fraction => colon ++ sixty ++ fraction) ++ [[]]
  let signed (sign : Char) : List (List Cell) :=
    colons.flatMap fun colon => tails.map fun tail =>
      [.only sign, .digit, .digit] ++ colon ++ sixty ++ tail
  signed '+' ++ signed '-' ++ [[.only 'Z']]

/-- The names that a directive stands for, longer ones first. -/
def names : Directive → List String
  | .weekday => weekdayNames.mergeSort fun a b => decide (b.length ≤ a.length)
  | .shortWeekday => weekdayNames.map shortName
  | .monthName => monthNames.mergeSort fun a b => decide (b.length ≤ a.length)
  | .shortMonthName => monthNames.map shortName
  | .halfDay => ["AM", "PM"]
  | .zone => ["UTC", "GMT"]
  | _ => []

/-- A name in lower case. Names and what is compared with them are ASCII. -/
def lowerName (cs : List Char) : List Char := cs.map Char.toLower

/-- The texts at the front that a directive accepts, in the order in which they are tried, each
with what follows it. Names are accepted in any case. -/
def candidates (d : Directive) (cs : List Char) : List (List Char × List Char) :=
  match d with
  | .offset => offsetAlternatives.filterMap (take? · cs)
  | d =>
    (numberAlternatives d).filterMap (take? · cs) ++
      (names d).filterMap fun name =>
        let front := cs.take name.length
        if lowerName front = lowerName name.toList then some (front, cs.drop name.length) else none

/-- The parts of a text that the directives of a layout stand for. -/
abbrev Parts := List (Directive × List Char)

/-- The first match of the items at the front, and what follows it. Characters match in any case. -/
def match? : List Item → List Char → Option (Parts × List Char)
  | [], cs => some ([], cs)
  | .literal c :: items, cs =>
    match cs with
    | x :: rest => if fold x = fold c then match? items rest else none
    | [] => none
  | .blanks :: items, cs =>
    let most := (cs.takeWhile isBlank).length
    (List.range most).findSome? fun i => match? items (cs.drop (most - i))
  | .directive d :: items, cs =>
    (candidates d cs).findSome? fun (text, rest) =>
      (match? items rest).map fun (parts, rest) => ((d, text) :: parts, rest)

/-! ### Putting the parts together -/

/-- What the parts of a text say: of two parts about the same thing the later one counts. -/
structure Reading where
  year : Option Int := none
  isoYear : Option Int := none
  month : Nat := 1
  day : Nat := 1
  hour : Nat := 0
  minute : Nat := 0
  second : Nat := 0
  micros : Nat := 0
  /-- The day of the week, zero for a Monday. -/
  weekday : Option Nat := none
  /-- The day of the year, from one. -/
  dayOfYear : Option Int := none
  /-- The week of the year, and whether weeks begin on a Monday. -/
  week : Option (Nat × Bool) := none
  isoWeek : Option Nat := none
  /-- The offset in microseconds. -/
  offset : Option Int := none

/-- The number of a part; a blank in front of its digits has no weight. -/
def partNumber (text : List Char) : Nat := Numeral.ofDigits (text.filterMap decimalDigit?)

/-- The position of a name among names, without regard to case. -/
def nameIndex (names : List String) (text : List Char) : Nat :=
  names.findIdx fun name => lowerName name.toList == lowerName text

def isAfternoon (parts : Parts) : Bool :=
  parts.any fun (d, text) => d == .halfDay && lowerName text == ['p', 'm']

/-- The hour of a twelve-hour clock: twelve is the first hour of its half of the day. -/
def hourOfHalf (afternoon : Bool) (hour : Nat) : Nat := hour % 12 + (if afternoon then 12 else 0)

/-- Two digits at a place; `none` when something else stands there. -/
def pairAt? (cs : List Char) (place : Nat) : Option Nat := do
  let a ← cs[place]?
  let b ← cs[place + 1]?
  let a ← decimalDigit? a
  let b ← decimalDigit? b
  return 10 * a + b

/-- An offset text with its colons removed; the second one must be there when the first one is and
seconds follow. -/
def withoutColons? (z : List Char) : Option (List Char) :=
  if z[3]? = some ':' then
    let z := z.take 3 ++ z.drop 4
    if 5 < z.length then
      if z[5]? = some ':' then some (z.take 5 ++ z.drop 6) else none
    else some z
  else some z

def offsetMicros? (text : List Char) : Option Int := do
  if text = ['Z'] then return 0
  let z ← withoutColons? text
  let hours ← pairAt? z 1
  let minutes ← pairAt? z 3
  let seconds ← if z.length ≤ 5 then some 0 else pairAt? z 5
  let digits := (z.drop 8).filterMap decimalDigit?
  let micros := Numeral.ofDigits (digits ++ List.replicate (6 - digits.length) 0)
  let size : Int := ((hours * 60 + minutes) * 60 + seconds : Nat) * 1000000 + micros
  return if z.head? = some '-' then -size else size

def Reading.add? (afternoon : Bool) (r : Reading) (part : Directive × List Char) :
    Option Reading :=
  let (d, text) := part
  let n := partNumber text
  match d with
  | .shortYear => some { r with year := some (if n ≤ 68 then 2000 + n else 1900 + n) }
  | .year => some { r with year := some n }
  | .isoYear => some { r with isoYear := some n }
  | .month => some { r with month := n }
  | .monthName => some { r with month := nameIndex monthNames text + 1 }
  | .shortMonthName => some { r with month := nameIndex (monthNames.map shortName) text + 1 }
  | .day => some { r with day := n }
  | .hour => some { r with hour := n }
  | .hour12 => some { r with hour := hourOfHalf afternoon n }
  | .minute => some { r with minute := n }
  | .second => some { r with second := n }
  | .micros => some { r with micros := n * tenPow (6 - text.length) }
  | .weekday => some { r with weekday := some (nameIndex weekdayNames text) }
  | .shortWeekday =>
    some { r with weekday := some (nameIndex (weekdayNames.map shortName) text) }
  | .weekdayFromSunday => some { r with weekday := some ((n + 6) % 7) }
  | .weekdayFromMonday => some { r with weekday := some (n - 1) }
  | .dayOfYear => some { r with dayOfYear := some n }
  | .weekFromSunday => some { r with week := some (n, false) }
  | .weekFromMonday => some { r with week := some (n, true) }
  | .isoWeek => some { r with isoWeek := some n }
  | .offset => (offsetMicros? text).map fun micros => { r with offset := some micros }
  | .halfDay | .zone => some r

def Reading.ofParts? (parts : Parts) : Option Reading :=
  parts.foldlM (fun r part => r.add? (isAfternoon parts) part) {}

/-- A year with a week or a day in it is one of at most four digits, from one on. -/
def knownYear? (y : Int) : Option Int := if 1 ≤ y ∧ y ≤ 9999 then some y else none

def newYear (y : Int) : Int := daysBeforeYear y

/-- The day of the year, from one, of a weekday in a week of the year. The days before the first
whole week make up week zero. -/
def dayOfWeekInYear (year : Int) (week weekday : Nat) (fromMonday : Bool) : Int :=
  let shift := if fromMonday then 0 else 1
  let first := (weekdayOfDay (newYear year) + shift) % 7
  let day := (weekday + shift) % 7
  if week = 0 then 1 + day - first
  else 1 + ((7 - first) % 7 : Nat) + 7 * (week - 1 : Nat) + day

/-- The day of the year, from one, of a weekday in an ISO week: week one holds the fourth of
January. -/
def dayOfIsoWeek (isoYear : Int) (week weekday : Nat) : Int :=
  week * 7 + (weekday + 1) - ((weekdayOfDay (newYear isoYear + 3) + 1 : Nat) + 3)

/-- A day of a year, counted in days from its first of January, also beyond its end. -/
def dayIn? (year day : Int) : Option Date := do
  let _ ← knownYear? year
  let d := Date.ofDayNumber (newYear year + day - 1)
  if d.isValid then return d else none

/-- A day of a year, or of the year before when it is not positive. -/
def dayAround? (year day : Int) : Option Date := do
  let _ ← knownYear? year
  if 0 < day then dayIn? year day
  else dayIn? (year - 1) (day + (newYear year - newYear (year - 1)))

/-- The 29th of February was read, and no year. -/
def Reading.isLeapDayAlone (r : Reading) : Bool := r.year.isNone && r.month == 2 && r.day == 29

/-- The year that days and weeks are counted in: without one it is 1900, and 1904 for a leap day. -/
def Reading.plainYear (r : Reading) : Int :=
  r.year.getD (if r.isLeapDayAlone then 1904 else 1900)

/-- The ISO parts fit together. An ISO year that stands for the year needs a week and a weekday and
excludes a day of the year; beside a plain year it is passed over. Otherwise an ISO week needs a
plain week beside it, which counts in its place. -/
def Reading.isoFits (r : Reading) : Bool :=
  if r.year.isNone && r.isoYear.isSome then
    r.isoWeek.isSome && r.weekday.isSome && r.dayOfYear.isNone
  else r.isoWeek.isNone || r.week.isSome

/-- The date that the parts lead to: by the day of the year, by a week and a weekday, or by the
month and the day. -/
def Reading.found? (r : Reading) : Option Date :=
  match r.dayOfYear, r.weekday, r.week, r.isoYear, r.isoWeek with
  | some day, _, _, _, _ => dayIn? r.plainYear day
  | none, some weekday, some (week, fromMonday), _, _ =>
    dayAround? r.plainYear (dayOfWeekInYear r.plainYear week weekday fromMonday)
  | none, some weekday, none, some isoYear, some isoWeek =>
    dayAround? isoYear (dayOfIsoWeek isoYear isoWeek weekday)
  | _, _, _, _, _ =>
    let d : Date := ⟨r.plainYear, r.month, r.day⟩
    if d.isValid then some d else none

/-- The date of a reading. After a leap day alone the date is moved to 1900. -/
def Reading.date? (r : Reading) : Option Date := do
  if !r.isoFits then none
  else
    let d ← r.found?
    let d := if r.isLeapDayAlone then { d with year := 1900 } else d
    if d.isValid then some d else none

/-- The epoch nanoseconds of a reading; without an offset it is in UTC. -/
def Reading.nanos? (r : Reading) : Option Int := do
  let date ← r.date?
  let t : DateTime := ⟨date, r.hour, r.minute, r.second, r.micros * 1000⟩
  let offset := r.offset.getD 0
  if t.isValid ∧ offset.natAbs < 86400000000 then some (t.nanos - offset * 1000) else none

/-- Why a text is not read by a layout: the layout names a directive twice, or the text, or the
layout itself, is no good. -/
inductive Fault where
  | repeated
  | unreadable
  deriving DecidableEq, Repr

/-- The epoch nanoseconds of a text by a layout. The first match must end with the text. -/
def nanos (layout text : String) : Except Fault Int :=
  match items? layout with
  | none => .error .unreadable
  | some items =>
    if (directives items).Nodup then
      match match? items text.toList with
      | some (parts, []) =>
        match (Reading.ofParts? parts).bind Reading.nanos? with
        | some ns => .ok ns
        | none => .error .unreadable
      | _ => .error .unreadable
    else .error .repeated

end PanelSearch.Layout
