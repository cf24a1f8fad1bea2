import PanelSearch.Number.Text
import PanelSearch.Time.Calendar

/-! Instants on the time line: epoch nanoseconds, the date and clock they show in UTC, and the
instants of the years 1 to 9999 in whole microseconds. -/

namespace PanelSearch

/-- The day number of the epoch, the first of January 1970. -/
def epochDay : Int := 719162

def nanosPerSecond : Int := 1000000000

def nanosPerDay : Int := 86400 * nanosPerSecond

def firstNano : Int := -62135596800 * nanosPerSecond

def endNano : Int := 253402300800 * nanosPerSecond

def inCalendar (ns : Int) : Bool := firstNano ≤ ns && ns < endNano

/-- What a calendar and a clock show in UTC. -/
structure DateTime where
  date : Date
  hour : Nat
  minute : Nat
  second : Nat
  nano : Nat
  deriving DecidableEq, Repr

namespace DateTime

/-- The date and the clock exist; no minute has more than sixty seconds. -/
def isValid (t : DateTime) : Bool :=
  t.date.isValid && t.hour < 24 && t.minute < 60 && t.second < 60 && t.nano < 1000000000

def nanos (t : DateTime) : Int :=
  (((t.date.dayNumber - epochDay) * 24 + t.hour) * 60 + t.minute) * 60 * nanosPerSecond +
    t.second * nanosPerSecond + t.nano

def ofNanos (ns : Int) : DateTime :=
  let rest := (ns % nanosPerDay).toNat
  let seconds := rest / 1000000000
  { date := .ofDayNumber (ns / nanosPerDay + epochDay)
    hour := seconds / 3600
    minute := seconds / 60 % 60
    second := seconds % 60
    nano := rest % 1000000000 }

end DateTime

/-- An instant of the years 1 to 9999, in whole microseconds. -/
structure Instant where
  micros : Int
  inCalendar : PanelSearch.inCalendar (micros * 1000) = true

namespace Instant

/-- The instant of epoch nanoseconds, rounded down to the microsecond, if it is in the calendar. -/
def ofNanos? (ns : Int) : Option Instant :=
  if h : PanelSearch.inCalendar (ns / 1000 * 1000) then some ⟨ns / 1000, h⟩ else none

def nanos (t : Instant) : Int := t.micros * 1000

/-- The epoch milliseconds of an instant, rounded down. -/
def millis (t : Instant) : Int := t.nanos / 1000000

def dateTime (t : Instant) : DateTime := .ofNanos t.nanos

/-- The extended text of an instant in UTC: a year of four digits, microseconds unless they are
zero, and the zone in the given spelling. -/
def extendedText (t : Instant) (zone : String) : String :=
  let d := t.dateTime
  let micros := d.nano / 1000
  String.ofList <|
    padded 4 d.date.year.toNat ++ '-' :: padded 2 d.date.month ++ '-' :: padded 2 d.date.day ++
      'T' :: padded 2 d.hour ++ ':' :: padded 2 d.minute ++ ':' :: padded 2 d.second ++
      (if micros = 0 then [] else '.' :: padded 6 micros) ++ zone.toList

def isoText (t : Instant) : String := t.extendedText "+00:00"

end Instant

end PanelSearch
