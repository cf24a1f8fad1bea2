/-! The Gregorian calendar, extended to all years: dates, their day numbers, and the date of a day
number. Day zero is the first of January of the year one, a Monday. -/

namespace PanelSearch

def isLeapYear (y : Int) : Bool := y % 4 == 0 && (y % 100 != 0 || y % 400 == 0)

/-- The lengths of the months of a common year or of a leap year. -/
def monthLengths (leap : Bool) : List Nat :=
  [31, if leap then 29 else 28, 31, 30, 31, 30, 31, 31, 30, 31, 30, 31]

/-- The days from day zero to the first of January of a year. -/
def daysBeforeYear (y : Int) : Int :=
  let p := y - 1
  365 * p + p / 4 - p / 100 + p / 400

/-- The year that a day number lies in: a year of the mean length gives it up to one. -/
def yearOfDay (n : Int) : Int :=
  let y := 400 * n / 146097 + 1
  if n < daysBeforeYear y then y - 1
  else if daysBeforeYear (y + 1) ≤ n then y + 1
  else y

/-- A date. -/
structure Date where
  year : Int
  month : Nat
  day : Nat
  deriving DecidableEq, Repr

namespace Date

def exists? (d : Date) : Bool :=
  1 ≤ d.month && d.month ≤ 12 && 1 ≤ d.day &&
    d.day ≤ (monthLengths (isLeapYear d.year)).getD (d.month - 1) 0

/-- The date exists and has a year of at most four digits from one on. -/
def isValid (d : Date) : Bool := 1 ≤ d.year && d.year ≤ 9999 && d.exists?

/-- The position of a date in its year, from zero. -/
def dayOfYear (d : Date) : Nat :=
  ((monthLengths (isLeapYear d.year)).take (d.month - 1)).foldl (· + ·) 0 + (d.day - 1)

/-- The number of a day, from the first of January of the year one. -/
def dayNumber (d : Date) : Int := daysBeforeYear d.year + d.dayOfYear

/-- The month and the day at a position in the months of the given lengths; `month` is the number
of the first of them. -/
def monthAt : List Nat → Nat → Nat → Nat × Nat
  | [], month, position => (month, position + 1)
  | length :: rest, month, position =>
    if position < length then (month, position + 1)
    else monthAt rest (month + 1) (position - length)

/-- The date at a position in a year, from zero. -/
def ofDayOfYear (year : Int) (position : Nat) : Date :=
  let (month, day) := monthAt (monthLengths (isLeapYear year)) 1 position
  ⟨year, month, day⟩

def ofDayNumber (n : Int) : Date :=
  let year := yearOfDay n
  ofDayOfYear year (n - daysBeforeYear year).toNat

end Date

/-- The day of the week of a day number, zero for a Monday. -/
def weekdayOfDay (n : Int) : Nat := (n % 7).toNat

/-- The days of the week, from Monday on. -/
def weekdayNames : List String :=
  ["Monday", "Tuesday", "Wednesday", "Thursday", "Friday", "Saturday", "Sunday"]

/-- The months, from January on. -/
def monthNames : List String :=
  ["January", "February", "March", "April", "May", "June", "July", "August", "September",
    "October", "November", "December"]

def shortName (name : String) : String := String.ofList (name.toList.take 3)

end PanelSearch
