import PanelSearch.Fault
import PanelSearch.Setting

/-! The bounds of a panel's time range, in epoch milliseconds. -/

namespace PanelSearch

/-- Why a time bound is not read. -/
inductive TimeBoundError where
  | refused (name : String) (value : Json)
  | fault (f : Fault)

def refusedBoundMessage (name : String) (value : Json) : String :=
  "invalid '" ++ name ++ "' time: " ++ value.shown

/-- The refusal of a value that is no bound, which shows the value. -/
def refuse (limits : Limits) (name : String) (value : Json) : Except TimeBoundError Int :=
  match value.unshown? limits 0 with
  | some f => .error (.fault f)
  | none => .error (.refused name value)

/-- A text that looks like an integer: digit characters behind any number of minus signs. -/
def looksNumeric (cs : List Char) : Bool :=
  Text.isDigits ((Text.strip cs).dropWhile (· = '-'))

/-- The time bound of a name: a whole number, or the numeral of one. -/
def timeBound (limits : Limits) (name : String) (value : Json) : Except TimeBoundError Int :=
  match value with
  | .str s =>
    if looksNumeric s.toList then
      match Numeral.intWithin? limits.maxDigits (Text.strip s.toList) with
      | some n => .ok n
      | none => .error (.fault .notANumber)
    else refuse limits name value
  | value =>
    match Setting.whole? value with
    | some n => .ok n
    | none => refuse limits name value

end PanelSearch
