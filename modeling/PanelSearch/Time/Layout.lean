import PanelSearch.Text.Blank
import PanelSearch.Text.Replace

/-! Time layouts: texts in which a percent sign and a letter stand for a part of an instant. -/

namespace PanelSearch.Layout

open Text

/-- The part of an instant that a letter stands for. -/
inductive Directive where
  | day | month | year | shortYear | dayOfYear
  | hour | hour12 | halfDay | minute | second | micros
  | weekday | shortWeekday | weekdayFromSunday | weekdayFromMonday
  | monthName | shortMonthName
  | weekFromSunday | weekFromMonday | isoYear | isoWeek
  | offset | zone
  deriving DecidableEq, Repr

def Directive.ofLetter? : Char → Option Directive
  | 'd' => some .day
  | 'm' => some .month
  | 'Y' => some .year
  | 'y' => some .shortYear
  | 'j' => some .dayOfYear
  | 'H' => some .hour
  | 'I' => some .hour12
  | 'p' => some .halfDay
  | 'M' => some .minute
  | 'S' => some .second
  | 'f' => some .micros
  | 'A' => some .weekday
  | 'a' => some .shortWeekday
  | 'w' => some .weekdayFromSunday
  | 'u' => some .weekdayFromMonday
  | 'B' => some .monthName
  | 'b' => some .shortMonthName
  | 'U' => some .weekFromSunday
  | 'W' => some .weekFromMonday
  | 'G' => some .isoYear
  | 'V' => some .isoWeek
  | 'z' => some .offset
  | 'Z' => some .zone
  | _ => none

/-- One element of a layout: a character that stands for itself, blanks, or a directive. -/
inductive Item where
  | literal (c : Char)
  | blanks
  | directive (d : Directive)
  deriving DecidableEq, Repr

/-- A layout with the abbreviations for a clock and for a date written out. They are replaced as
plain text, wherever their two characters stand. -/
def expand (layout : String) : List Char :=
  let cs := replaceAll "%T".toList "%H:%M:%S".toList layout.toList
  replaceAll "%F".toList "%Y-%m-%d".toList cs

/-- The layouts that three further letters stand for: date and clock, date, and clock. -/
def compound? : Char → Option (List Char)
  | 'c' => some "%a %b %d %H:%M:%S %Y".toList
  | 'x' => some "%m/%d/%y".toList
  | 'X' => some "%H:%M:%S".toList
  | _ => none

def expandCompounds : List Char → List Char
  | '%' :: c :: rest => (compound? c).getD ['%', c] ++ expandCompounds rest
  | c :: rest => c :: expandCompounds rest
  | [] => []

/-- The items of a layout without compounds. A run of blanks is one item, and two percent signs
stand for one. `none` when a percent sign has no directive behind it. -/
def plainItems? : List Char → Option (List Item)
  | [] => some []
  | '%' :: '%' :: rest => (plainItems? rest).map (.literal '%' :: ·)
  | '%' :: c :: rest => do
    let d ← Directive.ofLetter? c
    let items ← plainItems? rest
    return .directive d :: items
  | ['%'] => none
  | c :: rest => do
    let items ← plainItems? rest
    if isBlank c then
      match items with
      | .blanks :: _ => return items
      | _ => return .blanks :: items
    else return .literal c :: items

def items? (layout : String) : Option (List Item) := plainItems? (expandCompounds (expand layout))

/-- The directives of a layout, in order. -/
def directives (items : List Item) : List Directive :=
  items.filterMap fun
    | .directive d => some d
    | _ => none

end PanelSearch.Layout
