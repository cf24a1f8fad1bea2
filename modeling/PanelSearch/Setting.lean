import PanelSearch.Json.Display
import PanelSearch.Number.Numeral

/-! Settings as dashboards store them: numbers that may be spelled as texts, and texts that may be
spelled as numbers. -/

namespace PanelSearch.Setting

/-- An integer, or a double without a fraction. -/
def whole? : Json → Option Int
  | .int n => some n
  | .double d => d.toInt?
  | _ => none

/-- A whole number, or a numeral with any blanks around it. -/
def integer? : Json → Option Int
  | .str s => Numeral.int? (Text.strip s.toList)
  | j => whole? j

/-- An integer setting: what is none falls back to the default, and so does a zero if it stands for
the default. -/
def integer (value : Json) (default : Int) (zeroIsDefault : Bool) : Int :=
  match integer? value with
  | some n => if n = 0 ∧ zeroIsDefault then default else n
  | none => default

/-- A field that holds a text: null is empty, and a double without a fraction is an integer. -/
def fieldText : Json → String
  | .null => ""
  | .double d =>
    match d.toInt? with
    | some n => String.ofList (intText n)
    | none => (Json.double d).label
  | j => j.label

end PanelSearch.Setting
