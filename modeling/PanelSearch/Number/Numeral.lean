import PanelSearch.Limits
import PanelSearch.Number.Double
import PanelSearch.Text.Blank
import PanelSearch.Text.Digit

/-! Numerals in free text: integers and decimals with digits of any script, single underscores
between digits, and blanks around. -/

namespace PanelSearch.Numeral

open Text

/-- The blanks that may stand around a numeral: all but the information separators. -/
def isMargin (c : Char) : Bool := isBlank c && !(0x1C ≤ c.toNat && c.toNat ≤ 0x1F)

/-- What follows a digit in a run of digits: more digits, with single underscores between them. -/
def moreDigits : List Char → List Nat × List Char
  | [] => ([], [])
  | '_' :: c :: rest =>
    match decimalDigit? c with
    | some d => let (ds, rest) := moreDigits rest; (d :: ds, rest)
    | none => ([], '_' :: c :: rest)
  | c :: rest =>
    match decimalDigit? c with
    | some d => let (ds, rest) := moreDigits rest; (d :: ds, rest)
    | none => ([], c :: rest)

/-- The longest run of digits at the front, with single underscores between digits. -/
def digits : List Char → List Nat × List Char
  | [] => ([], [])
  | c :: rest =>
    match decimalDigit? c with
    | some d => let (ds, rest) := moreDigits rest; (d :: ds, rest)
    | none => ([], c :: rest)

def ofDigits (ds : List Nat) : Nat := ds.foldl (fun n d => 10 * n + d) 0

/-- The sign at the front, and what follows it. -/
def sign : List Char → Bool × List Char
  | '-' :: rest => (true, rest)
  | '+' :: rest => (false, rest)
  | cs => (false, cs)

/-- The integer of a numeral that has no more digits than a limit allows, zeros in front counted. -/
def intWithin? (maxDigits : Option Nat) (text : List Char) : Option Int :=
  let (negative, body) := sign (trim isMargin text)
  match digits body with
  | ([], _) => none
  | (ds, []) =>
    if Limits.allows maxDigits ds.length then
      some (if negative then -(ofDigits ds : Int) else ofDigits ds)
    else none
  | _ => none

def int? (text : List Char) : Option Int := intWithin? Limits.standard.maxDigits text

/-- The exponent of a decimal numeral: zero when there is none. -/
def exponent? : List Char → Option Int
  | [] => some 0
  | c :: rest =>
    if c = 'e' ∨ c = 'E' then
      let (negative, body) := sign rest
      match digits body with
      | ([], _) => none
      | (ds, []) => some (if negative then -(ofDigits ds : Int) else ofDigits ds)
      | _ => none
    else none

/-- The words for values without digits, in any case. -/
def word? (negative : Bool) (body : List Char) : Option Double :=
  let word := body.map Char.toLower
  if word = "inf".toList ∨ word = "infinity".toList then some (.infinite negative)
  else if word = "nan".toList then some .nan
  else none

/-- The double nearest to a decimal numeral: digits with at most one point among or beside them,
and an optional exponent. -/
def double? (text : List Char) : Option Double :=
  let (negative, body) := sign (trim isMargin text)
  match word? negative body with
  | some d => some d
  | none =>
    let (whole, rest) := digits body
    let (fraction, rest) :=
      match rest with
      | '.' :: rest => digits rest
      | rest => ([], rest)
    if whole.isEmpty && fraction.isEmpty then none
    else do
      let exponent ← exponent? rest
      return .ofDecimal negative (ofDigits (whole ++ fraction)) (exponent - fraction.length)

end PanelSearch.Numeral
