import PanelSearch.Number.Shortest

/-! The written form of numbers: integers in full, doubles with the fewest digits that read back. -/

namespace PanelSearch

def natText (n : Nat) : List Char := Nat.toDigits 10 n

def intText (n : Int) : List Char :=
  if n < 0 then '-' :: natText n.natAbs else natText n.natAbs

/-- A number's text with zeros in front, up to a width. -/
def padded (width n : Nat) : List Char :=
  let text := natText n
  List.replicate (width - text.length) '0' ++ text

/-- How doubles are laid out: where positional notation ends at either side, how wide an exponent
is at least, and what stands for the values that have no digits. -/
structure DoubleLayout where
  positionalFrom : Int
  positionalBelow : Int
  exponentWidth : Nat
  infinity : String
  notANumber : String

/-- Answers and labels are positional from `10 ^ -4` to below `10 ^ 16`, and their exponents have a
sign and at least two digits. -/
def DoubleLayout.plain : DoubleLayout := ⟨-4, 16, 2, "inf", "nan"⟩

/-- Encoded bodies differ in the words for what is no finite number. -/
def DoubleLayout.encoded : DoubleLayout :=
  { DoubleLayout.plain with infinity := "Infinity", notANumber := "NaN" }

/-- Digits with the point after the first `position` of them, zeros where there are none, and at
least one digit on either side. -/
def positional (digits : List Char) (position : Int) : List Char :=
  if position ≤ 0 then '0' :: '.' :: (List.replicate position.natAbs '0' ++ digits)
  else
    let whole := position.toNat
    let fraction := digits.drop whole
    digits.take whole ++ List.replicate (whole - digits.length) '0' ++
      '.' :: (if fraction.isEmpty then ['0'] else fraction)

/-- Digits with the point after the first of them, and the exponent that makes up for it. -/
def scientific (width : Nat) (digits : List Char) (exponent : Int) : List Char :=
  let fraction := digits.drop 1
  digits.take 1 ++ (if fraction.isEmpty then [] else '.' :: fraction) ++
    'e' :: (if exponent < 0 then '-' else '+') :: padded width exponent.natAbs

/-- The text of a double: always a point or an exponent. -/
def Double.text (layout : DoubleLayout) : Double → List Char
  | .nan => layout.notANumber.toList
  | .infinite negative => (if negative then ['-'] else []) ++ layout.infinity.toList
  | .finite negative m s _ =>
    let sign := if negative then ['-'] else []
    if m = 0 then sign ++ ['0', '.', '0']
    else
      let d := shortest m s
      let digits := natText d.coefficient
      let position : Int := d.exponent + digits.length
      let exponent := position - 1
      sign ++
        if layout.positionalFrom ≤ exponent ∧ exponent < layout.positionalBelow then
          positional digits position
        else scientific layout.exponentWidth digits exponent

end PanelSearch
