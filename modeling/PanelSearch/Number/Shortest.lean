import PanelSearch.Number.Double

/-! The shortest decimal that reads back as a given double: the first decimal grid, from one digit
on, with a point between the midpoints to the two neighbouring doubles. -/

namespace PanelSearch.Double

/-- A magnitude written as `coefficient * 10 ^ exponent`. -/
structure Decimal where
  coefficient : Nat
  exponent : Int
  deriving DecidableEq, Repr

/-- The number of decimal digits of a number, one for zero. -/
def digitCount (n : Nat) : Nat := (Nat.toDigits 10 n).length

def scale : Nat := tenPow 350

/-- The reals that read back as one double, and the double itself, in units of `2 ^ -1076` divided
by `scale`. The ends belong to it when the significand is even. -/
structure Basin where
  low : Nat
  centre : Nat
  high : Nat
  closed : Bool

/-- The reals that round to a magnitude of `m * 2 ^ s` units: the midpoint below a power of two is
nearer, as the doubles below it are twice as dense. -/
def basin (m s : Nat) : Basin :=
  let unit := twoPow s * scale
  let below := if m = twoPow 52 ∧ 0 < s then 4 * m - 1 else 4 * m - 2
  { low := below * unit, centre := 4 * m * unit, high := (4 * m + 2) * unit, closed := m % 2 == 0 }

def Basin.holds (b : Basin) (x : Nat) : Bool :=
  if b.closed then b.low ≤ x && x ≤ b.high else b.low < x && x < b.high

/-- The grid of multiples of `10 ^ exponent`: of the two neighbours of the centre, the one in the
basin, the nearer of two, and the even one when both are as near. -/
def Basin.onGrid (b : Basin) (exponent : Int) : Option Decimal :=
  let step := tenPow (exponent + 350).toNat * twoPow 1076
  let a := b.centre / step
  let below := b.holds (a * step)
  let above := b.holds ((a + 1) * step)
  let rest := 2 * (b.centre % step)
  if below && (!above || rest < step || (rest == step && a % 2 == 0)) then some ⟨a, exponent⟩
  else if above then some ⟨a + 1, exponent⟩
  else none

/-- The position of the decimal point of a positive magnitude of `units` units, counted from its
first digit: `10 ^ (p - 1) ≤ x < 10 ^ p`. -/
def pointPosition (units : Nat) : Int :=
  digitCount (units * tenPow 340 / unitsPerOne) - 340

/-- A decimal without zeros at the end of its coefficient; `fuel` bounds the zeros removed. -/
def Decimal.trimZeros : Nat → Decimal → Decimal
  | 0, d => d
  | fuel + 1, d =>
    if d.coefficient ≠ 0 ∧ d.coefficient % 10 = 0 then
      trimZeros fuel ⟨d.coefficient / 10, d.exponent + 1⟩
    else d

/-- The shortest decimal that reads back as a positive magnitude of `m * 2 ^ s` units, the nearest
of those. Seventeen digits always suffice. -/
def shortest (m s : Nat) : Decimal :=
  let position := pointPosition (m * twoPow s)
  let b := basin m s
  match (List.range 17).findSome? fun i => b.onGrid (position - (i + 1 : Nat)) with
  | some d => d.trimZeros 20
  | none => ⟨m * twoPow s / unitsPerOne, 0⟩

end PanelSearch.Double
