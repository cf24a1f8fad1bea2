import PanelSearch.Number.Power

/-! Double-precision numbers, exactly: a finite one is a whole number of units of `2 ^ -1074`, and
a ratio is rounded to the nearest one, a half going to the even neighbour. -/

namespace PanelSearch

/-- The significand and the shift that write a magnitude in the one way a double has: at most 53
bits, all of them in use unless the shift is zero, and no shift beyond the largest double. -/
def Double.Canonical (significand shift : Nat) : Prop :=
  significand < twoPow 53 ∧ (shift = 0 ∨ twoPow 52 ≤ significand) ∧ shift ≤ 2045

instance (significand shift : Nat) : Decidable (Double.Canonical significand shift) :=
  inferInstanceAs (Decidable (_ ∧ _ ∧ _))

/-- A double. A finite one is `significand * 2 ^ shift` units of `2 ^ -1074`, under its sign. -/
inductive Double where
  | finite (negative : Bool) (significand shift : Nat)
      (canonical : Double.Canonical significand shift)
  | infinite (negative : Bool)
  | nan
  deriving DecidableEq

namespace Double

/-- One, in the units that every double is a whole number of. -/
def unitsPerOne : Nat := twoPow 1074

def zero (negative : Bool) : Double := .finite negative 0 0 (by decide)

instance : Inhabited Double := ⟨zero false⟩

/-- A magnitude of a whole number of units; what is no canonical one lies beyond every double. -/
def ofUnits (negative : Bool) (significand shift : Nat) : Double :=
  if h : Canonical significand shift then .finite negative significand shift h
  else .infinite negative

/-- The whole number nearest to a ratio, a half going to the even neighbour. -/
def roundHalfEven (num den : Nat) : Nat :=
  let low := num / den
  let rest := num % den
  if 2 * rest < den then low else if den < 2 * rest then low + 1 else low + low % 2

/-- The double nearest to a ratio of the given sign; an infinity from the midpoint above the
largest double on. -/
def ofRatio (negative : Bool) (num den : Nat) : Double :=
  let units := num * unitsPerOne
  let shift := (units / den).log2 - 52
  let significand := roundHalfEven units (den * twoPow shift)
  if significand = twoPow 53 then ofUnits negative (twoPow 52) (shift + 1)
  else ofUnits negative significand shift

/-- The double nearest to `digits * 10 ^ exponent`. A magnitude outside `10 ^ -400` to `10 ^ 400`
is settled by its number of digits. -/
def ofDecimal (negative : Bool) (digits : Nat) (exponent : Int) : Double :=
  if digits = 0 then zero negative
  else
    let size := exponent + (Nat.toDigits 10 digits).length
    if 400 < size then .infinite negative
    else if size < -400 then zero negative
    else if 0 ≤ exponent then ofRatio negative (digits * tenPow exponent.toNat) 1
    else ofRatio negative digits (tenPow exponent.natAbs)

/-- The double itself, unless it is an infinity. -/
def bounded? : Double → Option Double
  | infinite _ => none
  | d => some d

/-- The double nearest to an integer, if it is finite. -/
def ofInt? : Int → Option Double
  | .ofNat m => (ofRatio false m 1).bounded?
  | .negSucc m => (ofRatio true (m + 1) 1).bounded?

def truncate? : Double → Option Int
  | finite negative significand shift _ =>
    let whole : Int := (significand * twoPow shift / unitsPerOne : Nat)
    some (if negative then -whole else whole)
  | _ => none

/-- A finite double without a fraction, as an integer. -/
def toInt? (d : Double) : Option Int :=
  match d with
  | finite _ significand shift _ =>
    if significand * twoPow shift % unitsPerOne = 0 then d.truncate? else none
  | _ => none

def isZero : Double → Bool
  | finite _ significand _ _ => significand == 0
  | _ => false

def isFinite : Double → Bool
  | finite .. => true
  | _ => false

end Double

end PanelSearch
