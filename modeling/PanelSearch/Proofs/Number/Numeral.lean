import PanelSearch.Proofs.Number.Decimal
import PanelSearch.Proofs.Number.Integer

/-! What is read as an integer: a run of decimal digits of any script behind at most one sign, and a
double whose units are those of the integer. -/

namespace PanelSearch

open Text

namespace Text

/-- The blank characters, one by one. -/
def blankCodes : List Nat := [
  0x09, 0x0A, 0x0B, 0x0C, 0x0D, 0x1C, 0x1D, 0x1E, 0x1F, 0x20, 0x85, 0xA0, 0x1680, 0x2000, 0x2001,
  0x2002, 0x2003, 0x2004, 0x2005, 0x2006, 0x2007, 0x2008, 0x2009, 0x200A, 0x2028, 0x2029, 0x202F,
  0x205F, 0x3000]

theorem toNat_mem_blankCodes {c : Char} (h : isBlank c = true) : c.toNat ∈ blankCodes := by
  simp only [isBlank, Bool.or_eq_true, Bool.and_eq_true, decide_eq_true_eq, beq_iff_eq] at h
  simp only [blankCodes, List.mem_cons, List.not_mem_nil, or_false]
  omega

/-- No digit character of any script is blank. -/
theorem not_isBlank_of_isDigit {c : Char} (h : isDigit c = true) : isBlank c = false := by
  have hall : ∀ n ∈ blankCodes, isDigit (Char.ofNat n) = false := by decide +kernel
  refine Bool.eq_false_iff.mpr fun hblank => ?_
  have hnone := hall _ (toNat_mem_blankCodes hblank)
  rw [Char.ofNat_toNat, h] at hnone
  cases hnone

theorem trim_eq_self {p : Char → Bool} {cs : List Char} (hne : cs ≠ [])
    (h : ∀ c ∈ cs, p c = false) : trim p cs = cs := by
  have htrim : trim p ([] ++ cs ++ []) = cs := trim_append (by simp) (by simp) hne
    (fun c hc => h c (List.mem_of_mem_head? hc)) (fun c hc => h c (List.mem_of_getLast? hc))
  simpa using htrim

end Text

namespace Numeral

/-- The number that decimal digits stand for. -/
def valueOf (ds : List Char) : Nat := ofDigits (ds.filterMap decimalDigit?)

section Digits

variable {cs : List Char}

theorem moreDigits_cons {c : Char} (h : c ≠ '_') (cs : List Char) : moreDigits (c :: cs) =
    match decimalDigit? c with
    | some d => (d :: (moreDigits cs).1, (moreDigits cs).2)
    | none => ([], c :: cs) := by
  have hmark : ∀ (d : Char) (rest : List Char), c = '_' → cs = d :: rest → False :=
    fun _ _ hc _ => h hc
  refine (moreDigits.eq_3 c cs hmark).trans ?_
  cases decimalDigit? c <;> rfl

/-- Without underscores the digits of a run stand next to each other. -/
theorem moreDigits_eq (h : '_' ∉ cs) : moreDigits cs =
    ((cs.takeWhile isDecimalDigit).filterMap decimalDigit?, cs.dropWhile isDecimalDigit) := by
  induction cs with
  | nil => rfl
  | cons c cs ih =>
    rw [List.mem_cons, not_or] at h
    rw [moreDigits_cons (Ne.symm h.1), ih h.2]
    cases hc : decimalDigit? c with
    | none => simp [isDecimalDigit, hc]
    | some d => simp [isDecimalDigit, hc]

theorem digits_eq (h : '_' ∉ cs) : digits cs =
    ((cs.takeWhile isDecimalDigit).filterMap decimalDigit?, cs.dropWhile isDecimalDigit) := by
  cases cs with
  | nil => rfl
  | cons c cs =>
    rw [List.mem_cons, not_or] at h
    rw [← moreDigits_eq (List.not_mem_cons_of_ne_of_not_mem h.1 h.2),
      moreDigits_cons (Ne.symm h.1)]
    rfl

end Digits

section Signs

variable {text body : List Char} {negative : Bool}

/-- Behind a sign, nothing but decimal digits is an integer, unless they are too many. -/
theorem intWithin?_of_sign {maxDigits : Option Nat}
    (hsign : sign (trim isMargin text) = (negative, body)) (hplain : '_' ∉ body)
    (hne : body ≠ []) : intWithin? maxDigits text =
      if body.all isDecimalDigit ∧ Limits.allows maxDigits body.length then
        some (if negative then -(valueOf body : Int) else valueOf body)
      else none := by
  unfold intWithin?
  simp only [hsign, digits_eq hplain]
  by_cases hall : body.all isDecimalDigit = true
  · have hdecimal := List.all_eq_true.mp hall
    have htake : body.takeWhile isDecimalDigit = body := List.takeWhile_eq_self_iff.mpr hdecimal
    have hdrop : body.dropWhile isDecimalDigit = [] := List.dropWhile_eq_nil_iff.mpr hdecimal
    have hlength : (body.filterMap decimalDigit?).length = body.length :=
      List.filterMap_length_eq_length.mpr hdecimal
    simp only [htake, hdrop, hall, true_and, valueOf]
    cases hds : body.filterMap decimalDigit? with
    | nil =>
      rw [hds] at hlength
      exact absurd (List.eq_nil_of_length_eq_zero hlength.symm) hne
    | cons d ds => rw [← hlength, hds]
  · rw [if_neg fun h => hall h.1]
    cases hdrop : body.dropWhile isDecimalDigit with
    | nil => exact absurd (List.all_eq_true.mpr (List.dropWhile_eq_nil_iff.mp hdrop)) hall
    | cons c rest =>
      cases (body.takeWhile isDecimalDigit).filterMap decimalDigit? with
      | nil => rfl
      | cons d ds => rfl

end Signs

end Numeral

namespace Double

/-- A double equals an integer: it has the units of the integer, and its sign. A zero has either
sign. -/
def Equals : Double → Int → Prop
  | finite negative significand shift _, n =>
    significand * twoPow shift = n.natAbs * unitsPerOne ∧ (if negative then n ≤ 0 else 0 ≤ n)
  | _, _ => False

theorem toInt?_eq_some_iff {d : Double} {n : Int} : d.toInt? = some n ↔ d.Equals n := by
  cases d with
  | infinite negative => simp [toInt?, Equals]
  | nan => simp [toInt?, Equals]
  | finite negative significand shift canonical =>
    have hpos := unitsPerOne_pos
    simp only [toInt?, truncate?, Equals]
    generalize unitsPerOne = units at hpos
    generalize significand * twoPow shift = whole
    constructor
    · intro h
      split at h
      · next hmod =>
        have hwhole : whole / units * units = whole :=
          Nat.div_mul_cancel (Nat.dvd_of_mod_eq_zero hmod)
        have hn := Option.some.inj h
        generalize whole / units = quotient at hwhole hn
        cases negative with
        | true =>
          rw [if_pos rfl] at hn ⊢
          have habs : n.natAbs = quotient := by omega
          exact ⟨by rw [habs, hwhole], by omega⟩
        | false =>
          rw [if_neg Bool.false_ne_true] at hn ⊢
          have habs : n.natAbs = quotient := by omega
          exact ⟨by rw [habs, hwhole], by omega⟩
      · cases h
    · rintro ⟨rfl, hsign⟩
      rw [if_pos (Nat.mul_mod_left _ _), Nat.mul_div_cancel _ hpos]
      cases negative with
      | true =>
        rw [if_pos rfl] at hsign ⊢
        exact congrArg some (by omega)
      | false =>
        rw [if_neg Bool.false_ne_true] at hsign ⊢
        exact congrArg some (by omega)

end Double

end PanelSearch
