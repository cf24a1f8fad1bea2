import Mathlib.Algebra.GroupWithZero.Nat
import Mathlib.Data.List.Basic
import Mathlib.Data.List.TakeWhile
import PanelSearch.Number.Numeral
import PanelSearch.Number.Text
import PanelSearch.Proofs.Text.Trim

/-! Numbers of a fixed width are read back from their digits, also where the zeros behind them are
cut off. -/

namespace PanelSearch

open Text

theorem isDigit_iff {c : Char} : c.isDigit = true ↔ 0x30 ≤ c.toNat ∧ c.toNat ≤ 0x39 := by
  rw [Char.isDigit, Bool.and_eq_true, decide_eq_true_eq, decide_eq_true_eq]
  exact Iff.rfl

theorem decimalDigit?_of_isDigit {c : Char} (h : c.isDigit = true) :
    decimalDigit? c = some (c.toNat - 0x30) := by
  have hrange := isDigit_iff.mp h
  have hlt : c.toNat < 0x80 := Nat.lt_of_le_of_lt hrange.2 (by decide)
  rw [decimalDigit?, if_pos hlt]
  exact if_pos hrange

theorem isDecimalDigit_of_isDigit {c : Char} (h : c.isDigit = true) : isDecimalDigit c = true := by
  rw [isDecimalDigit, decimalDigit?_of_isDigit h]
  rfl

theorem isBlank_of_isDigit {c : Char} (h : c.isDigit = true) : isBlank c = false := by
  have hrange := isDigit_iff.mp h
  simp only [isBlank, Bool.or_eq_false_iff, Bool.and_eq_false_iff, decide_eq_false_iff_not,
    beq_eq_false_iff_ne]
  omega

/-- A text does not begin with a blank. -/
def NoBlankHead (cs : List Char) : Prop := ∀ c, cs.head? = some c → isBlank c = false

theorem NoBlankHead.append {cs : List Char} (h : NoBlankHead cs) (hne : cs ≠ [])
    (rest : List Char) : NoBlankHead (cs ++ rest) := by
  intro c hc
  rw [List.head?_append_of_ne_nil _ hne] at hc
  exact h c hc

theorem intText_natCast (n : Nat) : intText n = natText n := rfl

/-- A text is a number in digits, of which it has so many. -/
structure Digits (width n : Nat) (cs : List Char) : Prop where
  length : cs.length = width
  digits : ∀ c ∈ cs, c.isDigit = true
  value : Nat.ofDigitChars 10 cs 0 = n

theorem Digits.ofDigits_map {width n : Nat} {cs : List Char} (h : Digits width n cs) :
    Numeral.ofDigits (cs.map (·.toNat - 0x30)) = n := by
  rw [Numeral.ofDigits, List.foldl_map]
  exact h.value

theorem Digits.filterMap_eq {width n : Nat} {cs : List Char} (h : Digits width n cs) :
    cs.filterMap decimalDigit? = cs.map (·.toNat - 0x30) := by
  rw [← List.filterMap_eq_map]
  exact List.filterMap_congr fun c hc => decimalDigit?_of_isDigit (h.digits c hc)

theorem Digits.noBlankHead {width n : Nat} {cs : List Char} (h : Digits width n cs) :
    NoBlankHead cs :=
  fun c hc => isBlank_of_isDigit (h.digits c (List.mem_of_mem_head? hc))

theorem Digits.lt {width n : Nat} {cs : List Char} (h : Digits width n cs) : n < 10 ^ width := by
  obtain ⟨rfl, hdigits, rfl⟩ := h
  induction cs with
  | nil => exact Nat.zero_lt_one
  | cons c cs ih =>
    have hc := isDigit_iff.mp (hdigits c List.mem_cons_self)
    have hrest := ih fun c hc => hdigits c (List.mem_cons_of_mem _ hc)
    have hfirst : 10 ^ cs.length * (c.toNat - '0'.toNat) ≤ 10 ^ cs.length * 9 :=
      Nat.mul_le_mul_left _ (Nat.sub_le_iff_le_add.mpr hc.2)
    rw [Nat.ofDigitChars_cons, Nat.ofDigitChars_eq_ofDigitChars_zero, List.length_cons,
      Nat.pow_succ, Nat.mul_zero, Nat.zero_add]
    omega

theorem digits_natText (n : Nat) : Digits (natText n).length n (natText n) where
  length := rfl
  digits _ hc := Nat.isDigit_of_mem_toDigits (by decide) (by decide) hc
  value := Nat.ofDigitChars_toDigits (by decide) (by decide)

theorem natText_ne_nil (n : Nat) : natText n ≠ [] := Nat.toDigits_ne_nil

theorem length_natText_le_iff {n width : Nat} (hwidth : 0 < width) :
    (natText n).length ≤ width ↔ n < 10 ^ width :=
  Nat.length_toDigits_le_iff (by decide) hwidth

/-- Without zeros in front a number has as many digits as its magnitude tells. -/
theorem digits_natText_of_le {width n : Nat} (hwidth : 1 < width) (hlow : 10 ^ (width - 1) ≤ n)
    (hhigh : n < 10 ^ width) : Digits width n (natText n) := by
  have hle := (length_natText_le_iff (Nat.lt_of_succ_lt hwidth)).mpr hhigh
  have hgt := mt (length_natText_le_iff (Nat.sub_pos_of_lt hwidth)).mp (Nat.not_lt_of_le hlow)
  have hlength : (natText n).length = width := by omega
  exact hlength ▸ digits_natText n

theorem ofDigitChars_zeros (k : Nat) (cs : List Char) :
    Nat.ofDigitChars 10 (List.replicate k '0' ++ cs) 0 = Nat.ofDigitChars 10 cs 0 := by
  induction k with
  | zero => rfl
  | succ k ih => rw [List.replicate_succ, List.cons_append, Nat.ofDigitChars_cons]; exact ih

theorem digits_padded {width n : Nat} (hwidth : 0 < width) (h : n < 10 ^ width) :
    Digits width n (padded width n) where
  length := by
    have hlength := (length_natText_le_iff hwidth).mpr h
    rw [padded, List.length_append, List.length_replicate]
    omega
  digits c hc := by
    rcases List.mem_append.mp hc with hc | hc
    · rw [List.eq_of_mem_replicate hc]
      rfl
    · exact (digits_natText n).digits c hc
  value := (ofDigitChars_zeros _ _).trans (digits_natText n).value

/-- The zeros that are cut off behind a number are those that its width calls for. -/
theorem Digits.eq_trimEnd_append {width n : Nat} {cs : List Char} (h : Digits width n cs) :
    cs = trimEnd (· == '0') cs ++
      List.replicate (width - (trimEnd (· == '0') cs).length) '0' := by
  obtain ⟨rest, hcs, hrest⟩ := trimEnd_append (· == '0') cs
  have hlength := h.length
  generalize trimEnd (· == '0') cs = ds at hcs
  have hzeros : rest = List.replicate (width - ds.length) '0' := by
    rw [hcs, List.length_append] at hlength
    refine List.eq_replicate_iff.mpr ⟨by omega, fun c hc => ?_⟩
    simpa using hrest c hc
  rw [hcs, hzeros]

end PanelSearch
