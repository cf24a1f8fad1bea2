import Mathlib.Algebra.Group.Nat.Defs
import PanelSearch.Number.Double
import PanelSearch.Time.Instant

/-! Integers of at most 53 bits are doubles: reading one as a double and dropping its fraction gives
it back, and no longer integer is rounded to one of them. The epoch milliseconds of the calendar are
among them. -/

namespace PanelSearch

namespace Double

theorem roundHalfEven_mul (m : Nat) {d : Nat} (hd : 0 < d) : roundHalfEven (m * d) d = m := by
  have hlow : m * d / d = m := Nat.mul_div_cancel m hd
  have hrest : m * d % d = 0 := Nat.mul_mod_left m d
  simp [roundHalfEven, hlow, hrest, hd]

theorem log2_mul_twoPow {m : Nat} (hm : m ≠ 0) (e : Nat) : (m * 2 ^ e).log2 = m.log2 + e := by
  have hpos : m * 2 ^ e ≠ 0 := Nat.mul_ne_zero hm (Nat.ne_of_gt (Nat.two_pow_pos e))
  rw [Nat.log2_eq_iff hpos]
  constructor
  · rw [Nat.pow_add]
    exact Nat.mul_le_mul_right _ (Nat.log2_self_le hm)
  · rw [Nat.add_right_comm, Nat.pow_add]
    exact Nat.mul_lt_mul_of_pos_right Nat.lt_log2_self (Nat.two_pow_pos e)

/-- The significand of a small magnitude is the magnitude with its highest bit in the first of 53
places. -/
theorem significand_bounds {m : Nat} (hm : m ≠ 0) (hlt : m < 2 ^ 53) :
    m.log2 ≤ 52 ∧ 2 ^ 52 ≤ m * 2 ^ (52 - m.log2) ∧ m * 2 ^ (52 - m.log2) < 2 ^ 53 := by
  have hlog : m.log2 ≤ 52 := Nat.le_of_lt_succ ((Nat.log2_lt hm).mpr hlt)
  have hsplit : ∀ j, 2 ^ (m.log2 + j) * 2 ^ (52 - m.log2) = 2 ^ (52 + j) := by
    intro j
    rw [← Nat.pow_add]
    congr 1
    omega
  refine ⟨hlog, ?_, ?_⟩
  · rw [← hsplit 0]
    exact Nat.mul_le_mul_right _ (Nat.log2_self_le hm)
  · rw [← hsplit 1]
    exact Nat.mul_lt_mul_of_pos_right Nat.lt_log2_self (Nat.two_pow_pos _)

theorem twoPow_eq (e : Nat) : twoPow e = 2 ^ e := Nat.pow_eq

theorem unitsPerOne_eq_twoPow : unitsPerOne = twoPow 1074 := by
  delta unitsPerOne
  exact Eq.refl _

/-- The units are a power whose exponent may stay a variable, so that nothing evaluates it. -/
theorem exists_unitsPerOne_eq : ∃ e, e = 1074 ∧ unitsPerOne = 2 ^ e :=
  ⟨1074, rfl, unitsPerOne_eq_twoPow.trans (twoPow_eq 1074)⟩

theorem unitsPerOne_pos : 0 < unitsPerOne := by
  obtain ⟨e, -, hone⟩ := exists_unitsPerOne_eq
  rw [hone]
  exact Nat.two_pow_pos e

theorem ofRatio_one {m : Nat} (hlt : m < 2 ^ 53) (negative : Bool) :
    ∃ significand shift canonical,
      ofRatio negative m 1 = .finite negative significand shift canonical ∧
        significand * twoPow shift = m * unitsPerOne := by
  obtain ⟨e, he, hone⟩ := exists_unitsPerOne_eq
  rw [ofRatio, hone]
  by_cases hm : m = 0
  · subst hm
    refine ⟨0, 0, by decide, ?_, by rw [Nat.zero_mul, Nat.zero_mul]⟩
    rw [Nat.zero_mul]
    rfl
  obtain ⟨hlog, hlow, hhigh⟩ := significand_bounds hm hlt
  have hshift : (m * 2 ^ e / 1).log2 - 52 = m.log2 + (e - 52) := by
    rw [Nat.div_one, log2_mul_twoPow hm]
    omega
  have hexponent : 52 - m.log2 + (m.log2 + (e - 52)) = e := by omega
  have hunits : m * 2 ^ e = m * 2 ^ (52 - m.log2) * twoPow (m.log2 + (e - 52)) := by
    rw [Nat.mul_assoc, twoPow_eq, ← Nat.pow_add, hexponent]
  have hround : roundHalfEven (m * 2 ^ e) (1 * twoPow (m.log2 + (e - 52))) =
      m * 2 ^ (52 - m.log2) := by
    rw [hunits, Nat.one_mul]
    exact roundHalfEven_mul _ (Nat.two_pow_pos _)
  have hcanonical : Canonical (m * 2 ^ (52 - m.log2)) (m.log2 + (e - 52)) :=
    ⟨hhigh, .inr hlow, by omega⟩
  refine ⟨_, _, hcanonical, ?_, hunits.symm⟩
  have hne : m * 2 ^ (52 - m.log2) ≠ twoPow 53 := Nat.ne_of_lt hhigh
  simp only [hshift, hround, if_neg hne, ofUnits, dif_pos hcanonical]

theorem ofRatio_bounded {m : Nat} (hlt : m < 2 ^ 53) (negative : Bool) :
    ∃ d, (ofRatio negative m 1).bounded? = some d ∧
      d.truncate? = some (if negative then -(m : Int) else m) := by
  obtain ⟨significand, shift, canonical, hratio, hunits⟩ := ofRatio_one hlt negative
  refine ⟨.finite negative significand shift canonical, by rw [hratio]; rfl, ?_⟩
  have hwhole : significand * twoPow shift / unitsPerOne = m := by
    rw [hunits]
    exact Nat.mul_div_cancel _ unitsPerOne_pos
  rw [truncate?, hwhole]

/-- A small integer is a double, whose whole part it is. -/
theorem ofInt?_truncate {n : Int} (h : n.natAbs < 2 ^ 53) :
    ∃ d, ofInt? n = some d ∧ d.truncate? = some n := by
  cases n with
  | ofNat m => exact ofRatio_bounded h false
  | negSucc m => exact ofRatio_bounded h true

theorem div_le_roundHalfEven (num den : Nat) : num / den ≤ roundHalfEven num den := by
  unfold roundHalfEven
  simp only
  split
  · exact Nat.le_refl _
  · split <;> omega

theorem ofUnits_eq_finite {negative negative' : Bool} {s s' k k' : Nat}
    {canonical : Canonical s' k'} (h : ofUnits negative s k = .finite negative' s' k' canonical) :
    s' = s ∧ k' = k := by
  unfold ofUnits at h
  split at h
  · cases h
    exact ⟨rfl, rfl⟩
  · cases h

/-- Rounding does not lead from the integers of more than 53 bits to those of at most 53. -/
theorem le_of_ofRatio_eq_finite {m : Nat} (hle : 2 ^ 53 ≤ m) {negative negative' : Bool}
    {significand shift : Nat} {canonical : Canonical significand shift}
    (h : ofRatio negative m 1 = .finite negative' significand shift canonical) :
    2 ^ 53 * unitsPerOne ≤ significand * twoPow shift := by
  obtain ⟨e, he, hone⟩ := exists_unitsPerOne_eq
  have hm : m ≠ 0 := by
    rintro rfl
    exact absurd hle (by decide)
  have hlog : 53 ≤ m.log2 := (Nat.le_log2 hm).mpr hle
  have hshift : (m * 2 ^ e / 1).log2 - 52 = m.log2 + (e - 52) := by
    rw [Nat.div_one, log2_mul_twoPow hm]
    omega
  have hexponent : 52 + (m.log2 + (e - 52)) = m.log2 + e := by omega
  have hlow : 2 ^ 52 ≤ roundHalfEven (m * 2 ^ e) (1 * twoPow (m.log2 + (e - 52))) := by
    refine Nat.le_trans ?_ (div_le_roundHalfEven _ _)
    rw [Nat.one_mul, twoPow_eq, Nat.le_div_iff_mul_le (Nat.two_pow_pos _), ← Nat.pow_add, hexponent,
      Nat.pow_add]
    exact Nat.mul_le_mul_right _ (Nat.log2_self_le hm)
  have hbound : ∀ s k, 2 ^ 52 ≤ s → m.log2 + (e - 52) ≤ k → 2 ^ 53 * 2 ^ e ≤ s * twoPow k := by
    intro s k hs hk
    rw [twoPow_eq, ← Nat.pow_add]
    calc 2 ^ (53 + e) ≤ 2 ^ (52 + k) := Nat.pow_le_pow_right (by decide) (by omega)
      _ = 2 ^ 52 * 2 ^ k := Nat.pow_add ..
      _ ≤ s * 2 ^ k := Nat.mul_le_mul_right _ hs
  rw [ofRatio, hone] at h
  simp only [hshift] at h
  rw [hone]
  split at h
  · obtain ⟨rfl, rfl⟩ := ofUnits_eq_finite h
    exact hbound _ _ (Nat.le_of_eq (twoPow_eq 52).symm) (Nat.le_succ _)
  · obtain ⟨rfl, rfl⟩ := ofUnits_eq_finite h
    exact hbound _ _ hlow (Nat.le_refl _)

theorem natAbs_le_of_ofRatio {m : Nat} (hle : 2 ^ 53 ≤ m) {negative : Bool} {d : Double}
    (h : (ofRatio negative m 1).bounded? = some d) {k : Int} (hk : d.truncate? = some k) :
    2 ^ 53 ≤ k.natAbs := by
  cases hratio : ofRatio negative m 1 with
  | finite negative' significand shift canonical =>
    rw [hratio] at h
    cases h
    have hunits := le_of_ofRatio_eq_finite hle hratio
    have hwhole : 2 ^ 53 ≤ significand * twoPow shift / unitsPerOne :=
      (Nat.le_div_iff_mul_le unitsPerOne_pos).mpr hunits
    have hsign : ∀ w : Nat, (if negative' = true then -(w : Int) else w).natAbs = w := by
      intro w
      cases negative' <;> simp
    rw [truncate?] at hk
    rw [← Option.some.inj hk, hsign]
    exact hwhole
  | infinite negative' => rw [hratio] at h; cases h
  | nan => rw [hratio] at h; cases h; cases hk

/-- Where the whole part of the double of an integer is small, it is the integer. -/
theorem eq_of_ofInt?_truncate {n : Int} {d : Double} (h : ofInt? n = some d) {k : Int}
    (hk : d.truncate? = some k) (hlt : k.natAbs < 2 ^ 53) : k = n := by
  have hsmall : n.natAbs < 2 ^ 53 := by
    refine Nat.lt_of_not_le fun hle => absurd hlt (Nat.not_lt.mpr ?_)
    cases n with
    | ofNat m => exact natAbs_le_of_ofRatio hle h hk
    | negSucc m => exact natAbs_le_of_ofRatio hle h hk
  obtain ⟨d', hd, htruncate⟩ := ofInt?_truncate hsmall
  rw [h] at hd
  cases hd
  rw [hk] at htruncate
  exact Option.some.inj htruncate

end Double

theorem inCalendar_eq_true_iff {ns : Int} :
    inCalendar ns = true ↔ -62135596800000000000 ≤ ns ∧ ns < 253402300800000000000 := by
  rw [inCalendar, Bool.and_eq_true, decide_eq_true_iff, decide_eq_true_iff]
  rfl

namespace Instant

theorem ofNanos?_eq_some_iff {ns : Int} {t : Instant} :
    ofNanos? ns = some t ↔ t.micros = ns / 1000 := by
  unfold ofNanos?
  constructor
  · intro h
    split at h
    · cases h
      rfl
    · cases h
  · intro h
    obtain ⟨micros, hin⟩ := t
    obtain rfl : micros = ns / 1000 := h
    rw [dif_pos hin]

theorem exists_ofNanos? {ns : Int} (h : PanelSearch.inCalendar ns = true) :
    ∃ t, ofNanos? ns = some t := by
  have hfloor : PanelSearch.inCalendar (ns / 1000 * 1000) = true := by
    rw [inCalendar_eq_true_iff] at h ⊢
    omega
  exact ⟨⟨ns / 1000, hfloor⟩, ofNanos?_eq_some_iff.mpr rfl⟩

/-- The instants of the calendar are few enough to be counted in doubles. -/
theorem natAbs_lt_of_ofNanos? {ms : Int} {t : Instant}
    (h : ofNanos? (ms * 1000000) = some t) : ms.natAbs < 2 ^ 53 := by
  have hmicros := ofNanos?_eq_some_iff.mp h
  have hin := inCalendar_eq_true_iff.mp t.inCalendar
  omega

end Instant

end PanelSearch
