import Mathlib.Algebra.Order.Field.Rat
import Mathlib.Tactic.FieldSimp
import Mathlib.Tactic.Ring
import PanelSearch.Duration
import PanelSearch.Proofs.Number.Decimal
import PanelSearch.Proofs.Number.Text

/-! Durations read back. The reader takes any text of the grammar: a sign or none, and then either
milliseconds, or seconds with a fraction or none behind hours and minutes, each of which may be left
out. What it reads in the text of an interval is that interval, in its normal form, so no two
intervals have one text. -/

namespace PanelSearch.Duration

/-- Seconds with the digits behind their point, and the larger units in front of them. -/
structure Clock where
  hours : Option Nat
  minutes : Option Nat
  seconds : Nat
  fraction : List Char
  deriving DecidableEq

inductive Magnitude where
  | millis (count : Nat)
  | clock (parts : Clock)
  deriving DecidableEq

/-- A duration as it is written. -/
structure Reading where
  negative : Bool
  magnitude : Magnitude
  deriving DecidableEq

/-- The number that digits denote behind a point. -/
def fractionValue (digits : List Char) : ℚ := Nat.ofDigitChars 10 digits 0 / 10 ^ digits.length

/-- The milliseconds of a clock, which need not be a whole number. -/
def Clock.value (c : Clock) : ℚ :=
  3600000 * c.hours.getD 0 + 60000 * c.minutes.getD 0 +
    1000 * (c.seconds + fractionValue c.fraction)

def Magnitude.value : Magnitude → ℚ
  | millis count => count
  | clock parts => parts.value

def Reading.value (r : Reading) : ℚ := if r.negative then -r.magnitude.value else r.magnitude.value

section Reader

/-- The number at the front of a text, with the text behind its digits. -/
def number? (cs : List Char) : Option (Nat × List Char) :=
  let digits := cs.takeWhile Char.isDigit
  if digits = [] then none else some (Nat.ofDigitChars 10 digits 0, cs.dropWhile Char.isDigit)

/-- The number of a unit at the front of a text, if it is there, with the text behind it. -/
def part (unit : Char) (cs : List Char) : Option Nat × List Char :=
  match number? cs with
  | some (n, c :: rest) => if c = unit then (some n, rest) else (none, cs)
  | _ => (none, cs)

/-- Seconds at the end of a text, with the digits behind their point. -/
def seconds? (cs : List Char) : Option (Nat × List Char) :=
  match number? cs with
  | some (n, ['s']) => some (n, [])
  | some (n, '.' :: rest) =>
    let digits := rest.takeWhile Char.isDigit
    if digits ≠ [] ∧ rest.dropWhile Char.isDigit = ['s'] then some (n, digits) else none
  | _ => none

def clock? (cs : List Char) : Option Clock :=
  let (hours, cs) := part 'h' cs
  let (minutes, cs) := part 'm' cs
  (seconds? cs).map fun (seconds, fraction) => ⟨hours, minutes, seconds, fraction⟩

def magnitude? (cs : List Char) : Option Magnitude :=
  match number? cs with
  | some (n, ['m', 's']) => some (.millis n)
  | _ => (clock? cs).map .clock

/-- What a text says, if it is the text of a duration. -/
def read? : List Char → Option Reading
  | '-' :: cs => (magnitude? cs).map (Reading.mk true)
  | cs => (magnitude? cs).map (Reading.mk false)

end Reader

/-- The normal form of a clock: a larger unit is written where it is needed and only there, the
smaller ones stay below it, and the fraction ends in no zero. -/
structure Clock.IsNormal (c : Clock) : Prop where
  hours : c.hours ≠ some 0
  minutes_of_hours : c.hours.isSome = true → c.minutes.isSome = true
  minutes : ∀ m ∈ c.minutes, m < 60 ∧ (m = 0 → c.hours.isSome = true)
  seconds : c.seconds < 60
  fraction : c.fraction.getLast? ≠ some '0'

section Numbers

theorem takeWhile_isDigit {width n : Nat} {ds : List Char} (h : Digits width n ds) {c : Char}
    (hc : c.isDigit = false) (rest : List Char) :
    (ds ++ c :: rest).takeWhile Char.isDigit = ds ∧
      (ds ++ c :: rest).dropWhile Char.isDigit = c :: rest := by
  rw [List.takeWhile_append_of_pos h.digits, List.dropWhile_append_of_pos h.digits,
    List.takeWhile_cons_of_neg (by simp [hc]), List.dropWhile_cons_of_neg (by simp [hc]),
    List.append_nil]
  exact ⟨rfl, rfl⟩

theorem number?_natText (n : Nat) {c : Char} (hc : c.isDigit = false) (rest : List Char) :
    number? (natText n ++ c :: rest) = some (n, c :: rest) := by
  obtain ⟨htake, hdrop⟩ := takeWhile_isDigit (digits_natText n) hc rest
  simp only [number?, htake, hdrop]
  rw [if_neg (natText_ne_nil n), (digits_natText n).value]

theorem part_natText (n : Nat) {unit : Char} (hunit : unit.isDigit = false) (rest : List Char) :
    part unit (natText n ++ unit :: rest) = (some n, rest) := by
  simp only [part, number?_natText n hunit, if_true]

/-- A number of another unit is left where it is. -/
theorem part_natText_of_ne (n : Nat) {unit c : Char} (hc : c.isDigit = false) (hne : c ≠ unit)
    (rest : List Char) : part unit (natText n ++ c :: rest) = (none, natText n ++ c :: rest) := by
  simp only [part, number?_natText n hc, if_neg hne]

end Numbers

section Seconds

/-- The digits behind the point of seconds with so many milliseconds. -/
def fractionDigits (millis : Nat) : List Char :=
  if millis = 0 then [] else Text.trimEnd (· == '0') (padded 3 millis)

variable {millis : Nat}

theorem isDigit_of_mem_fractionDigits (h : millis < 1000) :
    ∀ c ∈ fractionDigits millis, c.isDigit = true := by
  intro c hc
  unfold fractionDigits at hc
  split at hc
  · cases hc
  · have hpadded : Digits 3 millis (padded 3 millis) := digits_padded (by decide) h
    refine hpadded.digits c ?_
    rw [hpadded.eq_trimEnd_append]
    exact List.mem_append_left _ hc

/-- Cutting zeros off behind a point does not change the number. -/
theorem value_fractionDigits (h : millis < 1000) :
    1000 * fractionValue (fractionDigits millis) = millis := by
  by_cases hzero : millis = 0
  · subst hzero
    simp [fractionDigits, fractionValue]
  have hpadded : Digits 3 millis (padded 3 millis) := digits_padded (by decide) h
  have hsplit := hpadded.eq_trimEnd_append
  rw [fractionDigits, if_neg hzero]
  generalize Text.trimEnd (· == '0') (padded 3 millis) = digits at hsplit
  have hlength := hpadded.length
  have hvalue := hpadded.value
  rw [hsplit, List.length_append, List.length_replicate] at hlength
  rw [hsplit, Nat.ofDigitChars_append, Nat.ofDigitChars_replicate_zero] at hvalue
  have hpower : (1000 : ℚ) = 10 ^ digits.length * 10 ^ (3 - digits.length) := by
    rw [← pow_add, hlength]
    norm_num
  rw [fractionValue, ← hvalue, hpower]
  push_cast
  field_simp

theorem fractionDigits_ne_nil_iff (h : millis < 1000) :
    fractionDigits millis ≠ [] ↔ millis ≠ 0 := by
  constructor
  · rintro hne rfl
    exact hne rfl
  · intro hne hnil
    have hvalue := value_fractionDigits h
    rw [hnil, fractionValue, Nat.ofDigitChars_nil, Nat.cast_zero, zero_div, mul_zero] at hvalue
    exact hne (Nat.cast_eq_zero.mp hvalue.symm)

theorem getLast?_fractionDigits (millis : Nat) : (fractionDigits millis).getLast? ≠ some '0' := by
  unfold fractionDigits
  split
  · simp
  · intro hlast
    have hstop := List.head?_dropWhile_not (· == '0') (padded 3 millis).reverse
    rw [Text.trimEnd, List.getLast?_reverse] at hlast
    rw [hlast] at hstop
    exact absurd hstop (by decide)

theorem secondsText_eq (seconds : Nat) (h : millis < 1000) : secondsText seconds millis =
    natText seconds ++ if fractionDigits millis = [] then ['s']
      else '.' :: (fractionDigits millis ++ ['s']) := by
  by_cases hzero : millis = 0
  · subst hzero
    simp [secondsText, fractionDigits]
  · rw [if_neg ((fractionDigits_ne_nil_iff h).mpr hzero), secondsText, fractionDigits, if_neg hzero,
      if_neg hzero]
    simp

theorem seconds?_secondsText (seconds : Nat) (h : millis < 1000) :
    seconds? (secondsText seconds millis) = some (seconds, fractionDigits millis) := by
  rw [secondsText_eq seconds h]
  split
  · next hnil =>
    rw [seconds?, number?_natText seconds (by decide), hnil]
    rfl
  · next hne =>
    have hdigits : Digits (fractionDigits millis).length _ (fractionDigits millis) :=
      ⟨rfl, isDigit_of_mem_fractionDigits h, rfl⟩
    obtain ⟨htake, hdrop⟩ := takeWhile_isDigit hdigits (c := 's') (by decide) []
    have hpoint : Char.isDigit '.' = false := by decide
    simp only [seconds?, number?_natText seconds hpoint, htake, hdrop]
    exact if_pos ⟨hne, trivial⟩

/-- Behind the whole seconds stands their unit or a point, and no larger unit. -/
theorem exists_secondsText (seconds : Nat) (h : millis < 1000) : ∃ c rest,
    secondsText seconds millis = natText seconds ++ c :: rest ∧
      c.isDigit = false ∧ c ≠ 'h' ∧ c ≠ 'm' := by
  rw [secondsText_eq seconds h]
  split
  · exact ⟨'s', [], rfl, by decide⟩
  · exact ⟨'.', _, rfl, by decide⟩

end Seconds

section Characters

/-- A character that intervals are written with: a digit, a sign, a point or a letter of a unit. -/
def IsIntervalChar (c : Char) : Prop := c.isDigit = true ∨ c ∈ ['-', '.', 'h', 'm', 's']

instance (c : Char) : Decidable (IsIntervalChar c) := inferInstanceAs (Decidable (_ ∨ _))

variable {c : Char}

theorem isIntervalChar_of_mem_natText {n : Nat} (h : c ∈ natText n) : IsIntervalChar c :=
  .inl ((digits_natText n).digits c h)

theorem isIntervalChar_of_mem_quantity {n : Nat} {unit : Char} {rest : List Char}
    (hunit : IsIntervalChar unit) (hrest : c ∈ rest → IsIntervalChar c)
    (h : c ∈ natText n ++ unit :: rest) : IsIntervalChar c := by
  rw [List.mem_append, List.mem_cons] at h
  rcases h with h | rfl | h
  · exact isIntervalChar_of_mem_natText h
  · exact hunit
  · exact hrest h

theorem isIntervalChar_of_mem_secondsText {seconds millis : Nat} (hmillis : millis < 1000)
    (h : c ∈ secondsText seconds millis) : IsIntervalChar c := by
  rw [secondsText_eq seconds hmillis] at h
  split at h
  · exact isIntervalChar_of_mem_quantity (by decide) (by simp) h
  · refine isIntervalChar_of_mem_quantity (by decide) (fun hc => ?_) h
    rcases List.mem_append.mp hc with hc | hc
    · exact .inl (isDigit_of_mem_fractionDigits hmillis c hc)
    · rw [List.mem_singleton.mp hc]
      decide

theorem isIntervalChar_of_mem_magnitudeText {ms : Nat} (h : c ∈ magnitudeText ms) :
    IsIntervalChar c := by
  have hseconds : c ∈ secondsText (ms % 60000 / 1000) (ms % 1000) → IsIntervalChar c :=
    isIntervalChar_of_mem_secondsText (Nat.mod_lt ms (by decide))
  unfold magnitudeText at h
  split at h
  · refine isIntervalChar_of_mem_quantity (by decide) (fun hc => ?_) h
    rw [List.mem_singleton.mp hc]
    decide
  simp only at h
  split at h
  · rw [List.append_assoc, List.cons_append] at h
    exact isIntervalChar_of_mem_quantity (by decide)
      (isIntervalChar_of_mem_quantity (by decide) hseconds) h
  split at h
  · exact isIntervalChar_of_mem_quantity (by decide) hseconds h
  · exact hseconds h

theorem isIntervalChar_of_mem_text {ms : Int} (h : c ∈ text ms) : IsIntervalChar c := by
  unfold text at h
  split at h
  · rcases List.mem_cons.mp h with rfl | h
    · decide
    · rw [List.mem_singleton.mp h]
      decide
  split at h
  · rcases List.mem_cons.mp h with rfl | h
    · decide
    · exact isIntervalChar_of_mem_magnitudeText h
  · exact isIntervalChar_of_mem_magnitudeText h

theorem isNumberChar_of_isIntervalChar (h : IsIntervalChar c) : isNumberChar c = true := by
  rcases h with h | h
  · simp [isNumberChar, Char.isAlphanum, h]
  · have hmarks : ['-', '.', 'h', 'm', 's'].all isNumberChar = true := by decide
    exact List.all_eq_true.mp hmarks c h

theorem isNumberText_text (ms : Int) : IsNumberText (text ms) := fun _ hc =>
  isNumberChar_of_isIntervalChar (isIntervalChar_of_mem_text hc)

/-- Milliseconds are written as an integer too. -/
theorem isIntervalChar_of_mem_intText {n : Int} (h : c ∈ intText n) : IsIntervalChar c := by
  unfold intText at h
  split at h
  · rcases List.mem_cons.mp h with rfl | h
    · decide
    · exact isIntervalChar_of_mem_natText h
  · exact isIntervalChar_of_mem_natText h

end Characters

section Clock

/-- The normal form of a number of milliseconds from a second up, and of none. -/
def clockOf (ms : Nat) : Clock where
  hours := if ms / 3600000 = 0 then none else some (ms / 3600000)
  minutes := if ms / 60000 = 0 then none else some (ms % 3600000 / 60000)
  seconds := ms % 60000 / 1000
  fraction := fractionDigits (ms % 1000)

theorem value_clockOf (ms : Nat) : (clockOf ms).value = ms := by
  have hhours : (clockOf ms).hours.getD 0 = ms / 3600000 := by
    show (if ms / 3600000 = 0 then none else some (ms / 3600000)).getD 0 = _
    split <;> simp [*]
  have hminutes : (clockOf ms).minutes.getD 0 = ms % 3600000 / 60000 := by
    show (if ms / 60000 = 0 then none else some (ms % 3600000 / 60000)).getD 0 = _
    split
    · show 0 = ms % 3600000 / 60000
      omega
    · rfl
  have hfraction : 1000 * fractionValue (clockOf ms).fraction = (ms % 1000 : Nat) :=
    value_fractionDigits (Nat.mod_lt _ (by decide))
  have hsplit : 3600000 * (ms / 3600000) + 60000 * (ms % 3600000 / 60000) +
      1000 * (ms % 60000 / 1000) + ms % 1000 = ms := by omega
  rw [Clock.value, hhours, hminutes, mul_add, hfraction, ← add_assoc]
  exact_mod_cast hsplit

theorem isNormal_clockOf (ms : Nat) : (clockOf ms).IsNormal where
  hours := by
    show (if ms / 3600000 = 0 then none else some (ms / 3600000)) ≠ some 0
    split <;> simp [*]
  minutes_of_hours hhours := by
    have hms : ms / 60000 ≠ 0 := by
      intro hzero
      have hnone : (clockOf ms).hours = none := if_pos (by omega)
      rw [hnone] at hhours
      cases hhours
    show (if ms / 60000 = 0 then none else some (ms % 3600000 / 60000)).isSome = true
    rw [if_neg hms]
    rfl
  minutes m hm := by
    obtain ⟨hms, rfl⟩ : ms / 60000 ≠ 0 ∧ ms % 3600000 / 60000 = m := by
      simpa [clockOf, Option.ite_none_left_eq_some] using hm
    refine ⟨by omega, fun hzero => ?_⟩
    show (if ms / 3600000 = 0 then none else some (ms / 3600000)).isSome = true
    rw [if_neg (by omega)]
    rfl
  seconds := by
    show ms % 60000 / 1000 < 60
    omega
  fraction := getLast?_fractionDigits _

/-- A text that does not go on with the unit of milliseconds is that of a clock. -/
theorem magnitude?_of_number {cs rest : List Char} {n : Nat} (hnumber : number? cs = some (n, rest))
    (hne : rest ≠ ['m', 's']) : magnitude? cs = (clock? cs).map .clock := by
  rw [magnitude?, hnumber]
  split
  · next h =>
    cases h
    exact absurd rfl hne
  · rfl

theorem magnitude?_magnitudeText {ms : Nat} (h : 1000 ≤ ms) :
    magnitude? (magnitudeText ms) = some (.clock (clockOf ms)) := by
  have hmillis : ms % 1000 < 1000 := Nat.mod_lt _ (by decide)
  obtain ⟨c, rest, htext, hdigit, hhour, hminute⟩ :=
    exists_secondsText (ms % 60000 / 1000) hmillis
  have hseconds := seconds?_secondsText (ms % 60000 / 1000) hmillis
  rw [magnitudeText, if_neg (Nat.not_lt.mpr h)]
  simp only
  split
  · next hhours =>
    have hminutes : ms / 60000 ≠ 0 := by omega
    rw [List.append_assoc, List.cons_append, magnitude?_of_number (number?_natText _ (by decide) _)
      (by simp), clock?, part_natText _ (by decide)]
    simp only
    rw [part_natText _ (by decide)]
    simp only [hseconds, clockOf, if_neg hhours, if_neg hminutes]
    rfl
  · next hhours =>
    have hhours : ms / 3600000 = 0 := not_not.mp hhours
    split
    · next hminutes =>
      have hminutes : ms / 60000 ≠ 0 := by omega
      have hne : 'm' :: secondsText (ms % 60000 / 1000) (ms % 1000) ≠ ['m', 's'] := by
        rw [htext]
        simp [List.append_eq_singleton_iff, natText_ne_nil]
      rw [magnitude?_of_number (number?_natText _ (by decide) _) hne, clock?,
        part_natText_of_ne _ (by decide) (by decide)]
      simp only
      rw [part_natText _ (by decide)]
      simp only [hseconds, clockOf, if_pos hhours, if_neg hminutes]
      rfl
    · next hminutes =>
      have hminutes : ms / 60000 = 0 := by omega
      rw [htext, magnitude?_of_number (number?_natText _ hdigit _) (by simp [hminute]), clock?,
        part_natText_of_ne _ hdigit hhour]
      simp only
      rw [part_natText_of_ne _ hdigit hminute, ← htext]
      simp only [hseconds, clockOf, if_pos hhours, if_pos hminutes]
      rfl

theorem magnitude?_millis {ms : Nat} (h : ms < 1000) :
    magnitude? (magnitudeText ms) = some (.millis ms) := by
  rw [magnitudeText, if_pos h, magnitude?, number?_natText ms (by decide)]
  rfl

end Clock

section Sign

theorem exists_digit_natText_append (n : Nat) (rest : List Char) :
    ∃ c cs, natText n ++ rest = c :: cs ∧ c.isDigit = true := by
  obtain ⟨c, cs, hn⟩ := List.exists_cons_of_ne_nil (natText_ne_nil n)
  refine ⟨c, cs ++ rest, by rw [hn, List.cons_append], (digits_natText n).digits c ?_⟩
  rw [hn]
  exact List.mem_cons_self

theorem exists_digit_magnitudeText (ms : Nat) :
    ∃ c cs, magnitudeText ms = c :: cs ∧ c.isDigit = true := by
  unfold magnitudeText
  split
  · exact exists_digit_natText_append _ _
  · simp only
    split
    · rw [List.append_assoc]
      exact exists_digit_natText_append _ _
    · split
      · exact exists_digit_natText_append _ _
      · rw [secondsText, List.append_assoc]
        exact exists_digit_natText_append _ _

/-- A text that begins with a digit has no sign. -/
theorem read?_magnitudeText (ms : Nat) :
    read? (magnitudeText ms) = (magnitude? (magnitudeText ms)).map (Reading.mk false) := by
  obtain ⟨c, cs, hcs, hc⟩ := exists_digit_magnitudeText ms
  rw [hcs, read?]
  rintro cs' heq
  cases heq
  exact absurd hc (by decide)

end Sign

/-- What is read in the text of an interval. -/
def Reading.ofMillis (ms : Int) : Reading where
  negative := decide (ms < 0)
  magnitude :=
    if ms ≠ 0 ∧ ms.natAbs < 1000 then .millis ms.natAbs else .clock (clockOf ms.natAbs)

theorem magnitude?_ofMillis {ms : Int} (h : ms ≠ 0) :
    magnitude? (magnitudeText ms.natAbs) = some (Reading.ofMillis ms).magnitude := by
  by_cases hsecond : ms.natAbs < 1000
  · rw [magnitude?_millis hsecond, Reading.ofMillis, if_pos ⟨h, hsecond⟩]
  · rw [magnitude?_magnitudeText (by omega), Reading.ofMillis, if_neg fun hms => hsecond hms.2]

theorem read?_text (ms : Int) : read? (text ms) = some (Reading.ofMillis ms) := by
  unfold text
  split
  · next hzero =>
    subst hzero
    decide
  · next hne =>
    split
    · next hneg =>
      rw [read?, magnitude?_ofMillis hne, Reading.ofMillis, decide_eq_true hneg]
      rfl
    · next hneg =>
      rw [read?_magnitudeText, magnitude?_ofMillis hne, Reading.ofMillis, decide_eq_false hneg]
      rfl

theorem value_ofMillis (ms : Int) : (Reading.ofMillis ms).value = ms := by
  have hmagnitude : (Reading.ofMillis ms).magnitude.value = |(ms : ℚ)| := by
    rw [← Int.cast_abs, ← Nat.cast_natAbs]
    unfold Reading.ofMillis
    simp only
    split
    · rfl
    · exact value_clockOf _
  rw [Reading.value, hmagnitude]
  by_cases hneg : ms < 0
  · have hsign : (Reading.ofMillis ms).negative = true := decide_eq_true hneg
    rw [if_pos hsign, abs_of_neg (Int.cast_lt_zero.mpr hneg), neg_neg]
  · have hsign : (Reading.ofMillis ms).negative ≠ true := by simpa [Reading.ofMillis] using hneg
    rw [if_neg hsign, abs_of_nonneg (Int.cast_nonneg (not_lt.mp hneg))]

theorem isMillis_ofMillis_iff (ms : Int) :
    (∃ n, (Reading.ofMillis ms).magnitude = .millis n) ↔ 0 < |ms| ∧ |ms| < 1000 := by
  rw [abs_pos, Int.abs_eq_natAbs]
  unfold Reading.ofMillis
  simp only
  split
  · next h =>
    exact iff_of_true ⟨_, rfl⟩ ⟨h.1, by omega⟩
  · next h =>
    refine iff_of_false (fun ⟨_, hn⟩ => by cases hn) fun hms => h ⟨hms.1, by omega⟩

theorem isNormal_ofMillis {ms : Int} {c : Clock} (h : (Reading.ofMillis ms).magnitude = .clock c) :
    c.IsNormal ∧ (c.fraction ≠ [] ↔ ¬1000 ∣ ms) := by
  unfold Reading.ofMillis at h
  simp only at h
  split at h
  · cases h
  · cases h
    refine ⟨isNormal_clockOf _, ?_⟩
    rw [clockOf, fractionDigits_ne_nil_iff (Nat.mod_lt _ (by decide))]
    omega

/-- What is read in a text is the same for all intervals with the text. -/
theorem text_injective : Function.Injective text := by
  intro a b h
  have hread : some (Reading.ofMillis a) = some (Reading.ofMillis b) := by
    rw [← read?_text, ← read?_text, h]
  have hvalue : (a : ℚ) = b := by
    rw [← value_ofMillis, ← value_ofMillis, Option.some.inj hread]
  exact_mod_cast hvalue

/-- The text of an interval is read as the interval, and in its normal form: in milliseconds just
when the interval is less than a second long and not empty, and else as a clock, in which there is a
fraction just when the interval is no whole number of seconds. So the interval can be told from its
text. -/
theorem text_denotes (ms : Int) : ∃ r, read? (text ms) = some r ∧ r.value = ms ∧
    (r.negative = true ↔ ms < 0) ∧
    ((∃ n, r.magnitude = .millis n) ↔ 0 < |ms| ∧ |ms| < 1000) ∧
    (∀ c, r.magnitude = .clock c → c.IsNormal ∧ (c.fraction ≠ [] ↔ ¬1000 ∣ ms)) ∧
    ∀ other, text other = text ms → other = ms := by
  refine ⟨Reading.ofMillis ms, read?_text ms, value_ofMillis ms, decide_eq_true_iff,
    isMillis_ofMillis_iff ms, fun c => isNormal_ofMillis, fun other h => text_injective h⟩

example : read? (text (-60050)) = some ⟨true, .clock ⟨none, some 1, 0, ['0', '5']⟩⟩ := by
  decide +kernel

end PanelSearch.Duration
