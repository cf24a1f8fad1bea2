import Mathlib.Data.Int.Init
import PanelSearch.Proofs.Time.Calendar

/-! Days counted one by one. After the last day of a month comes the first of the next month, and
after the last day of a year the first of the next year; counted in this way, each date has one
number of days from the epoch, the one that its day number tells. -/

namespace PanelSearch.Date

/-- The number of days of the month that a date lies in. -/
def monthLength (d : Date) : Nat := (monthLengths (isLeapYear d.year)).getD (d.month - 1) 0

/-- The day after a day. -/
def next (d : Date) : Date :=
  if d.day < d.monthLength then { d with day := d.day + 1 }
  else if d.month < 12 then ⟨d.year, d.month + 1, 1⟩
  else ⟨d.year + 1, 1, 1⟩

/-- A day comes so many days after the epoch, or before it if the number is negative. -/
inductive DaysFromEpoch : Date → Int → Prop
  | epoch : DaysFromEpoch ⟨1970, 1, 1⟩ 0
  | after {d : Date} {n : Int} (h : DaysFromEpoch d n) : DaysFromEpoch d.next (n + 1)
  | before {d : Date} {n : Int} (hd : d.exists? = true) (h : DaysFromEpoch d.next n) :
    DaysFromEpoch d (n - 1)

variable {d : Date}

theorem exists?_iff : d.exists? = true ↔
    (1 ≤ d.month ∧ d.month ≤ 12) ∧ 1 ≤ d.day ∧ d.day ≤ d.monthLength := by
  simp only [exists?, monthLength, Bool.and_eq_true, decide_eq_true_eq, and_assoc]

theorem dayOfYear_eq (d : Date) : d.dayOfYear =
    ((monthLengths (isLeapYear d.year)).take (d.month - 1)).sum + (d.day - 1) := by
  rw [dayOfYear, List.sum_eq_foldl]

/-- The days up to the end of a month. -/
theorem sum_take_month (h : d.exists? = true) :
    ((monthLengths (isLeapYear d.year)).take d.month).sum =
      ((monthLengths (isLeapYear d.year)).take (d.month - 1)).sum + d.monthLength := by
  obtain ⟨⟨hlow, hhigh⟩, -⟩ := exists?_iff.mp h
  have hlength : (monthLengths (isLeapYear d.year)).length = 12 := rfl
  obtain ⟨i, hi⟩ : ∃ i, d.month = i + 1 := ⟨d.month - 1, by omega⟩
  have hlt : i < (monthLengths (isLeapYear d.year)).length := by omega
  rw [monthLength, hi, Nat.add_sub_cancel, List.take_succ_eq_append_getElem hlt, List.sum_append,
    List.sum_singleton, List.getD_eq_getElem?_getD, List.getElem?_eq_getElem hlt, Option.getD_some]

theorem one_le_getD_monthLengths (leap : Bool) {i : Nat} (h : i < 12) :
    1 ≤ (monthLengths leap).getD i 0 := by
  have hall : ∀ leap, ∀ i < 12, 1 ≤ (monthLengths leap).getD i 0 := by decide
  exact hall leap i h

theorem exists?_next (h : d.exists? = true) : d.next.exists? = true := by
  obtain ⟨⟨hlow, hhigh⟩, hday, hlast⟩ := exists?_iff.mp h
  rw [exists?_iff]
  unfold next
  split
  · exact ⟨⟨hlow, hhigh⟩, Nat.le_add_left 1 d.day, ‹_›⟩
  · split
    · rename_i hmonth
      exact ⟨⟨Nat.le_add_left 1 d.month, hmonth⟩, Nat.le_refl 1,
        one_le_getD_monthLengths _ hmonth⟩
    · exact ⟨⟨Nat.le_refl 1, Nat.le_add_left 1 11⟩, Nat.le_refl 1,
        one_le_getD_monthLengths _ (Nat.zero_lt_succ 11)⟩

theorem dayNumber_next (h : d.exists? = true) : d.next.dayNumber = d.dayNumber + 1 := by
  obtain ⟨⟨hlow, hhigh⟩, hday, hlast⟩ := exists?_iff.mp h
  have hsum := sum_take_month h
  simp only [dayNumber, dayOfYear_eq]
  unfold next
  split
  · simp only [Nat.add_sub_cancel]
    omega
  · split
    · simp only [Nat.add_sub_cancel, hsum]
      omega
    · have hmonth : d.month = 12 := by omega
      have hyear : (monthLengths (isLeapYear d.year)).take d.month =
          monthLengths (isLeapYear d.year) := by
        rw [hmonth]
        rfl
      rw [hyear] at hsum
      simp only [daysBeforeYear_succ, hsum, Nat.sub_self, List.take_zero, List.sum_nil]
      omega

/-! ### Dates of day numbers -/

theorem monthAt_take_sum {lengths : List Nat} {i rest : Nat} (hi : i < lengths.length)
    (hrest : rest < lengths.getD i 0) (month : Nat) :
    monthAt lengths month ((lengths.take i).sum + rest) = (month + i, rest + 1) := by
  induction lengths generalizing i month with
  | nil => cases hi
  | cons length lengths ih =>
    unfold monthAt
    cases i with
    | zero =>
      have hlt : rest < length := hrest
      simp [hlt]
    | succ i =>
      have hinner := ih (Nat.lt_of_succ_lt_succ hi) hrest (month + 1)
      have hbeyond : ¬(length + (lengths.take i).sum + rest < length) := by omega
      have hsub : length + (lengths.take i).sum + rest - length =
          (lengths.take i).sum + rest := by omega
      rw [List.take_succ_cons, List.sum_cons, if_neg hbeyond, hsub, hinner, Nat.add_right_comm,
        Nat.add_assoc]

theorem ofDayOfYear_dayOfYear (h : d.exists? = true) : ofDayOfYear d.year d.dayOfYear = d := by
  obtain ⟨⟨hlow, hhigh⟩, hday, hlast⟩ := exists?_iff.mp h
  have hindex : d.month - 1 < (monthLengths (isLeapYear d.year)).length := by
    have hlength : (monthLengths (isLeapYear d.year)).length = 12 := rfl
    omega
  have hrest : d.day - 1 < (monthLengths (isLeapYear d.year)).getD (d.month - 1) 0 := by
    rw [monthLength] at hlast
    omega
  rw [ofDayOfYear, dayOfYear_eq, monthAt_take_sum hindex hrest, Nat.sub_add_cancel hday,
    Nat.add_sub_cancel' hlow]

theorem dayOfYear_lt (h : d.exists? = true) :
    d.dayOfYear < (monthLengths (isLeapYear d.year)).sum := by
  obtain ⟨-, hday, hlast⟩ := exists?_iff.mp h
  have htake := sum_take_month h
  have hsplit := congrArg List.sum
    (List.take_append_drop d.month (monthLengths (isLeapYear d.year)))
  rw [List.sum_append] at hsplit
  rw [dayOfYear_eq]
  omega

theorem yearOfDay_dayNumber (h : d.exists? = true) : yearOfDay d.dayNumber = d.year := by
  have hlt := dayOfYear_lt h
  have hnext := daysBeforeYear_succ d.year
  have hlow := le_yearOfDay_iff (y := d.year) (n := d.dayNumber)
  have hhigh := le_yearOfDay_iff (y := d.year + 1) (n := d.dayNumber)
  simp only [dayNumber] at hlow hhigh ⊢
  omega

/-- A date that exists is the date of its day number. -/
theorem ofDayNumber_dayNumber (h : d.exists? = true) : ofDayNumber d.dayNumber = d := by
  have hposition : (d.dayNumber - daysBeforeYear d.year).toNat = d.dayOfYear := by
    rw [dayNumber]
    omega
  rw [ofDayNumber, yearOfDay_dayNumber h, hposition, ofDayOfYear_dayOfYear h]

/-! ### Counting -/

theorem DaysFromEpoch.exists_and_dayNumber {n : Int} (h : DaysFromEpoch d n) :
    d.exists? = true ∧ d.dayNumber = epochDay + n := by
  induction h with
  | epoch => exact ⟨rfl, rfl⟩
  | after _ ih =>
    refine ⟨exists?_next ih.1, ?_⟩
    rw [dayNumber_next ih.1, ih.2]
    omega
  | before hd _ ih =>
    refine ⟨hd, ?_⟩
    have hnext := ih.2
    rw [dayNumber_next hd] at hnext
    omega

theorem next_ofDayNumber (n : Int) : (ofDayNumber n).next = ofDayNumber (n + 1) := by
  have hexists := exists?_ofDayNumber n
  have hnumber := dayNumber_next hexists
  rw [dayNumber_ofDayNumber] at hnumber
  rw [← hnumber, ofDayNumber_dayNumber (exists?_next hexists)]

theorem daysFromEpoch_ofDayNumber (n : Int) : DaysFromEpoch (ofDayNumber (epochDay + n)) n := by
  induction n using Int.induction_on with
  | zero =>
    have hepoch : ofDayNumber (epochDay + 0) = ⟨1970, 1, 1⟩ := by decide
    rw [hepoch]
    exact .epoch
  | succ n ih =>
    rw [← Int.add_assoc, ← next_ofDayNumber]
    exact .after ih
  | pred n ih =>
    refine .before (exists?_ofDayNumber _) ?_
    have hsucc : epochDay + (-n - 1) + 1 = epochDay + -n := by omega
    rw [next_ofDayNumber, hsucc]
    exact ih

/-- Counting from day to day leads to each date that exists, by the number of days that its day
number is behind that of the epoch. -/
theorem daysFromEpoch_iff (h : d.exists? = true) {n : Int} :
    DaysFromEpoch d n ↔ n = d.dayNumber - epochDay := by
  constructor
  · intro hn
    have hnumber := hn.exists_and_dayNumber.2
    omega
  · rintro rfl
    have hcount := daysFromEpoch_ofDayNumber (d.dayNumber - epochDay)
    have hnumber : epochDay + (d.dayNumber - epochDay) = d.dayNumber := by omega
    rwa [hnumber, ofDayNumber_dayNumber h] at hcount

end PanelSearch.Date
