import Mathlib.Algebra.GroupWithZero.Nat
import PanelSearch.Proofs.Number.Decimal
import PanelSearch.Time.Instant

/-! The calendar goes both ways: a day number has one date, and the date has that day number. -/

namespace PanelSearch

/-- A number of years has nearly that many years of the mean length, of which 400 have 146097
days. -/
theorem daysBeforeYear_bounds (y : Int) :
    146097 * (y - 1) - 699 ≤ 400 * daysBeforeYear y ∧
      400 * daysBeforeYear y ≤ 146097 * (y - 1) + 396 := by
  simp only [daysBeforeYear]
  omega

theorem daysBeforeYear_lt {y z : Int} (h : y < z) : daysBeforeYear y < daysBeforeYear z := by
  have hy := daysBeforeYear_bounds y
  have hz := daysBeforeYear_bounds z
  omega

theorem daysBeforeYear_le {y z : Int} (h : y ≤ z) : daysBeforeYear y ≤ daysBeforeYear z := by
  rcases Int.lt_or_eq_of_le h with h | rfl
  · exact Int.le_of_lt (daysBeforeYear_lt h)
  · exact Int.le_refl _

/-- The year of a day is the one that begins no later than the day and ends after it: the bounds at
the estimate and two years on leave no other. -/
theorem yearOfDay_bounds (n : Int) :
    daysBeforeYear (yearOfDay n) ≤ n ∧ n < daysBeforeYear (yearOfDay n + 1) := by
  have hfirst := daysBeforeYear_bounds (400 * n / 146097 + 1)
  have hthird := daysBeforeYear_bounds (400 * n / 146097 + 1 + 1 + 1)
  simp only [yearOfDay]
  split
  · omega
  · split
    · omega
    · omega

theorem le_yearOfDay_iff {y n : Int} : y ≤ yearOfDay n ↔ daysBeforeYear y ≤ n := by
  have ⟨hlow, hhigh⟩ := yearOfDay_bounds n
  constructor
  · intro h
    exact Int.le_trans (daysBeforeYear_le h) hlow
  · intro h
    refine Int.not_lt.mp fun hlt => ?_
    have hnext := daysBeforeYear_le (Int.add_one_le_of_lt hlt)
    omega

/-- A year ends after the days of its months. -/
theorem daysBeforeYear_succ (y : Int) : daysBeforeYear (y + 1) =
    daysBeforeYear y + (monthLengths (isLeapYear y)).sum := by
  by_cases h4 : y % 4 = 0 <;> by_cases h100 : y % 100 = 0 <;> by_cases h400 : y % 400 = 0 <;>
    simp [daysBeforeYear, isLeapYear, monthLengths, h4, h100, h400] <;> omega

namespace Date

theorem monthAt_bounds {lengths : List Nat} {position : Nat} (h : position < lengths.sum)
    (month : Nat) : ∃ i rest, monthAt lengths month position = (month + i, rest + 1) ∧
      i < lengths.length ∧ rest < lengths.getD i 0 ∧ position = (lengths.take i).sum + rest := by
  induction lengths generalizing position month with
  | nil => cases h
  | cons length lengths ih =>
    unfold monthAt
    by_cases hfirst : position < length
    · exact ⟨0, position, by simp [hfirst]⟩
    · rw [List.sum_cons] at h
      have hinner : position - length < lengths.sum := by omega
      obtain ⟨i, rest, hat, hi, hrest, hposition⟩ := ih hinner (month + 1)
      refine ⟨i + 1, rest, ?_, Nat.succ_lt_succ hi, hrest, ?_⟩
      · rw [if_neg hfirst, hat, Nat.add_right_comm, Nat.add_assoc]
      · rw [List.take_succ_cons, List.sum_cons]
        omega

theorem ofDayOfYear_spec {year : Int} {position : Nat}
    (h : position < (monthLengths (isLeapYear year)).sum) :
    (ofDayOfYear year position).year = year ∧ (ofDayOfYear year position).exists? = true ∧
      (ofDayOfYear year position).dayOfYear = position := by
  obtain ⟨i, rest, hat, hi, hrest, hposition⟩ := monthAt_bounds h 1
  have hlength : (monthLengths (isLeapYear year)).length = 12 := rfl
  have hdate : ofDayOfYear year position = ⟨year, 1 + i, rest + 1⟩ := by
    simp only [ofDayOfYear, hat]
  rw [hdate]
  refine ⟨rfl, ?_, ?_⟩
  · rw [List.getD_eq_getElem?_getD] at hrest
    simp [exists?]
    omega
  · simp [dayOfYear, hposition, ← List.sum_eq_foldl]

theorem position_lt (n : Int) : (n - daysBeforeYear (yearOfDay n)).toNat <
    (monthLengths (isLeapYear (yearOfDay n))).sum := by
  have ⟨hlow, hhigh⟩ := yearOfDay_bounds n
  rw [daysBeforeYear_succ] at hhigh
  omega

theorem year_ofDayNumber (n : Int) : (ofDayNumber n).year = yearOfDay n :=
  (ofDayOfYear_spec (position_lt n)).1

theorem exists?_ofDayNumber (n : Int) : (ofDayNumber n).exists? = true :=
  (ofDayOfYear_spec (position_lt n)).2.1

theorem getD_monthLengths_le (leap : Bool) (i : Nat) : (monthLengths leap).getD i 0 ≤ 31 := by
  have hall : ∀ leap, ∀ length ∈ monthLengths leap, length ≤ 31 := by decide
  rw [List.getD_eq_getElem?_getD]
  cases hlength : (monthLengths leap)[i]? with
  | none => exact Nat.zero_le 31
  | some length => exact hall leap length (List.mem_of_getElem? hlength)

theorem bounds_of_exists? {d : Date} (h : d.exists? = true) :
    (1 ≤ d.month ∧ d.month ≤ 12) ∧ 1 ≤ d.day ∧ d.day ≤ 31 := by
  have hlength := getD_monthLengths_le (isLeapYear d.year) (d.month - 1)
  simp only [exists?, Bool.and_eq_true, decide_eq_true_eq] at h
  omega

theorem dayNumber_ofDayNumber (n : Int) : (ofDayNumber n).dayNumber = n := by
  have ⟨hlow, _⟩ := yearOfDay_bounds n
  have hday : (ofDayNumber n).dayOfYear = (n - daysBeforeYear (yearOfDay n)).toNat :=
    (ofDayOfYear_spec (position_lt n)).2.2
  rw [dayNumber, year_ofDayNumber, hday]
  omega

end Date

theorem nanosPerDay_eq : nanosPerDay = 86400000000000 := by decide

namespace DateTime

theorem nanos_ofNanos (ns : Int) : (ofNanos ns).nanos = ns := by
  simp only [nanos, ofNanos, Date.dayNumber_ofDayNumber, nanosPerDay_eq, nanosPerSecond]
  omega

theorem year_ofNanos (ns : Int) :
    (ofNanos ns).date.year = yearOfDay (ns / nanosPerDay + epochDay) :=
  Date.year_ofDayNumber _

/-- The instants of the calendar are those of the years 1 to 9999. -/
theorem inCalendar_iff (ns : Int) : inCalendar ns = true ↔
    1 ≤ (ofNanos ns).date.year ∧ (ofNanos ns).date.year ≤ 9999 := by
  have hfirst : daysBeforeYear 1 = 0 := rfl
  have hend : daysBeforeYear 10000 = 3652059 := rfl
  have hlow := le_yearOfDay_iff (y := 1) (n := ns / nanosPerDay + epochDay)
  have hhigh := le_yearOfDay_iff (y := 10000) (n := ns / nanosPerDay + epochDay)
  rw [hfirst] at hlow
  rw [hend] at hhigh
  rw [year_ofNanos, inCalendar, Bool.and_eq_true, decide_eq_true_eq, decide_eq_true_eq]
  simp only [nanosPerDay_eq, epochDay, firstNano, endNano, nanosPerSecond] at *
  omega

theorem clock_ofNanos (ns : Int) : (ofNanos ns).hour < 24 ∧ (ofNanos ns).minute < 60 ∧
    (ofNanos ns).second < 60 ∧ (ofNanos ns).nano < 1000000000 := by
  simp only [ofNanos, nanosPerDay_eq]
  omega

theorem isValid_ofNanos {ns : Int} (h : inCalendar ns = true) : (ofNanos ns).isValid = true := by
  have hyear := (inCalendar_iff ns).mp h
  have hclock := clock_ofNanos ns
  have hdate : (ofNanos ns).date.exists? = true := Date.exists?_ofDayNumber _
  simp [isValid, Date.isValid, hdate, hyear, hclock]

/-- The ranges of what a calendar and a clock show. -/
structure Bounds (t : DateTime) : Prop where
  year : 1 ≤ t.date.year ∧ t.date.year ≤ 9999
  month : 1 ≤ t.date.month ∧ t.date.month ≤ 12
  day : 1 ≤ t.date.day ∧ t.date.day ≤ 31
  hour : t.hour < 24
  minute : t.minute < 60
  second : t.second < 60
  nano : t.nano < 1000000000

theorem bounds_of_isValid {t : DateTime} (h : t.isValid = true) : t.Bounds := by
  simp only [isValid, Date.isValid, Bool.and_eq_true, decide_eq_true_eq] at h
  obtain ⟨⟨⟨⟨⟨hyear, hdate⟩, hhour⟩, hminute⟩, hsecond⟩, hnano⟩ := h
  obtain ⟨hmonth, hday⟩ := Date.bounds_of_exists? hdate
  exact ⟨hyear, hmonth, hday, hhour, hminute, hsecond, hnano⟩

/-- What a calendar and a clock show in two digits each. -/
structure Pairs (t : DateTime) : Prop where
  month : Digits 2 t.date.month (padded 2 t.date.month)
  day : Digits 2 t.date.day (padded 2 t.date.day)
  hour : Digits 2 t.hour (padded 2 t.hour)
  minute : Digits 2 t.minute (padded 2 t.minute)
  second : Digits 2 t.second (padded 2 t.second)

theorem Bounds.pairs {t : DateTime} (h : t.Bounds) : t.Pairs where
  month := digits_padded (by decide) (Nat.lt_of_le_of_lt h.month.2 (by decide))
  day := digits_padded (by decide) (Nat.lt_of_le_of_lt h.day.2 (by decide))
  hour := digits_padded (by decide) (Nat.lt_trans h.hour (by decide))
  minute := digits_padded (by decide) (Nat.lt_trans h.minute (by decide))
  second := digits_padded (by decide) (Nat.lt_trans h.second (by decide))

/-- Without its fraction the clock shows the instant rounded down to the second. -/
theorem nanos_wholeSecond (ns : Int) :
    { ofNanos ns with nano := 0 }.nanos = ns / nanosPerSecond * nanosPerSecond := by
  have hnanos := nanos_ofNanos ns
  have hnano : ((ofNanos ns).nano : Int) = ns % nanosPerSecond := by
    simp only [ofNanos, nanosPerDay_eq, nanosPerSecond]
    omega
  simp only [nanos] at hnanos ⊢
  have hdiv := Int.mul_ediv_add_emod ns nanosPerSecond
  rw [Int.mul_comm] at hdiv
  omega

end DateTime

end PanelSearch
