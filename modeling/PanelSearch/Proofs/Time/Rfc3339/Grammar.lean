import PanelSearch.Proofs.Number.Decimal
import PanelSearch.Proofs.Time.DayCount
import PanelSearch.Time.Format

/-! The texts of RFC 3339 as a grammar: a date and a clock in digits, a fraction of any length or
none, and an offset. A text of the grammar, perhaps with blanks around it, is decoded to the instant
it tells if its date and its clock exist, and not at all otherwise; a text of ASCII characters
outside the grammar is never decoded. -/

namespace PanelSearch

open Text

namespace Rfc3339

/-! ### Grammar -/

/-- The nanoseconds of the digits behind a point: the first nine count, and zeros make up for those
that are not there. -/
def digitNanos (ds : List Char) : Nat :=
  Nat.ofDigitChars 10 ((ds ++ List.replicate 9 '0').take 9) 0

inductive IsFraction : Nat → List Char → Prop
  | none : IsFraction 0 []
  | digits {ds : List Char} (given : ds ≠ []) (digits : ∀ c ∈ ds, c.isDigit = true) :
    IsFraction (digitNanos ds) ('.' :: ds)

/-- An offset from UTC in seconds, with a colon between the hours and the minutes or without. -/
inductive IsOffset : Int → List Char → Prop
  | utc {mark : Char} (mark_mem : mark ∈ ['Z', 'z']) : IsOffset 0 [mark]
  | signed {sign : Char} {factor : Int} {hours minutes : Nat} {hs colon ms : List Char}
    (sign_mem : (sign, factor) ∈ [('+', 1), ('-', -1)]) (hours_digits : Digits 2 hours hs)
    (colon_mem : colon ∈ [[], [':']]) (minutes_digits : Digits 2 minutes ms) :
    IsOffset (factor * (hours * 3600 + minutes * 60)) (sign :: (hs ++ (colon ++ ms)))

/-- A date and a clock at an offset from UTC. Nothing here says that the date exists. -/
inductive IsStamp : DateTime → Int → List Char → Prop
  | of {year month day hour minute second nano : Nat} {offset : Int}
    {ys ms ds hs ns ss fs zs : List Char} {mark : Char} (year_digits : Digits 4 year ys)
    (month_digits : Digits 2 month ms) (day_digits : Digits 2 day ds)
    (mark_mem : mark ∈ ['T', 't', ' ']) (hour_digits : Digits 2 hour hs)
    (minute_digits : Digits 2 minute ns) (second_digits : Digits 2 second ss)
    (fraction : IsFraction nano fs) (zone : IsOffset offset zs) :
    IsStamp ⟨⟨year, month, day⟩, hour, minute, second, nano⟩ offset
      (ys ++ '-' :: (ms ++ '-' :: (ds ++ mark :: (hs ++ ':' :: (ns ++ ':' :: (ss ++
        (fs ++ zs)))))))

/-- A text is a date and a clock at an offset, perhaps with blanks around. -/
def Tells (text : String) (t : DateTime) (offset : Int) : Prop :=
  ∃ before cs after, text.toList = before ++ cs ++ after ∧
    (∀ c ∈ before ++ after, isBlank c = true) ∧ IsStamp t offset cs

/-! ### Parts -/

theorem field?_eq_some_iff {width n : Nat} {cs rest : List Char} :
    field? width cs = some (n, rest) ↔ ∃ ds, Digits width n ds ∧ cs = ds ++ rest := by
  constructor
  · intro h
    simp only [field?, Option.ite_none_right_eq_some, Option.some.injEq, Prod.mk.injEq] at h
    obtain ⟨⟨hlength, hall⟩, hvalue, rfl⟩ := h
    refine ⟨cs.take width, ⟨hlength, fun c hc => ?_, ?_⟩, (List.take_append_drop width cs).symm⟩
    · have hrange := List.all_eq_true.mp hall c hc
      rw [Bool.and_eq_true, decide_eq_true_eq, decide_eq_true_eq] at hrange
      exact isDigit_iff.mpr hrange
    · rw [← hvalue, Numeral.ofDigits, List.foldl_map]
      rfl
  · rintro ⟨ds, h, rfl⟩
    have htake : (ds ++ rest).take width = ds := List.take_left' h.length
    have hdrop : (ds ++ rest).drop width = rest := List.drop_left' h.length
    have hall : (ds.all fun c => '0' ≤ c && c ≤ '9') = true := by
      rw [List.all_eq_true]
      intro c hc
      rw [Bool.and_eq_true, decide_eq_true_eq, decide_eq_true_eq]
      exact isDigit_iff.mp (h.digits c hc)
    simp only [field?, htake, hdrop]
    rw [if_pos ⟨h.length, hall⟩, h.ofDigits_map]

theorem field?_append {width n : Nat} {ds : List Char} (h : Digits width n ds) (rest : List Char) :
    field? width (ds ++ rest) = some (n, rest) :=
  field?_eq_some_iff.mpr ⟨ds, h, rfl⟩

theorem mark?_eq_some_iff {marks cs rest : List Char} :
    mark? marks cs = some rest ↔ ∃ mark ∈ marks, cs = mark :: rest := by
  cases cs with
  | nil => simp [mark?]
  | cons c cs =>
    simp only [mark?, Option.ite_none_right_eq_some, Option.some.injEq, List.cons.injEq]
    constructor
    · rintro ⟨hc, rfl⟩
      exact ⟨c, hc, rfl, rfl⟩
    · rintro ⟨mark, hmark, rfl, rfl⟩
      exact ⟨hmark, rfl⟩

theorem mark?_cons {marks : List Char} {mark : Char} (h : mark ∈ marks) (rest : List Char) :
    mark? marks (mark :: rest) = some rest :=
  mark?_eq_some_iff.mpr ⟨mark, h, rfl⟩

theorem pair?_of_digits {n : Nat} {a b : Char} (h : Digits 2 n [a, b]) :
    pair? a b = some (n : Int) := by
  have ha := decimalDigit?_of_isDigit (h.digits a List.mem_cons_self)
  have hb := decimalDigit?_of_isDigit (h.digits b (List.mem_cons_of_mem _ List.mem_cons_self))
  have hvalue := h.ofDigits_map
  simp only [Numeral.ofDigits, List.map_cons, List.map_nil, List.foldl_cons,
    List.foldl_nil] at hvalue
  rw [pair?, ha, hb]
  simp only [Option.bind_eq_bind, Option.bind_some, Option.pure_def, Option.some.injEq]
  omega

theorem offset?_of_isOffset {offset : Int} {cs : List Char} (h : IsOffset offset cs) :
    offset? cs = some offset := by
  cases h with
  | utc hmark =>
    simp only [List.mem_cons, List.not_mem_nil, or_false] at hmark
    rcases hmark with rfl | rfl <;> rfl
  | signed hsign hhours hcolon hminutes =>
    obtain ⟨a, b, rfl⟩ := List.length_eq_two.mp hhours.length
    obtain ⟨c, d, rfl⟩ := List.length_eq_two.mp hminutes.length
    have hours := pair?_of_digits hhours
    have minutes := pair?_of_digits hminutes
    simp only [List.mem_cons, List.not_mem_nil, or_false, Prod.mk.injEq] at hsign hcolon
    obtain ⟨rfl, rfl⟩ | ⟨rfl, rfl⟩ := hsign <;> obtain rfl | rfl := hcolon <;>
      simp [offset?, hours, minutes]

theorem IsOffset.exists_head {offset : Int} {zs : List Char} (h : IsOffset offset zs) :
    ∃ mark rest, zs = mark :: rest ∧ isDecimalDigit mark = false ∧ mark ≠ '.' := by
  cases h with
  | utc hmark =>
    simp only [List.mem_cons, List.not_mem_nil, or_false] at hmark
    rcases hmark with rfl | rfl <;> exact ⟨_, _, rfl, by decide, by decide⟩
  | signed hsign =>
    simp only [List.mem_cons, List.not_mem_nil, or_false, Prod.mk.injEq] at hsign
    obtain ⟨rfl, -⟩ | ⟨rfl, -⟩ := hsign <;> exact ⟨_, _, rfl, by decide, by decide⟩

theorem take_padded (ds : List Char) : (ds ++ List.replicate 9 '0').take 9 =
    ds.take 9 ++ List.replicate (9 - (ds.take 9).length) '0' := by
  have hlength : 9 - (ds.take 9).length = min (9 - ds.length) 9 := by
    rw [List.length_take]
    omega
  rw [List.take_append, List.take_replicate, hlength]

theorem digits_digitNanos {ds : List Char} (h : ∀ c ∈ ds, c.isDigit = true) :
    Digits 9 (digitNanos ds) ((ds ++ List.replicate 9 '0').take 9) where
  length := by simp
  digits c hc := by
    rcases List.mem_append.mp (List.mem_of_mem_take hc) with hc | hc
    · exact h c hc
    · rw [List.eq_of_mem_replicate hc]
      rfl
  value := rfl

theorem ofDigits_digitNanos {ds : List Char} (h : ∀ c ∈ ds, c.isDigit = true) :
    Numeral.ofDigits ((ds.take 9).filterMap decimalDigit? ++
      List.replicate (9 - ((ds.take 9).filterMap decimalDigit?).length) 0) = digitNanos ds := by
  have hvalues : (ds.take 9).filterMap decimalDigit? = (ds.take 9).map (·.toNat - 0x30) :=
    (Digits.mk rfl (fun c hc => h c (List.mem_of_mem_take hc)) rfl).filterMap_eq
  have hnano := (digits_digitNanos h).ofDigits_map
  rw [take_padded, List.map_append, List.map_replicate] at hnano
  rw [hvalues, List.length_map]
  exact hnano

theorem IsFraction.lt {nano : Nat} {fs : List Char} (h : IsFraction nano fs) :
    nano < 1000000000 := by
  cases h with
  | none => decide
  | digits _ hdigits => exact (digits_digitNanos hdigits).lt

/-- The digits of a fraction are read up to the zone, which begins with no digit and no point. -/
theorem fraction_append {nano : Nat} {offset : Int} {fs zs : List Char} (hfs : IsFraction nano fs)
    (hzs : IsOffset offset zs) : fraction (fs ++ zs) = (nano, zs) := by
  obtain ⟨mark, rest, rfl, hmark, hpoint⟩ := hzs.exists_head
  cases hfs with
  | none =>
    rw [List.nil_append, fraction]
    exact fun _ h => hpoint (List.cons.inj h).1
  | @digits ds hgiven hdigits =>
    have hrun : (ds ++ mark :: rest).takeWhile isDecimalDigit = ds := by
      rw [List.takeWhile_append_of_pos fun c hc => isDecimalDigit_of_isDigit (hdigits c hc),
        List.takeWhile_cons_of_neg (by simp [hmark]), List.append_nil]
    rw [List.cons_append, fraction, hrun, if_neg (by simpa using hgiven), List.drop_left]
    exact Prod.ext (ofDigits_digitNanos hdigits) rfl

/-! ### Texts of the grammar -/

theorem nanos?_of_strip {s : String} {t : DateTime} {offset : Int} {cs : List Char}
    (hstrip : strip s.toList = cs) (h : IsStamp t offset cs) :
    nanos? s = if t.isValid then some (t.nanos - offset * nanosPerSecond) else none := by
  cases h with
  | of hyear hmonth hday hmark hhour hminute hsecond hfraction hzone =>
    simp only [nanos?, hstrip, Option.bind_eq_bind, Option.bind_some, mark?_cons, hmark,
      List.mem_singleton, field?_append hyear, field?_append hmonth, field?_append hday,
      field?_append hhour, field?_append hminute, field?_append hsecond,
      fraction_append hfraction hzone, offset?_of_isOffset hzone]

theorem IsStamp.noBlankHead {t : DateTime} {offset : Int} {cs : List Char}
    (h : IsStamp t offset cs) : NoBlankHead cs := by
  cases h with
  | of hyear =>
    refine hyear.noBlankHead.append ?_ _
    rintro rfl
    cases hyear.length

theorem IsOffset.exists_last {offset : Int} {zs : List Char} (h : IsOffset offset zs) :
    ∃ front last, zs = front ++ [last] ∧ isBlank last = false := by
  cases h with
  | utc hmark =>
    simp only [List.mem_cons, List.not_mem_nil, or_false] at hmark
    rcases hmark with rfl | rfl <;> exact ⟨[], _, rfl, by decide⟩
  | @signed sign _ _ _ hs colon _ _ _ _ hminutes =>
    obtain ⟨c, d, rfl⟩ := List.length_eq_two.mp hminutes.length
    exact ⟨sign :: (hs ++ (colon ++ [c])), d, by simp,
      isBlank_of_isDigit (hminutes.digits d (by simp))⟩

theorem IsStamp.exists_last {t : DateTime} {offset : Int} {cs : List Char}
    (h : IsStamp t offset cs) : ∃ front last, cs = front ++ [last] ∧ isBlank last = false := by
  cases h with
  | @of _ _ _ _ _ _ _ _ ys ms ds hs ns ss fs _ mark _ _ _ _ _ _ _ _ hzone =>
    obtain ⟨front, last, rfl, hlast⟩ := hzone.exists_last
    exact ⟨ys ++ '-' :: (ms ++ '-' :: (ds ++ mark :: (hs ++ ':' :: (ns ++ ':' :: (ss ++
      (fs ++ front)))))), last, by simp, hlast⟩

/-- The blanks around a date and a clock have no weight. -/
theorem nanos?_of_tells {text : String} {t : DateTime} {offset : Int} (h : Tells text t offset) :
    nanos? text = if t.isValid then some (t.nanos - offset * nanosPerSecond) else none := by
  obtain ⟨before, cs, after, htext, hblank, hstamp⟩ := h
  obtain ⟨front, last, hlast, hnotBlank⟩ := hstamp.exists_last
  refine nanos?_of_strip ?_ hstamp
  rw [htext]
  refine trim_append (fun c hc => hblank c (List.mem_append_left _ hc))
    (fun c hc => hblank c (List.mem_append_right _ hc)) ?_ hstamp.noBlankHead fun c hc => ?_
  · rw [hlast]
    exact List.append_ne_nil_of_right_ne_nil _ (List.cons_ne_nil _ _)
  · rw [hlast, List.getLast?_concat, Option.some.injEq] at hc
    rw [← hc]
    exact hnotBlank

/-! ### No other texts -/

def IsAscii (cs : List Char) : Prop := ∀ c ∈ cs, c.toNat < 0x80

theorem isDigit_of_decimalDigit? {c : Char} {n : Nat} (hascii : c.toNat < 0x80)
    (h : decimalDigit? c = some n) : c.isDigit = true ∧ c.toNat - 0x30 = n := by
  simp only [decimalDigit?, if_pos hascii, Option.ite_none_right_eq_some, Option.some.injEq] at h
  exact ⟨isDigit_iff.mpr h.1, h.2⟩

theorem exists_digits_of_pair? {a b : Char} {n : Int} (ha : a.toNat < 0x80) (hb : b.toNat < 0x80)
    (h : pair? a b = some n) : ∃ k : Nat, n = k ∧ Digits 2 k [a, b] := by
  simp only [pair?, Option.bind_eq_bind, Option.bind_eq_some_iff, Option.pure_def,
    Option.some.injEq] at h
  obtain ⟨x, hx, y, hy, rfl⟩ := h
  obtain ⟨haDigit, rfl⟩ := isDigit_of_decimalDigit? ha hx
  obtain ⟨hbDigit, rfl⟩ := isDigit_of_decimalDigit? hb hy
  refine ⟨10 * (a.toNat - 0x30) + (b.toNat - 0x30), by omega, rfl, ?_, ?_⟩
  · simp [haDigit, hbDigit]
  · simp [Nat.ofDigitChars_cons]

theorem isOffset_of_pairs {sign a b c d : Char} {hours offset : Int} (colon : List Char)
    (hcolon : colon ∈ [[], [':']]) (hascii : IsAscii (sign :: ([a, b] ++ (colon ++ [c, d]))))
    (hhours : pair? a b = some hours)
    (h : ((pair? c d).bind fun minutes =>
      if sign = '+' then some (hours * 3600 + minutes * 60)
      else if sign = '-' then some (-(hours * 3600 + minutes * 60)) else none) = some offset) :
    IsOffset offset (sign :: ([a, b] ++ (colon ++ [c, d]))) := by
  obtain ⟨minutes, hminutes, hsign⟩ := Option.bind_eq_some_iff.mp h
  obtain ⟨hs, rfl, hdigits⟩ :=
    exists_digits_of_pair? (hascii a (by simp)) (hascii b (by simp)) hhours
  obtain ⟨ms, rfl, mdigits⟩ :=
    exists_digits_of_pair? (hascii c (by simp)) (hascii d (by simp)) hminutes
  split at hsign
  · rename_i hplus
    have hmem : (sign, (1 : Int)) ∈ [('+', 1), ('-', -1)] := by simp [hplus]
    have hoffset := IsOffset.signed hmem hdigits hcolon mdigits
    rw [Int.one_mul] at hoffset
    exact Option.some.inj hsign ▸ hoffset
  · simp only [Option.ite_none_right_eq_some, Option.some.injEq] at hsign
    obtain ⟨hminus, rfl⟩ := hsign
    have hmem : (sign, (-1 : Int)) ∈ [('+', 1), ('-', -1)] := by simp [hminus]
    have hoffset := IsOffset.signed hmem hdigits hcolon mdigits
    rwa [Int.neg_one_mul] at hoffset

theorem isOffset_of_offset? {offset : Int} {cs : List Char} (hascii : IsAscii cs)
    (h : offset? cs = some offset) : IsOffset offset cs := by
  unfold offset? at h
  split at h
  · simp only [Option.ite_none_right_eq_some, Option.some.injEq] at h
    obtain ⟨hmark, rfl⟩ := h
    exact .utc (by simpa using hmark)
  · simp only [Option.bind_eq_bind] at h
    obtain ⟨hours, hhours, hrest⟩ := Option.bind_eq_some_iff.mp h
    split at hrest
    · exact isOffset_of_pairs [':'] (by decide) hascii hhours hrest
    · exact isOffset_of_pairs [] (by decide) hascii hhours hrest
    · cases hrest
  · cases h

theorem exists_fraction {cs : List Char} (hascii : IsAscii cs) :
    ∃ fs, IsFraction (fraction cs).1 fs ∧ cs = fs ++ (fraction cs).2 := by
  unfold fraction
  split
  · rename_i rest
    dsimp only
    split
    · exact ⟨[], .none, rfl⟩
    · rename_i hgiven
      have hdigits : ∀ c ∈ rest.takeWhile isDecimalDigit, c.isDigit = true := by
        intro c hc
        have hdigit : isDecimalDigit c = true := List.mem_takeWhile_imp hc
        obtain ⟨n, hn⟩ := Option.isSome_iff_exists.mp hdigit
        have hmem : c ∈ rest := (List.takeWhile_sublist _).subset hc
        exact (isDigit_of_decimalDigit? (hascii c (List.mem_cons_of_mem _ hmem)) hn).1
      rw [ofDigits_digitNanos hdigits]
      refine ⟨'.' :: rest.takeWhile isDecimalDigit, .digits (by simpa using hgiven) hdigits, ?_⟩
      exact congrArg ('.' :: ·) (List.prefix_iff_eq_append.mp (List.takeWhile_prefix _)).symm
  · exact ⟨[], .none, rfl⟩

/-- Of the ASCII texts only those of the grammar are read. -/
theorem exists_tells_of_nanos? {text : String} {ns : Int} (hascii : IsAscii text.toList)
    (h : nanos? text = some ns) : ∃ t offset, Tells text t offset := by
  obtain ⟨before, after, htext, hblank⟩ := exists_trim_append isBlank text.toList
  rw [← strip] at htext
  simp only [nanos?, Option.bind_eq_bind, Option.bind_eq_some_iff, Prod.exists,
    field?_eq_some_iff, mark?_eq_some_iff, List.mem_singleton, exists_eq_left] at h
  obtain ⟨_, _, ⟨ys, hys, hstrip⟩, _, rfl, _, _, ⟨ms, hms, rfl⟩, _, rfl, _, _, ⟨ds, hds, rfl⟩,
    _, ⟨mark, hmark, rfl⟩, _, _, ⟨hs, hhs, rfl⟩, _, rfl, _, _, ⟨ns, hns, rfl⟩, _, rfl, _, rest,
    ⟨ss, hss, rfl⟩, offset, hoffset, -⟩ := h
  have hrest : IsAscii rest := fun c hc => hascii c (by rw [htext, hstrip]; simp [hc])
  obtain ⟨fs, hfs, hsplit⟩ := exists_fraction hrest
  have hzone : IsAscii (fraction rest).2 := fun c hc => hrest c (by rw [hsplit]; simp [hc])
  rw [hsplit] at hstrip
  exact ⟨_, offset, before, _, after, hstrip ▸ htext, hblank,
    .of hys hms hds hmark hhs hns hss hfs (isOffset_of_offset? hzone hoffset)⟩

end Rfc3339

namespace DateTime

/-- The date is one of the calendar, and a clock shows the time on that day. -/
def Occurs (t : DateTime) : Prop :=
  t.date.isValid = true ∧ t.hour < 24 ∧ t.minute < 60 ∧ t.second < 60

instance (t : DateTime) : Decidable t.Occurs :=
  inferInstanceAs (Decidable (_ ∧ _ ∧ _ ∧ _))

theorem isValid_iff_of_tells {text : String} {t : DateTime} {offset : Int}
    (h : Rfc3339.Tells text t offset) : t.isValid = true ↔ t.Occurs := by
  obtain ⟨-, cs, -, -, -, hstamp⟩ := h
  have hnano : t.nano < 1000000000 := by
    cases hstamp with
    | of _ _ _ _ _ _ _ hfraction =>
      exact hfraction.lt
  simp [isValid, Occurs, hnano, and_assoc]

/-- The nanoseconds of a date and a clock are counted from the days that lie between the date and
the epoch. -/
theorem nanos_eq_of_daysFromEpoch {t : DateTime} (h : t.date.exists? = true) {days : Int}
    (hdays : t.date.DaysFromEpoch days) : t.nanos =
      (((days * 24 + t.hour) * 60 + t.minute) * 60 + t.second) * 1000000000 + t.nano := by
  rw [Date.daysFromEpoch_iff h] at hdays
  subst hdays
  simp only [nanos, nanosPerSecond]
  omega

end DateTime

namespace Time

open Rfc3339 (Tells IsAscii IsStamp)

/-- A text that tells a date and a clock is decoded to the nanoseconds from the epoch, counted day
by day, if that date and that clock exist. Of the ASCII texts no other is decoded. -/
theorem ofRfc3339_tells (text : String) :
    (∀ t offset, Tells text t offset →
      (t.Occurs → ∃ days, (∀ n, t.date.DaysFromEpoch n ↔ n = days) ∧ ofRfc3339 text =
        .ok ((((days * 24 + t.hour) * 60 + t.minute) * 60 + t.second - offset) * 1000000000 +
          t.nano)) ∧
      (¬t.Occurs → ofRfc3339 text = .error (.notRfc3339 text))) ∧
    (IsAscii text.toList → (¬∃ t offset, Tells text t offset) →
      ofRfc3339 text = .error (.notRfc3339 text)) := by
  refine ⟨fun t offset htells => ?_, fun hascii hnone => ?_⟩
  · rw [ofRfc3339, Rfc3339.nanos?_of_tells htells]
    have hvalid := DateTime.isValid_iff_of_tells htells
    refine ⟨fun hoccurs => ?_, fun hnot => ?_⟩
    · have hdate : t.date.exists? = true := (Bool.and_eq_true_iff.mp hoccurs.1).2
      have hdays : ∀ n, t.date.DaysFromEpoch n ↔ n = t.date.dayNumber - epochDay :=
        fun n => Date.daysFromEpoch_iff hdate
      refine ⟨_, hdays, ?_⟩
      rw [if_pos (hvalid.mpr hoccurs),
        DateTime.nanos_eq_of_daysFromEpoch hdate ((hdays _).mpr rfl)]
      refine congrArg Except.ok ?_
      rw [nanosPerSecond]
      omega
    · rw [if_neg fun h => hnot (hvalid.mp h)]
  · cases hnanos : Rfc3339.nanos? text with
    | none => rw [ofRfc3339, hnanos]
    | some ns => exact absurd (Rfc3339.exists_tells_of_nanos? hascii hnanos) hnone

/-- The last second of 1969, by a clock five and a half hours ahead of UTC. -/
def beforeEpoch : DateTime := ⟨⟨1969, 12, 31⟩, 23, 59, 59, 123456789⟩

theorem isStamp_beforeEpoch :
    IsStamp beforeEpoch 19800 "1969-12-31t23:59:59.12345678999+0530".toList := by
  have hyear : Digits 4 1969 ['1', '9', '6', '9'] := ⟨rfl, List.all_eq_true.mp rfl, rfl⟩
  have hmonth : Digits 2 12 ['1', '2'] := ⟨rfl, List.all_eq_true.mp rfl, rfl⟩
  have hday : Digits 2 31 ['3', '1'] := ⟨rfl, List.all_eq_true.mp rfl, rfl⟩
  have hhour : Digits 2 23 ['2', '3'] := ⟨rfl, List.all_eq_true.mp rfl, rfl⟩
  have hlast : Digits 2 59 ['5', '9'] := ⟨rfl, List.all_eq_true.mp rfl, rfl⟩
  have hgiven : "12345678999".toList ≠ [] := by decide
  have hdigits : ∀ c ∈ "12345678999".toList, c.isDigit = true := List.all_eq_true.mp rfl
  have hhours : Digits 2 5 ['0', '5'] := ⟨rfl, List.all_eq_true.mp rfl, rfl⟩
  have hminutes : Digits 2 30 ['3', '0'] := ⟨rfl, List.all_eq_true.mp rfl, rfl⟩
  have hmark : 't' ∈ ['T', 't', ' '] := by decide
  have hsign : ('+', (1 : Int)) ∈ [('+', 1), ('-', -1)] := by decide
  have hcolon : [] ∈ [[], [':']] := by decide
  exact .of hyear hmonth hday hmark hhour hlast hlast (.digits hgiven hdigits)
    (.signed hsign hhours hcolon hminutes)

/-- In 1900 there was no 29th of February. -/
def leapless : DateTime := ⟨⟨1900, 2, 29⟩, 0, 0, 0, 0⟩

theorem isStamp_leapless : IsStamp leapless 0 "1900-02-29 00:00:00Z".toList := by
  have hyear : Digits 4 1900 ['1', '9', '0', '0'] := ⟨rfl, List.all_eq_true.mp rfl, rfl⟩
  have hmonth : Digits 2 2 ['0', '2'] := ⟨rfl, List.all_eq_true.mp rfl, rfl⟩
  have hday : Digits 2 29 ['2', '9'] := ⟨rfl, List.all_eq_true.mp rfl, rfl⟩
  have hzero : Digits 2 0 ['0', '0'] := ⟨rfl, List.all_eq_true.mp rfl, rfl⟩
  have hmark : ' ' ∈ ['T', 't', ' '] := by decide
  have hutc : 'Z' ∈ ['Z', 'z'] := by decide
  exact .of hyear hmonth hday hmark hzero hzero hzero .none (.utc hutc)

theorem ofRfc3339_tells_beforeEpoch :
    (beforeEpoch.Occurs ∧ ofRfc3339 "\t1969-12-31t23:59:59.12345678999+0530\u2003" =
      .ok (-19800876543211)) ∧
    (¬leapless.Occurs ∧ ofRfc3339 "1900-02-29 00:00:00Z" =
      .error (.notRfc3339 "1900-02-29 00:00:00Z")) ∧
    ofRfc3339 "" = .error (.notRfc3339 "") := by
  refine ⟨⟨by decide, ?_⟩, ⟨by decide, ?_⟩, ?_⟩
  · have htells : Tells "\t1969-12-31t23:59:59.12345678999+0530\u2003" beforeEpoch 19800 :=
      ⟨['\t'], _, ['\u2003'], rfl, List.all_eq_true.mp rfl, isStamp_beforeEpoch⟩
    obtain ⟨days, hdays, hvalue⟩ := ((ofRfc3339_tells _).1 _ _ htells).1 (by decide)
    have hlast : beforeEpoch.date.DaysFromEpoch (0 - 1) := .before rfl .epoch
    rw [hvalue, ← (hdays _).mp hlast]
    rfl
  · have htells : Tells "1900-02-29 00:00:00Z" leapless 0 :=
      ⟨[], _, [], (List.append_nil _).symm, List.forall_mem_nil _, isStamp_leapless⟩
    exact ((ofRfc3339_tells _).1 _ _ htells).2 (by decide)
  · refine (ofRfc3339_tells "").2 (List.forall_mem_nil _) ?_
    rintro ⟨t, offset, before, cs, after, hempty, -, hstamp⟩
    obtain ⟨front, last, rfl, -⟩ := hstamp.exists_last
    have hlength := congrArg List.length hempty
    simp at hlength

end Time

end PanelSearch
