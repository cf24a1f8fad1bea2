import PanelSearch.Proofs.Time.Layout.Reader
import PanelSearch.Proofs.Time.Layout.Writer
import PanelSearch.Time.Format

/-! RFC 2822 texts are read back to the second they were written for, when the year has four digits.
A shorter year is written without padding and is not read. -/

namespace PanelSearch.Layout

open Text

/-- The items of an RFC 2822 layout from the year on. -/
def yearItems (last : Directive) : List Item := [.directive .year, .blanks, .directive .hour,
  .literal ':', .directive .minute, .literal ':', .directive .second, .blanks, .directive last]

/-- The items of an RFC 2822 layout. It ends in a zone or in an offset. -/
def stampItems (last : Directive) : List Item :=
  .directive .shortWeekday :: .literal ',' :: .blanks :: .directive .day :: .blanks ::
    .directive .shortMonthName :: .blanks :: yearItems last

theorem items?_rfc2822Layout : items? TimeFormat.rfc2822Layout = some (stampItems .zone) := by
  rfl

theorem items?_rfc2822zLayout : items? TimeFormat.rfc2822zLayout = some (stampItems .offset) := by
  rfl

/-- A text behind the clock that is read as UTC. -/
structure UtcMark (last : Directive) (mark : List Char) : Prop where
  directives : (directives (stampItems last)).Nodup
  head : NoBlankHead mark
  read : match? [.directive last] mark = some ([(last, mark)], [])
  utc : ∀ (r : Reading) (afternoon : Bool), r.offset = none →
    ∃ offset : Option Int, offset.getD 0 = 0 ∧
      r.add? afternoon (last, mark) = some { r with offset := offset }

theorem utcMark_gmt : UtcMark .zone "GMT".toList where
  directives := by decide
  head := fun c hc => by cases hc; rfl
  read := rfl
  utc r afternoon h := ⟨none, rfl, by rw [← h]; rfl⟩

theorem utcMark_offset : UtcMark .offset "+0000".toList where
  directives := by decide
  head := fun c hc => by cases hc; rfl
  read := rfl
  utc r afternoon _ := by
    have hmicros : offsetMicros? "+0000".toList = some 0 := rfl
    exact ⟨some 0, rfl, by rw [Reading.add?, hmicros]; rfl⟩

section Read

variable {t : DateTime} {last : Directive} {mark : List Char} {year : Nat}

/-! ### Matching -/

theorem readsPair_day : ∀ n < 32, 1 ≤ n → Directive.day.readsPair n = true := by decide

theorem readsPair_hour : ∀ n < 24, Directive.hour.readsPair n = true := by decide

theorem readsPair_minute : ∀ n < 60, Directive.minute.readsPair n = true := by decide

theorem readsPair_second : ∀ n < 60, Directive.second.readsPair n = true := by decide

theorem noBlankHead_padded {n : Nat} (h : Digits 2 n (padded 2 n)) (rest : List Char) :
    NoBlankHead (padded 2 n ++ rest) := by
  refine h.noBlankHead.append (fun hnil => ?_) rest
  rw [hnil] at h
  exact absurd h.length (by decide)

theorem noBlankHead_shortMonth (h : t.Bounds) (rest : List Char) :
    NoBlankHead (shortMonth t ++ rest) := by
  have hhead : ∀ n < 12, (shortName (monthNames.getD n "")).toList.head?.any
      (fun c => !isBlank c) = true := by decide
  have hmonth := h.month
  have hshort : (shortMonth t).head?.any (fun c => !isBlank c) = true := hhead _ (by omega)
  cases hcs : shortMonth t with
  | nil =>
    rw [hcs] at hshort
    cases hshort
  | cons c cs =>
    rw [hcs] at hshort
    intro d hd
    cases hd
    simpa using hshort

theorem match?_weekday (t : DateTime) (items : List Item) (rest : List Char) :
    match? (.directive .shortWeekday :: items) (shortWeekday t ++ rest) =
      (match? items rest).map fun m => ((.shortWeekday, shortWeekday t) :: m.1, m.2) := by
  have hlt : weekdayOfDay t.date.dayNumber < 7 := by
    rw [weekdayOfDay]
    omega
  have hlength : ∀ n < 7, ∀ other ∈ names .shortWeekday,
      other.length = (shortName (weekdayNames.getD n "")).length := by decide
  have hname : ∀ n < 7, (names .shortWeekday).filter (fun other =>
      lowerName (shortName (weekdayNames.getD n "")).toList = lowerName other.toList) =
        [shortName (weekdayNames.getD n "")] := by decide
  exact match?_name (by decide) rfl (hlength _ hlt) (hname _ hlt) items rest

theorem match?_month (h : t.Bounds) (items : List Item) (rest : List Char) :
    match? (.directive .shortMonthName :: items) (shortMonth t ++ rest) =
      (match? items rest).map fun m => ((.shortMonthName, shortMonth t) :: m.1, m.2) := by
  have hlt : t.date.month - 1 < 12 := by
    have hmonth := h.month
    omega
  have hlength : ∀ n < 12, ∀ other ∈ names .shortMonthName,
      other.length = (shortName (monthNames.getD n "")).length := by decide
  have hname : ∀ n < 12, (names .shortMonthName).filter (fun other =>
      lowerName (shortName (monthNames.getD n "")).toList = lowerName other.toList) =
        [shortName (monthNames.getD n "")] := by decide
  exact match?_name (by decide) rfl (hlength _ hlt) (hname _ hlt) items rest

/-- The parts of an RFC 2822 text. -/
def stampParts (t : DateTime) (year : Nat) (last : Directive) (mark : List Char) : Parts := [
  (.shortWeekday, shortWeekday t), (.day, padded 2 t.date.day), (.shortMonthName, shortMonth t),
  (.year, natText year), (.hour, padded 2 t.hour), (.minute, padded 2 t.minute),
  (.second, padded 2 t.second), (last, mark)]

/-- Up to the year a layout matches in one way only: a day cut after its first digit has no blank
behind it. -/
theorem match?_stamp (h : t.Bounds) :
    match? (stampItems last) (stamp t year mark) =
      (match? (yearItems last) (natText year ++ ' ' :: clock t mark)).map fun m =>
        ((.shortWeekday, shortWeekday t) :: (.day, padded 2 t.date.day) ::
          (.shortMonthName, shortMonth t) :: m.1, m.2) := by
  have hday : Digits 2 t.date.day (padded 2 t.date.day) := h.pairs.day
  have hdayHead : NoBlankHead (padded 2 t.date.day ++ ' ' :: (shortMonth t ++
      ' ' :: (natText year ++ ' ' :: clock t mark))) :=
    noBlankHead_padded hday _
  have hmonthHead : NoBlankHead (shortMonth t ++ ' ' :: (natText year ++ ' ' :: clock t mark)) :=
    noBlankHead_shortMonth h _
  have hyearHead : NoBlankHead (natText year ++ ' ' :: clock t mark) :=
    (digits_natText year).noBlankHead.append (natText_ne_nil year) _
  rw [stampItems, stamp, match?_weekday, match?_literal, match?_blanks hdayHead,
    match?_pair (readsPair_day _ (Nat.lt_succ_of_le h.day.2) h.day.1) hday fun c cs hc =>
      match?_blanks_eq_none (isBlank_of_isDigit hc) _ _,
    match?_blanks hmonthHead, match?_month h, match?_blanks hyearHead, Option.map_map,
    Option.map_map]
  rfl

theorem match?_stamp_of_digits (h : t.Bounds) (hmark : UtcMark last mark)
    (hyear : Digits 4 year (natText year)) :
    match? (stampItems last) (stamp t year mark) = some (stampParts t year last mark, []) := by
  have hpairs := h.pairs
  have hcolon : ∀ items c cs, c.isDigit = true →
      match? (.literal ':' :: items) (c :: cs) = none := fun items c cs hc =>
    match?_literal_eq_none hc rfl rfl items cs
  rw [match?_stamp h, yearItems, match?_year hyear, clock,
    match?_blanks (noBlankHead_padded hpairs.hour _),
    match?_pair (readsPair_hour _ h.hour) hpairs.hour (hcolon _), match?_literal,
    match?_pair (readsPair_minute _ h.minute) hpairs.minute (hcolon _), match?_literal,
    match?_pair (readsPair_second _ h.second) hpairs.second fun c cs hc =>
      match?_blanks_eq_none (isBlank_of_isDigit hc) _ _,
    match?_blanks hmark.head, hmark.read]
  rfl

/-! ### Putting the parts together -/

theorem partNumber_digits {width n : Nat} {cs : List Char} (h : Digits width n cs) :
    partNumber cs = n := by
  rw [partNumber, h.filterMap_eq, h.ofDigits_map]

theorem nameIndex_shortMonth (h : t.Bounds) :
    nameIndex (monthNames.map shortName) (shortMonth t) + 1 = t.date.month := by
  have hindex : ∀ n < 12, nameIndex (monthNames.map shortName)
      (shortName (monthNames.getD n "")).toList = n := by decide
  have hmonth := h.month
  rw [shortMonth, hindex _ (by omega)]
  omega

/-- What an RFC 2822 text says. -/
def stampReading (t : DateTime) (year : Nat) (offset : Option Int) : Reading where
  year := some year
  month := t.date.month
  day := t.date.day
  hour := t.hour
  minute := t.minute
  second := t.second
  weekday := some (nameIndex (weekdayNames.map shortName) (shortWeekday t))
  offset := offset

theorem ofParts?_stampParts (h : t.Bounds) (hmark : UtcMark last mark) (year : Nat) :
    ∃ offset : Option Int, offset.getD 0 = 0 ∧
      Reading.ofParts? (stampParts t year last mark) = some (stampReading t year offset) := by
  have hpairs := h.pairs
  rw [Reading.ofParts?]
  generalize isAfternoon _ = afternoon
  obtain ⟨offset, hoffset, hadd⟩ := hmark.utc (stampReading t year none) afternoon rfl
  refine ⟨offset, hoffset, ?_⟩
  rw [stampParts]
  simp only [List.foldlM_cons, List.foldlM_nil, Reading.add?, Option.bind_eq_bind, Option.bind_some,
    nameIndex_shortMonth h, partNumber_digits (digits_natText year),
    partNumber_digits hpairs.day, partNumber_digits hpairs.hour, partNumber_digits hpairs.minute,
    partNumber_digits hpairs.second]
  exact congrArg (· >>= pure) hadd

theorem date?_stampReading (h : t.date.isValid = true) (hyear : t.date.year = year)
    (offset : Option Int) : (stampReading t year offset).date? = some t.date := by
  have hiso : (stampReading t year offset).isoFits = true := rfl
  have hleap : (stampReading t year offset).isLeapDayAlone = false := rfl
  have hfound : (stampReading t year offset).found? = some t.date := by
    change (if Date.isValid ⟨year, t.date.month, t.date.day⟩ = true then
      some (⟨year, t.date.month, t.date.day⟩ : Date) else none) = some t.date
    rw [← hyear]
    exact if_pos h
  simp only [Reading.date?, hiso, hleap, hfound, h, Bool.not_true, Bool.false_eq_true, if_false,
    if_true, Option.bind_eq_bind, Option.bind_some]

theorem nanos?_stampReading (h : t.isValid = true) (hyear : t.date.year = year)
    {offset : Option Int} (hoffset : offset.getD 0 = 0) :
    (stampReading t year offset).nanos? = some { t with nano := 0 }.nanos := by
  have hdate : t.date.isValid = true := by
    simp only [DateTime.isValid, Bool.and_eq_true] at h
    exact h.1.1.1.1
  have hzero : (stampReading t year offset).offset.getD 0 = 0 := hoffset
  have hmicros : (stampReading t year offset).micros * 1000 = 0 := Nat.zero_mul 1000
  have hvalid : { t with nano := 0 }.isValid = true := by
    simp only [DateTime.isValid, Bool.and_eq_true] at h ⊢
    exact ⟨h.1, decide_eq_true (by decide)⟩
  rw [Reading.nanos?, date?_stampReading hdate hyear, Option.bind_eq_bind, Option.bind_some]
  simp only [hzero, hmicros]
  rw [if_pos ⟨hvalid, by decide⟩]
  exact congrArg some (Int.sub_zero _)

end Read

/-! ### Texts -/

section Text

variable {t : DateTime} {last : Directive} {mark : List Char} {year : Nat} {layout text : String}

theorem nanos_stamp (hitems : items? layout = some (stampItems last)) (hmark : UtcMark last mark)
    (htext : text.toList = stamp t year mark) (h : t.isValid = true) (hyear : t.date.year = year)
    (hdigits : Digits 4 year (natText year)) :
    nanos layout text = .ok { t with nano := 0 }.nanos := by
  have hbounds := DateTime.bounds_of_isValid h
  obtain ⟨offset, hoffset, hparts⟩ := ofParts?_stampParts hbounds hmark year
  simp only [nanos, hitems, if_pos hmark.directives, htext,
    match?_stamp_of_digits hbounds hmark hdigits, hparts, Option.bind_some,
    nanos?_stampReading h hyear hoffset]

theorem nanos_stamp_eq_error (hitems : items? layout = some (stampItems last))
    (hmark : UtcMark last mark) (htext : text.toList = stamp t year mark) (h : t.Bounds)
    (hlength : (natText year).length < 4) : nanos layout text = .error .unreadable := by
  have hmatch : match? (stampItems last) (stamp t year mark) = none := by
    rw [match?_stamp h, yearItems, match?_year_eq_none hlength rfl, Option.map_none]
  simp only [nanos, hitems, if_pos hmark.directives, htext, hmatch]

end Text

end PanelSearch.Layout
