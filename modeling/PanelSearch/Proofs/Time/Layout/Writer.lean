import PanelSearch.Proofs.Number.Decimal
import PanelSearch.Proofs.Time.Calendar
import PanelSearch.Time.Layout.Writer

/-! Writing an instant by a layout of bare directives, and the RFC 2822 texts among them. -/

namespace PanelSearch.Layout

open Text

section Writing

variable {room : Nat} {t : DateTime}

theorem write_literals {cs : List Char} (h : '%' ∉ cs) : write room t none cs = cs := by
  induction cs with
  | nil => rfl
  | cons c cs ih =>
    rw [List.mem_cons, not_or] at h
    rw [write, if_neg (Ne.symm h.1), ih h.2]

theorem write_literal {c : Char} (h : c ≠ '%') (rest : List Char) :
    write room t none (c :: rest) = c :: write room t none rest := by
  rw [write, if_neg h]

theorem fill_default (cs : List Char) : ({} : Spec).fill cs = cs := by
  simp [Spec.fill]

/-- A bare directive writes its part. -/
theorem write_directive {letter : Char} {text : List Char}
    (hletter : ({} : Spec).extend? room letter = none)
    (htext : ({} : Spec).simple? t letter = some text) (rest : List Char) :
    write room t none ('%' :: letter :: rest) = text ++ write room t none rest := by
  have hallows : ({} : Spec).allows letter = true := rfl
  rw [write, if_pos rfl, write, hletter]
  simp only [Spec.text, hallows, if_true, htext]

theorem number_default (n : Nat) : ({} : Spec).number 1 true n = natText n := by
  have hpos := List.length_pos_iff.mpr (natText_ne_nil n)
  have hfront : Nat.max 1 0 - (intText n).length = 0 := Nat.sub_eq_zero_of_le hpos
  simp only [Spec.number]
  rw [hfront]
  rfl

end Writing

/-! ### RFC 2822 texts -/

/-- The form of an RFC 2822 text up to its zone. -/
def stampForm : List Char := "%a, %d %b %Y %H:%M:%S ".toList

def clock (t : DateTime) (zone : List Char) : List Char :=
  padded 2 t.hour ++ ':' :: (padded 2 t.minute ++ ':' :: (padded 2 t.second ++ ' ' :: zone))

def shortWeekday (t : DateTime) : List Char :=
  (shortName (weekdayNames.getD (weekdayOfDay t.date.dayNumber) "")).toList

def shortMonth (t : DateTime) : List Char :=
  (shortName (monthNames.getD (t.date.month - 1) "")).toList

/-- An RFC 2822 text: the year is not padded. -/
def stamp (t : DateTime) (year : Nat) (zone : List Char) : List Char :=
  shortWeekday t ++ ',' :: ' ' :: (padded 2 t.date.day ++ ' ' :: (shortMonth t ++
    ' ' :: (natText year ++ ' ' :: clock t zone)))

variable {t : DateTime} {year : Nat} {zone : List Char}

theorem write_stampForm (room : Nat) (hyear : t.date.year = year) (hzone : '%' ∉ zone) :
    write room t none (stampForm ++ zone) = stamp t year zone := by
  have hweekday : ({} : Spec).simple? t 'a' = some (shortWeekday t) :=
    congrArg some (fill_default _)
  have hmonth : ({} : Spec).simple? t 'b' = some (shortMonth t) := congrArg some (fill_default _)
  have hyearText : ({} : Spec).simple? t 'Y' = some (natText year) := by
    rw [← number_default, ← hyear]
    rfl
  have hday : ({} : Spec).simple? t 'd' = some (padded 2 t.date.day) := rfl
  have hhour : ({} : Spec).simple? t 'H' = some (padded 2 t.hour) := rfl
  have hminute : ({} : Spec).simple? t 'M' = some (padded 2 t.minute) := rfl
  have hsecond : ({} : Spec).simple? t 'S' = some (padded 2 t.second) := rfl
  change write room t none ('%' :: 'a' :: ',' :: ' ' :: '%' :: 'd' :: ' ' :: '%' :: 'b' :: ' ' ::
    '%' :: 'Y' :: ' ' :: '%' :: 'H' :: ':' :: '%' :: 'M' :: ':' :: '%' :: 'S' :: ' ' :: zone) = _
  rw [write_directive rfl hweekday, write_literal (by decide), write_literal (by decide),
    write_directive rfl hday, write_literal (by decide), write_directive rfl hmonth,
    write_literal (by decide), write_directive rfl hyearText, write_literal (by decide),
    write_directive rfl hhour, write_literal (by decide), write_directive rfl hminute,
    write_literal (by decide), write_directive rfl hsecond, write_literal (by decide),
    write_literals hzone]
  rfl

theorem length_shortName_le (name : String) : (shortName name).toList.length ≤ 3 := by
  rw [shortName, String.toList_ofList, List.length_take]
  exact Nat.min_le_left 3 _

theorem length_stamp_le (h : t.isValid = true) (hyear : t.date.year = year) :
    (stamp t year zone).length ≤ 26 + zone.length := by
  have hbounds := DateTime.bounds_of_isValid h
  have hpairs := hbounds.pairs
  have hweekday : (shortWeekday t).length ≤ 3 := length_shortName_le _
  have hmonth : (shortMonth t).length ≤ 3 := length_shortName_le _
  have hdigits : (natText year).length ≤ 4 := by
    rw [length_natText_le_iff (by decide)]
    have hlt := hbounds.year.2
    omega
  simp only [stamp, clock, List.length_append, List.length_cons, hpairs.day.length,
    hpairs.hour.length, hpairs.minute.length, hpairs.second.length]
  omega

theorem toList_text_eq_stamp {layout : String}
    (hform : fillBare t (expand layout) = stampForm ++ zone) (hzone : '%' ∉ zone)
    (hroom : 26 + zone.length < roomFor (stampForm ++ zone).length) (h : t.isValid = true)
    (hyear : t.date.year = year) : (text layout t).toList = stamp t year zone := by
  have hlength : (stamp t year zone).length ≤ 26 + zone.length := length_stamp_le h hyear
  simp only [text, hform, write_stampForm _ hyear hzone]
  rw [if_pos (Nat.lt_of_le_of_lt hlength hroom), String.toList_ofList]

end PanelSearch.Layout
