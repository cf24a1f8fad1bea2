import PanelSearch.Proofs.Time.Rfc3339.Grammar

/-! RFC 3339 texts are read back to the instants they were written for, when the year has four
digits. A shorter year is written without padding and is not read. -/

namespace PanelSearch

open Text

namespace Rfc3339

/-- A text with another character among its first ones does not begin with so many digits. -/
theorem field?_eq_none {width : Nat} {cs : List Char} (hlength : cs.length < width) (mark : Char)
    (hmark : mark.isDigit = false) (rest : List Char) :
    field? width (cs ++ mark :: rest) = none := by
  have hmem : mark ∈ (cs ++ mark :: rest).take width := by
    rw [List.take_append, List.mem_append]
    obtain ⟨more, hmore⟩ := Nat.exists_eq_add_of_lt (Nat.sub_pos_of_lt hlength)
    rw [hmore, Nat.zero_add, List.take_succ_cons]
    exact .inr List.mem_cons_self
  refine if_neg fun ⟨_, hall⟩ => ?_
  have hdigit := List.all_eq_true.mp hall mark hmem
  rw [Bool.and_eq_true, decide_eq_true_eq, decide_eq_true_eq] at hdigit
  rw [isDigit_iff.mpr hdigit] at hmark
  cases hmark

def fractionText (nano : Nat) : List Char :=
  if nano = 0 then [] else '.' :: trimEnd (· == '0') (padded 9 nano)

theorem isFraction_fractionText {nano : Nat} (h : nano < 1000000000) :
    IsFraction nano (fractionText nano) := by
  unfold fractionText
  by_cases hzero : nano = 0
  · rw [if_pos hzero, hzero]
    exact .none
  have hdigits : Digits 9 nano (padded 9 nano) := digits_padded (by decide) h
  have hpadded := hdigits.eq_trimEnd_append
  rw [if_neg hzero]
  generalize trimEnd (· == '0') (padded 9 nano) = ds at hpadded
  rw [hpadded] at hdigits
  have hlength := hdigits.length
  rw [List.length_append] at hlength
  have hne : ds ≠ [] := by
    rintro rfl
    have hvalue := hdigits.value
    rw [List.nil_append, ← List.append_nil (List.replicate _ _), ofDigitChars_zeros] at hvalue
    exact hzero hvalue.symm
  have hvalue : digitNanos ds = nano := by
    rw [digitNanos, take_padded, List.take_of_length_le (by omega)]
    exact hdigits.value
  have hfraction :=
    IsFraction.digits hne fun c hc => hdigits.digits c (List.mem_append_left _ hc)
  rwa [hvalue] at hfraction

theorem toList_text {ns : Int} {year : Nat} (h : (DateTime.ofNanos ns).date.year = year) :
    (text ns).toList = natText year ++ '-' :: (padded 2 (DateTime.ofNanos ns).date.month ++
      '-' :: (padded 2 (DateTime.ofNanos ns).date.day ++
      'T' :: (padded 2 (DateTime.ofNanos ns).hour ++
      ':' :: (padded 2 (DateTime.ofNanos ns).minute ++
      ':' :: (padded 2 (DateTime.ofNanos ns).second ++
        (fractionText (DateTime.ofNanos ns).nano ++ ['Z'])))))) := by
  simp only [text, String.toList_ofList, fractionText, List.append_assoc, List.cons_append, h,
    intText_natCast]

theorem strip_text {ns : Int} {year : Nat} (h : (DateTime.ofNanos ns).date.year = year) :
    strip (text ns).toList = (text ns).toList := by
  have hfirst : NoBlankHead (text ns).toList := by
    rw [toList_text h]
    exact (digits_natText year).noBlankHead.append (natText_ne_nil year) _
  have hlast : ∀ c, (text ns).toList.getLast? = some c → isBlank c = false := by
    intro c hc
    simp only [text, String.toList_ofList, List.getLast?_concat, Option.some.injEq] at hc
    rw [← hc]
    rfl
  have hne : (text ns).toList ≠ [] := by
    rw [toList_text h]
    exact List.append_ne_nil_of_left_ne_nil (natText_ne_nil year) _
  have hstrip := trim_append (List.forall_mem_nil _) (List.forall_mem_nil _) hne hfirst hlast
  rwa [List.nil_append, List.append_nil] at hstrip

/-- With four digits in its year the text of an instant tells its date and its clock in UTC. -/
theorem isStamp_text {ns : Int} (h : inCalendar ns = true) {year : Nat}
    (hyear : (DateTime.ofNanos ns).date.year = year) (hdigits : Digits 4 year (natText year)) :
    IsStamp (DateTime.ofNanos ns) 0 (text ns).toList := by
  have hbounds := DateTime.bounds_of_isValid (DateTime.isValid_ofNanos h)
  have hpairs := hbounds.pairs
  have ht : (⟨⟨year, (DateTime.ofNanos ns).date.month, (DateTime.ofNanos ns).date.day⟩,
      (DateTime.ofNanos ns).hour, (DateTime.ofNanos ns).minute, (DateTime.ofNanos ns).second,
      (DateTime.ofNanos ns).nano⟩ : DateTime) = DateTime.ofNanos ns := by
    rw [← hyear]
  have hstamp := IsStamp.of hdigits hpairs.month hpairs.day
    (List.mem_cons_self : 'T' ∈ ['T', 't', ' ']) hpairs.hour hpairs.minute hpairs.second
    (isFraction_fractionText hbounds.nano) (.utc (List.mem_cons_self : 'Z' ∈ ['Z', 'z']))
  rwa [ht, ← toList_text hyear] at hstamp

theorem nanos?_text {ns : Int} (h : inCalendar ns = true) {year : Nat}
    (hyear : (DateTime.ofNanos ns).date.year = year) (hdigits : Digits 4 year (natText year)) :
    nanos? (text ns) = some ns := by
  rw [nanos?_of_strip (strip_text hyear) (isStamp_text h hyear hdigits),
    if_pos (DateTime.isValid_ofNanos h), DateTime.nanos_ofNanos, Int.zero_mul, Int.sub_zero]

theorem nanos?_text_eq_none {ns : Int} {year : Nat}
    (hyear : (DateTime.ofNanos ns).date.year = year) (h : (natText year).length < 4) :
    nanos? (text ns) = none := by
  rw [nanos?, strip_text hyear, toList_text hyear, field?_eq_none h '-' rfl]
  rfl

end Rfc3339

end PanelSearch
