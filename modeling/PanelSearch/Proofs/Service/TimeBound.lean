import PanelSearch.Proofs.Json.Shown
import PanelSearch.Proofs.Number.Numeral
import PanelSearch.Proofs.Number.Text
import PanelSearch.Service.Route

/-! Which time bounds are read, and which are refused by an answer of their own. A text may look
like an integer and be none, or have too many digits: then reading it fails, and the service has no
answer for that. Nor has it one for a value that the refusal cannot show. -/

namespace PanelSearch

open Text

/-- A text is some minus signs and digit characters of any kind, with blanks around. -/
structure IsDashed (cs : List Char) (dashes : Nat) (ds : List Char) : Prop where
  ne_nil : ds ≠ []
  digits : ∀ c ∈ ds, isDigit c = true
  around : ∃ before after, cs = before ++ (List.replicate dashes '-' ++ ds) ++ after ∧
    ∀ c ∈ before ++ after, isBlank c = true

namespace IsDashed

variable {cs ds : List Char} {dashes : Nat}

theorem not_isBlank (h : IsDashed cs dashes ds) :
    ∀ c ∈ List.replicate dashes '-' ++ ds, isBlank c = false := by
  intro c hc
  rcases List.mem_append.mp hc with hc | hc
  · rw [List.eq_of_mem_replicate hc]
    decide
  · exact not_isBlank_of_isDigit (h.digits c hc)

theorem strip_eq (h : IsDashed cs dashes ds) : strip cs = List.replicate dashes '-' ++ ds := by
  obtain ⟨before, after, rfl, hblank⟩ := h.around
  rw [List.forall_mem_append] at hblank
  exact trim_append hblank.1 hblank.2 (List.append_ne_nil_of_right_ne_nil _ h.ne_nil)
    (fun c hc => h.not_isBlank c (List.mem_of_mem_head? hc))
    (fun c hc => h.not_isBlank c (List.mem_of_getLast? hc))

theorem head_ne (h : IsDashed cs dashes ds) {c : Char} {rest : List Char} (hds : ds = c :: rest)
    {mark : Char} (hmark : isDigit mark = false) : c ≠ mark := by
  rintro rfl
  rw [h.digits c (by simp [hds])] at hmark
  cases hmark

theorem looksNumeric (h : IsDashed cs dashes ds) : looksNumeric cs = true := by
  obtain ⟨c, rest, hds⟩ := List.exists_cons_of_ne_nil h.ne_nil
  have hdrop : (List.replicate dashes '-' ++ ds).dropWhile (· = '-') = ds := by
    rw [List.dropWhile_append_of_pos (by simp), hds, List.dropWhile_cons_of_neg]
    simpa using h.head_ne hds (by decide)
  rw [PanelSearch.looksNumeric, h.strip_eq, hdrop, isDigits, Bool.and_eq_true]
  exact ⟨by simp [hds], List.all_eq_true.mpr h.digits⟩

/-- What is read of such a text: an integer if there is at most one sign and only decimal digits
stand behind it, which are not too many. -/
theorem intWithin?_strip (h : IsDashed cs dashes ds) (maxDigits : Option Nat) :
    Numeral.intWithin? maxDigits (strip cs) =
    if dashes ≤ 1 ∧ ds.all isDecimalDigit ∧ Limits.allows maxDigits ds.length then
      some (if dashes = 1 then -(Numeral.valueOf ds : Int) else Numeral.valueOf ds)
    else none := by
  have htrim : trim Numeral.isMargin (List.replicate dashes '-' ++ ds) =
      List.replicate dashes '-' ++ ds := by
    refine trim_eq_self (List.append_ne_nil_of_right_ne_nil _ h.ne_nil) fun c hc => ?_
    rw [Numeral.isMargin, h.not_isBlank c hc, Bool.false_and]
  have hplain : '_' ∉ ds := fun hmem => by
    have hdigit := h.digits _ hmem
    revert hdigit
    decide
  rw [h.strip_eq]
  match dashes with
  | 0 =>
    obtain ⟨c, rest, hds⟩ := List.exists_cons_of_ne_nil h.ne_nil
    have hsign : Numeral.sign ds = (false, ds) := by
      rw [hds, Numeral.sign]
      · rintro _ hcons
        exact h.head_ne hds (by decide : isDigit '-' = false) (List.cons.inj hcons).1
      · rintro _ hcons
        exact h.head_ne hds (by decide : isDigit '+' = false) (List.cons.inj hcons).1
    rw [Numeral.intWithin?_of_sign (by rw [htrim]; exact hsign) hplain h.ne_nil]
    simp
  | 1 =>
    rw [Numeral.intWithin?_of_sign (by rw [htrim]; rfl) hplain h.ne_nil]
    simp
  | dashes + 2 =>
    have hsign : Numeral.sign (trim Numeral.isMargin (List.replicate (dashes + 2) '-' ++ ds)) =
        (true, '-' :: (List.replicate dashes '-' ++ ds)) := by
      rw [htrim]
      rfl
    have hdash : ¬('-' :: (List.replicate dashes '-' ++ ds)).all isDecimalDigit = true :=
      fun hall => absurd (List.all_eq_true.mp hall '-' List.mem_cons_self) (by decide)
    rw [Numeral.intWithin?_of_sign hsign (by simp [hplain]) (List.cons_ne_nil _ _),
      if_neg (fun hread => hdash hread.1), if_neg (by omega)]

end IsDashed

theorem looksNumeric_iff {cs : List Char} :
    looksNumeric cs = true ↔ ∃ dashes ds, IsDashed cs dashes ds := by
  constructor
  · intro h
    rw [looksNumeric, isDigits, Bool.and_eq_true, List.all_eq_true] at h
    obtain ⟨before, after, haround, hblank⟩ := exists_trim_append isBlank cs
    have hdashes : (strip cs).takeWhile (· = '-') =
        List.replicate ((strip cs).takeWhile (· = '-')).length '-' :=
      List.eq_replicate_of_mem fun c hc => by simpa using List.mem_takeWhile_imp hc
    refine ⟨((strip cs).takeWhile (· = '-')).length, (strip cs).dropWhile (· = '-'),
      by simpa using h.1, h.2, before, after, ?_, hblank⟩
    rw [← hdashes, List.takeWhile_append_dropWhile]
    exact haround
  · rintro ⟨dashes, ds, h⟩
    exact h.looksNumeric

/-- A text looks like an integer and is not read as one: it has a second minus sign, a digit that is
not decimal, or too many digits. -/
def IsMisspelt (limits : Limits) (value : Json) : Prop :=
  ∃ s dashes ds, value = .str s ∧ IsDashed s.toList dashes ds ∧
    (2 ≤ dashes ∨ (∃ c ∈ ds, isDecimalDigit c = false) ∨
      ∃ most ∈ limits.maxDigits, most < ds.length)

/-- A value is no integer in any form, and no text that looks like one. -/
structure IsNoBound (value : Json) : Prop where
  int : ∀ n, value ≠ .int n
  double : ∀ d n, value = .double d → ¬d.Equals n
  text : ∀ s dashes ds, value = .str s → ¬IsDashed s.toList dashes ds

/-- What becomes of the value of a time bound. -/
inductive BoundOf (limits : Limits) (name : String) : Json → Except TimeBoundError Int → Prop
  | int (n : Int) : BoundOf limits name (.int n) (.ok n)
  | double {d : Double} {n : Int} (h : d.Equals n) : BoundOf limits name (.double d) (.ok n)
  | digits {s : String} {ds : List Char} (h : IsDashed s.toList 0 ds)
      (hdecimal : ∀ c ∈ ds, isDecimalDigit c = true)
      (hlength : ∀ most ∈ limits.maxDigits, ds.length ≤ most) :
      BoundOf limits name (.str s) (.ok (Numeral.valueOf ds))
  | negated {s : String} {ds : List Char} (h : IsDashed s.toList 1 ds)
      (hdecimal : ∀ c ∈ ds, isDecimalDigit c = true)
      (hlength : ∀ most ∈ limits.maxDigits, ds.length ≤ most) :
      BoundOf limits name (.str s) (.ok (-(Numeral.valueOf ds : Int)))
  | misspelt {value : Json} (h : IsMisspelt limits value) :
      BoundOf limits name value (.error (.fault .notANumber))
  | refused {value : Json} (h : IsNoBound value) (hshown : value.IsShown limits) :
      BoundOf limits name value (.error (.refused name value))
  | unshown {value : Json} {f : Fault} (h : IsNoBound value) (hshown : ¬value.IsShown limits)
      (hfault : value.unshown? limits 0 = some f) : BoundOf limits name value (.error (.fault f))

theorem isNoBound_of_kind {value : Json} (hint : ∀ n, value ≠ .int n)
    (hdouble : ∀ d, value ≠ .double d) (htext : ∀ s, value ≠ .str s) : IsNoBound value :=
  ⟨hint, fun d _ heq => absurd heq (hdouble d), fun s _ _ heq => absurd heq (htext s)⟩

section Bounds

variable {limits : Limits} {name : String} {value : Json} {result : Except TimeBoundError Int}

theorem timeBound_of_isDashed {s : String} {dashes : Nat} {ds : List Char}
    (h : IsDashed s.toList dashes ds) : timeBound limits name (.str s) =
      if dashes ≤ 1 ∧ ds.all isDecimalDigit ∧ Limits.allows limits.maxDigits ds.length then
        .ok (if dashes = 1 then -(Numeral.valueOf ds : Int) else Numeral.valueOf ds)
      else .error (.fault .notANumber) := by
  rw [timeBound, if_pos h.looksNumeric, h.intWithin?_strip]
  by_cases hread :
      dashes ≤ 1 ∧ ds.all isDecimalDigit = true ∧ Limits.allows limits.maxDigits ds.length = true
  · rw [if_pos hread, if_pos hread]
  · rw [if_neg hread, if_neg hread]

theorem timeBound_of_isMisspelt (h : IsMisspelt limits value) :
    timeBound limits name value = .error (.fault .notANumber) := by
  obtain ⟨s, dashes, ds, rfl, hdashed, hbad⟩ := h
  rw [timeBound_of_isDashed hdashed, if_neg]
  rintro ⟨hdashes, hdecimal, hlength⟩
  rcases hbad with hbad | ⟨c, hc, hbad⟩ | ⟨most, hmost, hbad⟩
  · omega
  · rw [List.all_eq_true.mp hdecimal c hc] at hbad
    cases hbad
  · exact Nat.not_le.mpr hbad (Limits.allows_iff.mp hlength most hmost)

/-- A value that is no bound is refused, if the refusal can show it. -/
theorem timeBound_of_isNoBound (h : IsNoBound value) :
    timeBound limits name value = refuse limits name value := by
  cases value with
  | int n => exact absurd rfl (h.int n)
  | double d =>
    have hnone : d.toInt? = none := Option.eq_none_iff_forall_ne_some.mpr fun n hn =>
      h.double d n rfl (Double.toInt?_eq_some_iff.mp hn)
    rw [timeBound, Setting.whole?, hnone]
    nofun
  | str s =>
    rw [timeBound, if_neg]
    intro hlooks
    obtain ⟨dashes, ds, hdashed⟩ := looksNumeric_iff.mp hlooks
    exact h.text s dashes ds rfl hdashed
  | _ => rfl

theorem boundOf_refuse (h : IsNoBound value) :
    BoundOf limits name value (refuse limits name value) := by
  cases hfault : value.unshown? limits 0 with
  | none =>
    rw [refuse, hfault]
    exact .refused h (Json.unshown?_eq_none_iff.mp hfault)
  | some f =>
    rw [refuse, hfault]
    refine .unshown h (fun hshown => ?_) hfault
    rw [Json.unshown?_eq_none_iff.mpr hshown] at hfault
    cases hfault

theorem boundOf_of_isDashed {s : String} {dashes : Nat} {ds : List Char}
    (h : IsDashed s.toList dashes ds) :
    BoundOf limits name (.str s) (timeBound limits name (.str s)) := by
  by_cases hread :
      dashes ≤ 1 ∧ ds.all isDecimalDigit = true ∧ Limits.allows limits.maxDigits ds.length = true
  · rw [timeBound_of_isDashed h, if_pos hread]
    obtain ⟨hdashes, hdecimal, hlength⟩ := hread
    rw [List.all_eq_true] at hdecimal
    match dashes with
    | 0 => exact .digits h hdecimal (Limits.allows_iff.mp hlength)
    | 1 => exact .negated h hdecimal (Limits.allows_iff.mp hlength)
    | dashes + 2 => exact absurd hdashes (by omega)
  · have hmisspelt : IsMisspelt limits (.str s) := by
      refine ⟨s, dashes, ds, rfl, h, ?_⟩
      rw [List.all_eq_true, Limits.allows_iff] at hread
      by_contra hspelt
      push Not at hspelt
      exact hread ⟨by omega, fun c hc => by simpa using hspelt.2.1 c hc, hspelt.2.2⟩
    rw [timeBound_of_isMisspelt hmisspelt]
    exact .misspelt hmisspelt

theorem boundOf_timeBound (limits : Limits) (name : String) (value : Json) :
    BoundOf limits name value (timeBound limits name value) := by
  have hno : IsNoBound value → BoundOf limits name value (timeBound limits name value) := by
    intro h
    rw [timeBound_of_isNoBound h]
    exact boundOf_refuse h
  cases value with
  | int n => exact .int n
  | double d =>
    cases hd : d.toInt? with
    | some n =>
      rw [timeBound, Setting.whole?, hd]
      · exact .double (Double.toInt?_eq_some_iff.mp hd)
      · nofun
    | none =>
      refine hno ⟨nofun, fun d' n heq hequals => ?_, nofun⟩
      cases heq
      rw [Double.toInt?_eq_some_iff.mpr hequals] at hd
      cases hd
  | str s =>
    by_cases hdashed : ∃ dashes ds, IsDashed s.toList dashes ds
    · obtain ⟨dashes, ds, h⟩ := hdashed
      exact boundOf_of_isDashed h
    · refine hno ⟨nofun, nofun, fun s' dashes ds heq h => ?_⟩
      cases heq
      exact hdashed ⟨dashes, ds, h⟩
  | null | bool _ | arr _ | obj _ => exact hno (isNoBound_of_kind nofun nofun nofun)

theorem timeBound_eq_iff :
    timeBound limits name value = result ↔ BoundOf limits name value result := by
  constructor
  · rintro rfl
    exact boundOf_timeBound limits name value
  · intro h
    cases h with
    | int n => rfl
    | double h =>
      rw [timeBound, Setting.whole?, Double.toInt?_eq_some_iff.mpr h]
      nofun
    | digits h hdecimal hlength =>
      rw [timeBound_of_isDashed h,
        if_pos ⟨by omega, List.all_eq_true.mpr hdecimal, Limits.allows_iff.mpr hlength⟩]
      rfl
    | negated h hdecimal hlength =>
      rw [timeBound_of_isDashed h,
        if_pos ⟨by omega, List.all_eq_true.mpr hdecimal, Limits.allows_iff.mpr hlength⟩]
      rfl
    | misspelt h => exact timeBound_of_isMisspelt h
    | refused h hshown =>
      rw [timeBound_of_isNoBound h, refuse, Json.unshown?_eq_none_iff.mpr hshown]
    | unshown h _ hfault => rw [timeBound_of_isNoBound h, refuse, hfault]

theorem isDashed_intText (n : Int) {before after : List Char}
    (hblank : ∀ c ∈ before ++ after, isBlank c = true) :
    IsDashed (before ++ intText n ++ after) (if n < 0 then 1 else 0) (natText n.natAbs) where
  ne_nil := natText_ne_nil _
  digits c hc := by
    have hdigit := (digits_natText n.natAbs).digits c hc
    rw [isDigit, isDecimalDigit_of_isDigit hdigit, Bool.true_or]
  around := by
    refine ⟨before, after, ?_, hblank⟩
    rw [intText]
    split <;> rfl

theorem valueOf_natText (n : Nat) : Numeral.valueOf (natText n) = n := by
  rw [Numeral.valueOf, (digits_natText n).filterMap_eq, (digits_natText n).ofDigits_map]

theorem timeBound_intText (name : String) (n : Int)
    (hlength : ∀ most ∈ limits.maxDigits, (natText n.natAbs).length ≤ most)
    {before after : List Char} (hblank : ∀ c ∈ before ++ after, isBlank c = true) :
    timeBound limits name (.str (String.ofList (before ++ intText n ++ after))) = .ok n := by
  have hdecimal : (natText n.natAbs).all isDecimalDigit = true :=
    List.all_eq_true.mpr fun c hc =>
      isDecimalDigit_of_isDigit ((digits_natText n.natAbs).digits c hc)
  have hallows := Limits.allows_iff.mpr hlength
  have hdashed := isDashed_intText n hblank
  rw [← String.toList_ofList (l := before ++ intText n ++ after)] at hdashed
  rw [timeBound_of_isDashed hdashed, valueOf_natText]
  by_cases hneg : n < 0
  · rw [if_pos hneg, if_pos ⟨Nat.le_refl 1, hdecimal, hallows⟩, if_pos rfl]
    exact congrArg Except.ok (by omega)
  · rw [if_neg hneg, if_pos ⟨Nat.zero_le 1, hdecimal, hallows⟩, if_neg Nat.zero_ne_one]
    exact congrArg Except.ok (by omega)

end Bounds

/-- A time bound is read, or refused by an answer that names it, unless it is a text that looks like
an integer and is not read as one, or no bound and too large to be shown. Each value is read as the
integer that it is, if it is one, and so is the decimal text of each integer that is not too long,
with blanks around it. -/
theorem timeBound_settled_iff (limits : Limits) (name : String) (value : Json) :
    (((∃ n, timeBound limits name value = .ok n) ∨ ∃ e, timeBound limits name value = .error e ∧
        e.answer = .detail 400 (refusedBoundMessage name value)) ↔
      ¬IsMisspelt limits value ∧ (IsNoBound value → value.IsShown limits)) ∧
    (∀ result, timeBound limits name value = result ↔ BoundOf limits name value result) ∧
    ∀ (n : Int) (before after : List Char), (∀ c ∈ before ++ after, isBlank c = true) →
      (∀ most ∈ limits.maxDigits, (natText n.natAbs).length ≤ most) →
      timeBound limits name (.str (String.ofList (before ++ intText n ++ after))) = .ok n := by
  refine ⟨⟨fun hsettled => ?_, fun ⟨hspelt, hshown⟩ => ?_⟩, fun result => timeBound_eq_iff,
    fun n before after hblank hlength => timeBound_intText name n hlength hblank⟩
  · have hfault : ∀ f, timeBound limits name value ≠ .error (.fault f) := by
      rintro f h
      rcases hsettled with ⟨n, hn⟩ | ⟨e, he, hanswer⟩
      · rw [h] at hn
        cases hn
      · rw [h] at he
        cases he
        cases hanswer
    refine ⟨fun h => hfault _ (timeBound_of_isMisspelt h), fun h => ?_⟩
    by_contra hshown
    cases hunshown : value.unshown? limits 0 with
    | none => exact hshown (Json.unshown?_eq_none_iff.mp hunshown)
    | some f => exact hfault f (timeBound_eq_iff.mpr (.unshown h hshown hunshown))
  · cases hresult : timeBound limits name value with
    | ok n => exact .inl ⟨n, rfl⟩
    | error e =>
      cases timeBound_eq_iff.mp hresult with
      | misspelt h => exact absurd h hspelt
      | refused h => exact .inr ⟨_, rfl, rfl⟩
      | unshown h hnot => exact absurd (hshown h) hnot

/-- A negative bound among blanks. -/
theorem timeBound_settled_negative :
    timeBound .standard "from" (.str (String.ofList ([' '] ++ intText (-5) ++ ['\n']))) =
      .ok (-5) :=
  (timeBound_settled_iff .standard "from" .null).2.2 (-5) [' '] ['\n'] (List.all_eq_true.mp rfl)
    (Limits.allows_iff.mp rfl)

theorem timeBound_twoDashes : (∀ n, timeBound .standard "from" (.str "--5") ≠ .ok n) ∧
    ∃ e, timeBound .standard "from" (.str "--5") = .error e ∧ e.answer.status = 500 := by
  have hfault : timeBound .standard "from" (.str "--5") = .error (.fault .notANumber) := by
    refine timeBound_of_isMisspelt
      ⟨"--5", 2, ['5'], rfl, ⟨by decide, List.all_eq_true.mp rfl, [], [], ?_, ?_⟩, ?_⟩
    · rfl
    · simp
    · exact .inl (Nat.le_refl 2)
  exact ⟨by simp [hfault], _, hfault, rfl⟩

end PanelSearch
