import PanelSearch.Proofs.Time.Rfc2822
import PanelSearch.Proofs.Time.Rfc3339

/-! What a format encodes it decodes to the same instant, rounded down to what the format can tell
apart. A text whose year is shorter than four digits is not decoded at all. -/

namespace PanelSearch

open TimeFormat

/-- The numeric formats and the nanoseconds in their units. -/
def numericFormats : List (String × Int) := [
  ("unix_timestamp_secs", nanosPerSecond), ("unix_timestamp_millis", 1000000),
  ("unix_timestamp_micros", 1000), ("unix_timestamp_nanos", 1)]

/-- The textual formats that are no layouts, and the nanoseconds in what they tell apart. -/
def textFormats : List (String × Int) := [
  ("rfc3339", 1), ("iso8601", 1), ("rfc2822", nanosPerSecond), ("rfc2822z", nanosPerSecond)]

/-- The year that an instant lies in, in UTC. -/
def utcYear (ns : Int) : Int := (DateTime.ofNanos ns).date.year

namespace Time

theorem exists_utcYear_eq {ns : Int} (h : inCalendar ns = true) :
    ∃ year : Nat, (DateTime.ofNanos ns).date.year = year ∧ year < 10000 := by
  have hyear := (DateTime.inCalendar_iff ns).mp h
  exact ⟨(DateTime.ofNanos ns).date.year.toNat, by omega, by omega⟩

theorem exists_digits_of_le {ns : Int} (h : inCalendar ns = true) (hfrom : 1000 ≤ utcYear ns) :
    ∃ year : Nat, (DateTime.ofNanos ns).date.year = year ∧ Digits 4 year (natText year) := by
  obtain ⟨year, hyear, hto⟩ := exists_utcYear_eq h
  rw [utcYear, hyear] at hfrom
  exact ⟨year, hyear, digits_natText_of_le (by decide) (by omega) hto⟩

theorem exists_length_of_lt {ns : Int} (h : inCalendar ns = true) (hlt : utcYear ns < 1000) :
    ∃ year : Nat, (DateTime.ofNanos ns).date.year = year ∧ (natText year).length < 4 := by
  obtain ⟨year, hyear, -⟩ := exists_utcYear_eq h
  rw [utcYear, hyear] at hlt
  have hlength : (natText year).length ≤ 3 := by
    rw [length_natText_le_iff (by decide)]
    omega
  exact ⟨year, hyear, Nat.lt_succ_of_le hlength⟩

/-- A format writes the instants of the calendar as texts, and it reads them back, up to a unit,
just when their years have four digits. -/
structure Rereads (format : String) (unit : Int) (text : Int → String) : Prop where
  encode_eq : ∀ ns, encode format ns =
    if inCalendar ns then .ok (.str (text ns)) else .error .beyondRange
  decode_of_le : ∀ ns, inCalendar ns = true → 1000 ≤ utcYear ns →
    decode format (.str (text ns)) = .ok (ns / unit * unit)
  decode_of_lt : ∀ ns, inCalendar ns = true → utcYear ns < 1000 →
    decode format (.str (text ns)) = .error (.notRfc3339 (text ns)) ∨
      ∃ layout, decode format (.str (text ns)) = .error (.notByLayout (text ns) layout)

theorem rereads_rfc3339 {format : String}
    (hencode : ∀ ns, encode format ns = (rfc3339Text ns).map .str)
    (hdecode : ∀ text, decode format (.str text) = ofRfc3339 text) :
    Rereads format 1 Rfc3339.text where
  encode_eq ns := by
    rw [hencode, rfc3339Text]
    split <;> rfl
  decode_of_le ns hin hfrom := by
    obtain ⟨year, hyear, hdigits⟩ := exists_digits_of_le hin hfrom
    rw [hdecode, ofRfc3339, Rfc3339.nanos?_text hin hyear hdigits, Int.ediv_one, Int.mul_one]
  decode_of_lt ns hin hlt := by
    obtain ⟨year, hyear, hlength⟩ := exists_length_of_lt hin hlt
    apply Or.inl
    rw [hdecode, ofRfc3339, Rfc3339.nanos?_text_eq_none hyear hlength]

/-- A layout that writes what the RFC 2822 layouts read. -/
theorem rereads_layout {format layout : String} {written : String} {last : Layout.Directive}
    {mark : List Char} (hencode : ∀ ns, encode format ns = (layoutText written ns).map .str)
    (hdecode : ∀ text, decode format (.str text) = ofLayout layout text)
    (htext : ∀ t : DateTime, t.isValid = true → ∀ year : Nat, t.date.year = year →
      (Layout.text written t).toList = Layout.stamp t year mark)
    (hitems : Layout.items? layout = some (Layout.stampItems last))
    (hmark : Layout.UtcMark last mark) :
    Rereads format nanosPerSecond fun ns => Layout.text written (.ofNanos ns) where
  encode_eq ns := by
    rw [hencode, layoutText]
    split <;> rfl
  decode_of_le ns hin hfrom := by
    obtain ⟨year, hyear, hdigits⟩ := exists_digits_of_le hin hfrom
    have hvalid := DateTime.isValid_ofNanos hin
    rw [hdecode, ofLayout,
      Layout.nanos_stamp hitems hmark (htext _ hvalid _ hyear) hvalid hyear hdigits,
      DateTime.nanos_wholeSecond]
  decode_of_lt ns hin hlt := by
    obtain ⟨year, hyear, hlength⟩ := exists_length_of_lt hin hlt
    have hvalid := DateTime.isValid_ofNanos hin
    refine Or.inr ⟨layout, ?_⟩
    rw [hdecode, ofLayout, Layout.nanos_stamp_eq_error hitems hmark (htext _ hvalid _ hyear)
      (DateTime.bounds_of_isValid hvalid) hlength]

theorem rereads_textFormats : ∀ f ∈ textFormats, ∃ text, Rereads f.1 f.2 text := by
  have hgmt : ∀ t : DateTime, t.isValid = true → ∀ year : Nat, t.date.year = year →
      (Layout.text "%a, %d %b %Y %H:%M:%S GMT" t).toList = Layout.stamp t year "GMT".toList :=
    fun t h year hyear =>
      Layout.toList_text_eq_stamp rfl (by decide) (by decide +kernel) h hyear
  have hoffset : ∀ t : DateTime, t.isValid = true → ∀ year : Nat, t.date.year = year →
      (Layout.text "%a, %d %b %Y %H:%M:%S %z" t).toList = Layout.stamp t year "+0000".toList :=
    fun t h year hyear =>
      Layout.toList_text_eq_stamp rfl (by decide) (by decide +kernel) h hyear
  intro f hf
  simp only [textFormats, List.mem_cons, List.not_mem_nil, or_false] at hf
  rcases hf with rfl | rfl | rfl | rfl
  · exact ⟨_, rereads_rfc3339 (fun _ => rfl) fun _ => rfl⟩
  · exact ⟨_, rereads_rfc3339 (fun _ => rfl) fun _ => rfl⟩
  · exact ⟨_, rereads_layout (fun _ => rfl) (fun _ => rfl) hgmt Layout.items?_rfc2822Layout
      Layout.utcMark_gmt⟩
  · exact ⟨_, rereads_layout (fun _ => rfl) (fun _ => rfl) hoffset Layout.items?_rfc2822zLayout
      Layout.utcMark_offset⟩

theorem Rereads.eq_text {format : String} {unit : Int} {text : Int → String}
    (h : Rereads format unit text) {ns : Int} {value : Json}
    (hvalue : encode format ns = .ok value) : inCalendar ns = true ∧
      value = .str (text ns) := by
  rw [h.encode_eq] at hvalue
  by_cases hin : inCalendar ns = true
  · rw [if_pos hin] at hvalue
    cases hvalue
    exact ⟨hin, rfl⟩
  · rw [if_neg hin] at hvalue
    cases hvalue

theorem Rereads.exists_encode_iff {format : String} {unit : Int} {text : Int → String}
    (h : Rereads format unit text) (ns : Int) :
    (∃ value, encode format ns = .ok value) ↔ 1 ≤ utcYear ns ∧ utcYear ns ≤ 9999 := by
  rw [utcYear, ← DateTime.inCalendar_iff]
  constructor
  · rintro ⟨value, hvalue⟩
    exact (h.eq_text hvalue).1
  · intro hin
    exact ⟨_, (h.encode_eq ns).trans (if_pos hin)⟩

/-- Numbers go both ways at every instant, and texts at those whose years have four digits. The
texts of the earlier instants of the calendar are not taken for others. -/
theorem decode_encode (ns : Int) :
    (∀ f ∈ numericFormats, ∃ value,
      encode f.1 ns = .ok value ∧ decode f.1 value = .ok (ns / f.2 * f.2)) ∧
    (∀ f ∈ textFormats, 1000 ≤ utcYear ns → utcYear ns ≤ 9999 → ∃ value,
      encode f.1 ns = .ok value ∧ decode f.1 value = .ok (ns / f.2 * f.2)) ∧
    ∀ f ∈ textFormats, utcYear ns < 1000 →
      ((∃ value, encode f.1 ns = .ok value) ↔ 1 ≤ utcYear ns) ∧
      ∀ value, encode f.1 ns = .ok value → ∃ text, value = .str text ∧
        (decode f.1 value = .error (.notRfc3339 text) ∨
          ∃ layout, decode f.1 value = .error (.notByLayout text layout)) := by
  refine ⟨fun f hf => ?_, fun f hf hfrom hto => ?_, fun f hf hlt => ?_⟩
  · simp only [numericFormats, List.mem_cons, List.not_mem_nil, or_false] at hf
    rcases hf with rfl | rfl | rfl | rfl <;> exact ⟨_, rfl, rfl⟩
  · obtain ⟨text, hrereads⟩ := rereads_textFormats f hf
    obtain ⟨value, hvalue⟩ :=
      (hrereads.exists_encode_iff ns).mpr ⟨Int.le_trans (by decide) hfrom, hto⟩
    obtain ⟨hin, rfl⟩ := hrereads.eq_text hvalue
    exact ⟨_, hvalue, hrereads.decode_of_le ns hin hfrom⟩
  · obtain ⟨text, hrereads⟩ := rereads_textFormats f hf
    constructor
    · rw [hrereads.exists_encode_iff]
      omega
    · intro value hvalue
      obtain ⟨hin, rfl⟩ := hrereads.eq_text hvalue
      exact ⟨text ns, rfl, hrereads.decode_of_lt ns hin hlt⟩

/-- The last nanosecond before the epoch is read back to its second, and the last second of the year
999 is not read at all. -/
theorem decode_encode_beforeEpoch :
    (∃ value, encode "rfc2822" (-1) = .ok value ∧
      decode "rfc2822" value = .ok (-nanosPerSecond)) ∧
    ∃ text, encode "rfc3339" (-30610224001 * nanosPerSecond) = .ok (.str text) ∧
      (decode "rfc3339" (.str text) = .error (.notRfc3339 text) ∨
        ∃ layout, decode "rfc3339" (.str text) = .error (.notByLayout text layout)) := by
  have hepoch := decode_encode (-1)
  have hearly := decode_encode (-30610224001 * nanosPerSecond)
  have hyear : utcYear (-30610224001 * nanosPerSecond) = 999 := by decide
  constructor
  · exact hepoch.2.1 ("rfc2822", nanosPerSecond) (by decide) (by decide) (by decide)
  · obtain ⟨hiff, hunread⟩ :=
      hearly.2.2 ("rfc3339", 1) (by decide) (by rw [hyear]; decide)
    obtain ⟨value, hvalue⟩ := hiff.mpr (by rw [hyear]; decide)
    obtain ⟨text, rfl, hdecode⟩ := hunread value hvalue
    exact ⟨text, hvalue, hdecode⟩

end Time

end PanelSearch
