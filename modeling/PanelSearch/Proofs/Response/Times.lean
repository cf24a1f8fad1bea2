import PanelSearch.Proofs.Number.Integer
import PanelSearch.Proofs.Time.Refused
import PanelSearch.Response.Documents

/-! The time of a document. It is an instant just when its value is decoded to one, and null for any
other value, with one exception: a text that is to be read by a layout in which a directive stands
twice stops the work. -/

namespace PanelSearch.Document

variable {known : ConfiguredFields} {doc : Document} {hit : Hit}

/-- A text that is to be read by a layout in which a directive stands twice. -/
def IsRefused (known : ConfiguredFields) (value : Json) : Prop :=
  (∃ text, value = .str text) ∧
    ∃ layout, TimeFormat.ofName known.timeFormat = .layout layout ∧ Layout.NamesTwice layout

theorem decodeTime_eq_repeated_iff {value : Json} {refused : String} :
    decodeTime known value = .error (.repeatedDirective refused) ↔
      (∃ text, value = .str text) ∧ TimeFormat.ofName known.timeFormat = .layout refused ∧
        Layout.NamesTwice refused := by
  unfold decodeTime
  by_cases hempty : known.timeFormat = ""
  · have hunset : TimeFormat.ofName "" = .unset := rfl
    simp [hempty, hunset, Time.infer_ne_repeated]
  · rw [if_neg (by simpa using hempty), Time.decode_eq_repeated_iff]

theorem isRefused_iff {value : Json} : IsRefused known value ↔
    ∃ layout, decodeTime known value = .error (.repeatedDirective layout) := by
  simp only [decodeTime_eq_repeated_iff, IsRefused, exists_and_left]

/-- Null and the booleans are no times in any format. -/
theorem decodeTime_of_isNull_or_isBool (known : ConfiguredFields) {value : Json}
    (h : (value.isNull || value.isBool) = true) : ∃ e, decodeTime known value = .error e := by
  unfold decodeTime Time.infer Time.decode
  cases value with
  | null | bool =>
    split
    · exact ⟨_, rfl⟩
    · cases TimeFormat.ofName known.timeFormat <;> exact ⟨_, rfl⟩
  | _ => cases h

theorem not_isRefused_of_isNull_or_isBool {value : Json}
    (h : (value.isNull || value.isBool) = true) : ¬IsRefused known value := by
  rintro ⟨⟨text, rfl⟩, -⟩
  cases h

theorem time?_eq_some_iff {t : Instant} : time? known doc hit = .ok (some t) ↔
    ∃ ns, decodeTime known (timeValue known doc hit) = .ok ns ∧ Instant.ofNanos? ns = some t := by
  unfold time?
  dsimp only
  split
  · rename_i hno
    obtain ⟨e, he⟩ := decodeTime_of_isNull_or_isBool known hno
    simp [he]
  · split <;> rename_i hdecode <;> simp [hdecode]

theorem time?_eq_error_iff {f : Fault} : time? known doc hit = .error f ↔
    f = .repeatedDirective ∧ IsRefused known (timeValue known doc hit) := by
  unfold time?
  dsimp only
  split
  · rename_i hno
    simp [not_isRefused_of_isNull_or_isBool hno]
  · rw [isRefused_iff]
    split
    · rename_i hdecode
      simp [hdecode]
    · rename_i hdecode
      simp [hdecode, eq_comm]
    · rename_i e hother hdecode
      have hne : ∀ layout, e ≠ .repeatedDirective layout := hother
      simp [hdecode, hne]

/-- The time of a document is null or an instant, except where a layout is refused; and it is an
instant just when its value is decoded to one of the calendar. -/
theorem time?_isOk_iff (known : ConfiguredFields) (doc : Document) (hit : Hit) :
    ((∃ t, time? known doc hit = .ok t) ↔ ¬IsRefused known (timeValue known doc hit)) ∧
    ∀ t, time? known doc hit = .ok (some t) ↔ ∃ ns,
      decodeTime known (timeValue known doc hit) = .ok ns ∧ Instant.ofNanos? ns = some t := by
  refine ⟨?_, fun t => time?_eq_some_iff⟩
  have herror : ∀ f, time? known doc hit = .error f ↔
      f = .repeatedDirective ∧ IsRefused known (timeValue known doc hit) :=
    fun _ => time?_eq_error_iff
  cases htime : time? known doc hit with
  | ok t => simpa [htime] using herror .repeatedDirective
  | error f => simpa [htime] using ((herror f).mp htime).2

/-- By a layout with the year in it twice no text is null; it stops the work. -/
theorem twiceYear_stops : ¬∀ (known : ConfiguredFields) (doc : Document) (hit : Hit),
    ∃ t, time? known doc hit = .ok t := by
  intro h
  have hstop : time? { timeField := "ts", timeFormat := "%Y-%Y" } [("ts", .str "2024-2024")] [] =
      .error .repeatedDirective := by rfl
  obtain ⟨t, ht⟩ := h { timeField := "ts", timeFormat := "%Y-%Y" } [("ts", .str "2024-2024")] []
  rw [hstop] at ht
  cases ht

end PanelSearch.Document
