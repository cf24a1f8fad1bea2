import PanelSearch.Proofs.Time.Rfc2822
import PanelSearch.Proofs.Traversal

/-! Layouts that are refused. A layout that names a directive twice is refused whatever the text is;
no other format and no other value is, so that this is the one error of decoding that does not come
from the value. -/

namespace PanelSearch

open Traversal

namespace Layout

/-- The layout can be taken apart, and a directive stands in it twice. -/
def NamesTwice (layout : String) : Prop :=
  ∃ items, items? layout = some items ∧ ¬(directives items).Nodup

theorem namesTwice_iff {layout : String} {items : List Item} (h : items? layout = some items) :
    NamesTwice layout ↔ ¬(directives items).Nodup := by
  simp [NamesTwice, h]

theorem nanos_eq_repeated_iff {layout : String} (text : String) :
    nanos layout text = .error .repeated ↔ NamesTwice layout := by
  unfold nanos
  cases hitems : items? layout with
  | none => simp [NamesTwice, hitems]
  | some items =>
    rw [namesTwice_iff hitems]
    by_cases hdistinct : (directives items).Nodup
    · simp only [hdistinct, if_true, not_true_eq_false, iff_false]
      split
      · split <;> simp
      · simp
    · simp [hdistinct]

theorem not_namesTwice_rfc2822 : ¬NamesTwice TimeFormat.rfc2822Layout := by
  rw [namesTwice_iff items?_rfc2822Layout, not_not]
  exact utcMark_gmt.directives

theorem not_namesTwice_rfc2822z : ¬NamesTwice TimeFormat.rfc2822zLayout := by
  rw [namesTwice_iff items?_rfc2822zLayout, not_not]
  exact utcMark_offset.directives

end Layout

namespace Time

variable {layout text refused : String}

theorem ofLayout_eq_repeated_iff :
    ofLayout layout text = .error (.repeatedDirective refused) ↔
      layout = refused ∧ Layout.NamesTwice layout := by
  rw [← Layout.nanos_eq_repeated_iff text, ofLayout]
  split <;> rename_i hnanos <;> simp [hnanos]

theorem wholeNumber_ne_repeated (value : Json) (refused : String) :
    wholeNumber value ≠ .error (.repeatedDirective refused) := by
  unfold wholeNumber
  split
  · simp
  · split <;> simp
  · simp

theorem ofRfc3339_ne_repeated (text refused : String) :
    ofRfc3339 text ≠ .error (.repeatedDirective refused) := by
  unfold ofRfc3339
  split <;> simp

theorem infer_ne_repeated (value : Json) (refused : String) :
    infer value ≠ .error (.repeatedDirective refused) := by
  unfold infer
  split
  · exact ofRfc3339_ne_repeated _ refused
  · exact fun h => wholeNumber_ne_repeated value refused (map_eq_error_iff.mp h)

/-- Only a text is decoded by a layout, and only a layout that names a directive twice is refused.
-/
theorem decode_eq_repeated_iff {format : String} {value : Json} :
    decode format value = .error (.repeatedDirective refused) ↔
      (∃ text, value = .str text) ∧ TimeFormat.ofName format = .layout refused ∧
        Layout.NamesTwice refused := by
  unfold decode
  cases hname : TimeFormat.ofName format with
  | layout layout =>
    cases value with
    | str text => simp +contextual [ofLayout_eq_repeated_iff]
    | _ => simp
  | rfc2822 => cases value <;> simp [ofLayout_eq_repeated_iff, Layout.not_namesTwice_rfc2822]
  | rfc2822z => cases value <;> simp [ofLayout_eq_repeated_iff, Layout.not_namesTwice_rfc2822z]
  | rfc3339 => cases value <;> simp [ofRfc3339_ne_repeated]
  | unix unit => cases value <;> simp [map_eq_error_iff, wholeNumber_ne_repeated]
  | unset => cases value <;> simp

end Time

end PanelSearch
