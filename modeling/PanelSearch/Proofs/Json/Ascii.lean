import PanelSearch.Proofs.Json.Basic
import PanelSearch.Proofs.Json.Escape

/-! The compact text of a value is printable ASCII whatever texts the value holds, and in UTF-8 each
of its characters is one byte. -/

namespace PanelSearch

open Text

def IsPrintableAscii (cs : List Char) : Prop := ∀ c ∈ cs, 0x20 ≤ c.toNat ∧ c.toNat < 0x7F

instance (cs : List Char) : Decidable (IsPrintableAscii cs) :=
  List.decidableBAll _ cs

namespace IsPrintableAscii

variable {as bs cs : List Char}

theorem append (ha : IsPrintableAscii as) (hb : IsPrintableAscii bs) :
    IsPrintableAscii (as ++ bs) :=
  List.forall_mem_append.mpr ⟨ha, hb⟩

theorem cons {c : Char} (hc : 0x20 ≤ c.toNat ∧ c.toNat < 0x7F) (h : IsPrintableAscii cs) :
    IsPrintableAscii (c :: cs) :=
  List.forall_mem_cons.mpr ⟨hc, h⟩

theorem ite {P : Prop} [Decidable P] (ha : P → IsPrintableAscii as)
    (hb : ¬P → IsPrintableAscii bs) : IsPrintableAscii (if P then as else bs) := by
  by_cases h : P
  · rw [if_pos h]
    exact ha h
  · rw [if_neg h]
    exact hb h

theorem intercalate {texts : List (List Char)} {sep : List Char} (hsep : IsPrintableAscii sep)
    (h : ∀ cs ∈ texts, IsPrintableAscii cs) : IsPrintableAscii (sep.intercalate texts) := by
  induction texts with
  | nil => simp [IsPrintableAscii]
  | cons a rest ih =>
    have ha : IsPrintableAscii a := h a (by simp)
    have hrest := ih fun cs hcs => h cs (by simp [hcs])
    cases rest with
    | nil => simpa using ha
    | cons b rest =>
      rw [List.intercalate_cons_cons]
      exact (ha.append hsep).append hrest

theorem of_isNumberText (h : IsNumberText cs) : IsPrintableAscii cs := fun c hc =>
  Json.toNat_of_isNumberChar (h c hc)

end IsPrintableAscii

namespace Json

open IsPrintableAscii

theorem isPrintableAscii_unitEscape (n : Nat) : IsPrintableAscii (unitEscape n) := by
  refine cons (by decide) (cons (by decide) fun c hc => ?_)
  have halpha : isNumberChar c = true := by simp [isNumberChar, isAlphanum_of_mem_hexText hc]
  exact toNat_of_isNumberChar halpha

/-- The short escapes are fixed texts, and they come before the characters that stay as they are. -/
theorem isPrintableAscii_escape (c : Char) : IsPrintableAscii (escape c) := by
  rw [escape]
  refine ite (fun _ => by decide) fun _ => ite (fun _ => by decide) fun _ => ?_
  refine ite (fun _ => by decide) fun _ => ite (fun _ => by decide) fun _ => ?_
  refine ite (fun _ => by decide) fun _ => ite (fun _ => by decide) fun _ => ?_
  refine ite (fun _ => by decide) fun _ => ite (fun hc => ?_) fun _ => ?_
  · exact cons hc (by decide)
  · refine ite (fun _ => isPrintableAscii_unitEscape _) fun _ => ?_
    exact (isPrintableAscii_unitEscape _).append (isPrintableAscii_unitEscape _)

theorem isPrintableAscii_quote (s : String) : IsPrintableAscii (quote .compact s) := by
  have hbody : IsPrintableAscii (s.toList.flatMap escape) :=
    List.forall_mem_flatMap.mpr fun c _ => isPrintableAscii_escape c
  rw [quote_compact]
  exact (cons (by decide) hbody).append (by decide)

/-- No text inside a value can bring a line break or a character beyond ASCII into its written
form: those are escaped, and nothing else of the form depends on what texts hold. -/
theorem isPrintableAscii_render (j : Json) : IsPrintableAscii (j.render .compact) := by
  induction j using inductionOn with
  | null => simp only [render]; decide
  | bool b => cases b <;> simp only [render] <;> decide
  | int n => exact of_isNumberText (isNumberText_intText n)
  | double d => exact of_isNumberText (isNumberText_double d)
  | str s => exact isPrintableAscii_quote s
  | arr items ih =>
    rw [render_arr]
    have hitems : IsPrintableAscii (Style.compact.item.intercalate (items.map (render .compact))) :=
      .intercalate (by decide) (List.forall_mem_map.mpr ih)
    exact (cons (by decide) hitems).append (by decide)
  | obj members ih =>
    rw [render_obj]
    have hmember : ∀ m ∈ members, IsPrintableAscii (renderMember .compact m) := fun m hm =>
      ((isPrintableAscii_quote m.1).append (by decide)).append (ih m hm)
    have hmembers : IsPrintableAscii
        (Style.compact.item.intercalate (members.map (renderMember .compact))) :=
      .intercalate (by decide) (List.forall_mem_map.mpr hmember)
    exact (cons (by decide) hmembers).append (by decide)

theorem text_ne_nil (d : Double) : d.text .encoded ≠ [] := by
  cases d with
  | nan => decide
  | infinite negative => cases negative <;> decide
  | finite negative m s canonical =>
    obtain ⟨c, hc, -⟩ := mark_mem_double .encoded negative m s canonical
    exact List.ne_nil_of_mem hc

theorem render_ne_nil (j : Json) : j.render .compact ≠ [] := by
  cases j with
  | null => simp [render]
  | bool b => cases b <;> simp [render]
  | int n => exact intText_ne_nil n
  | double d => exact text_ne_nil d
  | str s => simp [render, quote]
  | arr items => simp [render]
  | obj members => simp [render]

end Json

/-- The bytes of a text in UTF-8. -/
def utf8 (cs : List Char) : List UInt8 := (String.ofList cs).toUTF8.data.toList

theorem utf8_eq_flatMap (cs : List Char) : utf8 cs = cs.flatMap String.utf8EncodeChar := by
  simp [utf8, String.toUTF8, List.utf8Encode]

theorem utf8_append (as bs : List Char) : utf8 (as ++ bs) = utf8 as ++ utf8 bs := by
  simp [utf8_eq_flatMap]

theorem utf8EncodeChar_eq_singleton {c : Char} (hc : c.toNat < 0x80) :
    String.utf8EncodeChar c = [c.val.toUInt8] := by
  refine String.utf8EncodeChar_eq_singleton (Char.utf8Size_eq_one_iff.mpr ?_)
  exact UInt32.le_iff_toNat_le.mpr (Nat.le_of_lt_succ hc)

theorem IsPrintableAscii.utf8_eq_map {cs : List Char} (h : IsPrintableAscii cs) :
    utf8 cs = cs.map fun c => c.val.toUInt8 := by
  rw [utf8_eq_flatMap]
  induction cs with
  | nil => rfl
  | cons c cs ih =>
    have hc : c.toNat < 0x80 := by
      have := h c (by simp)
      omega
    rw [List.flatMap_cons, utf8EncodeChar_eq_singleton hc, ih fun x hx => h x (by simp [hx])]
    rfl

theorem IsPrintableAscii.byte_bounds {cs : List Char} (h : IsPrintableAscii cs) :
    ∀ b ∈ utf8 cs, 0x20 ≤ b ∧ b < 0x7F := by
  intro b hb
  rw [h.utf8_eq_map, List.mem_map] at hb
  obtain ⟨c, hc, rfl⟩ := hb
  have hbounds := h c hc
  have hbyte : c.val.toUInt8.toNat = c.toNat := by
    have hmod : c.val.toUInt8.toNat = c.toNat % 256 := rfl
    omega
  rw [UInt8.le_iff_toNat_le, UInt8.lt_iff_toNat_lt, hbyte]
  exact hbounds

end PanelSearch
