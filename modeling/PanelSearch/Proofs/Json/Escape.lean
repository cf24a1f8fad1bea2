import PanelSearch.Proofs.Number.Text
import PanelSearch.Json.Writer

/-! The escapes of characters inside quotes: a character is written as itself, or as a backslash
and letters, digits, quotes and backslashes behind it. -/

namespace PanelSearch.Json

open Text

theorem isAlphanum_hexDigit (n : Nat) : (hexDigit n).isAlphanum = true := by
  have hall : ∀ m < 16, (Nat.digitChar m).isAlphanum = true := by decide
  exact hall _ (Nat.mod_lt _ (by decide))

theorem isAlphanum_of_mem_hexText {width n : Nat} {c : Char} (h : c ∈ hexText width n) :
    c.isAlphanum = true := by
  induction width generalizing n with
  | zero => simp [hexText] at h
  | succ width ih =>
    rw [hexText, List.mem_append, List.mem_singleton] at h
    rcases h with h | rfl
    · exact ih h
    · exact isAlphanum_hexDigit n

def IsEscapeChar (c : Char) : Prop := c.isAlphanum = true ∨ c = '"' ∨ c = '\\'

/-- `cs` writes the character `c`: it is `c` itself or an escape. -/
def Writes (cs : List Char) (c : Char) : Prop :=
  cs = [c] ∨ ∃ tail, cs = '\\' :: tail ∧ ∀ x ∈ tail, IsEscapeChar x

theorem Writes.ite {P : Prop} [Decidable P] {as bs : List Char} {c : Char} (ha : Writes as c)
    (hb : Writes bs c) : Writes (if P then as else bs) c := by
  by_cases h : P
  · rwa [if_pos h]
  · rwa [if_neg h]

theorem writes_short {x : Char} (c : Char) (hx : IsEscapeChar x) : Writes ['\\', x] c :=
  .inr ⟨[x], rfl, by simpa using hx⟩

theorem unitEscape_tail (n : Nat) : ∃ tail, unitEscape n = '\\' :: tail ∧
    ∀ c ∈ tail, IsEscapeChar c := by
  refine ⟨'u' :: hexText 4 n, rfl, ?_⟩
  rintro c (_ | ⟨_, h⟩)
  · exact Or.inl (by decide)
  · exact Or.inl (isAlphanum_of_mem_hexText h)

theorem writes_unitEscape (n : Nat) (c : Char) : Writes (unitEscape n) c :=
  .inr (unitEscape_tail n)

theorem writes_unitEscape_pair (m n : Nat) (c : Char) :
    Writes (unitEscape m ++ unitEscape n) c := by
  obtain ⟨high, hhigh, hh⟩ := unitEscape_tail m
  obtain ⟨low, hlow, hl⟩ := unitEscape_tail n
  refine .inr ⟨high ++ '\\' :: low, by rw [hhigh, hlow, List.cons_append], ?_⟩
  intro x hx
  rcases List.mem_append.mp hx with h | h
  · exact hh x h
  · rcases List.mem_cons.mp h with rfl | h
    · exact .inr (.inr rfl)
    · exact hl x h

theorem writes_escape (c : Char) : Writes (escape c) c := by
  rw [escape]
  refine .ite (writes_short c (.inr (.inl rfl))) (.ite (writes_short c (.inr (.inr rfl))) ?_)
  refine .ite (writes_short c (.inl (by decide))) (.ite (writes_short c (.inl (by decide))) ?_)
  refine .ite (writes_short c (.inl (by decide))) (.ite (writes_short c (.inl (by decide))) ?_)
  refine .ite (writes_short c (.inl (by decide))) (.ite (.inl rfl) ?_)
  exact .ite (writes_unitEscape _ c) (writes_unitEscape_pair _ _ c)

theorem quote_compact (s : String) :
    quote .compact s = '"' :: s.toList.flatMap escape ++ ['"'] := by
  have hchar : Style.compact.character = escape := by
    funext c
    rfl
  rw [quote, hchar]

/-- A text whose characters are all written as themselves. -/
def IsPlain (cs : List Char) : Prop := ∀ c ∈ cs, escape c = [c]

instance (cs : List Char) : Decidable (IsPlain cs) :=
  List.decidableBAll _ cs

theorem IsPlain.flatMap_escape {cs : List Char} (h : IsPlain cs) : cs.flatMap escape = cs := by
  induction cs with
  | nil => rfl
  | cons c cs ih =>
    rw [List.flatMap_cons, h c (by simp), ih fun x hx => h x (by simp [hx])]
    rfl

theorem escape_printable {c : Char} (hq : c ≠ '"') (hb : c ≠ '\\')
    (hn : 0x20 ≤ c.toNat ∧ c.toNat < 0x7F) : escape c = [c] := by
  have hcontrol : ∀ x : Char, x.toNat < 0x20 → c ≠ x := by
    rintro x hx rfl
    omega
  have h8 : c.toNat ≠ 0x08 := by omega
  have hC : c.toNat ≠ 0x0C := by omega
  rw [escape]
  simp only
  rw [if_neg hq, if_neg hb, if_neg h8, if_neg hC, if_neg (hcontrol _ (by decide)),
    if_neg (hcontrol _ (by decide)), if_neg (hcontrol _ (by decide)), if_pos hn]

theorem toNat_of_isNumberChar {c : Char} (h : isNumberChar c = true) :
    0x20 ≤ c.toNat ∧ c.toNat < 0x7F := by
  rw [isNumberChar, Bool.or_eq_true, Bool.or_eq_true, Bool.or_eq_true] at h
  rcases h with ((h | h) | h) | h
  · have hcode : ((decide (65 ≤ c.val ∧ c.val ≤ 90) ||
        decide (97 ≤ c.val) && decide (c.val ≤ 122)) ||
          decide (48 ≤ c.val) && decide (c.val ≤ 57)) = true := h
    have hval : c.toNat = c.val.toNat := rfl
    simp [UInt32.le_iff_toNat_le] at hcode
    omega
  all_goals
    rw [eq_of_beq h]
    decide

theorem isPlain_of_isNumberText {cs : List Char} (h : IsNumberText cs) : IsPlain cs := by
  intro c hc
  have hn := h c hc
  refine escape_printable ?_ ?_ (toNat_of_isNumberChar hn)
  · rintro rfl
    exact absurd hn (by decide)
  · rintro rfl
    exact absurd hn (by decide)

/-- A plain prefix without backslashes in escaped text stands in the text itself: an escape begins
with a backslash, so no character of the prefix comes from one. -/
theorem prefix_of_prefix_flatMap_escape {p cs : List Char} (hb : '\\' ∉ p)
    (h : p <+: cs.flatMap escape) : p <+: cs := by
  induction p generalizing cs with
  | nil => exact List.nil_prefix
  | cons d ds ih =>
    simp only [List.mem_cons, not_or] at hb
    cases cs with
    | nil => simp at h
    | cons c cs =>
      rw [List.flatMap_cons] at h
      rcases writes_escape c with hc | ⟨tail, hc, -⟩
      · rw [hc, List.singleton_append, List.cons_prefix_cons] at h
        rw [List.cons_prefix_cons]
        exact ⟨h.1, ih hb.2 h.2⟩
      · rw [hc, List.cons_append, List.cons_prefix_cons] at h
        exact absurd h.1.symm hb.1

end PanelSearch.Json
