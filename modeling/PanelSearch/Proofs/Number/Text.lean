import PanelSearch.Number.Text

/-! The characters that numbers are written with: letters and digits of ASCII, signs and points, so
a number holds nothing that a JSON text would have to escape. -/

namespace PanelSearch

def isNumberChar (c : Char) : Bool := c.isAlphanum || c == '-' || c == '+' || c == '.'

def IsNumberText (cs : List Char) : Prop := ∀ c ∈ cs, isNumberChar c = true

instance (cs : List Char) : Decidable (IsNumberText cs) :=
  List.decidableBAll _ cs

namespace IsNumberText

theorem nil : IsNumberText [] := by simp [IsNumberText]

theorem cons {c : Char} {cs : List Char} (hc : isNumberChar c = true) (h : IsNumberText cs) :
    IsNumberText (c :: cs) :=
  List.forall_mem_cons.mpr ⟨hc, h⟩

theorem append {as bs : List Char} (ha : IsNumberText as) (hb : IsNumberText bs) :
    IsNumberText (as ++ bs) :=
  List.forall_mem_append.mpr ⟨ha, hb⟩

theorem of_subset {as bs : List Char} (hb : IsNumberText bs) (h : ∀ c ∈ as, c ∈ bs) :
    IsNumberText as :=
  fun c hc => hb c (h c hc)

theorem take {cs : List Char} (h : IsNumberText cs) (n : Nat) : IsNumberText (cs.take n) :=
  h.of_subset fun _ hc => List.mem_of_mem_take hc

theorem drop {cs : List Char} (h : IsNumberText cs) (n : Nat) : IsNumberText (cs.drop n) :=
  h.of_subset fun _ hc => List.mem_of_mem_drop hc

theorem zeros (n : Nat) : IsNumberText (List.replicate n '0') := by
  intro c hc
  rw [List.eq_of_mem_replicate hc]
  decide

end IsNumberText

open IsNumberText

theorem isNumberText_natText (n : Nat) : IsNumberText (natText n) := by
  intro c hc
  have hd : c.isDigit = true := Nat.isDigit_of_mem_toDigits (by decide) (by decide) hc
  simp [isNumberChar, Char.isAlphanum, hd]

theorem isNumberText_intText (n : Int) : IsNumberText (intText n) := by
  unfold intText
  split
  · exact cons (by decide) (isNumberText_natText _)
  · exact isNumberText_natText _

theorem isNumberText_padded (width n : Nat) : IsNumberText (padded width n) :=
  (zeros _).append (isNumberText_natText n)

theorem isNumberText_positional {digits : List Char} (h : IsNumberText digits) (position : Int) :
    IsNumberText (positional digits position) := by
  unfold positional
  split
  · exact cons (by decide) (cons (by decide) ((zeros _).append h))
  · refine ((h.take _).append (zeros _)).append (cons (by decide) ?_)
    split
    · exact cons (by decide) nil
    · exact h.drop _

theorem isNumberText_scientific {digits : List Char} (h : IsNumberText digits) (width : Nat)
    (exponent : Int) : IsNumberText (scientific width digits exponent) := by
  unfold scientific
  refine ((h.take 1).append ?_).append (cons (by decide) (cons ?_ (isNumberText_padded _ _)))
  · split
    · exact nil
    · exact cons (by decide) (h.drop 1)
  · split <;> decide

theorem isNumberText_sign (negative : Bool) :
    IsNumberText (if negative then ['-'] else []) := by
  cases negative <;> simp [IsNumberText, isNumberChar]

/-- The words for what is no finite double are letters too. -/
theorem isNumberText_double (d : Double) : IsNumberText (d.text .encoded) := by
  cases d with
  | nan => simp [IsNumberText, Double.text, DoubleLayout.encoded, isNumberChar, Char.isAlphanum]
  | infinite negative =>
    refine (isNumberText_sign negative).append ?_
    simp [IsNumberText, DoubleLayout.encoded, isNumberChar, Char.isAlphanum]
  | finite negative m s _ =>
    simp only [Double.text]
    split
    · exact (isNumberText_sign negative).append (by decide)
    · refine (isNumberText_sign negative).append ?_
      split
      · exact isNumberText_positional (isNumberText_natText _) _
      · exact isNumberText_scientific (isNumberText_natText _) _ _

theorem point_mem_positional (digits : List Char) (position : Int) :
    '.' ∈ positional digits position := by
  unfold positional
  split <;> simp

theorem exponent_mem_scientific (width : Nat) (digits : List Char) (exponent : Int) :
    'e' ∈ scientific width digits exponent := by
  simp [scientific]

theorem mark_mem_layout (P : Prop) [Decidable P] (sign digits : List Char) (position : Int)
    (width : Nat) (exponent : Int) : ∃ c ∈ sign ++ if P then positional digits position
      else scientific width digits exponent, c = '.' ∨ c = 'e' := by
  split
  · exact ⟨'.', List.mem_append_right _ (point_mem_positional digits position), .inl rfl⟩
  · exact ⟨'e', List.mem_append_right _ (exponent_mem_scientific width digits exponent), .inr rfl⟩

/-- A finite double is never written like an integer: there is a point or an exponent in it. -/
theorem mark_mem_double (layout : DoubleLayout) (negative : Bool) (m s : Nat)
    (canonical : Double.Canonical m s) :
    ∃ c ∈ (Double.finite negative m s canonical).text layout, c = '.' ∨ c = 'e' := by
  by_cases hm : m = 0
  · exact ⟨'.', by simp [Double.text, hm], .inl rfl⟩
  · simp only [Double.text, if_neg hm]
    exact mark_mem_layout _ _ _ _ _ _

theorem intText_ne_nil (n : Int) : intText n ≠ [] := by
  unfold intText
  split
  · simp
  · exact Nat.toDigits_ne_nil

end PanelSearch
