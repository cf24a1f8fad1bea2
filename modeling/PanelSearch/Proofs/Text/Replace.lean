import PanelSearch.Text.Replace

/-! How replacing a pattern goes over a text piece by piece: a piece without the first character of
the pattern stays as it is, and a character that the pattern lacks ends every occurrence, so the
text in front of it and the text behind it are replaced on their own. -/

namespace PanelSearch.Text

variable {pattern value : List Char}

@[simp] theorem replaceAll_nil : replaceAll pattern value [] = [] := rfl

/-- Where the pattern stands at the front, its value comes instead. -/
theorem replaceAll_pattern_append (hp : pattern ≠ []) (rest : List Char) :
    replaceAll pattern value (pattern ++ rest) = value ++ replaceAll pattern value rest := by
  obtain ⟨c, cs, rfl⟩ := List.exists_cons_of_ne_nil hp
  have hprefix : (c :: cs).isPrefixOf (c :: (cs ++ rest)) = true :=
    List.isPrefixOf_iff_prefix.mpr (List.prefix_append (c :: cs) rest)
  rw [List.cons_append, replaceAll, replaceFrom, if_pos hprefix, replaceFrom_eq_drop]
  simp

theorem replaceAll_cons {c : Char} {cs : List Char} (h : ¬pattern <+: c :: cs) :
    replaceAll pattern value (c :: cs) = c :: replaceAll pattern value cs := by
  rw [replaceAll, replaceFrom, if_neg (by rwa [List.isPrefixOf_iff_prefix])]
  rfl

theorem prefix_of_prefix_append_cons {p as bs : List Char} {c : Char} (hc : c ∉ p)
    (h : p <+: as ++ c :: bs) : p <+: as := by
  by_cases hle : p.length ≤ as.length
  · exact List.prefix_of_prefix_length_le h (List.prefix_append as _) hle
  · exfalso
    have hfront : as ++ [c] <+: as ++ c :: bs := ⟨bs, by simp⟩
    have hlong : as ++ [c] <+: p :=
      List.prefix_of_prefix_length_le hfront h (by simp; omega)
    exact hc (hlong.subset (by simp))

/-- Induction over a text as replacing goes over it: from an occurrence of the pattern to what is
behind it, and else from character to character. -/
@[elab_as_elim]
theorem replaceAll_induction {motive : List Char → Prop} (hp : pattern ≠ []) (nil : motive [])
    (found : ∀ rest, motive rest → motive (pattern ++ rest))
    (skipped : ∀ c rest, ¬pattern <+: c :: rest → motive rest → motive (c :: rest))
    (cs : List Char) : motive cs := by
  induction hn : cs.length using Nat.strongRecOn generalizing cs with
  | ind n ih =>
    subst hn
    by_cases hpre : pattern <+: cs
    · obtain ⟨rest, rfl⟩ := hpre
      have hpos := List.length_pos_iff.mpr hp
      exact found rest (ih _ (by rw [List.length_append]; omega) rest rfl)
    · cases cs with
      | nil => exact nil
      | cons c rest => exact skipped c rest hpre (ih _ (Nat.lt_succ_self _) rest rfl)

/-- A text with every occurrence of a pattern replaced: the first one is, and of what is behind it
again every one. -/
inductive Replaced (pattern value : List Char) : List Char → List Char → Prop
  | kept {cs : List Char} (none : ¬pattern <:+: cs) : Replaced pattern value cs cs
  | found {front rest out : List Char} (first : ¬pattern <:+: (front ++ pattern).dropLast) :
    Replaced pattern value rest out →
    Replaced pattern value (front ++ (pattern ++ rest)) (front ++ (value ++ out))

namespace Replaced

theorem cons {c : Char} {cs out : List Char} (hp : pattern ≠ []) (hc : ¬pattern <+: c :: cs)
    (h : Replaced pattern value cs out) : Replaced pattern value (c :: cs) (c :: out) := by
  cases h with
  | kept none => exact .kept fun h => (List.infix_cons_iff.mp h).elim hc none
  | @found front rest out first h =>
    refine @found pattern value (c :: front) rest out (fun hfirst => ?_) h
    have hne : front ++ pattern ≠ [] := by simp [hp]
    rw [List.cons_append, List.dropLast_cons_of_ne_nil hne] at hfirst
    rcases List.infix_cons_iff.mp hfirst with hpre | hbehind
    · refine hc (hpre.trans (List.cons_prefix_cons.mpr ⟨rfl, ?_⟩))
      rw [← List.append_assoc]
      exact (List.dropLast_prefix _).trans (List.prefix_append _ _)
    · exact first hbehind

theorem replaceAll_of_not_infix {cs : List Char} (h : ¬pattern <:+: cs) :
    replaceAll pattern value cs = cs := by
  induction cs with
  | nil => rfl
  | cons c cs ih =>
    rw [List.infix_cons_iff, not_or] at h
    rw [replaceAll_cons h.1, ih h.2]

/-- Nothing is replaced in front of the first occurrence. -/
theorem replaceAll_append_pattern (hp : pattern ≠ []) {front : List Char}
    (hfirst : ¬pattern <:+: (front ++ pattern).dropLast) (rest : List Char) :
    replaceAll pattern value (front ++ (pattern ++ rest)) =
      front ++ replaceAll pattern value (pattern ++ rest) := by
  induction front with
  | nil => rfl
  | cons c front ih =>
    rw [List.cons_append, List.dropLast_cons_of_ne_nil (by simp [hp]), List.infix_cons_iff,
      not_or] at hfirst
    have hdrop : c :: (front ++ pattern).dropLast <+: c :: (front ++ (pattern ++ rest)) := by
      rw [List.cons_prefix_cons, ← List.append_assoc]
      exact ⟨rfl, (List.dropLast_prefix _).trans (List.prefix_append _ _)⟩
    have hlength : pattern.length ≤ (c :: (front ++ pattern).dropLast).length := by
      have hpos := List.length_pos_iff.mpr hp
      simp
      omega
    have hc : ¬pattern <+: c :: (front ++ (pattern ++ rest)) := fun hpre =>
      hfirst.1 (List.prefix_of_prefix_length_le hpre hdrop hlength)
    rw [List.cons_append, replaceAll_cons hc, ih hfirst.2, List.cons_append]

theorem eq {cs out : List Char} (hp : pattern ≠ []) (h : Replaced pattern value cs out) :
    replaceAll pattern value cs = out := by
  induction h with
  | kept none => exact replaceAll_of_not_infix none
  | found first _ ih =>
    rw [replaceAll_append_pattern hp first, replaceAll_pattern_append hp, ih]

end Replaced

/-- Replacing leaves the text in which every occurrence is replaced. -/
theorem replaceAll_eq_iff (hp : pattern ≠ []) {cs out : List Char} :
    replaceAll pattern value cs = out ↔ Replaced pattern value cs out := by
  refine ⟨?_, Replaced.eq hp⟩
  rintro rfl
  induction cs using replaceAll_induction hp with
  | nil => exact .kept fun h => hp (List.infix_nil.mp h)
  | found rest ih =>
    rw [replaceAll_pattern_append hp]
    refine @Replaced.found pattern value [] rest _ (fun h => ?_) ih
    have hlen := h.length_le
    have hpos := List.length_pos_iff.mpr hp
    rw [List.nil_append, List.length_dropLast] at hlen
    omega
  | skipped c rest hpre ih =>
    rw [replaceAll_cons hpre]
    exact ih.cons hp hpre

section Occurrences

/-- What stands behind characters that a part does not begin with is all that can hold the part. -/
theorem infix_of_infix_append_of_head {part front rest : List Char} {first : Char}
    (hpart : part.head? = some first) (hfront : first ∉ front) (h : part <:+: front ++ rest) :
    part <:+: rest := by
  induction front with
  | nil => exact h
  | cons c front ih =>
    rw [List.mem_cons, not_or] at hfront
    rcases List.infix_cons_iff.mp h with hpre | hbehind
    · obtain ⟨ds, rfl⟩ := List.head?_eq_some_iff.mp hpart
      exact absurd (List.cons_prefix_cons.mp hpre).1 hfront.1
    · exact ih hfront.2 hbehind

theorem infix_of_infix_append {part front rest : List Char} (hpart : part ≠ [])
    (hfront : ∀ c ∈ front, c ∉ part) (h : part <:+: front ++ rest) : part <:+: rest :=
  infix_of_infix_append_of_head (List.head?_eq_some_head hpart)
    (fun hmem => hfront _ hmem (List.head_mem hpart)) h

/-- A character that a part lacks stands in no occurrence of it. -/
theorem infix_or_infix_of_append_cons {part as bs : List Char} {c : Char} (hc : c ∉ part)
    (h : part <:+: as ++ c :: bs) : part <:+: as ∨ part <:+: bs := by
  induction as with
  | nil =>
    rcases List.infix_cons_iff.mp h with hpre | hbehind
    · have hnil : part <+: [] ++ c :: bs := hpre
      exact .inl (prefix_of_prefix_append_cons hc hnil).isInfix
    · exact .inr hbehind
  | cons a as ih =>
    rcases List.infix_cons_iff.mp h with hpre | hbehind
    · exact .inl (prefix_of_prefix_append_cons hc hpre).isInfix
    · exact (ih hbehind).imp_left fun has => has.trans (List.suffix_cons a as).isInfix

variable (hp : pattern ≠ []) (hne : value ≠ [])
include hp hne

/-- A part that shares no character with the value is at the front after replacing only if it was
there before. -/
theorem prefix_of_prefix_replaceAll {part cs : List Char} (hpart : ∀ c ∈ value, c ∉ part)
    (h : part <+: replaceAll pattern value cs) : part <+: cs := by
  induction part generalizing cs with
  | nil => exact List.nil_prefix
  | cons d part ih =>
    by_cases hpre : pattern <+: cs
    · obtain ⟨rest, rfl⟩ := hpre
      obtain ⟨c, tail, rfl⟩ := List.exists_cons_of_ne_nil hne
      rw [replaceAll_pattern_append hp, List.cons_append, List.cons_prefix_cons] at h
      exact absurd (h.1 ▸ List.mem_cons_self) (hpart c List.mem_cons_self)
    · cases cs with
      | nil => exact h
      | cons c rest =>
        rw [replaceAll_cons hpre, List.cons_prefix_cons] at h
        have htail : ∀ c ∈ value, c ∉ part := fun c hc hmem =>
          hpart c hc (List.mem_cons_of_mem d hmem)
        exact List.cons_prefix_cons.mpr ⟨h.1, ih htail h.2⟩

/-- Where the value shares no character with the pattern, no occurrence is left and none is made
anew. -/
theorem not_infix_replaceAll (hvalue : ∀ c ∈ value, c ∉ pattern) (cs : List Char) :
    ¬pattern <:+: replaceAll pattern value cs := by
  induction cs using replaceAll_induction hp with
  | nil =>
    rw [replaceAll_nil, List.infix_nil]
    exact hp
  | found rest ih =>
    rw [replaceAll_pattern_append hp]
    exact fun h => ih (infix_of_infix_append hp hvalue h)
  | skipped c rest hpre ih =>
    rw [replaceAll_cons hpre, List.infix_cons_iff]
    rintro (hfront | hbehind)
    · rw [← replaceAll_cons hpre] at hfront
      exact hpre (prefix_of_prefix_replaceAll hp hne hvalue hfront)
    · exact ih hbehind

end Occurrences

/-- Replacing goes over `cs` to what follows it, and leaves `out` in its place. -/
def Replaces (pattern value cs out : List Char) : Prop :=
  ∀ rest, replaceAll pattern value (cs ++ rest) = out ++ replaceAll pattern value rest

namespace Replaces

variable {as bs as' bs' : List Char}

theorem eq (h : Replaces pattern value as as') : replaceAll pattern value as = as' := by
  simpa using h []

theorem nil : Replaces pattern value [] [] := fun _ => rfl

theorem append (ha : Replaces pattern value as as') (hb : Replaces pattern value bs bs') :
    Replaces pattern value (as ++ bs) (as' ++ bs') := fun rest => by
  rw [List.append_assoc, ha, hb, List.append_assoc]

/-- A piece without the first character of the pattern stays as it is. -/
theorem keep {first : Char} (hp : pattern.head? = some first) (h : first ∉ as) :
    Replaces pattern value as as := by
  intro rest
  induction as with
  | nil => rfl
  | cons c cs ih =>
    simp only [List.mem_cons, not_or] at h
    have hne : ¬pattern <+: c :: (cs ++ rest) := by
      rintro ⟨t, ht⟩
      cases pattern with
      | nil => cases hp
      | cons d ds =>
        cases hp
        exact h.1 (List.cons.inj ht).1
    rw [List.cons_append, replaceAll_cons hne, ih h.2, List.cons_append]

/-- A character that the pattern lacks ends what is replaced before it. -/
theorem upTo {c : Char} (hp : pattern ≠ []) (hc : c ∉ pattern) (cs : List Char) :
    Replaces pattern value (cs ++ [c]) (replaceAll pattern value cs ++ [c]) := by
  intro rest
  induction cs using replaceAll_induction hp with
  | nil =>
    have hne : ¬pattern <+: c :: rest := by
      intro h
      have hnil : pattern <+: [] ++ c :: rest := h
      exact hp (List.prefix_nil.mp (prefix_of_prefix_append_cons hc hnil))
    simpa using replaceAll_cons hne
  | found tail ih =>
    rw [replaceAll_pattern_append hp]
    simp only [List.append_assoc, replaceAll_pattern_append hp] at ih ⊢
    rw [ih]
  | skipped d ds hpre ih =>
    have hne : ¬pattern <+: d :: (ds ++ [c] ++ rest) := by
      intro h
      exact hpre (prefix_of_prefix_append_cons hc (by simpa using h))
    rw [replaceAll_cons hpre, List.cons_append, List.cons_append, replaceAll_cons hne, ih]
    simp

end Replaces

end PanelSearch.Text
