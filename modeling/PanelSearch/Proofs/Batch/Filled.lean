import PanelSearch.Proofs.Batch.Placeholders

/-! What is left in the lines of bodies. Filling in the placeholders one after the other is filling
them in from left to right, the longer one where both stand: what is put in shares no character with
the placeholders, so it neither completes one nor takes one apart, and none is left. -/

namespace PanelSearch.Batch

open Text

/-- A text with the placeholders filled in from left to right: where one stands the interval comes
instead, and everything else is copied. -/
inductive Filled (intervalMs : Int) : List Char → List Char → Prop
  | nil : Filled intervalMs [] []
  | millis {rest out : List Char} : Filled intervalMs rest out →
      Filled intervalMs (millisPlaceholder ++ rest) (intText intervalMs ++ out)
  | duration {rest out : List Char} : ¬millisPlaceholder <+: durationPlaceholder ++ rest →
      Filled intervalMs rest out →
      Filled intervalMs (durationPlaceholder ++ rest) (Duration.text intervalMs ++ out)
  | copied {c : Char} {rest out : List Char} : ¬durationPlaceholder <+: c :: rest →
      Filled intervalMs rest out → Filled intervalMs (c :: rest) (c :: out)

theorem durationPlaceholder_begins : durationPlaceholder <+: millisPlaceholder := by
  decide

theorem not_isIntervalChar_of_mem {c : Char} (h : c ∈ durationPlaceholder) :
    ¬Duration.IsIntervalChar c := by
  have hall : durationPlaceholder.all (fun c => decide ¬Duration.IsIntervalChar c) = true := by
    decide
  exact of_decide_eq_true (List.all_eq_true.mp hall c h)

theorem durationText_ne_nil (ms : Int) : Duration.text ms ≠ [] := by
  intro h
  have hread := Duration.read?_text ms
  rw [h] at hread
  cases hread

section Fill

variable (intervalMs : Int)

theorem replaces_intText (pattern value : List Char) (hp : pattern.head? = some '$') :
    Replaces pattern value (intText intervalMs) (intText intervalMs) :=
  .keep hp (IsPlaceholder.dollar_not_mem_of_number (isNumberText_intText intervalMs))

/-- The front of the longer placeholder does not come up by filling in the longer one. -/
theorem prefix_of_prefix_replaceAll_millis {cs : List Char}
    (h : durationPlaceholder.tail <+: replaceAll millisPlaceholder (intText intervalMs) cs) :
    durationPlaceholder.tail <+: cs := by
  refine prefix_of_prefix_replaceAll isPlaceholder_millis.ne_nil (intText_ne_nil intervalMs) ?_ h
  intro c hc hmem
  exact not_isIntervalChar_of_mem (List.mem_of_mem_tail hmem)
    (Duration.isIntervalChar_of_mem_intText hc)

theorem fill_millis (rest : List Char) : fill intervalMs (millisPlaceholder ++ rest) =
    intText intervalMs ++ fill intervalMs rest := by
  rw [fill, replaceAll_pattern_append isPlaceholder_millis.ne_nil, replaces_intText _ _ _ rfl]
  rfl

theorem fill_duration {rest : List Char} (h : ¬millisPlaceholder <+: durationPlaceholder ++ rest) :
    fill intervalMs (durationPlaceholder ++ rest) =
      Duration.text intervalMs ++ fill intervalMs rest := by
  have htail : Replaces millisPlaceholder (intText intervalMs) durationPlaceholder.tail
      durationPlaceholder.tail := .keep rfl (by decide)
  have hmillis : replaceAll millisPlaceholder (intText intervalMs) (durationPlaceholder ++ rest) =
      durationPlaceholder ++ replaceAll millisPlaceholder (intText intervalMs) rest := by
    have hsplit : durationPlaceholder ++ rest = '$' :: (durationPlaceholder.tail ++ rest) := rfl
    rw [hsplit] at h ⊢
    rw [replaceAll_cons h, htail]
    rfl
  rw [fill, hmillis, replaceAll_pattern_append isPlaceholder_duration.ne_nil]
  rfl

theorem fill_cons {c : Char} {rest : List Char} (h : ¬durationPlaceholder <+: c :: rest) :
    fill intervalMs (c :: rest) = c :: fill intervalMs rest := by
  have hmillis : ¬millisPlaceholder <+: c :: rest := fun hpre =>
    h (durationPlaceholder_begins.trans hpre)
  have hduration : ¬durationPlaceholder <+:
      c :: replaceAll millisPlaceholder (intText intervalMs) rest := by
    have hsplit : durationPlaceholder = '$' :: durationPlaceholder.tail := rfl
    rw [hsplit, List.cons_prefix_cons] at h ⊢
    exact fun hpre => h ⟨hpre.1, prefix_of_prefix_replaceAll_millis intervalMs hpre.2⟩
  rw [fill, replaceAll_cons hmillis, replaceAll_cons hduration]
  rfl

/-- Behind a placeholder the text goes on after all of it, so the induction is on the length. -/
theorem filled_fill (cs : List Char) : Filled intervalMs cs (fill intervalMs cs) := by
  induction hn : cs.length using Nat.strongRecOn generalizing cs with
  | ind n ih =>
    subst hn
    have hbehind : ∀ {pattern rest : List Char}, pattern ≠ [] → cs = pattern ++ rest →
        Filled intervalMs rest (fill intervalMs rest) := by
      rintro pattern rest hne rfl
      have hpos := List.length_pos_iff.mpr hne
      exact ih rest.length (by rw [List.length_append]; omega) rest rfl
    by_cases hduration : durationPlaceholder <+: cs
    · by_cases hmillis : millisPlaceholder <+: cs
      · obtain ⟨rest, rfl⟩ := hmillis
        rw [fill_millis]
        exact .millis (hbehind isPlaceholder_millis.ne_nil rfl)
      · obtain ⟨rest, rfl⟩ := hduration
        rw [fill_duration intervalMs hmillis]
        exact .duration hmillis (hbehind isPlaceholder_duration.ne_nil rfl)
    · cases cs with
      | nil => exact .nil
      | cons c rest =>
        rw [fill_cons intervalMs hduration]
        exact .copied hduration (ih rest.length (Nat.lt_succ_self _) rest rfl)

/-- No placeholder is left in a text and none is made anew. -/
theorem not_infix_fill (cs : List Char) : ¬durationPlaceholder <:+: fill intervalMs cs :=
  not_infix_replaceAll isPlaceholder_duration.ne_nil (durationText_ne_nil intervalMs)
    (fun _ hc hmem => not_isIntervalChar_of_mem hmem (Duration.isIntervalChar_of_mem_text hc)) _

end Fill

/-- The line of a body is its text with the placeholders filled in from left to right, and neither
placeholder stands anywhere in it. -/
theorem bodyLine_filled (e : Entry) :
    Filled e.intervalMs (e.body.render .compact) e.bodyLine ∧
      ¬durationPlaceholder <:+: e.bodyLine ∧ ¬millisPlaceholder <:+: e.bodyLine := by
  have hnone := not_infix_fill e.intervalMs (e.body.render .compact)
  refine ⟨filled_fill e.intervalMs _, hnone, fun h => hnone ?_⟩
  exact durationPlaceholder_begins.isInfix.trans h

end PanelSearch.Batch
