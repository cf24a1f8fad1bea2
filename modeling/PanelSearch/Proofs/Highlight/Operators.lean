import PanelSearch.Proofs.Highlight.Runs

/-! Operators and parentheses among the words of a text that is no query. An operator is passed over
where it stands between blanks. Where a run puts parentheses, signs or wildcards around it, it is
told from a word before they go and becomes one, and a parenthesis behind a sign stays. -/

namespace PanelSearch.Highlight

open Text

/-- A run that an operator is left of when all goes that may stand around a word: parentheses, then
signs in front of it and wildcards behind it. -/
def LeavesOperator (op run : List Char) : Prop :=
  ∃ front signs wild back, run = front ++ (signs ++ (op ++ wild)) ++ back ∧
    (∀ c ∈ front ++ back, isParen c = true) ∧ (∀ c ∈ signs, isSign c = true) ∧
    ∀ c ∈ wild, isWildcard c = true

theorem leavesOperator_self (op : List Char) : LeavesOperator op op :=
  ⟨[], [], [], [], by simp, by simp, by simp, by simp⟩

/-- A run that is no operator, but becomes one. -/
def HidesOperator (run : List Char) : Prop :=
  run ∉ operators ∧ ∃ op ∈ operators, LeavesOperator op run

/-- A run in which an opening parenthesis stands behind signs, and more than parentheses behind
it. -/
def HidesParen (run : List Char) : Prop :=
  ∃ front signs rest, run = front ++ (signs ++ '(' :: rest) ∧
    (∀ c ∈ front, isParen c = true) ∧ signs ≠ [] ∧ (∀ c ∈ signs, isSign c = true) ∧
    ∃ c ∈ rest, isParen c = false

theorem isParen_of_isSign {c : Char} (h : isSign c = true) : isParen c = false := by
  simp only [isSign, Bool.or_eq_true, decide_eq_true_eq] at h
  rcases h with (rfl | rfl) | rfl <;> rfl

theorem isParen_of_isWildcard {c : Char} (h : isWildcard c = true) : isParen c = false := by
  simp only [isWildcard, Bool.or_eq_true, decide_eq_true_eq] at h
  rcases h with rfl | rfl <;> rfl

section Operators

variable {op : List Char} (hop : op ∈ operators)
include hop

theorem operator_ne_nil : op ≠ [] := by
  rintro rfl
  exact absurd hop (by decide)

/-- An operator holds nothing that goes. -/
theorem plain_of_mem_operator :
    ∀ c ∈ op, isParen c = false ∧ isSign c = false ∧ isWildcard c = false := by
  have hall : (operators.all fun op => op.all fun c =>
      !isParen c && !isSign c && !isWildcard c) = true := by decide
  intro c hc
  simpa [and_assoc] using List.all_eq_true.mp (List.all_eq_true.mp hall op hop) c hc

end Operators

section Signless

variable {front signs body back : List Char}

theorem signless_append (hparens : ∀ c ∈ front ++ back, isParen c = true)
    (hsigns : ∀ c ∈ signs, isSign c = true) (hne : body ≠ [])
    (hfirst : ∀ c, (signs ++ body).head? = some c → isParen c = false)
    (hsign : ∀ c, body.head? = some c → isSign c = false)
    (hlast : ∀ c, body.getLast? = some c → isParen c = false) :
    signless (front ++ (signs ++ body) ++ back) = body := by
  have hend : ∀ c, (signs ++ body).getLast? = some c → isParen c = false := by
    rw [List.getLast?_append_of_ne_nil _ hne]
    exact hlast
  rw [signless, trim_append (fun c hc => hparens c (List.mem_append_left back hc))
    (fun c hc => hparens c (List.mem_append_right front hc))
    (List.append_ne_nil_of_right_ne_nil signs hne) hfirst hend,
    List.dropWhile_append_of_pos hsigns, dropWhile_eq_self hsign]

/-- What is in front of a run and behind it when its parentheses and signs go. -/
theorem exists_signless_append (r : List Char) : ∃ front signs back,
    r = front ++ (signs ++ signless r) ++ back ∧ trim isParen r = signs ++ signless r ∧
      (∀ c ∈ front ++ back, isParen c = true) ∧ ∀ c ∈ signs, isSign c = true := by
  obtain ⟨front, back, hr, hparens⟩ := exists_trim_append isParen r
  have hsplit := List.takeWhile_append_dropWhile (p := isSign) (l := trim isParen r)
  refine ⟨front, (trim isParen r).takeWhile isSign, back, ?_, hsplit.symm, hparens,
    fun c hc => List.mem_takeWhile_imp hc⟩
  rw [signless, hsplit]
  exact hr

end Signless

section Run

variable {r : List Char} (hquote : '"' ∉ r) (hcolon : ':' ∉ r)
include hquote hcolon

/-- A word does not begin with a sign. -/
theorem not_isSign_wordOfRun {c : Char} (h : (wordOfRun r).head? = some c) : isSign c = false := by
  rw [wordOfRun_of_plain hquote hcolon] at h
  obtain ⟨rest, hrest⟩ := trimEnd_isPrefix isWildcard (signless r)
  have hhead : (signless r).head? = some c := by
    rw [← hrest, List.head?_append, h, Option.some_or]
  exact not_of_head?_dropWhile hhead

theorem wordOfRun_eq_operator_iff {op : List Char} (hop : op ∈ operators) :
    wordOfRun r = op ↔ LeavesOperator op r := by
  rw [wordOfRun_of_plain hquote hcolon]
  constructor
  · intro hword
    obtain ⟨front, signs, back, hr, -, hparens, hsigns⟩ := exists_signless_append r
    obtain ⟨wild, hwild, hwilds⟩ := trimEnd_append isWildcard (signless r)
    rw [hword] at hwild
    exact ⟨front, signs, wild, back, hwild ▸ hr, hparens, hsigns, hwilds⟩
  · rintro ⟨front, signs, wild, back, rfl, hparens, hsigns, hwilds⟩
    have hplain := plain_of_mem_operator hop
    have hhead : ∀ c, (op ++ wild).head? = some c → c ∈ op := by
      intro c hc
      rw [List.head?_append_of_ne_nil _ (operator_ne_nil hop)] at hc
      exact List.mem_of_head? hc
    have hlast : ∀ c, (op ++ wild).getLast? = some c → isParen c = false := by
      intro c hc
      rcases List.mem_append.mp (List.mem_of_getLast? hc) with hc | hc
      · exact (hplain c hc).1
      · exact isParen_of_isWildcard (hwilds c hc)
    have hfirst : ∀ c, (signs ++ (op ++ wild)).head? = some c → isParen c = false := by
      intro c hc
      cases signs with
      | nil => exact (hplain c (hhead c hc)).1
      | cons d signs => exact isParen_of_isSign (hsigns c (List.mem_of_head? hc))
    have hne : op ++ wild ≠ [] := List.append_ne_nil_of_left_ne_nil (operator_ne_nil hop) wild
    rw [signless_append hparens hsigns hne hfirst (fun c hc => (hplain c (hhead c hc)).2.1) hlast]
    exact trimEnd_append_of_last hwilds fun c hc => (hplain c (List.mem_of_getLast? hc)).2.2

theorem head?_wordOfRun_eq_paren_iff : (wordOfRun r).head? = some '(' ↔ HidesParen r := by
  rw [wordOfRun_of_plain hquote hcolon]
  constructor
  · intro hword
    obtain ⟨front, signs, back, hr, htrim, hparens, hsigns⟩ := exists_signless_append r
    obtain ⟨wild, hwild⟩ := trimEnd_isPrefix isWildcard (signless r)
    obtain ⟨rest, hrest⟩ : ∃ rest, signless r = '(' :: rest := by
      rw [← List.head?_eq_some_iff, ← hwild, List.head?_append, hword, Option.some_or]
    rw [hrest] at hr htrim
    have hne : signs ≠ [] := by
      rintro rfl
      have hhead : (trim isParen r).head? = some '(' := by rw [htrim]; rfl
      exact absurd (not_of_head?_trim hhead) (by decide)
    obtain ⟨c, hc⟩ : ∃ c, ('(' :: rest).getLast? = some c := ⟨_, List.getLast?_cons⟩
    have hlast : isParen c = false :=
      not_of_getLast?_trim (by rw [htrim, List.getLast?_append, hc, Option.some_or])
    refine ⟨front, signs, rest ++ back, by rw [hr]; simp,
      fun c hc => hparens c (List.mem_append_left back hc), hne, hsigns, c, ?_, hlast⟩
    rcases List.mem_cons.mp (List.mem_of_getLast? hc) with rfl | hc
    · exact absurd hlast (by decide)
    · exact List.mem_append_left back hc
  · rintro ⟨front, signs, rest, rfl, hfront, hne, hsigns, c, hc, hword⟩
    obtain ⟨back, hsplit, hback⟩ := trimEnd_append isParen rest
    obtain ⟨d, signs, rfl⟩ := List.exists_cons_of_ne_nil hne
    have hlast : ∀ c, ('(' :: trimEnd isParen rest).getLast? = some c → isParen c = false := by
      cases hkept : trimEnd isParen rest with
      | nil =>
        rw [hkept, List.nil_append] at hsplit
        rw [hback c (hsplit ▸ hc)] at hword
        cases hword
      | cons e kept =>
        intro c hc
        rw [List.getLast?_cons_cons, ← hkept] at hc
        exact not_of_getLast?_trimEnd hc
    have hrun : front ++ (d :: signs ++ '(' :: rest) =
        front ++ (d :: signs ++ '(' :: trimEnd isParen rest) ++ back := by
      conv_lhs => rw [hsplit]
      simp
    have hfirst : ∀ c, (d :: signs ++ '(' :: trimEnd isParen rest).head? = some c →
        isParen c = false := by
      rintro c ⟨⟩
      exact isParen_of_isSign (hsigns d List.mem_cons_self)
    have hsign : ∀ c, ('(' :: trimEnd isParen rest).head? = some c → isSign c = false := by
      rintro c ⟨⟩
      rfl
    have hparen : isWildcard '(' = false := rfl
    rw [hrun, signless_append (List.forall_mem_append.mpr ⟨hfront, hback⟩) hsigns
      (List.cons_ne_nil _ _) hfirst hsign hlast]
    obtain ⟨kept, hkept⟩ := trimEnd_cons hparen (trimEnd isParen rest)
    rw [hkept, List.head?_cons]

end Run

/-- The words of a text without quotes and colons hold no operator, and none begins with a sign or
an opening parenthesis, just when no run of the text becomes an operator and none has an opening
parenthesis behind a sign. -/
theorem runWords_stripped_iff {text : List Char} (hquote : '"' ∉ text) (hcolon : ':' ∉ text) :
    (∀ w ∈ runWords text, w ∉ operators ∧
        ∀ c, w.head? = some c → c ≠ '(' ∧ isSign c = false) ↔
      ∀ r ∈ pieces text, ¬HidesOperator r ∧ ¬HidesParen r := by
  rw [forall_mem_runWords_iff hquote]
  refine forall₂_congr fun r hr => ?_
  have hpart := isInfix_of_mem_pieces hquote hr
  have hq : '"' ∉ r := fun h => hquote (hpart.subset h)
  have hc : ':' ∉ r := fun h => hcolon (hpart.subset h)
  rw [← head?_wordOfRun_eq_paren_iff hq hc]
  constructor
  · intro h
    refine ⟨?_, fun hparen => ?_⟩
    · rintro ⟨hno, op, hop, hleaves⟩
      have hword := (wordOfRun_eq_operator_iff hq hc hop).mpr hleaves
      rw [hword] at h
      exact (h hno (operator_ne_nil hop)).1 hop
    · by_cases hop : r ∈ operators
      · have hword : wordOfRun r = r :=
          (wordOfRun_eq_operator_iff hq hc hop).mpr (leavesOperator_self r)
        rw [hword] at hparen
        exact absurd (plain_of_mem_operator hop '(' (List.mem_of_head? hparen)).1 (by decide)
      · have hne : wordOfRun r ≠ [] := by
          intro hnil
          rw [hnil] at hparen
          cases hparen
        exact ((h hop hne).2 '(' hparen).1 rfl
  · rintro ⟨hoperator, hparen⟩ hno -
    refine ⟨fun hop => hoperator ⟨hno, _, hop, ?_⟩, fun c hhead => ⟨?_, ?_⟩⟩
    · exact (wordOfRun_eq_operator_iff hq hc hop).mp rfl
    · rintro rfl
      exact hparen hhead
    · exact not_isSign_wordOfRun hq hc hhead

theorem closedGroup_stripped : runWords "NOT -error && (fatal || !warn?)".toList =
      ["error", "fatal", "warn"].map String.toList ∧
    ∀ r ∈ pieces "NOT -error && (fatal || !warn?)".toList, ¬HidesOperator r ∧ ¬HidesParen r := by
  have hwords : runWords "NOT -error && (fatal || !warn?)".toList =
      ["error", "fatal", "warn"].map String.toList := by decide +kernel
  refine ⟨hwords, (runWords_stripped_iff (by decide) (by decide)).mp ?_⟩
  intro w hw
  rw [hwords] at hw
  simp only [List.map_cons, List.map_nil, List.mem_cons, List.not_mem_nil, or_false] at hw
  rcases hw with rfl | rfl | rfl
  all_goals
    refine ⟨by decide, ?_⟩
    rintro c ⟨⟩
    decide

/-- An operator with a parenthesis at its front becomes a word. -/
theorem openGroup_keeps_not : '"' ∉ "(NOT error".toList ∧ ':' ∉ "(NOT error".toList ∧
    "NOT".toList ∈ operators ∧ "NOT".toList ∈ runWords "(NOT error".toList := by
  decide +kernel

end PanelSearch.Highlight
