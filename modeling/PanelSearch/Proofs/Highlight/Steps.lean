import PanelSearch.Proofs.Highlight.Reading

/-! Tokens that are read and those that are left: reading goes through the ones to a state and on
with the others, and depends on the first of the others only as far as it is in sight. -/

namespace PanelSearch.Highlight

open Traversal

section Reads

variable {s m : State} {t : Token} {ts rest : List Token} {next after : Option Token}
  {ws : List Tree} {e : Refusal}

/-- Tokens that are read, with one more token in sight. -/
inductive Reads (next : Option Token) : State → List Token → State → Prop
  | nil (s : State) : Reads next s [] s
  | cons {s m s' : State} {t : Token} {ts : List Token}
      (hstep : step s t (ts.head?.or next) = .ok m) (h : Reads next m ts s') :
      Reads next s (t :: ts) s'

theorem Reads.exists_leavesFrom (h : Reads rest.head? s ts m) :
    ∃ ws, leavesFrom s (ts ++ rest) = (leavesFrom m rest).map (ws ++ ·) := by
  induction h with
  | nil s => exact ⟨[], by cases hrest : leavesFrom s rest <;> simp [hrest, Except.map]⟩
  | @cons s m s' t ts hstep _ ih =>
    obtain ⟨ws, hws⟩ := ih
    rw [← List.head?_append] at hstep
    rw [List.cons_append, leavesFrom_of_step hstep, hws]
    exact ⟨_, map_append_map _ _ _⟩

theorem exists_reads_of_leavesFrom (h : leavesFrom s (ts ++ rest) = .ok ws) :
    ∃ m behind, Reads rest.head? s ts m ∧ leavesFrom m rest = .ok behind := by
  induction ts generalizing s ws with
  | nil => exact ⟨s, ws, .nil s, h⟩
  | cons t ts ih =>
    obtain ⟨m, behind, hstep, hbehind, -⟩ := exists_of_leavesFrom_cons h
    obtain ⟨s', vs, hreads, hrest⟩ := ih hbehind
    have hhead : (ts ++ rest).head? = ts.head?.or rest.head? := List.head?_append
    exact ⟨s', vs, .cons (hhead ▸ hstep) hreads, hrest⟩

/-- Reading stops at a token, unless the tokens end too soon. -/
theorem exists_reads_of_leavesFrom_error (h : leavesFrom s ts = .error e) (he : e ≠ .notAQuery) :
    ∃ front t rest m, ts = front ++ t :: rest ∧ Reads (some t) s front m ∧
      step m t rest.head? = .error e := by
  induction ts generalizing s with
  | nil =>
    rw [leavesFrom] at h
    split at h <;> cases h
    exact absurd rfl he
  | cons t ts ih =>
    cases hstep : step s t ts.head? with
    | error e' =>
      rw [leavesFrom, hstep] at h
      cases h
      exact ⟨[], t, ts, s, rfl, .nil s, hstep⟩
    | ok m =>
      rw [leavesFrom_of_step hstep, map_eq_error_iff] at h
      obtain ⟨front, u, rest, m', rfl, hreads, hstop⟩ := ih h
      rw [List.head?_append] at hstep
      exact ⟨t :: front, u, rest, m', rfl, .cons hstep hreads, hstop⟩

/-- Tokens in sight that make no difference to what is read before them. -/
def LooksLike (next after : Option Token) : Prop :=
  (next = some .colon ↔ after = some .colon) ∧ mayFollowDegree next = mayFollowDegree after

theorem LooksLike.symm (h : LooksLike next after) : LooksLike after next := ⟨h.1.symm, h.2.symm⟩

theorem step_congr (h : LooksLike next after) : step s t next = step s t after := by
  simp only [step, continueItem, beginItem, judge, h.1, h.2]

theorem Reads.congr (hlook : LooksLike next after) (h : Reads next s ts m) :
    Reads after s ts m := by
  induction h with
  | nil s => exact .nil s
  | @cons s m s' t ts hstep _ ih =>
    refine .cons ?_ ih
    rw [← hstep]
    cases ts with
    | nil => exact (step_congr hlook).symm
    | cons => rfl

/-- The degree of a word may follow behind a word only, and that of a phrase behind a phrase. -/
def Phase.IsBehind (last : Option Token) : Phase → Prop
  | .word => ∃ text, last = some (.term text)
  | .phrase => ∃ text, last = some (.phrase text)
  | _ => True

theorem isBehind_of_judge {fits : Bool} {fault : Fault}
    (h : judge fits fault next ⟨.done, s.depth⟩ = .ok m) : m.phase.IsBehind (some t) := by
  obtain ⟨-, -, rfl⟩ := judge_eq_ok_iff.mp h
  trivial

theorem isBehind_of_beginItem (h : beginItem s t next = .ok m) : m.phase.IsBehind (some t) := by
  cases t with
  | term text =>
    cases h
    by_cases hcolon : next = some .colon
    · rw [if_pos hcolon]
      trivial
    · rw [if_neg hcolon]
      exact ⟨text, rfl⟩
  | phrase text =>
    cases h
    exact ⟨text, rfl⟩
  | _ =>
    cases h
    try trivial

theorem isBehind_of_continueItem (h : continueItem s t next = .ok m) :
    m.phase.IsBehind (some t) := by
  unfold continueItem at h
  split at h
  · cases h
    trivial
  · cases h
    trivial
  · exact isBehind_of_judge h
  · split at h <;> cases h
    trivial
  · exact isBehind_of_beginItem h

theorem isBehind_of_rangeEnd {sign : Bool} {signed ended : Phase}
    (hsigned : signed.IsBehind (some t)) (hended : ended.IsBehind (some t))
    (h : rangeEnd s sign signed ended t = .ok m) : m.phase.IsBehind (some t) := by
  unfold rangeEnd at h
  split at h
  · split at h <;> cases h
    exact hsigned
  · cases h
    exact hended
  · cases h
    exact hended
  · cases h

theorem isBehind_of_step (h : step s t next = .ok m) : m.phase.IsBehind (some t) := by
  unfold step at h
  split at h
  case h_1 => exact isBehind_of_beginItem h
  case h_3 => exact isBehind_of_continueItem h
  case h_4 | h_5 =>
    split at h
    · exact isBehind_of_judge h
    · exact isBehind_of_continueItem h
  case h_7 | h_9 => refine isBehind_of_rangeEnd ?_ ?_ h <;> trivial
  all_goals
    split at h <;> cases h <;> trivial

theorem Reads.isBehind {last : Option Token} (h : Reads next s ts m)
    (hs : s.phase.IsBehind last) : m.phase.IsBehind (ts.getLast?.or last) := by
  induction h generalizing last with
  | nil s => exact hs
  | @cons s m s' t ts hstep _ ih =>
    have hlast : (t :: ts).getLast?.or last = ts.getLast?.or (some t) := by
      rw [List.getLast?_cons]
      cases ts.getLast? <;> rfl
    rw [hlast]
    exact ih (isBehind_of_step hstep)

theorem Reads.isBehind_getLast? {d : Nat} (h : Reads next ⟨.item, d⟩ ts m) :
    m.phase.IsBehind ts.getLast? := by
  have hbehind : m.phase.IsBehind (ts.getLast?.or none) := h.isBehind trivial
  rwa [Option.or_none] at hbehind

end Reads

end PanelSearch.Highlight
