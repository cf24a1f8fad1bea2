import PanelSearch.Proofs.Highlight.Steps

/-! Where the parser fails: at a degree that is no number, and only where a query could go on with a
degree that is absent. -/

namespace PanelSearch.Highlight

/-- Tokens that some query begins with. -/
def BeginsQuery (ts : List Token) : Prop := ∃ more ws, Derives .query (ts ++ more) ws

/-- A degree that is no number, by the token before it, and the same mark without a degree. -/
inductive FaultyDegree : Option Token → Token → Token → Fault → Prop
  | boost {before : Option Token} {degree : List Char} (h : isDecimalDegree degree = false) :
      FaultyDegree before (.boost degree) (.boost []) .wordDegree
  | word {text degree : List Char} (h : isDecimalDegree degree = false) :
      FaultyDegree (some (.term text)) (.approx degree) (.approx []) .wordDegree
  | phrase {text degree : List Char} (h : isIntegerDegree degree = false) :
      FaultyDegree (some (.phrase text)) (.approx degree) (.approx []) .phraseDegree

/-- Tokens are those of a query up to a degree that is no number, and the token behind it is one
that may stand there. -/
def StopsAtDegree (ts : List Token) (fault : Fault) : Prop :=
  ∃ front t bare rest, ts = front ++ t :: rest ∧ FaultyDegree front.getLast? t bare fault ∧
    mayFollowDegree rest.head? = true ∧ BeginsQuery (front ++ [bare])

section Degrees

variable {s m : State} {t bare : Token} {ts : List Token} {last next after : Option Token}
  {e : Refusal} {fault : Fault}

theorem judge_eq_error_iff {fits : Bool} :
    judge fits fault next s = .error e ↔ mayFollowDegree next = false ∧ e = .notAQuery ∨
      mayFollowDegree next = true ∧ fits = false ∧ e = .fault fault := by
  cases hnext : mayFollowDegree next <;> cases fits <;> simp [judge, hnext, eq_comm]

/-- In each state a degree that is no number may stand where the mark alone may, and is judged
there, or none of the two may stand. -/
theorem FaultyDegree.step_eq (h : FaultyDegree last t bare fault) (hs : s.phase.IsBehind last) :
    (∀ next, step s t next = judge false fault next ⟨.done, s.depth⟩ ∧
        step s bare next = judge true fault next ⟨.done, s.depth⟩) ∨
      ∀ next, step s t next = .error .notAQuery ∧ step s bare next = .error .notAQuery := by
  obtain ⟨phase, depth⟩ := s
  cases h with
  | boost hdegree =>
    cases phase with
    | done | word | phrase =>
      exact .inl fun next => ⟨congrArg (judge · _ next _) hdegree, rfl⟩
    | _ => exact .inr fun next => ⟨rfl, rfl⟩
  | word hdegree =>
    cases phase with
    | word => exact .inl fun next => ⟨congrArg (judge · _ next _) hdegree, rfl⟩
    | phrase =>
      obtain ⟨text, hlast⟩ := hs
      cases hlast
    | _ => exact .inr fun next => ⟨rfl, rfl⟩
  | phrase hdegree =>
    cases phase with
    | phrase => exact .inl fun next => ⟨congrArg (judge · _ next _) hdegree, rfl⟩
    | word =>
      obtain ⟨text, hlast⟩ := hs
      cases hlast
    | _ => exact .inr fun next => ⟨rfl, rfl⟩

theorem FaultyDegree.step_eq_error (h : FaultyDegree last t bare fault)
    (hs : s.phase.IsBehind last) (hbare : step s bare after = .ok m)
    (hnext : mayFollowDegree next = true) : step s t next = .error (.fault fault) := by
  rcases h.step_eq hs with hsteps | hsteps
  · exact (hsteps next).1.trans (judge_eq_error_iff.mpr (.inr ⟨hnext, rfl, rfl⟩))
  · rw [(hsteps after).2] at hbare
    cases hbare

theorem FaultyDegree.step_bare (h : FaultyDegree last t bare fault) (hs : s.phase.IsBehind last)
    (hstep : step s t next = .error (.fault fault)) (hafter : mayFollowDegree after = true) :
    step s bare after = .ok ⟨.done, s.depth⟩ := by
  rcases h.step_eq hs with hsteps | hsteps
  · exact (hsteps after).2.trans (judge_eq_ok_iff.mpr ⟨hafter, rfl, rfl⟩)
  · rw [(hsteps next).1] at hstep
    cases hstep

theorem fault_of_judge {fits : Bool} {other : Fault}
    (h : judge fits other next s = .error (.fault fault)) :
    mayFollowDegree next = true ∧ fits = false ∧ other = fault := by
  rcases judge_eq_error_iff.mp h with ⟨-, hfault⟩ | ⟨hnext, hfits, hfault⟩
  · cases hfault
  · cases hfault
    exact ⟨hnext, hfits, rfl⟩

theorem beginItem_ne_fault : beginItem s t next ≠ .error (.fault fault) := by
  cases t <;> exact nofun

theorem rangeEnd_ne_fault {sign : Bool} {signed ended : Phase} :
    rangeEnd s sign signed ended t ≠ .error (.fault fault) := by
  unfold rangeEnd
  split
  · split <;> exact nofun
  all_goals exact nofun

/-- Behind a complete item only the degree of the item stops the work. -/
theorem exists_boost_of_continueItem (h : continueItem s t next = .error (.fault fault)) :
    ∃ degree, t = .boost degree ∧ fault = .wordDegree ∧
      isDecimalDegree degree = false ∧ mayFollowDegree next = true := by
  unfold continueItem at h
  split at h
  · cases h
  · cases h
  · next degree =>
    obtain ⟨hnext, hdegree, hfault⟩ := fault_of_judge h
    exact ⟨degree, rfl, hfault.symm, hdegree, hnext⟩
  · split at h <;> cases h
  · exact absurd h beginItem_ne_fault

/-- Reading stops at a degree that is no number, by the token before it. -/
theorem exists_faultyDegree (hs : s.phase.IsBehind last)
    (h : step s t next = .error (.fault fault)) :
    ∃ bare, FaultyDegree last t bare fault ∧ mayFollowDegree next = true := by
  have hcontinue : continueItem s t next = .error (.fault fault) →
      ∃ bare, FaultyDegree last t bare fault ∧ mayFollowDegree next = true := by
    intro h
    obtain ⟨degree, rfl, rfl, hdegree, hnext⟩ := exists_boost_of_continueItem h
    exact ⟨_, .boost hdegree, hnext⟩
  obtain ⟨phase, depth⟩ := s
  cases phase with
  | item => exact absurd h beginItem_ne_fault
  | done => exact hcontinue h
  | word =>
    obtain ⟨text, rfl⟩ := hs
    cases t with
    | approx degree =>
      obtain ⟨hnext, hdegree, rfl⟩ := fault_of_judge h
      exact ⟨_, .word hdegree, hnext⟩
    | _ => exact hcontinue h
  | phrase =>
    obtain ⟨text, rfl⟩ := hs
    cases t with
    | approx degree =>
      obtain ⟨hnext, hdegree, rfl⟩ := fault_of_judge h
      exact ⟨_, .phrase hdegree, hnext⟩
    | _ => exact hcontinue h
  | lower | upper => exact absurd h rangeEnd_ne_fault
  | field | middle | close | comparand =>
    simp only [step] at h
    split at h <;> cases h

theorem FaultyDegree.looksLike (h : FaultyDegree last t bare fault) :
    LooksLike (some t) (some bare) := by
  cases h <;> simp [LooksLike, mayFollowDegree]

theorem leavesFrom_closeParens (d : Nat) :
    leavesFrom ⟨.done, d⟩ (List.replicate d .closeParen) = .ok [] := by
  induction d with
  | zero => rfl
  | succ d ih =>
    rw [List.replicate_succ]
    exact (leavesFrom_of_silent_step rfl rfl).trans ih

theorem mayFollowDegree_closeParens (d : Nat) :
    mayFollowDegree (List.replicate d Token.closeParen).head? = true := by
  cases d <;> rfl

/-- What is open at a degree that stops the work can be closed again behind the mark alone. -/
theorem stopsAtDegree_of_leavesFrom (h : leavesFrom ⟨.item, 0⟩ ts = .error (.fault fault)) :
    StopsAtDegree ts fault := by
  obtain ⟨front, t, rest, m, rfl, hreads, hstep⟩ := exists_reads_of_leavesFrom_error h nofun
  obtain ⟨bare, hfaulty, hrest⟩ := exists_faultyDegree hreads.isBehind_getLast? hstep
  have hbare : step m bare (List.replicate m.depth Token.closeParen).head? = .ok ⟨.done, m.depth⟩ :=
    hfaulty.step_bare hreads.isBehind_getLast? hstep (mayFollowDegree_closeParens m.depth)
  have hreads' : Reads (bare :: List.replicate m.depth .closeParen).head? ⟨.item, 0⟩ front m :=
    hreads.congr hfaulty.looksLike
  obtain ⟨ws, hws⟩ := hreads'.exists_leavesFrom
  rw [leavesFrom_of_step hbare, leavesFrom_closeParens, List.append_cons] at hws
  have hbegins : BeginsQuery (front ++ [bare]) := ⟨_, _, leavesFrom_eq_ok_iff.mp hws⟩
  exact ⟨front, t, bare, rest, rfl, hfaulty, hrest, hbegins⟩

theorem leavesFrom_of_stopsAtDegree (h : StopsAtDegree ts fault) :
    leavesFrom ⟨.item, 0⟩ ts = .error (.fault fault) := by
  obtain ⟨front, t, bare, rest, rfl, hfaulty, hrest, more, ws, hderives⟩ := h
  rw [List.append_assoc] at hderives
  obtain ⟨m, _, hreads, hbehind⟩ := exists_reads_of_leavesFrom (leavesFrom_eq_ok_iff.mpr hderives)
  obtain ⟨_, _, hbare, -⟩ := exists_of_leavesFrom_cons hbehind
  have hstep := hfaulty.step_eq_error hreads.isBehind_getLast? hbare hrest
  have hreads' : Reads (t :: rest).head? ⟨.item, 0⟩ front m :=
    hreads.congr hfaulty.looksLike.symm
  obtain ⟨vs, hvs⟩ := hreads'.exists_leavesFrom
  rw [hvs, leavesFrom, hstep]
  rfl

/-- The tree of a text has the words and phrases that the grammar derives. -/
theorem grammar_eq_ok_iff {text : String} {tree : Tree} : grammar text = .ok tree ↔
    ∃ leaves, Derives .query (tokens text.toList) leaves ∧ .other leaves = tree := by
  rw [grammar, Traversal.map_eq_ok_iff]
  simp only [leavesFrom_eq_ok_iff]

/-- The parser fails at a text exactly where its tokens have a degree that is no number. -/
theorem grammar_eq_fault_iff {text : String} : grammar text = .error (.fault fault) ↔
    StopsAtDegree (tokens text.toList) fault := by
  rw [grammar, Traversal.map_eq_error_iff]
  exact ⟨stopsAtDegree_of_leavesFrom, leavesFrom_of_stopsAtDegree⟩

end Degrees

end PanelSearch.Highlight
