import PanelSearch.Highlight.Words
import PanelSearch.Proofs.Text.Trim

/-! The runs of a text that is no query, and their words. A run is a part of the text and its word a
part of the run, and the runs of a text without quotes are what stands between its blanks. -/

namespace PanelSearch.Highlight

open Text

section Parts

variable {cs r : List Char} {fuel : Nat}

theorem clean_isInfix (cs : List Char) (quoted : Bool) : clean cs quoted <:+: cs := by
  cases quoted with
  | true => exact trim_isInfix _ cs
  | false => exact (trimEnd_isPrefix isWildcard cs).isInfix

theorem not_isWildcard_of_clean {c : Char} (h : (clean cs false).getLast? = some c) :
    isWildcard c = false :=
  not_of_getLast?_trimEnd h

theorem quotedRun?_isPrefix (h : quotedRun? cs = some r) : r <+: cs := by
  unfold quotedRun? at h
  split at h
  · next rest =>
    dsimp only at h
    split at h
    · next hshort =>
      have hsplit := List.takeWhile_append_dropWhile (p := (· != '"')) (l := rest)
      cases hbehind : rest.dropWhile (· != '"') with
      | nil =>
        rw [hbehind, List.append_nil] at hsplit
        rw [hsplit] at hshort
        exact absurd hshort (Nat.lt_irrefl _)
      | cons c behind =>
        obtain rfl : c = '"' := by simpa using not_of_dropWhile_eq_cons hbehind
        refine ⟨behind, ?_⟩
        rw [← Option.some.inj h]
        conv_rhs => rw [← hsplit, hbehind]
        simp
    · cases h
  · cases h

theorem fieldRun?_isPrefix (h : fieldRun? cs = some r) : r <+: cs := by
  unfold fieldRun? at h
  dsimp only at h
  split at h
  · obtain ⟨quoted, hquoted, rfl⟩ := Option.map_eq_some_iff.mp h
    obtain ⟨behind, hbehind⟩ := quotedRun?_isPrefix hquoted
    have hfront := List.prefix_iff_eq_append.mp
      (List.takeWhile_prefix (l := cs) fun c => !isBlank c && c != '"')
    refine ⟨behind, ?_⟩
    rw [List.append_assoc, hbehind, hfront]
  · exact quotedRun?_isPrefix h

theorem run_isPrefix (cs : List Char) : run cs <+: cs := by
  unfold run
  cases hfield : fieldRun? cs with
  | none => exact List.takeWhile_prefix _
  | some r => exact fieldRun?_isPrefix hfield

theorem isInfix_of_mem_runsFrom (h : r ∈ runsFrom fuel cs) : r <:+: cs := by
  induction fuel generalizing cs with
  | zero => cases h
  | succ fuel ih =>
    have hblanks : cs.dropWhile isBlank <:+ cs := List.dropWhile_suffix isBlank
    rw [runsFrom] at h
    split at h
    · cases h
    · next c rest hcs =>
      rw [hcs] at hblanks
      rcases List.mem_cons.mp h with rfl | h
      · exact (run_isPrefix _).isInfix.trans hblanks.isInfix
      · exact ((ih h).trans (List.drop_suffix _ _).isInfix).trans hblanks.isInfix

theorem isInfix_of_mem_runs (h : r ∈ runs cs) : r <:+: cs := isInfix_of_mem_runsFrom h

/-- A run without parentheses around it and signs in front of it. -/
def signless (cs : List Char) : List Char := (trim isParen cs).dropWhile isSign

/-- A run without its field. -/
def runBody (cs : List Char) : List Char :=
  if (signless cs).head? ≠ some '"' ∧ ':' ∈ signless cs then
    trim isParen (((signless cs).dropWhile (· != ':')).drop 1)
  else signless cs

theorem wordOfRun_eq (cs : List Char) :
    wordOfRun cs = clean (runBody cs) (decide ((runBody cs).head? = some '"')) := rfl

theorem signless_isInfix (cs : List Char) : signless cs <:+: cs :=
  (List.dropWhile_suffix isSign).isInfix.trans (trim_isInfix isParen cs)

theorem runBody_isInfix (cs : List Char) : runBody cs <:+: cs := by
  unfold runBody
  split
  · refine (trim_isInfix isParen _).trans (List.IsInfix.trans ?_ (signless_isInfix cs))
    exact ((List.drop_suffix 1 _).trans (List.dropWhile_suffix _)).isInfix
  · exact signless_isInfix cs

theorem wordOfRun_isInfix (cs : List Char) : wordOfRun cs <:+: cs :=
  (clean_isInfix _ _).trans (runBody_isInfix cs)

/-- Without quotes no word ends with a wildcard. -/
theorem not_isWildcard_wordOfRun {c : Char} (hquote : '"' ∉ cs)
    (h : (wordOfRun cs).getLast? = some c) : isWildcard c = false := by
  have hhead : (runBody cs).head? ≠ some '"' := fun hhead =>
    hquote ((runBody_isInfix cs).subset (List.mem_of_head? hhead))
  rw [wordOfRun_eq, decide_eq_false hhead] at h
  exact not_isWildcard_of_clean h

/-- Without quotes and colons a word is its run without what is around it. -/
theorem wordOfRun_of_plain (hquote : '"' ∉ cs) (hcolon : ':' ∉ cs) :
    wordOfRun cs = trimEnd isWildcard (signless cs) := by
  have hbody : runBody cs = signless cs := if_neg fun h => hcolon ((signless_isInfix cs).subset h.2)
  have hhead : (runBody cs).head? ≠ some '"' := fun hhead =>
    hquote ((runBody_isInfix cs).subset (List.mem_of_head? hhead))
  rw [wordOfRun_eq, decide_eq_false hhead, hbody]
  rfl

theorem mem_runWords {w : List Char} : w ∈ runWords cs ↔
    ∃ r ∈ runs cs, r ∉ operators ∧ wordOfRun r = w ∧ w ≠ [] := by
  simp only [runWords, List.mem_filter, List.mem_map, Bool.not_eq_true', List.contains_eq_mem,
    decide_eq_false_iff_not, List.isEmpty_eq_false_iff, ne_eq]
  constructor
  · rintro ⟨⟨r, ⟨hr, hop⟩, hword⟩, hne⟩
    exact ⟨r, hr, hop, hword, hne⟩
  · rintro ⟨r, hr, hop, hword, hne⟩
    exact ⟨⟨r, ⟨hr, hop⟩, hword⟩, hne⟩

end Parts

section Pieces

variable {cs : List Char}

/-- What stands between the blanks of a text. -/
def pieces (cs : List Char) : List (List Char) := (cs.splitOnP isBlank).filter (!·.isEmpty)

theorem pieces_append_blank {c : Char} (hc : isBlank c = true) (front behind : List Char) :
    pieces (front ++ c :: behind) = pieces front ++ pieces behind := by
  rw [pieces, List.splitOnP_append_cons _ _ hc, List.filter_append]
  rfl

theorem pieces_of_no_blank (hne : cs ≠ []) (h : ∀ c ∈ cs, isBlank c = false) :
    pieces cs = [cs] := by
  rw [pieces, List.splitOnP_eq_singleton h, List.filter_cons_of_pos (by simpa using hne)]
  rfl

/-- What stands in front of the first blank is the first piece. -/
theorem pieces_append {front behind : List Char} (hne : front ≠ [])
    (hfront : ∀ c ∈ front, isBlank c = false)
    (hbehind : ∀ c, behind.head? = some c → isBlank c = true) :
    pieces (front ++ behind) = front :: pieces behind := by
  cases behind with
  | nil =>
    rw [List.append_nil, pieces_of_no_blank hne hfront]
    rfl
  | cons c behind =>
    have hskip : pieces (c :: behind) = pieces behind :=
      pieces_append_blank (hbehind c rfl) [] behind
    rw [pieces_append_blank (hbehind c rfl), pieces_of_no_blank hne hfront, hskip]
    rfl

theorem pieces_dropWhile_isBlank (cs : List Char) : pieces (cs.dropWhile isBlank) = pieces cs := by
  induction cs with
  | nil => rfl
  | cons c cs ih =>
    by_cases hc : isBlank c = true
    · rw [List.dropWhile_cons_of_pos hc, ih]
      exact (pieces_append_blank hc [] cs).symm
    · rw [List.dropWhile_cons_of_neg hc]

theorem run_of_no_quote (h : '"' ∉ cs) : run cs = cs.takeWhile (!isBlank ·) := by
  have hquoted : ∀ front behind, cs = front ++ behind → quotedRun? behind = none := by
    rintro front behind rfl
    unfold quotedRun?
    split
    · simp at h
    · rfl
  have hfield : fieldRun? cs = none := by
    unfold fieldRun?
    dsimp only
    split
    · rw [hquoted _ _ (List.take_append_drop _ cs).symm]
      rfl
    · exact hquoted [] cs rfl
  rw [run, hfield]
  rfl

theorem pieces_cons_of_not_blank {c : Char} {rest : List Char} (hc : isBlank c = false) :
    pieces (c :: rest) = (c :: rest).takeWhile (!isBlank ·) ::
      pieces ((c :: rest).drop ((c :: rest).takeWhile (!isBlank ·)).length) := by
  have hsplit := List.takeWhile_append_dropWhile (p := (!isBlank ·)) (l := c :: rest)
  have hne : (c :: rest).takeWhile (!isBlank ·) ≠ [] := by simp [hc]
  have hfront : ∀ d ∈ (c :: rest).takeWhile (!isBlank ·), isBlank d = false := fun d hd => by
    simpa using List.mem_takeWhile_imp hd
  have hbehind : ∀ d, ((c :: rest).dropWhile (!isBlank ·)).head? = some d → isBlank d = true :=
    fun d hd => by simpa using not_of_head?_dropWhile hd
  generalize (c :: rest).takeWhile (!isBlank ·) = front at *
  rw [← hsplit, pieces_append hne hfront hbehind, List.drop_left]

/-- The runs of a text without quotes are its pieces. -/
theorem runsFrom_eq_pieces (fuel : Nat) (hquote : '"' ∉ cs) (hfuel : cs.length ≤ fuel) :
    runsFrom fuel cs = pieces cs := by
  induction fuel generalizing cs with
  | zero =>
    rw [List.length_eq_zero_iff.mp (Nat.le_zero.mp hfuel)]
    rfl
  | succ fuel ih =>
    have hsuffix : cs.dropWhile isBlank <:+ cs := List.dropWhile_suffix isBlank
    rw [runsFrom, ← pieces_dropWhile_isBlank cs]
    cases hcs : cs.dropWhile isBlank with
    | nil => rfl
    | cons c rest =>
      rw [hcs] at hsuffix
      have hblank : isBlank c = false := not_of_dropWhile_eq_cons hcs
      have hrest : '"' ∉ c :: rest := fun h => hquote (hsuffix.subset h)
      have hpos : 0 < ((c :: rest).takeWhile (!isBlank ·)).length := by simp [hblank]
      rw [pieces_cons_of_not_blank hblank]
      dsimp only
      rw [run_of_no_quote hrest]
      congr 1
      refine ih (fun h => hrest (List.mem_of_mem_drop h)) ?_
      have hlength := hsuffix.length_le
      rw [List.length_drop]
      omega

theorem runs_eq_pieces (hquote : '"' ∉ cs) : runs cs = pieces cs :=
  runsFrom_eq_pieces cs.length hquote (Nat.le_refl _)

/-- The words of a text without quotes and what its pieces come to. -/
theorem forall_mem_runWords_iff {P : List Char → Prop} (hquote : '"' ∉ cs) :
    (∀ w ∈ runWords cs, P w) ↔
      ∀ r ∈ pieces cs, r ∉ operators → wordOfRun r ≠ [] → P (wordOfRun r) := by
  simp only [mem_runWords, runs_eq_pieces hquote]
  constructor
  · intro h r hr hop hne
    exact h _ ⟨r, hr, hop, rfl, hne⟩
  · rintro h w ⟨r, hr, hop, rfl, hne⟩
    exact h r hr hop hne

theorem isInfix_of_mem_pieces {r : List Char} (hquote : '"' ∉ cs) (h : r ∈ pieces cs) : r <:+: cs :=
  isInfix_of_mem_runs (runs_eq_pieces hquote ▸ h)

end Pieces

end PanelSearch.Highlight
