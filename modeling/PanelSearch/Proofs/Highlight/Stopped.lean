import PanelSearch.Proofs.Highlight.Degrees
import PanelSearch.Proofs.Highlight.Slices
import PanelSearch.Proofs.Highlight.Trees

/-! The words of a text under any parser. A text that is no query has the words between its blanks;
there are none only where the parser fails at a degree, or where a tree has too many levels. -/

namespace PanelSearch.Highlight

open Text

/-- A parser fails only at a degree of a word or a phrase, and a degree has a mark in front of it.
-/
def FailsAtDegrees (parse : Parser) : Prop :=
  ∀ text f, parse text = .error (.fault f) →
    (f = .wordDegree ∨ f = .phraseDegree) ∧ ('~' ∈ text.toList ∨ '^' ∈ text.toList)

/-- What the words of a text are, by what the parser makes of it. -/
inductive WordsOf (limits : Limits) (parse : Parser) (text : String) :
    Except Fault (List String) → Prop
  | blank (h : isAllBlank text = true) : WordsOf limits parse text (.ok [])
  | tree {tree : Tree} (hblank : isAllBlank text = false) (htree : parse text = .ok tree)
      (hlevels : ∀ most ∈ limits.maxDepth, tree.height ≤ most) :
      WordsOf limits parse text (.ok (tree.words.eraseDups.map String.ofList))
  | runs (hblank : isAllBlank text = false) (hquery : parse text = .error .notAQuery) :
      WordsOf limits parse text (.ok ((runWords text.toList).eraseDups.map String.ofList))
  | degree {f : Fault} (hblank : isAllBlank text = false) (hfault : parse text = .error (.fault f))
      (hkind : f = .wordDegree ∨ f = .phraseDegree)
      (hmark : '~' ∈ text.toList ∨ '^' ∈ text.toList) : WordsOf limits parse text (.error f)
  | levels {tree : Tree} {most : Nat} (hblank : isAllBlank text = false)
      (htree : parse text = .ok tree) (hmost : most ∈ limits.maxDepth)
      (hlevels : most < tree.height) : WordsOf limits parse text (.error .tooDeep)

section Stopped

variable {limits : Limits} {parse : Parser} {text : String} {result : Except Fault (List String)}

theorem wordsOf_words (hparse : FailsAtDegrees parse) (limits : Limits) (text : String) :
    WordsOf limits parse text (words limits parse text) := by
  cases hblank : isAllBlank text with
  | true =>
    rw [words, if_pos hblank]
    exact .blank hblank
  | false =>
    cases hresult : parse text with
    | ok tree =>
      rw [words_of_tree hblank hresult]
      split
      · next hlevels => exact .tree hblank hresult (Limits.allows_iff.mp hlevels)
      · next hlevels =>
        rw [Limits.allows_iff] at hlevels
        push Not at hlevels
        obtain ⟨most, hmost, hlt⟩ := hlevels
        exact .levels hblank hresult hmost hlt
    | error refusal =>
      rw [words, if_neg (by simp [hblank]), hresult]
      cases refusal with
      | notAQuery => exact .runs hblank hresult
      | fault f =>
        obtain ⟨hkind, hmark⟩ := hparse text f hresult
        exact .degree hblank hresult hkind hmark

theorem WordsOf.eq_words (h : WordsOf limits parse text result) :
    words limits parse text = result := by
  cases h with
  | blank h => rw [words, if_pos h]
  | tree hblank htree hlevels =>
    rw [words_of_tree hblank htree, if_pos (Limits.allows_iff.mpr hlevels)]
  | runs hblank hquery => rw [words, if_neg (by simp [hblank]), hquery]
  | degree hblank hfault => rw [words, if_neg (by simp [hblank]), hfault]
  | levels hblank htree hmost hlevels =>
    have hnot : ¬Limits.allows limits.maxDepth _ = true := fun h =>
      Nat.not_le.mpr hlevels (Limits.allows_iff.mp h _ hmost)
    rw [words_of_tree hblank htree, if_neg hnot]

theorem exists_words_iff (hparse : FailsAtDegrees parse) :
    (∃ ws, words limits parse text = .ok ws) ↔ isAllBlank text = true ∨
      (∀ f, parse text ≠ .error (.fault f)) ∧
        ∀ tree, parse text = .ok tree → ∀ most ∈ limits.maxDepth, tree.height ≤ most := by
  constructor
  · rintro ⟨ws, h⟩
    have hwords := wordsOf_words hparse limits text
    rw [h] at hwords
    cases hwords with
    | blank hblank => exact .inl hblank
    | tree hblank htree hlevels =>
      refine .inr ⟨fun f hfault => absurd (htree.symm.trans hfault) nofun, fun tree' htree' => ?_⟩
      obtain rfl := Except.ok.inj (htree.symm.trans htree')
      exact hlevels
    | runs hblank hquery =>
      exact .inr ⟨fun f hfault => absurd (hquery.symm.trans hfault) nofun,
        fun tree htree => absurd (hquery.symm.trans htree) nofun⟩
  · rintro (hblank | ⟨hnone, hheight⟩)
    · exact ⟨_, (WordsOf.blank hblank).eq_words⟩
    cases hblank : isAllBlank text with
    | true => exact ⟨_, (WordsOf.blank hblank).eq_words⟩
    | false =>
      cases hresult : parse text with
      | ok tree => exact ⟨_, (WordsOf.tree hblank hresult (hheight tree hresult)).eq_words⟩
      | error refusal =>
        cases refusal with
        | notAQuery => exact ⟨_, (WordsOf.runs hblank hresult).eq_words⟩
        | fault f => exact absurd hresult (hnone f)

/-- A text has its words, be they none, unless the parser fails at a degree in it or its tree has
too many levels. They are those of the tree, or those between the blanks of a text that is no query.
-/
theorem words_unless_stopped (hparse : FailsAtDegrees parse) (limits : Limits) (text : String) :
    ((∃ ws, words limits parse text = .ok ws) ↔ isAllBlank text = true ∨
      (∀ f, parse text ≠ .error (.fault f)) ∧
        ∀ tree, parse text = .ok tree → ∀ most ∈ limits.maxDepth, tree.height ≤ most) ∧
    ∀ result, words limits parse text = result ↔ WordsOf limits parse text result :=
  ⟨exists_words_iff hparse, fun _ => ⟨fun h => h ▸ wordsOf_words hparse limits text,
    WordsOf.eq_words⟩⟩

end Stopped

section Grammar

variable {text : String} {f : Fault}

theorem FaultyDegree.kind {before : Option Token} {t bare : Token}
    (h : FaultyDegree before t bare f) : f = .wordDegree ∨ f = .phraseDegree := by
  cases h with
  | boost | word => exact .inl rfl
  | phrase => exact .inr rfl

theorem FaultyDegree.mark_mem {before : Option Token} {t bare : Token} {cs : List Char}
    (h : FaultyDegree before t bare f) (ht : t.IsFrom cs) : '~' ∈ cs ∨ '^' ∈ cs := by
  cases h with
  | boost => exact .inr ht
  | word | phrase => exact .inl ht

theorem grammar_failsAtDegrees : FailsAtDegrees grammar := by
  intro text f h
  obtain ⟨front, t, bare, rest, htokens, hfaulty, -, -⟩ := grammar_eq_fault_iff.mp h
  have ht : t ∈ tokens text.toList := htokens ▸ List.mem_append_right front List.mem_cons_self
  exact ⟨hfaulty.kind, hfaulty.mark_mem (isFrom_of_mem_tokens ht)⟩

end Grammar

/-- A text that is no query, for its parenthesis is not closed, has the words between its blanks. -/
theorem words_openParen : FailsAtDegrees grammar ∧
    words .standard grammar "level:error~2 AND (" = .ok ["error~2"] := by
  refine ⟨grammar_failsAtDegrees, ?_⟩
  refine ((words_unless_stopped grammar_failsAtDegrees .standard _).2 _).mpr ?_
  exact .runs rfl rfl

/-- The degree of a word is no decimal, and there are no words. -/
theorem words_version_degree :
    FailsAtDegrees grammar ∧ words .standard grammar "retry~1.2.3" = .error .wordDegree :=
  ⟨grammar_failsAtDegrees, by decide +kernel⟩

end PanelSearch.Highlight
