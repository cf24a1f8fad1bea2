import PanelSearch.Highlight.Grammar
import PanelSearch.Proofs.Text.Trim

/-! The tokens of a query as parts of its text. -/

namespace PanelSearch.Highlight

open Text

/-- A token that may count as a word is a part of a text, and a phrase is one with a quote at its
front. A degree has its mark in the text. -/
def Token.IsFrom (cs : List Char) : Token → Prop
  | .term text => text <:+: cs
  | .phrase text => text <:+: cs ∧ text.head? = some '"'
  | .to => "TO".toList <:+: cs
  | .approx _ => '~' ∈ cs
  | .boost _ => '^' ∈ cs
  | _ => True

theorem Token.IsFrom.of_isInfix {token : Token} {part cs : List Char} (h : token.IsFrom part)
    (hpart : part <:+: cs) : token.IsFrom cs := by
  cases token <;> try trivial
  · exact List.IsInfix.trans h hpart
  · exact ⟨h.1.trans hpart, h.2⟩
  · exact List.IsInfix.trans h hpart
  · exact hpart.subset h
  · exact hpart.subset h

section Front

variable {cs text : List Char} {token : Token}

theorem termTail_isPrefix (before : List Char) (minutes : Bool) (cs : List Char) :
    termTail before minutes cs <+: cs := by
  fun_induction termTail before minutes cs with
  | case1 => exact List.nil_prefix
  | case2 before minutes c rest hc ih =>
    exact List.cons_prefix_cons.mpr ⟨rfl, List.cons_prefix_cons.mpr ⟨rfl, ih⟩⟩
  | case3 before minutes a b rest hour htime ih =>
    refine List.cons_prefix_cons.mpr ⟨rfl, List.cons_prefix_cons.mpr ⟨rfl, ?_⟩⟩
    exact List.cons_prefix_cons.mpr ⟨rfl, ih⟩
  | case4 => exact List.nil_prefix
  | case5 before minutes c rest hescape htime hc ih => exact List.cons_prefix_cons.mpr ⟨rfl, ih⟩
  | case6 => exact List.nil_prefix
  | case7 => exact List.nil_prefix

theorem term?_isPrefix (h : term? cs = some text) : text <+: cs := by
  unfold term? at h
  split at h
  · split at h
    · cases h
    · cases h
      refine List.cons_prefix_cons.mpr ⟨rfl, List.cons_prefix_cons.mpr ⟨rfl, ?_⟩⟩
      exact termTail_isPrefix _ _ _
  · split at h
    · cases h
      exact List.cons_prefix_cons.mpr ⟨rfl, termTail_isPrefix _ _ _⟩
    · cases h
  · cases h

theorem delimited?_isPrefix {mark : Char} (h : delimited? mark cs = some text) : text <+: cs := by
  fun_induction delimited? mark cs generalizing text with
  | case1 => cases h
  | case2 c rest hc ih =>
    obtain ⟨inner, hinner, rfl⟩ := Option.map_eq_some_iff.mp h
    exact List.cons_prefix_cons.mpr ⟨rfl, List.cons_prefix_cons.mpr ⟨rfl, ih hinner⟩⟩
  | case3 =>
    cases h
    exact List.cons_prefix_cons.mpr ⟨rfl, List.nil_prefix⟩
  | case4 => cases h
  | case5 c rest hescape hmark hc ih =>
    obtain ⟨inner, hinner, rfl⟩ := Option.map_eq_some_iff.mp h
    exact List.cons_prefix_cons.mpr ⟨rfl, ih hinner⟩
  | case6 => cases h

theorem isFrom_ofTerm (text : List Char) : (ofTerm text).IsFrom text := by
  unfold ofTerm
  split
  · trivial
  split
  · trivial
  split
  · trivial
  split
  · next hto => exact hto ▸ List.infix_rfl
  · exact List.infix_rfl

theorem isFrom_mark (c : Char) (rest : List Char) : (mark c rest).1.IsFrom (c :: rest) := by
  simp only [mark]
  split <;> try trivial
  · split
    · next text hphrase =>
      exact ⟨(List.cons_prefix_cons.mpr ⟨rfl, delimited?_isPrefix hphrase⟩).isInfix, rfl⟩
    · trivial
  · split <;> trivial
  · exact List.mem_cons_self
  · exact List.mem_cons_self

theorem isFrom_front? {length : Nat} {rest : List Char}
    (h : front? cs = some (token, length, rest)) : token.IsFrom cs ∧ rest <:+: cs := by
  have hblanks : cs.dropWhile isBlank <:+: cs := (List.dropWhile_suffix isBlank).isInfix
  unfold front? at h
  split at h
  · cases h
  · next c behind hcs =>
    rw [hcs] at hblanks
    split at h
    · next text hterm =>
      cases h
      have hpart : text <:+: cs := (term?_isPrefix hterm).isInfix.trans hblanks
      exact ⟨(isFrom_ofTerm text).of_isInfix hpart, hblanks⟩
    · cases h
      exact ⟨(isFrom_mark c behind).of_isInfix hblanks, hblanks⟩

theorem isFrom_of_mem_tokensFrom {fuel : Nat} (h : token ∈ tokensFrom fuel cs) :
    token.IsFrom cs := by
  induction fuel generalizing cs with
  | zero => cases h
  | succ fuel ih =>
    rw [tokensFrom] at h
    split at h
    · cases h
    · obtain rfl := List.mem_singleton.mp h
      trivial
    · next first length rest _ hfront =>
      obtain ⟨hfirst, hrest⟩ := isFrom_front? hfront
      rcases List.mem_cons.mp h with rfl | h
      · exact hfirst
      · exact (ih h).of_isInfix ((List.drop_suffix length rest).isInfix.trans hrest)

theorem isFrom_of_mem_tokens (h : token ∈ tokens cs) : token.IsFrom cs :=
  isFrom_of_mem_tokensFrom h

end Front

end PanelSearch.Highlight
