import PanelSearch.Proofs.Highlight.Reading
import PanelSearch.Proofs.Highlight.Runs
import PanelSearch.Proofs.Highlight.Slices
import PanelSearch.Proofs.Highlight.Trees

/-! The words of a text are parts of it, each once, under any parser whose words and phrases are:
those of its tree, and for a text that is no query those of the runs. -/

namespace PanelSearch.Highlight

open Text Traversal

/-- A word that a text may be highlighted by. -/
structure IsWordOf (cs w : List Char) : Prop where
  nonempty : w ≠ []
  part : w <:+: cs
  /-- Only between quotes a wildcard stands for itself. -/
  ended : '"' ∉ cs → ∀ c, w.getLast? = some c → isWildcard c = false

/-- A word or a phrase that is a part of a text, a phrase with a quote at its front. -/
def Term.IsSlice (cs : List Char) (t : Term) : Prop :=
  t.text <:+: cs ∧ (t.quoted = true → t.text.head? = some '"')

/-- The words and phrases of a tree are parts of the text that the tree was read from. -/
def KeepsSlices (parse : Parser) : Prop :=
  ∀ text tree, parse text = .ok tree → ∀ t ∈ tree.terms, t.IsSlice text.toList

section Sources

variable {cs w : List Char} {parse : Parser} {limits : Limits}

theorem Term.word_eq_clean (t : Term) : t.word = clean t.text t.quoted := rfl

theorem isWordOf_of_term {t : Term} (ht : t.IsSlice cs) (hne : t.word ≠ []) :
    IsWordOf cs t.word := by
  obtain ⟨hpart, hquoted⟩ := ht
  refine ⟨hne, (clean_isInfix t.text t.quoted).trans hpart, fun hnone c hc => ?_⟩
  rw [Term.word_eq_clean] at hc
  cases hq : t.quoted with
  | true => exact absurd (hpart.subset (List.mem_of_head? (hquoted hq))) hnone
  | false =>
    rw [hq] at hc
    exact not_isWildcard_of_clean hc

theorem isWordOf_of_mem_words {tree : Tree} (h : ∀ t ∈ tree.terms, t.IsSlice cs)
    (hw : w ∈ tree.words) : IsWordOf cs w := by
  obtain ⟨hterm, hne⟩ := List.mem_filter.mp hw
  obtain ⟨t, ht, rfl⟩ := List.mem_map.mp hterm
  exact isWordOf_of_term (h t ht) (by simpa using hne)

theorem isWordOf_of_mem_runWords (hw : w ∈ runWords cs) : IsWordOf cs w := by
  obtain ⟨r, hr, -, rfl, hne⟩ := mem_runWords.mp hw
  have hpart : r <:+: cs := isInfix_of_mem_runs hr
  refine ⟨hne, (wordOfRun_isInfix r).trans hpart, fun hquote c hc => ?_⟩
  exact not_isWildcard_wordOfRun (fun h => hquote (hpart.subset h)) hc

theorem words_eq_ok (hparse : KeepsSlices parse) {text : String} {ws : List String}
    (h : words limits parse text = .ok ws) :
    ∃ found : List (List Char), (∀ w ∈ found, IsWordOf text.toList w) ∧
      ws = found.eraseDups.map String.ofList := by
  unfold words at h
  split at h
  · cases h
    exact ⟨[], by simp, rfl⟩
  split at h
  · next tree htree =>
    rw [collect_eq] at h
    split at h
    · cases h
      exact ⟨_, fun _ => isWordOf_of_mem_words (hparse text tree htree), rfl⟩
    · cases h
  · cases h
    exact ⟨_, fun _ => isWordOf_of_mem_runWords, rfl⟩
  · cases h

/-- The words of a text are parts of it, none is empty and none is found twice. -/
theorem words_isWordOf (hparse : KeepsSlices parse) {text : String} {ws : List String}
    (h : words limits parse text = .ok ws) :
    ws.Nodup ∧ ∀ w ∈ ws, IsWordOf text.toList w.toList := by
  obtain ⟨found, hfound, rfl⟩ := words_eq_ok hparse h
  refine ⟨(nodup_eraseDups found).map fun _ _ => String.ofList_injective, ?_⟩
  intro w hw
  obtain ⟨cs, hcs, rfl⟩ := List.mem_map.mp hw
  rw [String.toList_ofList]
  exact hfound cs (List.mem_eraseDups.mp hcs)

end Sources

section Grammar

variable {cs : List Char} {s : State} {ts : List Token} {leaves : List Tree} {leaf : Tree}
  {u : Term}

theorem isSlice_of_leafOf? {t : Token} {next : Option Token} (h : leafOf? s t next = some leaf)
    (ht : t.IsFrom cs) (hu : u ∈ leaf.terms) : u.IsSlice cs := by
  unfold leafOf? at h
  split at h <;> try contradiction
  split at h
  · split at h
    · cases h
    · cases h
      obtain rfl := List.mem_singleton.mp hu
      exact ⟨ht, nofun⟩
  · cases h
    obtain rfl := List.mem_singleton.mp hu
    exact ⟨ht.1, fun _ => ht.2⟩
  · cases h
    obtain rfl := List.mem_singleton.mp hu
    exact ⟨ht, nofun⟩
  · cases h

theorem isSlice_of_leavesFrom (h : leavesFrom s ts = .ok leaves) (hts : ∀ t ∈ ts, t.IsFrom cs)
    (hleaf : leaf ∈ leaves) (hu : u ∈ leaf.terms) : u.IsSlice cs := by
  induction ts generalizing s leaves with
  | nil =>
    rw [leavesFrom] at h
    split at h <;> cases h
    cases hleaf
  | cons t rest ih =>
    obtain ⟨m, behind, -, hbehind, rfl⟩ := exists_of_leavesFrom_cons h
    rcases List.mem_append.mp hleaf with hleaf | hleaf
    · exact isSlice_of_leafOf? (Option.mem_toList.mp hleaf) (hts t List.mem_cons_self) hu
    · exact ih hbehind (fun t' ht' => hts t' (List.mem_cons_of_mem t ht')) hleaf

theorem grammar_keepsSlices : KeepsSlices grammar := by
  intro text tree h u hu
  obtain ⟨leaves, hleaves, rfl⟩ := map_eq_ok_iff.mp h
  rw [Tree.terms, Tree.termsOf_eq_flatMap] at hu
  obtain ⟨leaf, hleaf, hu⟩ := List.mem_flatMap.mp hu
  exact isSlice_of_leavesFrom hleaves (fun t => isFrom_of_mem_tokens) hleaf hu

end Grammar

/-- A tree with a node for each field of the text that it is read from. -/
def fieldsTree : Tree := .other [.other [.word "bar*".toList], .other [.word "bar2".toList]]

def withFields : Parser := fun text =>
  if text = "foo:bar* AND foo2:bar2" then .ok fieldsTree else grammar text

theorem fieldsTree_terms : fieldsTree.terms = [⟨"bar*".toList, false⟩, ⟨"bar2".toList, false⟩] := by
  simp [fieldsTree, Tree.terms, Tree.termsOf]

theorem withFields_keepsSlices : KeepsSlices withFields := by
  intro text tree h
  unfold withFields at h
  split at h
  · next htext =>
    cases h
    subst htext
    rw [fieldsTree_terms]
    simp only [List.forall_mem_cons]
    exact ⟨⟨⟨"foo:".toList, " AND foo2:bar2".toList, rfl⟩, nofun⟩,
      ⟨⟨"foo:bar* AND foo2:".toList, [], rfl⟩, nofun⟩, nofun⟩
  · exact grammar_keepsSlices text tree h

theorem words_isWordOf_fields :
    words .standard withFields "foo:bar* AND foo2:bar2" = .ok ["bar", "bar2"] ∧
      ["bar", "bar2"].Nodup ∧
      ∀ w ∈ ["bar", "bar2"], IsWordOf "foo:bar* AND foo2:bar2".toList w.toList := by
  have hwords : fieldsTree.words = ["bar".toList, "bar2".toList] := by
    rw [Tree.words, fieldsTree_terms]
    rfl
  have h : words .standard withFields "foo:bar* AND foo2:bar2" = .ok ["bar", "bar2"] := by
    rw [words_of_tree rfl (if_pos rfl), hwords]
    rfl
  exact ⟨h, words_isWordOf withFields_keepsSlices h⟩

end PanelSearch.Highlight
