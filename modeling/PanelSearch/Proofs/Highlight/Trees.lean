import PanelSearch.Highlight.Words
import PanelSearch.Proofs.Traversal

/-! The words and phrases of a syntax tree by themselves. Going through a tree finds them all in
their order, or is given up where the tree has more levels than the limits allow. -/

namespace PanelSearch.Highlight

open Text

/-- A word or a phrase of a tree. -/
structure Term where
  text : List Char
  quoted : Bool

/-- What is highlighted of a word or a phrase. -/
def Term.word (t : Term) : List Char :=
  if t.quoted then trim (· == '"') t.text else trimEnd (fun c => c = '*' || c = '?') t.text

namespace Tree

mutual

/-- The words and phrases of a tree, but for those that ranges hold. -/
def terms : Tree → List Term
  | word text => [⟨text, false⟩]
  | phrase text => [⟨text, true⟩]
  | regex _ | range _ => []
  | other parts => termsOf parts

def termsOf : List Tree → List Term
  | [] => []
  | tree :: rest => terms tree ++ termsOf rest

end

mutual

/-- The number of levels of a tree. A range is on one level. -/
def height : Tree → Nat
  | other parts => levels parts + 1
  | word _ | phrase _ | regex _ | range _ => 1

def levels : List Tree → Nat
  | [] => 0
  | tree :: rest => Nat.max (height tree) (levels rest)

end

/-- What is highlighted of a tree, empty words left out. -/
def words (tree : Tree) : List (List Char) := (tree.terms.map Term.word).filter (!·.isEmpty)

def wordsOf (trees : List Tree) : List (List Char) :=
  ((termsOf trees).map Term.word).filter (!·.isEmpty)

theorem words_other (parts : List Tree) : (other parts).words = wordsOf parts := by
  rw [words, terms, wordsOf]

theorem wordsOf_cons (tree : Tree) (rest : List Tree) :
    wordsOf (tree :: rest) = tree.words ++ wordsOf rest := by
  rw [wordsOf, termsOf, List.map_append, List.filter_append, words, wordsOf]

theorem termsOf_eq_flatMap (trees : List Tree) : termsOf trees = trees.flatMap terms := by
  induction trees with
  | nil => rfl
  | cons tree rest ih => rw [termsOf, ih, List.flatMap_cons]

end Tree

section Collect

variable {limit : Option Nat} {m n : Nat} {limits : Limits} {parse : Parser} {text : String}
  {tree : Tree}

theorem allows_of_le (hle : m ≤ n) (h : Limits.allows limit n = true) :
    Limits.allows limit m = true :=
  Limits.allows_iff.mpr fun most hmost => Nat.le_trans hle (Limits.allows_iff.mp h most hmost)

theorem allows_add_max (depth : Nat) : Limits.allows limit (depth + Nat.max m n) =
    (Limits.allows limit (depth + m) && Limits.allows limit (depth + n)) := by
  cases limit with
  | none => rfl
  | some most =>
    rw [Bool.eq_iff_iff, Bool.and_eq_true]
    simp only [Limits.allows_iff, Option.mem_some_iff, forall_eq', Nat.max_def]
    split <;> omega

mutual

/-- Going through a tree finds its words, unless it has more levels than are allowed. -/
theorem collect_eq (limits : Limits) (depth : Nat) : (tree : Tree) →
    collect limits depth tree =
      if Limits.allows limits.maxDepth (depth + tree.height) then .ok tree.words
      else .error .tooDeep
  | .word text | .phrase text | .regex text | .range ends => by
    rw [collect, Tree.height]
    cases Limits.allows limits.maxDepth (depth + 1) <;> rfl
  | .other parts => by
    have hdepth : depth + (Tree.levels parts + 1) = depth + 1 + Tree.levels parts := by omega
    rw [collect, Tree.height, Tree.words_other, hdepth]
    by_cases h : Limits.allows limits.maxDepth (depth + 1) = true
    · rw [collectAll_eq limits (depth + 1) h parts, h]
      rfl
    · have hbelow : ¬Limits.allows limits.maxDepth (depth + 1 + Tree.levels parts) = true :=
        fun hbelow => h (allows_of_le (Nat.le_add_right _ _) hbelow)
      rw [if_neg hbelow, if_pos (by simpa using h)]

theorem collectAll_eq (limits : Limits) (depth : Nat)
    (h : Limits.allows limits.maxDepth depth = true) : (trees : List Tree) →
    collectAll limits depth trees =
      if Limits.allows limits.maxDepth (depth + Tree.levels trees) then .ok (Tree.wordsOf trees)
      else .error .tooDeep
  | [] => by
    rw [collectAll, Tree.levels, Nat.add_zero, if_pos h]
    rfl
  | tree :: rest => by
    rw [collectAll, collect_eq limits depth tree, collectAll_eq limits depth h rest, Tree.levels,
      Tree.wordsOf_cons, allows_add_max]
    cases Limits.allows limits.maxDepth (depth + tree.height) <;>
      cases Limits.allows limits.maxDepth (depth + Tree.levels rest) <;> rfl

end

/-- The words of a text that has a tree. -/
theorem words_of_tree (hblank : isAllBlank text = false) (htree : parse text = .ok tree) :
    words limits parse text =
      if Limits.allows limits.maxDepth tree.height then
        .ok (tree.words.eraseDups.map String.ofList)
      else .error .tooDeep := by
  rw [words, if_neg (by simp [hblank]), htree]
  dsimp only
  rw [collect_eq, Nat.zero_add]
  split <;> rfl

end Collect

end PanelSearch.Highlight
