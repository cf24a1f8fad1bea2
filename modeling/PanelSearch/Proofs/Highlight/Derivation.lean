import PanelSearch.Highlight.Grammar

/-! The grammar of queries by itself. What it derives is read token by token, and the words and
phrases are those of the derivation. -/

namespace PanelSearch.Highlight

def Token.isText : Token → Bool
  | .term _ | .phrase _ => true
  | _ => false

/-- The leaf that a token is outside of ranges and fields. -/
def Token.leaf? : Token → Option Tree
  | .term text => some (.word text)
  | .phrase text => some (.phrase text)
  | .to => some (.word ['T', 'O'])
  | _ => none

def Token.leaves (t : Token) : List Tree := t.leaf?.toList

/-- What the grammar derives: one item, or items in a row. -/
inductive Kind where
  | item
  | query

/-- An end of a range. -/
inductive IsBound : List Token → Prop
  | plain {t : Token} (ht : t.isText = true) : IsBound [t]
  | signed {t : Token} (ht : t.isText = true) : IsBound [.minus, t]

/-- Tokens that are derived, and their words and phrases. -/
inductive Derives : Kind → List Token → List Tree → Prop
  | signed {sign : Token} {ts : List Token} {ws : List Tree}
      (hsign : sign = .plus ∨ sign = .minus ∨ sign = .not) (h : Derives .item ts ws) :
      Derives .item (sign :: ts) ws
  | field {ts : List Token} {ws : List Tree} (name : List Char) (h : Derives .item ts ws) :
      Derives .item (.term name :: .colon :: ts) ws
  | boosted {ts : List Token} {ws : List Tree} {degree : List Char}
      (h : Derives .item ts ws) (hdegree : isDecimalDegree degree = true) :
      Derives .item (ts ++ [.boost degree]) ws
  | group {ts : List Token} {ws : List Tree} (h : Derives .query ts ws) :
      Derives .item (.openParen :: (ts ++ [.closeParen])) ws
  | text {t : Token} (ht : t.isText = true) : Derives .item [t] t.leaves
  | fuzzy {degree : List Char} (text : List Char) (hdegree : isDecimalDegree degree = true) :
      Derives .item [.term text, .approx degree] (Token.term text).leaves
  | near {degree : List Char} (text : List Char) (hdegree : isIntegerDegree degree = true) :
      Derives .item [.phrase text, .approx degree] (Token.phrase text).leaves
  | comparison {t : Token} (ht : t.isText = true) : Derives .item [.compare, t] t.leaves
  | range {lower upper : List Token} (hlower : IsBound lower) (hupper : IsBound upper) :
      Derives .item (.openRange :: (lower ++ .to :: (upper ++ [.closeRange]))) []
  | regex : Derives .item [.regex] []
  | bareTo : Derives .item [.to] Token.to.leaves
  | single {ts : List Token} {ws : List Tree} (h : Derives .item ts ws) :
      Derives .query ts ws
  | more {ts op us : List Token} {ws vs : List Tree} (h : Derives .item ts ws)
      (hop : op = [] ∨ op = [.and] ∨ op = [.or]) (hrest : Derives .query us vs) :
      Derives .query (ts ++ (op ++ us)) (ws ++ vs)

/-- The leaf that a token adds where it is read. -/
def leavesAt (s : State) (t : Token) (next : Option Token) : List Tree :=
  (leafOf? s t next).toList

section Reading

variable {s m : State} {t : Token} {rest : List Token} {d : Nat}

theorem leavesFrom_of_step (h : step s t rest.head? = .ok m) :
    leavesFrom s (t :: rest) = (leavesFrom m rest).map (leavesAt s t rest.head? ++ ·) := by
  rw [leavesFrom, h]
  rfl

theorem leavesFrom_of_silent_step (h : step s t rest.head? = .ok m)
    (hsilent : leavesAt s t rest.head? = []) : leavesFrom s (t :: rest) = leavesFrom m rest := by
  rw [leavesFrom_of_step h, hsilent]
  cases leavesFrom m rest <;> rfl

theorem map_append_map (x : Except Refusal (List Tree)) (ws vs : List Tree) :
    (x.map (vs ++ ·)).map (ws ++ ·) = x.map ((ws ++ vs) ++ ·) := by
  cases x with
  | error e => rfl
  | ok us => exact congrArg Except.ok (List.append_assoc ws vs us).symm

theorem judge_eq_ok_iff {fits : Bool} {fault : Fault} {next : Option Token} :
    judge fits fault next s = .ok m ↔ mayFollowDegree next = true ∧ fits = true ∧ m = s := by
  cases hnext : mayFollowDegree next <;> cases fits <;> simp [judge, hnext, eq_comm]

/-- Outside of fields, ranges and comparisons. -/
def Phase.isOpen : Phase → Bool
  | .item | .done | .word | .phrase => true
  | _ => false

theorem leafOf?_of_isOpen {p : Phase} (hp : p.isOpen = true) (next : Option Token) :
    leafOf? ⟨p, d⟩ t next = leafOf? ⟨.item, d⟩ t next := by
  cases p with
  | item => rfl
  | done | word | phrase => simp [leafOf?]
  | _ => cases hp

/-- Without a degree behind it, a word or a phrase is a complete item. -/
theorem leavesFrom_of_ended {p : Phase} (hp : p = .word ∨ p = .phrase)
    (hrest : ∀ degree, rest.head? ≠ some (.approx degree)) :
    leavesFrom ⟨p, d⟩ rest = leavesFrom ⟨.done, d⟩ rest := by
  cases rest with
  | nil => rcases hp with rfl | rfl <;> rfl
  | cons t rest =>
    have hstep : step ⟨p, d⟩ t rest.head? = step ⟨.done, d⟩ t rest.head? := by
      rcases hp with rfl | rfl <;> cases t <;> first | rfl | exact absurd rfl (hrest _)
    have hopen : p.isOpen = true := by rcases hp with rfl | rfl <;> rfl
    rw [leavesFrom, leavesFrom, hstep, leafOf?_of_isOpen hopen, leafOf?_of_isOpen (p := .done) rfl]

/-- A token that an item may begin with. -/
def Token.beginsItem : Token → Bool
  | .plus | .minus | .not | .openParen | .term _ | .phrase _ | .regex | .to | .openRange
  | .compare => true
  | _ => false

theorem leavesFrom_done_of_beginsItem (ht : t.beginsItem = true) :
    leavesFrom ⟨.done, d⟩ (t :: rest) = leavesFrom ⟨.item, d⟩ (t :: rest) := by
  have hstep : step ⟨.done, d⟩ t rest.head? = step ⟨.item, d⟩ t rest.head? := by
    cases t <;> first | rfl | cases ht
  rw [leavesFrom, leavesFrom, hstep, leafOf?_of_isOpen (p := .done) rfl]

theorem mayFollowDegree_of_beginsItem (ht : t.beginsItem = true) :
    mayFollowDegree (some t) = true := by
  cases t <;> first | rfl | cases ht

theorem beginsItem_of_isText (ht : t.isText = true) : t.beginsItem = true := by
  cases t <;> first | rfl | cases ht

theorem Derives.exists_beginsItem {kind : Kind} {ts : List Token} {ws : List Tree}
    (h : Derives kind ts ws) : ∃ t us, ts = t :: us ∧ t.beginsItem = true := by
  induction h with
  | signed hsign _ _ => exact ⟨_, _, rfl, by rcases hsign with rfl | rfl | rfl <;> rfl⟩
  | boosted _ _ ih | more _ _ _ ih _ =>
    obtain ⟨t, us, rfl, ht⟩ := ih
    exact ⟨t, _, rfl, ht⟩
  | text ht => exact ⟨_, _, rfl, beginsItem_of_isText ht⟩
  | single _ ih => exact ih
  | _ => exact ⟨_, _, rfl, rfl⟩

theorem leavesFrom_bound {bound : List Token} (signed : Bool → Phase) (ended : Phase)
    (hphase : (signed, ended) = (.lower, .middle) ∨ (signed, ended) = (.upper, .close))
    (h : IsBound bound) :
    leavesFrom ⟨signed false, d⟩ (bound ++ rest) = leavesFrom ⟨ended, d⟩ rest := by
  have htext : ∀ t, t.isText = true → ∀ sign,
      leavesFrom ⟨signed sign, d⟩ (t :: rest) = leavesFrom ⟨ended, d⟩ rest := by
    intro t ht sign
    rcases hphase with hphase | hphase <;> cases hphase <;> cases t <;>
      first | exact leavesFrom_of_silent_step rfl rfl | cases ht
  cases h with
  | plain ht => exact htext _ ht false
  | @signed t ht =>
    have hminus : leavesFrom ⟨signed false, d⟩ (.minus :: t :: rest) =
        leavesFrom ⟨signed true, d⟩ (t :: rest) := by
      rcases hphase with hphase | hphase <;> cases hphase <;>
        exact leavesFrom_of_silent_step rfl rfl
    exact hminus.trans (htext t ht true)

theorem leavesFrom_term {text : List Char} (hcolon : rest.head? ≠ some .colon) :
    leavesFrom ⟨.item, d⟩ (.term text :: rest) =
      (leavesFrom ⟨.word, d⟩ rest).map ((Token.term text).leaves ++ ·) := by
  have hstep : step ⟨.item, d⟩ (.term text) rest.head? = .ok ⟨.word, d⟩ := by
    simp [step, beginItem, hcolon]
  have hleaves : leavesAt ⟨.item, d⟩ (.term text) rest.head? = (Token.term text).leaves := by
    simp [leavesAt, leafOf?, hcolon, Token.leaves, Token.leaf?]
  rw [leavesFrom_of_step hstep, hleaves]

theorem leavesFrom_phrase {text : List Char} : leavesFrom ⟨.item, d⟩ (.phrase text :: rest) =
    (leavesFrom ⟨.phrase, d⟩ rest).map ((Token.phrase text).leaves ++ ·) :=
  leavesFrom_of_step rfl

theorem leavesFrom_comparison (ht : t.isText = true) :
    leavesFrom ⟨.item, d⟩ (.compare :: t :: rest) =
      (leavesFrom ⟨.done, d⟩ rest).map (t.leaves ++ ·) := by
  have hcompare : leavesFrom ⟨.item, d⟩ (.compare :: t :: rest) =
      leavesFrom ⟨.comparand, d⟩ (t :: rest) := leavesFrom_of_silent_step rfl rfl
  rw [hcompare]
  cases t with
  | term text | phrase text => exact leavesFrom_of_step rfl
  | _ => cases ht

theorem leavesFrom_range {lower upper : List Token} (hlower : IsBound lower)
    (hupper : IsBound upper) :
    leavesFrom ⟨.item, d⟩ (.openRange :: (lower ++ .to :: (upper ++ [.closeRange])) ++ rest) =
      (leavesFrom ⟨.done, d⟩ rest).map ([] ++ ·) := by
  have hopen : leavesFrom ⟨.item, d⟩
      (.openRange :: (lower ++ .to :: (upper ++ .closeRange :: rest))) =
        leavesFrom ⟨.lower false, d⟩ (lower ++ .to :: (upper ++ .closeRange :: rest)) :=
    leavesFrom_of_silent_step rfl rfl
  have hmiddle : leavesFrom ⟨.middle, d⟩ (.to :: (upper ++ .closeRange :: rest)) =
      leavesFrom ⟨.upper false, d⟩ (upper ++ .closeRange :: rest) :=
    leavesFrom_of_silent_step rfl rfl
  have hclose : leavesFrom ⟨.close, d⟩ (.closeRange :: rest) = leavesFrom ⟨.done, d⟩ rest :=
    leavesFrom_of_silent_step rfl rfl
  have hlist : .openRange :: (lower ++ .to :: (upper ++ [.closeRange])) ++ rest =
      .openRange :: (lower ++ .to :: (upper ++ .closeRange :: rest)) := by simp
  rw [hlist, hopen, leavesFrom_bound .lower .middle (.inl rfl) hlower, hmiddle,
    leavesFrom_bound .upper .close (.inr rfl) hupper, hclose]
  cases leavesFrom ⟨.done, d⟩ rest <;> rfl

/-- Behind an item, an operator or none leads to the next item. -/
theorem leavesFrom_joined {op : List Token} (hop : op = [] ∨ op = [.and] ∨ op = [.or])
    (ht : t.beginsItem = true) :
    mayFollowDegree (op ++ t :: rest).head? = true ∧
      leavesFrom ⟨.done, d⟩ (op ++ t :: rest) = leavesFrom ⟨.item, d⟩ (t :: rest) := by
  rcases hop with rfl | rfl | rfl
  · exact ⟨mayFollowDegree_of_beginsItem ht, leavesFrom_done_of_beginsItem ht⟩
  · exact ⟨rfl, leavesFrom_of_silent_step rfl rfl⟩
  · exact ⟨rfl, leavesFrom_of_silent_step rfl rfl⟩

section Follow

variable (hrest : mayFollowDegree rest.head? = true)
include hrest

theorem head?_ne_colon : rest.head? ≠ some .colon := by
  intro h
  rw [h] at hrest
  cases hrest

theorem head?_ne_approx (degree : List Char) : rest.head? ≠ some (.approx degree) := by
  intro h
  rw [h] at hrest
  cases hrest

theorem leavesFrom_text (ht : t.isText = true) :
    leavesFrom ⟨.item, d⟩ (t :: rest) = (leavesFrom ⟨.done, d⟩ rest).map (t.leaves ++ ·) := by
  cases t with
  | term text =>
    rw [leavesFrom_term (head?_ne_colon hrest),
      leavesFrom_of_ended (.inl rfl) (head?_ne_approx hrest)]
  | phrase text =>
    rw [leavesFrom_phrase, leavesFrom_of_ended (.inr rfl) (head?_ne_approx hrest)]
  | _ => cases ht

end Follow

/-- What is derived is read, in front of what may follow a degree. -/
theorem leavesFrom_of_derives {kind : Kind} {ts : List Token} {ws : List Tree}
    (h : Derives kind ts ws) (hrest : mayFollowDegree rest.head? = true) :
    leavesFrom ⟨.item, d⟩ (ts ++ rest) = (leavesFrom ⟨.done, d⟩ rest).map (ws ++ ·) := by
  induction h generalizing d rest with
  | signed hsign _ ih =>
    rw [← ih hrest]
    rcases hsign with rfl | rfl | rfl <;> exact leavesFrom_of_silent_step rfl rfl
  | @field ts ws name _ ih =>
    rw [← ih hrest]
    have hname : leavesFrom ⟨.item, d⟩ (.term name :: .colon :: (ts ++ rest)) =
        leavesFrom ⟨.field, d⟩ (.colon :: (ts ++ rest)) := leavesFrom_of_silent_step rfl rfl
    have hcolon : leavesFrom ⟨.field, d⟩ (.colon :: (ts ++ rest)) =
        leavesFrom ⟨.item, d⟩ (ts ++ rest) := leavesFrom_of_silent_step rfl rfl
    exact hname.trans hcolon
  | @boosted ts ws degree _ hdegree ih =>
    have hboost : leavesFrom ⟨.done, d⟩ (.boost degree :: rest) = leavesFrom ⟨.done, d⟩ rest := by
      refine leavesFrom_of_silent_step ?_ rfl
      exact judge_eq_ok_iff.mpr ⟨hrest, hdegree, rfl⟩
    rw [List.append_assoc, ← hboost]
    exact ih rfl
  | @group ts ws _ ih =>
    have hopen : leavesFrom ⟨.item, d⟩ (.openParen :: (ts ++ .closeParen :: rest)) =
        leavesFrom ⟨.item, d + 1⟩ (ts ++ .closeParen :: rest) := leavesFrom_of_silent_step rfl rfl
    have hclose : leavesFrom ⟨.done, d + 1⟩ (.closeParen :: rest) = leavesFrom ⟨.done, d⟩ rest :=
      leavesFrom_of_silent_step rfl rfl
    rw [← hclose, ← ih rfl, ← hopen]
    simp
  | text ht => exact leavesFrom_text hrest ht
  | @fuzzy degree text hdegree =>
    have hstep : step ⟨.word, d⟩ (.approx degree) rest.head? = .ok ⟨.done, d⟩ :=
      judge_eq_ok_iff.mpr ⟨hrest, hdegree, rfl⟩
    rw [← leavesFrom_of_silent_step hstep rfl]
    exact leavesFrom_term (by simp)
  | @near degree text hdegree =>
    have hstep : step ⟨.phrase, d⟩ (.approx degree) rest.head? = .ok ⟨.done, d⟩ :=
      judge_eq_ok_iff.mpr ⟨hrest, hdegree, rfl⟩
    rw [← leavesFrom_of_silent_step hstep rfl]
    exact leavesFrom_phrase
  | comparison ht => exact leavesFrom_comparison ht
  | range hlower hupper => exact leavesFrom_range hlower hupper
  | regex => exact leavesFrom_of_step rfl
  | bareTo => exact leavesFrom_of_step rfl
  | single _ ih => exact ih hrest
  | @more ts op us ws vs _ hop hderives ihitem ihrest =>
    obtain ⟨t, us, rfl, ht⟩ := hderives.exists_beginsItem
    obtain ⟨hfollow, hitem⟩ : mayFollowDegree (op ++ (t :: us ++ rest)).head? = true ∧
        leavesFrom ⟨.done, d⟩ (op ++ (t :: us ++ rest)) = leavesFrom ⟨.item, d⟩ (t :: us ++ rest) :=
      leavesFrom_joined hop ht
    rw [List.append_assoc, List.append_assoc, ihitem hfollow, hitem, ihrest hrest]
    exact map_append_map _ _ _

end Reading

end PanelSearch.Highlight
