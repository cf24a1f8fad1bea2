import PanelSearch.Proofs.Highlight.Derivation
import PanelSearch.Proofs.Traversal

/-! Tokens that are read to their end are derived by the grammar. What is read begins with an item,
or with items in a row, and the rest is shorter, so the induction is on the number of tokens. -/

namespace PanelSearch.Highlight

open Traversal

section Reading

variable {s m : State} {t : Token} {rest : List Token} {d : Nat}

theorem exists_of_leavesFrom_cons {ws : List Tree} (h : leavesFrom s (t :: rest) = .ok ws) :
    ∃ m behind, step s t rest.head? = .ok m ∧ leavesFrom m rest = .ok behind ∧
      ws = leavesAt s t rest.head? ++ behind := by
  cases hstep : step s t rest.head? with
  | error e =>
    rw [leavesFrom, hstep] at h
    cases h
  | ok m =>
    rw [leavesFrom_of_step hstep, map_eq_ok_iff] at h
    obtain ⟨behind, hbehind, rfl⟩ := h
    exact ⟨m, behind, rfl, hbehind, rfl⟩

/-- Where reading cannot end, it goes on with a token. -/
theorem exists_cons_of_leavesFrom {ts : List Token} {ws : List Tree}
    (hs : s.isFinal = false) (h : leavesFrom s ts = .ok ws) :
    ∃ t rest m behind, ts = t :: rest ∧ step s t rest.head? = .ok m ∧
      leavesFrom m rest = .ok behind ∧ ws = leavesAt s t rest.head? ++ behind := by
  cases ts with
  | nil =>
    rw [leavesFrom, hs] at h
    cases h
  | cons t rest =>
    obtain ⟨m, behind, hm⟩ := exists_of_leavesFrom_cons h
    exact ⟨t, rest, m, behind, rfl, hm⟩

/-- Tokens begin with what is derived, and what is behind is read as what follows an item. -/
def StartsWith (kind : Kind) (Ends : List Token → Prop) (d : Nat) (ts : List Token)
    (ws : List Tree) : Prop :=
  ∃ us vs rest behind, Derives kind us vs ∧ ts = us ++ rest ∧ ws = vs ++ behind ∧
    leavesFrom ⟨.done, d⟩ rest = .ok behind ∧ Ends rest

/-- No degree of an item follows. -/
def NoBoost (rest : List Token) : Prop := ∀ degree, rest.head? ≠ some (.boost degree)

/-- Nothing follows but the end of the tokens or of a group. -/
def AtEnd (rest : List Token) : Prop := rest = [] ∨ rest.head? = some .closeParen

/-- Tokens that are read as items begin with what the grammar derives. -/
def IsSound (ts : List Token) : Prop :=
  ∀ d ws, leavesFrom ⟨.item, d⟩ ts = .ok ws →
    StartsWith .item NoBoost d ts ws ∧ StartsWith .query AtEnd d ts ws

/-- The degrees behind an item are part of it. -/
theorem startsWith_item {us : List Token} {vs behind : List Tree}
    (h : Derives .item us vs) (hrest : leavesFrom ⟨.done, d⟩ rest = .ok behind) :
    StartsWith .item NoBoost d (us ++ rest) (vs ++ behind) := by
  induction rest generalizing us behind with
  | nil => exact ⟨us, vs, [], behind, h, rfl, rfl, hrest, by simp [NoBoost]⟩
  | cons t rest ih =>
    by_cases hboost : ∃ degree, t = .boost degree
    · obtain ⟨degree, rfl⟩ := hboost
      obtain ⟨m, behind, hstep, hm, rfl⟩ := exists_of_leavesFrom_cons hrest
      obtain ⟨-, hdegree, rfl⟩ := judge_eq_ok_iff.mp hstep
      have hlist : us ++ .boost degree :: rest = us ++ [.boost degree] ++ rest := by simp
      rw [hlist]
      exact ih (h.boosted hdegree) hm
    · refine ⟨us, vs, t :: rest, behind, h, rfl, rfl, hrest, fun degree hhead => ?_⟩
      exact hboost ⟨degree, Option.some.inj hhead⟩

/-- What is read as an end of a range is a word or a phrase, with a sign or without. -/
theorem exists_bound {ts : List Token} {ws : List Tree} (signed : Bool → Phase)
    (ended : Phase)
    (hphase : (signed, ended) = (.lower, .middle) ∨ (signed, ended) = (.upper, .close))
    (h : leavesFrom ⟨signed false, d⟩ ts = .ok ws) :
    ∃ bound rest, IsBound bound ∧ ts = bound ++ rest ∧ leavesFrom ⟨ended, d⟩ rest = .ok ws := by
  have htext : ∀ sign (ts : List Token), leavesFrom ⟨signed sign, d⟩ ts = .ok ws →
      (∃ t rest, ts = t :: rest ∧ t.isText = true ∧ leavesFrom ⟨ended, d⟩ rest = .ok ws) ∨
        sign = false ∧ ∃ rest, ts = .minus :: rest ∧ leavesFrom ⟨signed true, d⟩ rest = .ok ws := by
    intro sign ts h
    have hfinal : (⟨signed sign, d⟩ : State).isFinal = false := by
      rcases hphase with hphase | hphase <;> cases hphase <;> simp [State.isFinal]
    obtain ⟨t, rest, m, behind, rfl, hstep, hm, rfl⟩ := exists_cons_of_leavesFrom hfinal h
    rcases hphase with hphase | hphase <;> cases hphase
    all_goals
      cases t with
      | term | phrase =>
        cases hstep
        exact .inl ⟨_, rest, rfl, rfl, hm⟩
      | minus =>
        cases sign with
        | true => cases hstep
        | false =>
          cases hstep
          exact .inr ⟨rfl, rest, rfl, hm⟩
      | _ => cases hstep
  rcases htext false ts h with ⟨t, rest, rfl, ht, hrest⟩ | ⟨-, rest, rfl, hrest⟩
  · exact ⟨[t], rest, .plain ht, rfl, hrest⟩
  · rcases htext true rest hrest with ⟨t, rest, rfl, ht, hrest⟩ | ⟨hfalse, -⟩
    · exact ⟨[.minus, t], rest, .signed ht, rfl, hrest⟩
    · cases hfalse

/-- A word or a phrase is read with the degree behind it, if there is one. -/
theorem startsWith_text {p : Phase} {fault : Fault} {ws : List Tree}
    (fits : List Char → Bool) (ht : t.isText = true) (hp : p = .word ∨ p = .phrase)
    (hstep : ∀ degree next,
      step ⟨p, d⟩ (.approx degree) next = judge (fits degree) fault next ⟨.done, d⟩)
    (hderives : ∀ degree, fits degree = true → Derives .item [t, .approx degree] t.leaves)
    (h : (leavesFrom ⟨p, d⟩ rest).map (t.leaves ++ ·) = .ok ws) :
    StartsWith .item NoBoost d (t :: rest) ws := by
  obtain ⟨behind, hbehind, rfl⟩ := map_eq_ok_iff.mp h
  by_cases happrox : ∃ degree, rest.head? = some (.approx degree)
  · obtain ⟨degree, hhead⟩ := happrox
    obtain ⟨rest, rfl⟩ := List.head?_eq_some_iff.mp hhead
    obtain ⟨m, behind, hm, hrest, rfl⟩ := exists_of_leavesFrom_cons hbehind
    rw [hstep, judge_eq_ok_iff] at hm
    obtain ⟨-, hdegree, rfl⟩ := hm
    have hsilent : leavesAt ⟨p, d⟩ (.approx degree) rest.head? = [] := by
      rcases hp with rfl | rfl <;> rfl
    rw [hsilent]
    exact startsWith_item (hderives degree hdegree) hrest
  · rw [leavesFrom_of_ended hp (not_exists.mp happrox)] at hbehind
    exact startsWith_item (.text ht) hbehind

theorem startsWith_phrase {text : List Char} {ws : List Tree}
    (h : leavesFrom ⟨.item, d⟩ (.phrase text :: rest) = .ok ws) :
    StartsWith .item NoBoost d (.phrase text :: rest) ws := by
  rw [leavesFrom_phrase] at h
  exact startsWith_text isIntegerDegree rfl (.inr rfl) (fun _ _ => rfl)
    (fun _ hdegree => .near text hdegree) h

theorem startsWith_range {rest : List Token} {ws : List Tree}
    (h : leavesFrom ⟨.lower false, d⟩ rest = .ok ws) :
    StartsWith .item NoBoost d (.openRange :: rest) ws := by
  obtain ⟨lower, behind, hlower, rfl, hmiddle⟩ := exists_bound .lower .middle (.inl rfl) h
  obtain ⟨t, behind, m, vs, rfl, hstep, hm, rfl⟩ :=
    exists_cons_of_leavesFrom (by simp [State.isFinal]) hmiddle
  have ht : t = .to ∧ m = ⟨.upper false, d⟩ := by
    cases t <;> cases hstep
    exact ⟨rfl, rfl⟩
  obtain ⟨rfl, rfl⟩ := ht
  obtain ⟨upper, behind, hupper, rfl, hclose⟩ := exists_bound .upper .close (.inr rfl) hm
  obtain ⟨t, behind, m, vs, rfl, hstep, hm, rfl⟩ :=
    exists_cons_of_leavesFrom (by simp [State.isFinal]) hclose
  have ht : t = .closeRange ∧ m = ⟨.done, d⟩ := by
    cases t <;> cases hstep
    exact ⟨rfl, rfl⟩
  obtain ⟨rfl, rfl⟩ := ht
  have hlist : .openRange :: (lower ++ .to :: (upper ++ .closeRange :: behind)) =
      .openRange :: (lower ++ .to :: (upper ++ [.closeRange])) ++ behind := by simp
  rw [hlist]
  exact startsWith_item (.range hlower hupper) hm

theorem startsWith_comparison {rest : List Token} {ws : List Tree}
    (h : leavesFrom ⟨.comparand, d⟩ rest = .ok ws) :
    StartsWith .item NoBoost d (.compare :: rest) ws := by
  obtain ⟨t, rest, m, ws, rfl, hstep, h, rfl⟩ :=
    exists_cons_of_leavesFrom (by simp [State.isFinal]) h
  cases t with
  | term | phrase =>
    cases hstep
    exact startsWith_item (.comparison rfl) h
  | _ => cases hstep

section Sound

variable {ts : List Token} {ws : List Tree}
  (ih : ∀ us : List Token, us.length < ts.length → IsSound us)
include ih

theorem startsWith_query (h : StartsWith .item NoBoost d ts ws) :
    StartsWith .query AtEnd d ts ws := by
  obtain ⟨us, vs, rest, behind, hitem, rfl, rfl, hrest, hboost⟩ := h
  have hpos : 0 < us.length := by
    obtain ⟨t, us, rfl, -⟩ := hitem.exists_beginsItem
    exact Nat.succ_pos _
  cases rest with
  | nil => exact ⟨us, vs, [], behind, hitem.single, rfl, rfl, hrest, .inl rfl⟩
  | cons t rest =>
    have hmore : ∀ op queries, (op = [] ∨ op = [.and] ∨ op = [.or]) → t :: rest = op ++ queries →
        leavesFrom ⟨.item, d⟩ queries = .ok behind →
          StartsWith .query AtEnd d (us ++ t :: rest) (vs ++ behind) := by
      intro op queries hop hsplit hqueries
      have hlength : queries.length < (us ++ t :: rest).length := by
        rw [hsplit]
        simp
        omega
      obtain ⟨us', vs', rest', behind', hquery, rfl, rfl, hrest', hend⟩ :=
        (ih queries hlength d behind hqueries).2
      exact ⟨us ++ (op ++ us'), vs ++ vs', rest', behind', hitem.more hop hquery, by simp [hsplit],
        by simp, hrest', hend⟩
    by_cases hbegins : t.beginsItem = true
    · rw [leavesFrom_done_of_beginsItem hbegins] at hrest
      exact hmore [] (t :: rest) (.inl rfl) rfl hrest
    · obtain ⟨m, behind', hstep, hm, hbehind⟩ := exists_of_leavesFrom_cons hrest
      cases t with
      | and =>
        cases hstep
        exact hmore [.and] rest (.inr (.inl rfl)) rfl (hm.trans (congrArg _ hbehind.symm))
      | or =>
        cases hstep
        exact hmore [.or] rest (.inr (.inr rfl)) rfl (hm.trans (congrArg _ hbehind.symm))
      | closeParen => exact ⟨us, vs, _, behind, hitem.single, rfl, rfl, hrest, .inr rfl⟩
      | boost degree => exact absurd rfl (hboost degree)
      | approx | colon | closeRange | bad => cases hstep
      | _ => exact absurd rfl hbegins

theorem startsWith_group {rest : List Token} (hrest : rest.length < ts.length)
    (h : leavesFrom ⟨.item, d + 1⟩ rest = .ok ws) :
    StartsWith .item NoBoost d (.openParen :: rest) ws := by
  obtain ⟨us, vs, rest, behind, hquery, rfl, rfl, hbehind, hend⟩ := (ih _ hrest (d + 1) ws h).2
  cases rest with
  | nil => cases hbehind
  | cons t rest =>
    obtain rfl : t = .closeParen := by simpa [AtEnd] using hend
    obtain ⟨m, behind, hstep, hm, rfl⟩ := exists_of_leavesFrom_cons hbehind
    cases hstep
    have hlist : .openParen :: (us ++ .closeParen :: rest) =
        .openParen :: (us ++ [.closeParen]) ++ rest := by simp
    rw [hlist]
    exact startsWith_item hquery.group hm

theorem startsWith_term {rest : List Token} {text : List Char} (hrest : rest.length < ts.length)
    (h : leavesFrom ⟨.item, d⟩ (.term text :: rest) = .ok ws) :
    StartsWith .item NoBoost d (.term text :: rest) ws := by
  by_cases hcolon : rest.head? = some .colon
  · obtain ⟨rest, rfl⟩ := List.head?_eq_some_iff.mp hcolon
    obtain ⟨m, ws, hstep, h, rfl⟩ := exists_of_leavesFrom_cons h
    cases hstep
    obtain ⟨m, ws, hstep, h, rfl⟩ := exists_of_leavesFrom_cons h
    cases hstep
    have hlength : rest.length < ts.length := Nat.lt_of_succ_lt hrest
    obtain ⟨us, vs, rest, behind, hitem, rfl, rfl, hbehind, hend⟩ := (ih rest hlength d ws h).1
    exact ⟨_, _, rest, behind, .field text hitem, rfl, rfl, hbehind, hend⟩
  · rw [leavesFrom_term hcolon] at h
    exact startsWith_text isDecimalDegree rfl (.inl rfl) (fun _ _ => rfl)
      (fun _ hdegree => .fuzzy text hdegree) h

theorem startsWith_signed {sign : Token} {rest : List Token}
    (hsign : sign = .plus ∨ sign = .minus ∨ sign = .not) (hrest : rest.length < ts.length)
    (h : leavesFrom ⟨.item, d⟩ rest = .ok ws) : StartsWith .item NoBoost d (sign :: rest) ws := by
  obtain ⟨us, vs, rest, behind, hitem, rfl, rfl, hbehind, hend⟩ := (ih rest hrest d ws h).1
  exact ⟨_, _, rest, behind, .signed hsign hitem, rfl, rfl, hbehind, hend⟩

theorem startsWith_item_of_shorter (h : leavesFrom ⟨.item, d⟩ ts = .ok ws) :
    StartsWith .item NoBoost d ts ws := by
  obtain ⟨t, rest, m, behind, rfl, hstep, hm, hws⟩ :=
    exists_cons_of_leavesFrom (by simp [State.isFinal]) h
  have hrest : rest.length < (t :: rest).length := Nat.lt_succ_self _
  cases t
  case plus | minus | not =>
    cases hstep
    cases hws
    exact startsWith_signed ih (by simp) hrest hm
  case openParen =>
    cases hstep
    cases hws
    exact startsWith_group ih hrest hm
  case term text => exact startsWith_term ih hrest h
  case phrase text => exact startsWith_phrase h
  case openRange =>
    cases hstep
    cases hws
    exact startsWith_range hm
  case compare =>
    cases hstep
    cases hws
    exact startsWith_comparison hm
  case regex =>
    cases hstep
    cases hws
    exact startsWith_item .regex hm
  case «to» =>
    cases hstep
    cases hws
    exact startsWith_item .bareTo hm
  all_goals cases hstep

end Sound

theorem isSound (ts : List Token) : IsSound ts := by
  induction hn : ts.length using Nat.strongRecOn generalizing ts with
  | ind n ih =>
    subst hn
    intro d ws h
    have hitem := startsWith_item_of_shorter (fun us hus => ih _ hus us rfl) h
    exact ⟨hitem, startsWith_query (fun us hus => ih _ hus us rfl) hitem⟩

/-- The tokens that are read to their end are those that the grammar derives. -/
theorem leavesFrom_eq_ok_iff {ts : List Token} {ws : List Tree} :
    leavesFrom ⟨.item, 0⟩ ts = .ok ws ↔ Derives .query ts ws := by
  constructor
  · intro h
    obtain ⟨us, vs, rest, behind, hquery, rfl, rfl, hrest, hend⟩ := (isSound ts 0 ws h).2
    rcases hend with rfl | hhead
    · cases hrest
      rwa [List.append_nil, List.append_nil]
    · obtain ⟨rest, rfl⟩ := List.head?_eq_some_iff.mp hhead
      obtain ⟨m, -, hstep, -⟩ := exists_of_leavesFrom_cons hrest
      cases hstep
  · intro h
    have hread : leavesFrom ⟨.item, 0⟩ (ts ++ []) = (leavesFrom ⟨.done, 0⟩ []).map (ws ++ ·) :=
      leavesFrom_of_derives h rfl
    rw [List.append_nil] at hread
    exact hread.trans (congrArg Except.ok (List.append_nil ws))

end Reading

end PanelSearch.Highlight
