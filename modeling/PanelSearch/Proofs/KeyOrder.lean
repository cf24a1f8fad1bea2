import Mathlib.Data.List.Forall2
import PanelSearch.Proofs.Entries

/-! The order of keys by their code points is a total one, so sorting the entries of a dictionary
brings its keys into strict order. -/

namespace PanelSearch.Entries

theorem charsLe_total (as bs : List Char) : charsLe as bs = true ∨ charsLe bs as = true := by
  induction as generalizing bs with
  | nil => exact .inl rfl
  | cons a as ih =>
    cases bs with
    | nil => exact .inr rfl
    | cons b bs =>
      by_cases hab : a = b
      · simpa [charsLe, hab] using ih bs
      · have hne : a.toNat ≠ b.toNat := fun h => hab (Char.toNat_inj.mp h)
        simp only [charsLe, hab, Ne.symm hab, if_false, decide_eq_true_eq]
        omega

theorem charsLe_trans {as bs cs : List Char} (h1 : charsLe as bs = true)
    (h2 : charsLe bs cs = true) : charsLe as cs = true := by
  induction as generalizing bs cs with
  | nil => rfl
  | cons a as ih =>
    cases bs with
    | nil => cases h1
    | cons b bs =>
      cases cs with
      | nil => cases h2
      | cons c cs =>
        unfold charsLe at h1 h2 ⊢
        by_cases hab : a = b
        · subst hab
          by_cases hac : a = c
          · simp only [hac, if_true] at h1 h2 ⊢
            exact ih h1 h2
          · simpa [hac] using h2
        · by_cases hbc : b = c
          · subst hbc
            simpa [hab] using h1
          · simp only [hab, hbc, if_false, decide_eq_true_eq] at h1 h2
            have hac : a ≠ c := by
              rintro rfl
              omega
            simp only [hac, if_false, decide_eq_true_eq]
            omega

theorem charsLe_antisymm {as bs : List Char} (h1 : charsLe as bs = true)
    (h2 : charsLe bs as = true) : as = bs := by
  induction as generalizing bs with
  | nil =>
    cases bs with
    | nil => rfl
    | cons b bs => cases h2
  | cons a as ih =>
    cases bs with
    | nil => cases h1
    | cons b bs =>
      unfold charsLe at h1 h2
      by_cases hab : a = b
      · simp only [hab, if_true] at h1 h2
        rw [hab, ih h1 h2]
      · simp only [hab, Ne.symm hab, if_false, decide_eq_true_eq] at h1 h2
        omega

theorem keyLe_antisymm {a b : String} (h1 : keyLe a b = true) (h2 : keyLe b a = true) : a = b :=
  String.toList_inj.mp (charsLe_antisymm h1 h2)

theorem pairwise_mergeSort_keyLe (keys : List String) :
    (keys.mergeSort keyLe).Pairwise fun a b => keyLe a b = true := by
  apply List.pairwise_mergeSort
  · intro a b c
    exact charsLe_trans
  · intro a b
    rw [Bool.or_eq_true]
    exact charsLe_total a.toList b.toList

/-- Sorting forgets the order in which keys came. -/
theorem mergeSort_keyLe_eq_of_perm {as bs : List String} (h : as.Perm bs) :
    as.mergeSort keyLe = bs.mergeSort keyLe := by
  refine List.Perm.eq_of_pairwise (fun _ _ _ _ => keyLe_antisymm) (pairwise_mergeSort_keyLe as)
    (pairwise_mergeSort_keyLe bs) ?_
  exact (List.mergeSort_perm as _).trans (h.trans (List.mergeSort_perm bs _).symm)

def KeyLt (a b : String) : Prop := keyLe a b = true ∧ a ≠ b

variable {α β : Type}

def sorted (es : Entries α) : Entries α := es.mergeSort fun x y => keyLe x.1 y.1

theorem sorted_singleton (e : String × α) : sorted [e] = [e] := List.mergeSort_singleton e

theorem sorted_of_pairwise {es : Entries α} (h : es.Pairwise fun x y => keyLe x.1 y.1 = true) :
    sorted es = es :=
  List.mergeSort_of_pairwise h

theorem mem_sorted {es : Entries α} {e : String × α} : e ∈ sorted es ↔ e ∈ es :=
  (List.mergeSort_perm es _).mem_iff

theorem keys_sorted (es : Entries α) : keys (sorted es) = (keys es).mergeSort keyLe := by
  unfold keys sorted
  rw [List.map_mergeSort]
  intro x _ y _
  rfl

theorem nodup_keys_sorted {es : Entries α} (h : (keys es).Nodup) : (keys (sorted es)).Nodup :=
  ((List.mergeSort_perm es _).map _).nodup_iff.mpr h

theorem pairwise_sorted {es : Entries α} (h : (keys es).Nodup) :
    (sorted es).Pairwise fun x y => KeyLt x.1 y.1 := by
  have hle : (sorted es).Pairwise fun x y => keyLe x.1 y.1 = true :=
    List.pairwise_map.mp (keys_sorted es ▸ pairwise_mergeSort_keyLe (keys es))
  have hne : (sorted es).Pairwise fun x y => x.1 ≠ y.1 :=
    List.pairwise_map.mp (nodup_keys_sorted h)
  exact hle.imp₂ (fun _ _ hle hne => ⟨hle, hne⟩) hne

theorem sorted_map (es : Entries α) (f : String × α → β) :
    sorted (es.map fun e => (e.1, f e)) = (sorted es).map fun e => (e.1, f e) := by
  unfold sorted
  rw [List.map_mergeSort]
  intro x _ y _
  rfl

theorem forall₂_of_keys_eq {R : α → β → Prop} {as : Entries α} {bs : Entries β}
    (hkeys : keys as = keys bs) (h : ∀ key a b, (key, a) ∈ as → (key, b) ∈ bs → R a b) :
    List.Forall₂ (fun x y => x.1 = y.1 ∧ R x.2 y.2) as bs := by
  induction as generalizing bs with
  | nil =>
    cases bs with
    | nil => exact .nil
    | cons y bs => cases hkeys
  | cons x as ih =>
    cases bs with
    | nil => cases hkeys
    | cons y bs =>
      rw [keys_cons, keys_cons, List.cons.injEq] at hkeys
      obtain ⟨hkey, hrest⟩ := hkeys
      refine .cons ⟨hkey, h x.1 x.2 y.2 List.mem_cons_self ?_⟩ (ih hrest ?_)
      · rw [hkey]
        exact List.mem_cons_self
      · exact fun key a b ha hb => h key a b (List.mem_cons_of_mem _ ha) (List.mem_cons_of_mem _ hb)

/-- Dictionaries with the same keys are sorted alike, whatever the order of the keys was. -/
theorem forall₂_sorted {R : α → β → Prop} {as : Entries α} {bs : Entries β}
    (hdistinct : (keys as).Nodup) (hkeys : (keys as).Perm (keys bs))
    (h : ∀ key a b, get? as key = some a → get? bs key = some b → R a b) :
    List.Forall₂ (fun x y => x.1 = y.1 ∧ R x.2 y.2) (sorted as) (sorted bs) := by
  refine forall₂_of_keys_eq ?_ fun key a b ha hb => ?_
  · rw [keys_sorted, keys_sorted, mergeSort_keyLe_eq_of_perm hkeys]
  · exact h key a b (get?_of_mem hdistinct (mem_sorted.mp ha))
      (get?_of_mem (hkeys.nodup_iff.mp hdistinct) (mem_sorted.mp hb))

/-- Of groups under distinct keys, all but one of them empty, that one is left. -/
theorem flatMap_of_only {es : Entries (List α)} (hkeys : (keys es).Nodup) {key : String}
    {group : List α} (hmem : (key, group) ∈ es) (hothers : ∀ e ∈ es, e.1 ≠ key → e.2 = []) :
    es.flatMap (·.2) = group := by
  induction es with
  | nil => cases hmem
  | cons e es ih =>
    rw [keys_cons, List.nodup_cons] at hkeys
    rw [List.flatMap_cons]
    rcases List.mem_cons.mp hmem with rfl | hmem
    · have hrest : es.flatMap (·.2) = [] := by
        rw [List.flatMap_eq_nil_iff]
        intro e he
        refine hothers e (List.mem_cons_of_mem _ he) fun heq => ?_
        exact hkeys.1 (mem_keys.mpr ⟨e.2, heq ▸ he⟩)
      rw [hrest, List.append_nil]
    · have hne : e.1 ≠ key := fun heq => hkeys.1 (mem_keys.mpr ⟨group, heq ▸ hmem⟩)
      rw [hothers e List.mem_cons_self hne, List.nil_append]
      exact ih hkeys.2 hmem fun e he => hothers e (List.mem_cons_of_mem _ he)

end PanelSearch.Entries
