import Mathlib.Data.List.Forall2
import Mathlib.Data.List.Nodup

/-! Steps that may fail, one after the other or one for each item of a list: the whole succeeds when
every step does, and otherwise stops at the first item that its step fails for. -/

namespace PanelSearch.Traversal

variable {α β ε : Type}

theorem bind_eq_ok_iff {x : Except ε α} {f : α → Except ε β} {b : β} :
    x >>= f = .ok b ↔ ∃ a, x = .ok a ∧ f a = .ok b := by
  cases x with
  | error e => simp [bind, Except.bind]
  | ok a => simp [bind, Except.bind]

theorem bind_eq_error_iff {x : Except ε α} {f : α → Except ε β} {e : ε} :
    x >>= f = .error e ↔ x = .error e ∨ ∃ a, x = .ok a ∧ f a = .error e := by
  cases x with
  | error e => simp [bind, Except.bind]
  | ok a => simp [bind, Except.bind]

theorem map_eq_ok_iff {x : Except ε α} {f : α → β} {b : β} :
    x.map f = .ok b ↔ ∃ a, x = .ok a ∧ f a = b := by
  cases x with
  | error e => simp [Except.map]
  | ok a => simp [Except.map]

theorem exists_of_isOk {x : Except ε α} (h : x.isOk = true) : ∃ a, x = .ok a := by
  cases x with
  | error e => cases h
  | ok a => exact ⟨a, rfl⟩

theorem map_isOk_iff {x : Except ε α} {f : α → β} :
    (∃ b, x.map f = .ok b) ↔ ∃ a, x = .ok a := by
  cases x <;> simp [Except.map]

theorem map_eq_error_iff {x : Except ε α} {f : α → β} {e : ε} :
    x.map f = .error e ↔ x = .error e := by
  cases x <;> simp [Except.map]

theorem mapM_cons_eq_ok_iff {f : α → Except ε β} {x : α} {xs : List α} {ys : List β} :
    (x :: xs).mapM f = .ok ys ↔ ∃ y rest, f x = .ok y ∧ xs.mapM f = .ok rest ∧ ys = y :: rest := by
  rw [List.mapM_cons, bind_eq_ok_iff]
  constructor
  · rintro ⟨y, hy, h⟩
    obtain ⟨rest, hrest, h⟩ := bind_eq_ok_iff.mp h
    cases h
    exact ⟨y, rest, hy, hrest, rfl⟩
  · rintro ⟨y, rest, hy, hrest, rfl⟩
    exact ⟨y, hy, bind_eq_ok_iff.mpr ⟨rest, hrest, rfl⟩⟩

/-- Going through a list succeeds when every step does, and yields what the steps yield. -/
theorem mapM_eq_ok_iff {f : α → Except ε β} {xs : List α} {ys : List β} :
    xs.mapM f = .ok ys ↔ List.Forall₂ (fun x y => f x = .ok y) xs ys := by
  induction xs generalizing ys with
  | nil =>
    rw [List.mapM_nil, List.forall₂_nil_left_iff]
    constructor
    · intro h
      cases h
      rfl
    · rintro rfl
      rfl
  | cons x xs ih =>
    rw [mapM_cons_eq_ok_iff, List.forall₂_cons_left_iff]
    constructor
    · rintro ⟨y, rest, hy, hrest, rfl⟩
      exact ⟨y, rest, hy, ih.mp hrest, rfl⟩
    · rintro ⟨y, rest, hy, hrest, rfl⟩
      exact ⟨y, rest, hy, ih.mpr hrest, rfl⟩

theorem mapM_eq_ok_map {f : α → Except ε β} {g : α → β} {xs : List α}
    (h : ∀ x ∈ xs, f x = .ok (g x)) : xs.mapM f = .ok (xs.map g) :=
  mapM_eq_ok_iff.mpr (List.forall₂_map_right_iff.mpr (List.forall₂_same.mpr h))

/-- Going through a list stops at the first step that fails, and for its reason. -/
theorem mapM_eq_error_iff {f : α → Except ε β} {xs : List α} {e : ε} :
    xs.mapM f = .error e ↔ ∃ before x after, xs = before ++ x :: after ∧
      (∀ y ∈ before, ∃ b, f y = .ok b) ∧ f x = .error e := by
  induction xs with
  | nil => simp [pure, Except.pure]
  | cons a as ih =>
    rw [List.mapM_cons, bind_eq_error_iff]
    constructor
    · rintro (h | ⟨b, hb, h⟩)
      · exact ⟨[], a, as, rfl, by simp, h⟩
      · rcases bind_eq_error_iff.mp h with h | ⟨_, _, h⟩
        · obtain ⟨before, x, after, rfl, hbefore, hx⟩ := ih.mp h
          exact ⟨a :: before, x, after, rfl, List.forall_mem_cons.mpr ⟨⟨b, hb⟩, hbefore⟩, hx⟩
        · cases h
    · rintro ⟨before, x, after, hsplit, hbefore, hx⟩
      cases before with
      | nil =>
        cases hsplit
        exact .inl hx
      | cons c before =>
        cases hsplit
        obtain ⟨⟨b, hb⟩, hrest⟩ := List.forall_mem_cons.mp hbefore
        exact .inr ⟨b, hb, bind_eq_error_iff.mpr (.inl (ih.mpr ⟨before, x, after, rfl, hrest, hx⟩))⟩

theorem mapM_isOk_iff {f : α → Except ε β} {xs : List α} :
    (∃ ys, xs.mapM f = .ok ys) ↔ ∀ x ∈ xs, ∃ y, f x = .ok y := by
  induction xs with
  | nil => exact ⟨fun _ => by simp, fun _ => ⟨[], rfl⟩⟩
  | cons a as ih =>
    rw [List.forall_mem_cons, ← ih]
    constructor
    · rintro ⟨ys, h⟩
      obtain ⟨y, rest, hy, hrest, -⟩ := mapM_cons_eq_ok_iff.mp h
      exact ⟨⟨y, hy⟩, rest, hrest⟩
    · rintro ⟨⟨y, hy⟩, rest, hrest⟩
      exact ⟨y :: rest, mapM_cons_eq_ok_iff.mpr ⟨y, rest, hy, hrest, rfl⟩⟩

/-- Where every step yields something as it should be, going through a list does. -/
theorem exists_mapM {R : α → β → Prop} {f : α → Except ε β} {xs : List α}
    (h : ∀ x ∈ xs, ∃ y, f x = .ok y ∧ R x y) : ∃ ys, xs.mapM f = .ok ys ∧ List.Forall₂ R xs ys := by
  induction xs with
  | nil => exact ⟨[], rfl, .nil⟩
  | cons a as ih =>
    obtain ⟨⟨y, hy, hR⟩, has⟩ := List.forall_mem_cons.mp h
    obtain ⟨ys, hys, hall⟩ := ih has
    exact ⟨y :: ys, mapM_cons_eq_ok_iff.mpr ⟨y, ys, hy, hys, rfl⟩, .cons hR hall⟩

/-- Where steps fail for one reason only, going through a list stops when any of them fails. -/
theorem mapM_eq_error_iff_exists {f : α → Except ε β} {xs : List α} {e : ε}
    (h : ∀ x e', f x = .error e' → e' = e) :
    xs.mapM f = .error e ↔ ∃ x ∈ xs, f x = .error e := by
  constructor
  · intro herror
    obtain ⟨before, x, after, rfl, -, hx⟩ := mapM_eq_error_iff.mp herror
    exact ⟨x, by simp, hx⟩
  · rintro ⟨x, hmem, hx⟩
    cases hm : xs.mapM f with
    | ok ys =>
      obtain ⟨y, hy⟩ := mapM_isOk_iff.mp ⟨ys, hm⟩ x hmem
      rw [hx] at hy
      cases hy
    | error e' =>
      obtain ⟨before, y, after, -, -, hy⟩ := mapM_eq_error_iff.mp hm
      rw [h y e' hy]

theorem forM_eq_ok_iff {f : α → Except ε Unit} {xs : List α} :
    xs.forM f = .ok () ↔ ∀ x ∈ xs, f x = .ok () := by
  induction xs with
  | nil => simp [pure, Except.pure]
  | cons x xs ih =>
    rw [List.forM_eq_forM, List.forM_cons, bind_eq_ok_iff, List.forall_mem_cons, ← ih]
    exact ⟨fun ⟨_, hx, h⟩ => ⟨hx, h⟩, fun ⟨hx, h⟩ => ⟨(), hx, h⟩⟩

/-- Doing something for each item of a list stops at the first item that it fails for. -/
theorem forM_eq_error_iff {f : α → Except ε Unit} {xs : List α} {e : ε} :
    xs.forM f = .error e ↔ ∃ before x after, xs = before ++ x :: after ∧
      (∀ y ∈ before, f y = .ok ()) ∧ f x = .error e := by
  induction xs with
  | nil => simp [pure, Except.pure]
  | cons a as ih =>
    rw [List.forM_eq_forM, List.forM_cons, bind_eq_error_iff]
    constructor
    · rintro (h | ⟨_, ha, h⟩)
      · exact ⟨[], a, as, rfl, by simp, h⟩
      · obtain ⟨before, x, after, rfl, hbefore, hx⟩ := ih.mp h
        exact ⟨a :: before, x, after, rfl, List.forall_mem_cons.mpr ⟨ha, hbefore⟩, hx⟩
    · rintro ⟨before, x, after, hsplit, hbefore, hx⟩
      cases before with
      | nil =>
        cases hsplit
        exact .inl hx
      | cons c before =>
        cases hsplit
        obtain ⟨hc, hrest⟩ := List.forall_mem_cons.mp hbefore
        exact .inr ⟨(), hc, ih.mpr ⟨before, x, after, rfl, hrest, hx⟩⟩

theorem exists_mem_of_forM {f : α → Except ε Unit} {xs : List α} {e : ε}
    (h : xs.forM f = .error e) : ∃ x ∈ xs, f x = .error e := by
  obtain ⟨before, x, after, rfl, -, hx⟩ := forM_eq_error_iff.mp h
  exact ⟨x, by simp, hx⟩

/-- The first item of a list that something is true of. -/
inductive First (P : α → Prop) (xs : List α) (x : α) : Prop
  | intro {before after : List α} (split : xs = before ++ x :: after) (none : ∀ y ∈ before, ¬P y)
    (holds : P x)

theorem First.mem {P : α → Prop} {xs : List α} {x : α} (h : First P xs x) : x ∈ xs := by
  obtain ⟨rfl, -, -⟩ := h
  simp

theorem First.of {P : α → Prop} {xs : List α} {x : α} (h : First P xs x) : P x := by
  obtain ⟨-, -, hx⟩ := h
  exact hx

theorem First.congr {P Q : α → Prop} {xs : List α} {x : α} (hPQ : ∀ y ∈ xs, P y ↔ Q y)
    (h : First P xs x) : First Q xs x := by
  obtain ⟨rfl, hnone, hx⟩ := h
  refine ⟨rfl, fun y hy => ?_, (hPQ x (by simp)).mp hx⟩
  exact (hPQ y (by simp [hy])).not.mp (hnone y hy)

theorem exists_first_iff {P : α → Prop} {xs : List α} :
    (∃ x, First P xs x) ↔ ∃ x ∈ xs, P x := by
  constructor
  · rintro ⟨x, rfl, -, hx⟩
    exact ⟨x, by simp, hx⟩
  · intro h
    induction xs with
    | nil => simp at h
    | cons a as ih =>
      by_cases ha : P a
      · exact ⟨a, (List.nil_append _).symm, by simp, ha⟩
      · obtain ⟨x, hx, hP⟩ := h
        have has : x ∈ as := by
          rcases List.mem_cons.mp hx with rfl | hx
          · exact absurd hP ha
          · exact hx
        obtain ⟨y, rfl, hnone, hy⟩ := ih ⟨x, has, hP⟩
        exact ⟨y, (List.cons_append).symm, List.forall_mem_cons.mpr ⟨ha, hnone⟩, hy⟩

theorem find?_eq_some_iff_first {p : α → Bool} {P : α → Prop} (hp : ∀ x, p x = true ↔ P x)
    {xs : List α} {x : α} : xs.find? p = some x ↔ First P xs x := by
  simp only [List.find?_eq_some_iff_append, Bool.not_eq_true', ← Bool.not_eq_true, hp]
  constructor
  · rintro ⟨hx, before, after, hsplit, hnone⟩
    exact ⟨hsplit, hnone, hx⟩
  · rintro ⟨hsplit, hnone, hx⟩
    exact ⟨hx, _, _, hsplit, hnone⟩

/-- Where keys are distinct, the first item with a key is the item with it. -/
theorem find?_key_eq_some_iff {κ : Type} [BEq κ] [LawfulBEq κ] {key : α → κ} {xs : List α} {k : κ}
    {x : α} (h : (xs.map key).Nodup) : xs.find? (key · == k) = some x ↔ x ∈ xs ∧ key x = k := by
  constructor
  · intro hfind
    exact ⟨List.mem_of_find?_eq_some hfind, by simpa using List.find?_some hfind⟩
  · rintro ⟨hx, rfl⟩
    obtain ⟨y, hy⟩ : ∃ y, xs.find? (key · == key x) = some y :=
      Option.isSome_iff_exists.mp (List.find?_isSome.mpr ⟨x, hx, by simp⟩)
    have hkey : key y = key x := by simpa using List.find?_some hy
    rw [hy, List.inj_on_of_nodup_map h (List.mem_of_find?_eq_some hy) hx hkey]

theorem mapM_eq_error_iff_first {f : α → Except ε β} {xs : List α} {e : ε} :
    xs.mapM f = .error e ↔ ∃ x, First (fun y => ∃ e', f y = .error e') xs x ∧ f x = .error e := by
  have hok : ∀ y, (∃ b, f y = .ok b) ↔ ¬∃ e', f y = .error e' := fun y => by cases f y <;> simp
  simp only [mapM_eq_error_iff, hok]
  constructor
  · rintro ⟨before, x, after, hsplit, hnone, hx⟩
    exact ⟨x, ⟨hsplit, hnone, e, hx⟩, hx⟩
  · rintro ⟨x, ⟨hsplit, hnone, -⟩, hx⟩
    exact ⟨_, x, _, hsplit, hnone, hx⟩

theorem forM_eq_error_iff_first {f : α → Except ε Unit} {xs : List α} {e : ε} :
    xs.forM f = .error e ↔ ∃ x, First (fun y => ∃ e', f y = .error e') xs x ∧ f x = .error e := by
  have hok : ∀ y, f y = .ok () ↔ ¬∃ e', f y = .error e' := fun y => by cases f y <;> simp
  simp only [forM_eq_error_iff, hok]
  constructor
  · rintro ⟨before, x, after, hsplit, hnone, hx⟩
    exact ⟨x, ⟨hsplit, hnone, e, hx⟩, hx⟩
  · rintro ⟨x, ⟨hsplit, hnone, -⟩, hx⟩
    exact ⟨_, x, _, hsplit, hnone, hx⟩

/-- What every step keeps of its item, going through a list keeps of the items in order. -/
theorem map_eq_map_of_mapM {γ : Type} {f : α → Except ε β} {g : α → γ} {h : β → γ} {xs : List α}
    {ys : List β} (hstep : ∀ x y, f x = .ok y → h y = g x) (hm : xs.mapM f = .ok ys) :
    ys.map h = xs.map g := by
  have hall := mapM_eq_ok_iff.mp hm
  induction hall with
  | nil => rfl
  | cons hy hrest ih =>
    rw [List.map_cons, List.map_cons, hstep _ _ hy, ih (mapM_eq_ok_iff.mpr hrest)]

theorem exists_mem_of_forall₂ {R : α → β → Prop} {xs : List α} {ys : List β} {x : α}
    (h : List.Forall₂ R xs ys) (hx : x ∈ xs) : ∃ y ∈ ys, R x y := by
  induction h with
  | nil => cases hx
  | @cons a b _ _ hab _ ih =>
    rcases List.mem_cons.mp hx with rfl | hx
    · exact ⟨b, by simp, hab⟩
    · obtain ⟨y, hmem, hy⟩ := ih hx
      exact ⟨y, by simp [hmem], hy⟩

theorem exists_mem_of_mapM {f : α → Except ε β} {xs : List α} {ys : List β} {x : α}
    (hm : xs.mapM f = .ok ys) (hx : x ∈ xs) : ∃ y ∈ ys, f x = .ok y :=
  exists_mem_of_forall₂ (mapM_eq_ok_iff.mp hm) hx

theorem eq_map_of_mapM {f : α → Except ε β} {g : α → β} {xs : List α} {ys : List β}
    (hstep : ∀ x ∈ xs, ∀ y, f x = .ok y → y = g x) (hm : xs.mapM f = .ok ys) : ys = xs.map g := by
  have hsteps : ∀ x ∈ xs, f x = .ok (g x) := by
    intro x hx
    obtain ⟨y, -, hy⟩ := exists_mem_of_mapM hm hx
    rw [hy, hstep x hx y hy]
  rw [mapM_eq_ok_map hsteps] at hm
  exact (Except.ok.inj hm).symm

theorem exists_mem_of_mem_mapM {f : α → Except ε β} {xs : List α} {ys : List β} {y : β}
    (hm : xs.mapM f = .ok ys) (hy : y ∈ ys) : ∃ x ∈ xs, f x = .ok y :=
  exists_mem_of_forall₂ (R := fun y x => f x = .ok y) (mapM_eq_ok_iff.mp hm).flip hy

/-- Steps that yield something for the items of a class, and nothing for the others. -/
theorem forall₂_filter {p : α → Bool} {R : α → β → Prop} {xs : List α} {os : List (Option β)}
    (h : List.Forall₂ (fun x o => if p x then ∃ y, o = some y ∧ R x y else o = none) xs os) :
    List.Forall₂ R (xs.filter p) (os.filterMap id) := by
  induction h with
  | nil => exact .nil
  | @cons x o xs os hx _ ih =>
    by_cases hp : p x
    · rw [if_pos hp] at hx
      obtain ⟨y, rfl, hy⟩ := hx
      rw [List.filter_cons_of_pos hp]
      exact .cons hy ih
    · rw [if_neg hp] at hx
      subst hx
      rw [List.filter_cons_of_neg hp]
      exact ih

/-- Steps that agree on the items of two lists lead to the same end. -/
theorem mapM_eq_of_forall₂ {γ : Type} {R : α → β → Prop} {f : α → Except ε γ} {g : β → Except ε γ}
    {xs : List α} {ys : List β} (h : List.Forall₂ R xs ys) (hstep : ∀ x y, R x y → f x = g y) :
    xs.mapM f = ys.mapM g := by
  induction h with
  | nil => rfl
  | cons hxy _ ih => rw [List.mapM_cons, List.mapM_cons, hstep _ _ hxy, ih]

theorem foldlM_eq_of_forall₂ {γ : Type} {R : α → β → Prop} {f : γ → α → Except ε γ}
    {g : γ → β → Except ε γ} {xs : List α} {ys : List β} (h : List.Forall₂ R xs ys)
    (hstep : ∀ s x y, R x y → f s x = g s y) (s : γ) : xs.foldlM f s = ys.foldlM g s := by
  induction h generalizing s with
  | nil => rfl
  | cons hxy _ ih =>
    rw [List.foldlM_cons, List.foldlM_cons, hstep _ _ _ hxy]
    exact bind_congr fun next => ih next

/-- Going through a list yields something when every step does. -/
theorem mapM_eq_some_iff {f : α → Option β} {xs : List α} {ys : List β} :
    xs.mapM f = some ys ↔ (∀ x ∈ xs, (f x).isSome) ∧ xs.filterMap f = ys := by
  induction xs generalizing ys with
  | nil => simp
  | cons x xs ih =>
    rw [List.mapM_cons, List.forall_mem_cons]
    cases hx : f x with
    | none => simp
    | some y =>
      rw [List.filterMap_cons_some hx]
      cases hrest : xs.mapM f with
      | none =>
        have hno := (@ih (xs.filterMap f)).not.mp (by simp [hrest])
        simp only [and_true] at hno
        simp [hno]
      | some rest =>
        obtain ⟨hall, hrest⟩ := ih.mp hrest
        simpa [hrest] using fun _ => hall

theorem nodup_eraseDups [BEq α] [LawfulBEq α] (xs : List α) : xs.eraseDups.Nodup := by
  match xs with
  | [] => simp
  | x :: xs =>
    rw [List.eraseDups_cons, List.nodup_cons]
    refine ⟨?_, nodup_eraseDups (xs.filter fun other => !other == x)⟩
    simp [List.mem_eraseDups]
termination_by xs.length
decreasing_by exact Nat.lt_succ_of_le (List.length_filter_le _ _)

theorem pairwise_zipIdx (xs : List α) : xs.zipIdx.Pairwise fun x y => x.2 < y.2 := by
  rw [← List.pairwise_map (f := Prod.snd), List.zipIdx_map_snd]
  exact List.pairwise_lt_range'

theorem flatMap_filter (p : α → Bool) (f : α → List β) (xs : List α) :
    (xs.filter p).flatMap f = xs.flatMap fun x => if p x then f x else [] := by
  induction xs with
  | nil => rfl
  | cons x xs ih =>
    rw [List.flatMap_cons, ← ih]
    cases hp : p x with
    | true => rw [List.filter_cons_of_pos hp, List.flatMap_cons, if_pos rfl]
    | false => rw [List.filter_cons_of_neg (by simp [hp]), if_neg (by simp), List.nil_append]

theorem forall₂_append_left {R : α → β → Prop} {as bs : List α} {ys : List β}
    (h : List.Forall₂ R (as ++ bs) ys) :
    ∃ us vs, ys = us ++ vs ∧ List.Forall₂ R as us ∧ List.Forall₂ R bs vs := by
  induction as generalizing ys with
  | nil => exact ⟨[], ys, rfl, .nil, h⟩
  | cons a as ih =>
    obtain ⟨y, rest, hy, hrest, rfl⟩ := List.forall₂_cons_left_iff.mp h
    obtain ⟨us, vs, rfl, hus, hvs⟩ := ih hrest
    exact ⟨y :: us, vs, rfl, .cons hy hus, hvs⟩

/-- What stands against lists one after the other falls into groups, one for each list. -/
theorem forall₂_flatMap {γ : Type} {R : β → γ → Prop} {f : α → List β} {xs : List α} {zs : List γ}
    (h : List.Forall₂ R (xs.flatMap f) zs) :
    ∃ groups : List (List γ), zs = groups.flatten ∧
      List.Forall₂ (fun x group => List.Forall₂ R (f x) group) xs groups := by
  induction xs generalizing zs with
  | nil =>
    cases h
    exact ⟨[], rfl, .nil⟩
  | cons x xs ih =>
    obtain ⟨group, rest, rfl, hgroup, hrest⟩ := forall₂_append_left h
    obtain ⟨groups, rfl, hgroups⟩ := ih hrest
    exact ⟨group :: groups, rfl, .cons hgroup hgroups⟩

end PanelSearch.Traversal
