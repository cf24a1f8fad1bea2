import PanelSearch.Proofs.Json.Path
import PanelSearch.Proofs.KeyOrder
import PanelSearch.Response.Bucket

/-! JSON values that differ only in the order of the keys of their objects. Whatever is looked up in
them by key differs in the same way at most, and numbers and texts do not differ at all. -/

namespace PanelSearch.Json

/-- Two values differ only in the order of keys: arrays hold such values at the same positions, and
objects hold such values under the same distinct keys. -/
inductive Reordered : Json → Json → Prop where
  | same (j : Json) : Reordered j j
  | arr {as bs : List Json} (hlength : as.length = bs.length)
      (hitems : ∀ (i : Nat) (a b : Json), as[i]? = some a → bs[i]? = some b → Reordered a b) :
      Reordered (.arr as) (.arr bs)
  | obj {as bs : Entries Json} (hdistinct : (Entries.keys as).Nodup)
      (hkeys : (Entries.keys as).Perm (Entries.keys bs))
      (hvalues : ∀ (key : String) (a b : Json), Entries.get? as key = some a →
        Entries.get? bs key = some b → Reordered a b) :
      Reordered (.obj as) (.obj bs)

theorem forall₂_of_getElem? {R : Json → Json → Prop} {as bs : List Json}
    (hlength : as.length = bs.length)
    (h : ∀ (i : Nat) (a b : Json), as[i]? = some a → bs[i]? = some b → R a b) :
    List.Forall₂ R as bs := by
  rw [List.forall₂_iff_get]
  refine ⟨hlength, fun i ha hb => ?_⟩
  exact h i _ _ (List.getElem?_eq_getElem ha) (List.getElem?_eq_getElem hb)

/-- What two objects hold under a key is related when the values under all their keys are. -/
theorem get?_rel {R : Json → Json → Prop} {as bs : Entries Json}
    (hkeys : (Entries.keys as).Perm (Entries.keys bs))
    (h : ∀ (key : String) (a b : Json), Entries.get? as key = some a →
      Entries.get? bs key = some b → R a b) (key : String) :
    Option.Rel R (Entries.get? as key) (Entries.get? bs key) := by
  cases ha : Entries.get? as key with
  | none =>
    cases hb : Entries.get? bs key with
    | none => exact .none
    | some b =>
      have hmem := hkeys.mem_iff.mpr (Entries.mem_keys.mpr ⟨b, Entries.mem_of_get? hb⟩)
      obtain ⟨a, ha'⟩ := Entries.exists_get?_of_mem_keys hmem
      rw [ha] at ha'
      cases ha'
  | some a =>
    have hmem := hkeys.mem_iff.mp (Entries.mem_keys.mpr ⟨a, Entries.mem_of_get? ha⟩)
    obtain ⟨b, hb⟩ := Entries.exists_get?_of_mem_keys hmem
    rw [hb]
    exact .some (h key a b ha hb)

theorem getD_rel {α : Type} {R : α → α → Prop} {x y : Option α} (h : Option.Rel R x y) {c d : α}
    (hdefault : R c d) : R (x.getD c) (y.getD d) := by
  cases h with
  | none => exact hdefault
  | some hxy => exact hxy

namespace Reordered

variable {a b : Json} {as bs : Entries Json}

theorem of_mem (hdistinct : (Entries.keys as).Nodup)
    (hkeys : (Entries.keys as).Perm (Entries.keys bs))
    (h : ∀ x ∈ as, ∀ y ∈ bs, x.1 = y.1 → Reordered x.2 y.2) : Reordered (.obj as) (.obj bs) :=
  .obj hdistinct hkeys fun _ _ _ ha hb =>
    h _ (Entries.mem_of_get? ha) _ (Entries.mem_of_get? hb) rfl

theorem single (key : String) (h : Reordered a b) :
    Reordered (.obj [(key, a)]) (.obj [(key, b)]) :=
  of_mem (by simp) (.refl _) (by simpa using h)

theorem swap {key other : String} {c d : Json} (hne : key ≠ other) (hab : Reordered a b)
    (hcd : Reordered c d) :
    Reordered (.obj [(key, a), (other, c)]) (.obj [(other, d), (key, b)]) :=
  of_mem (by simpa using hne) (.swap _ _ _) (by simp [hne, hne.symm, hab, hcd])

theorem members (h : Reordered a b) :
    Option.Rel (fun as bs => Reordered (.obj as) (.obj bs)) a.members? b.members? := by
  cases h with
  | same =>
    cases a with
    | obj members => exact .some (.same _)
    | _ => exact .none
  | arr => exact .none
  | obj hdistinct hkeys hvalues => exact .some (.obj hdistinct hkeys hvalues)

theorem get? (h : Reordered (.obj as) (.obj bs)) (key : String) :
    Option.Rel Reordered (Entries.get? as key) (Entries.get? bs key) := by
  cases h with
  | same =>
    cases Entries.get? as key with
    | none => exact .none
    | some j => exact .some (.same j)
  | obj _ hkeys hvalues => exact get?_rel hkeys hvalues key

theorem member (h : Reordered (.obj as) (.obj bs)) (key : String) :
    Reordered (member as key) (member bs key) :=
  getD_rel (h.get? key) (.same _)

theorem getD_members (h : Reordered a b) :
    Reordered (.obj (a.members?.getD [])) (.obj (b.members?.getD [])) :=
  getD_rel (R := fun as bs => Reordered (.obj as) (.obj bs)) h.members (.same _)

theorem path (h : Reordered a b) (keys : List String) : Reordered (a.path keys) (b.path keys) := by
  induction keys generalizing a b with
  | nil => exact h
  | cons key keys ih =>
    rw [path_cons, path_cons]
    exact ih (h.getD_members.member key)

theorem toDouble_eq (h : Reordered a b) : a.toDouble = b.toDouble := by
  cases h <;> rfl

theorem isNull_eq (h : Reordered a b) : a.isNull = b.isNull := by
  cases h <;> rfl

theorem keys_perm (h : Reordered (.obj as) (.obj bs)) :
    (Entries.keys as).Perm (Entries.keys bs) := by
  cases h with
  | same => exact .refl _
  | obj _ hkeys => exact hkeys

theorem sortedKeys_eq (h : Reordered (.obj as) (.obj bs)) :
    Entries.sortedKeys as = Entries.sortedKeys bs :=
  Entries.mergeSort_keyLe_eq_of_perm h.keys_perm

theorem isEmpty_eq (h : Reordered (.obj as) (.obj bs)) : as.isEmpty = bs.isEmpty := by
  have hlength := h.keys_perm.length_eq
  rw [Entries.keys, Entries.keys, List.length_map, List.length_map] at hlength
  cases as <;> cases bs <;> simp_all

end Reordered

end PanelSearch.Json
