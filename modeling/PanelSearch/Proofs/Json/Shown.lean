import PanelSearch.Json.Display
import PanelSearch.Proofs.Json.Basic

/-! Which values are shown: those whose integers are all short enough, and that hold nothing too
deep. -/

namespace PanelSearch.Json

/-- What an array or an object holds. -/
def parts : Json → List Json
  | .arr items => items
  | .obj members => members.map (·.2)
  | _ => []

theorem inductionOnParts {motive : Json → Prop}
    (h : ∀ j : Json, (∀ p ∈ j.parts, motive p) → motive j) (j : Json) : motive j := by
  induction j using inductionOn with
  | arr items ih => exact h _ ih
  | obj members ih => exact h _ (List.forall_mem_map.mpr ih)
  | null | bool | int | double | str => exact h _ nofun

/-- A value is a part of another and stands in `depth` of its arrays and objects. -/
inductive StandsIn : Nat → Json → Json → Prop
  | itself (j : Json) : StandsIn 0 j j
  | inside {depth : Nat} {part p j : Json} (hp : p ∈ j.parts) (h : StandsIn depth part p) :
      StandsIn (depth + 1) part j

/-- A part that stands in `depth` others is within the limits. -/
structure IsWithin (limits : Limits) (depth : Nat) (part : Json) : Prop where
  depth : ∀ most ∈ limits.maxDepth, depth < most
  digits : ∀ n, part = .int n → ∀ most ∈ limits.maxDigits, (natText n.natAbs).length ≤ most

/-- All parts of a value that stands in `depth` others are within the limits. -/
def IsShownAt (limits : Limits) (depth : Nat) (value : Json) : Prop :=
  ∀ below part, StandsIn below part value → IsWithin limits (depth + below) part

def IsShown (limits : Limits) (value : Json) : Prop := IsShownAt limits 0 value

section Unshown

variable {limits : Limits} {depth : Nat} {j : Json}

theorem isShownAt_iff : IsShownAt limits depth j ↔
    IsWithin limits depth j ∧ ∀ p ∈ j.parts, IsShownAt limits (depth + 1) p := by
  constructor
  · refine fun h => ⟨h 0 j (.itself j), fun p hp below part hpart => ?_⟩
    rw [Nat.add_assoc, Nat.add_comm 1]
    exact h (below + 1) part (.inside hp hpart)
  · rintro ⟨hself, hparts⟩ below part hpart
    cases hpart with
    | itself => exact hself
    | @inside below _ p _ hp h =>
      rw [← Nat.add_assoc, Nat.add_right_comm]
      exact hparts p hp below part h

theorem unshownItem?_eq_none_iff {items : List Json} : unshownItem? limits depth items = none ↔
    ∀ j ∈ items, unshown? limits depth j = none := by
  induction items with
  | nil => simp [unshownItem?]
  | cons j rest ih => simp [unshownItem?, ih]

theorem unshownMember?_eq_none_iff {members : List (String × Json)} :
    unshownMember? limits depth members = none ↔
      ∀ j ∈ members.map (·.2), unshown? limits depth j = none := by
  induction members with
  | nil => simp [unshownMember?]
  | cons m rest ih =>
    obtain ⟨k, j⟩ := m
    rw [unshownMember?, Option.or_eq_none_iff, ih, List.map_cons, List.forall_mem_cons]

theorem isWithin_iff_of_ne_int (h : ∀ n, j ≠ .int n) :
    IsWithin limits depth j ↔ Limits.allows limits.maxDepth (depth + 1) = true := by
  rw [Limits.allows_iff]
  exact ⟨fun hwithin => hwithin.depth, fun hdepth => ⟨hdepth, fun n hn => absurd hn (h n)⟩⟩

theorem isWithin_int_iff {n : Int} : IsWithin limits depth (.int n) ↔
    Limits.allows limits.maxDepth (depth + 1) = true ∧
      Limits.allows limits.maxDigits (natText n.natAbs).length = true := by
  rw [Limits.allows_iff, Limits.allows_iff]
  exact ⟨fun h => ⟨h.depth, h.digits n rfl⟩, fun h => ⟨h.1, fun m hm => by cases hm; exact h.2⟩⟩

theorem unshown?_eq_none : unshown? limits depth j = none ↔
    IsWithin limits depth j ∧ ∀ p ∈ j.parts, unshown? limits (depth + 1) p = none := by
  have hother : (∀ n, j ≠ .int n) →
      (IsWithin limits depth j ↔ Limits.allows limits.maxDepth (depth + 1) = true) :=
    isWithin_iff_of_ne_int
  cases hdepth : Limits.allows limits.maxDepth (depth + 1) with
  | false =>
    refine ⟨fun h => ?_, fun h => ?_⟩
    · rw [unshown?.eq_def, hdepth] at h
      cases h
    · have hallows := Limits.allows_iff.mpr h.1.depth
      rw [Nat.succ_eq_add_one, hdepth] at hallows
      cases hallows
  | true =>
    rw [hdepth] at hother
    cases j with
    | int n => simp [unshown?, isWithin_int_iff, hdepth, parts]
    | arr items => simp [unshown?, hother nofun, hdepth, parts, unshownItem?_eq_none_iff]
    | obj members =>
      simp only [unshown?, hother nofun, hdepth, parts, unshownMember?_eq_none_iff, true_and,
        Bool.not_true, Bool.false_eq_true, if_false]
    | null | bool | double | str => simp [unshown?, hother nofun, hdepth, parts]

/-- A value is shown exactly when all its parts are within the limits. -/
theorem unshown?_eq_none_iff : unshown? limits depth j = none ↔ IsShownAt limits depth j := by
  induction j using inductionOnParts generalizing depth with
  | h j ih =>
    rw [unshown?_eq_none, isShownAt_iff]
    exact and_congr_right' (forall₂_congr fun p hp => ih p hp)

end Unshown

end PanelSearch.Json
