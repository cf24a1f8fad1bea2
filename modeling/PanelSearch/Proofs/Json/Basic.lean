import PanelSearch.Json.Writer
import PanelSearch.Proofs.Entries

/-! Induction over JSON values, whose arrays and objects hold values in lists, and the written
form of arrays and objects from the written forms of what they hold. -/

namespace PanelSearch.Json

/-- Induction over a value, where arrays and objects may use what holds of everything in them. -/
theorem inductionOn {motive : Json → Prop} (null : motive .null) (bool : ∀ b, motive (.bool b))
    (int : ∀ n, motive (.int n)) (double : ∀ d, motive (.double d)) (str : ∀ s, motive (.str s))
    (arr : ∀ items, (∀ j ∈ items, motive j) → motive (.arr items))
    (obj : ∀ members : List (String × Json), (∀ m ∈ members, motive m.2) → motive (.obj members)) :
    (j : Json) → motive j
  | .null => null
  | .bool b => bool b
  | .int n => int n
  | .double d => double d
  | .str s => str s
  | .arr items => arr items fun j _ => inductionOn null bool int double str arr obj j
  | .obj members => obj members fun m _ => inductionOn null bool int double str arr obj m.2
termination_by j => sizeOf j
decreasing_by
  · rename_i hj
    have := List.sizeOf_lt_of_mem hj
    simp only [Json.arr.sizeOf_spec]
    omega
  · rename_i hm
    have hlt := List.sizeOf_lt_of_mem hm
    have hsize : sizeOf m = 1 + sizeOf m.1 + sizeOf m.2 := rfl
    simp only [Json.obj.sizeOf_spec]
    omega

/-- What holds of null and of all members of an object holds of the member under any key. -/
theorem member_of_forall {P : Json → Prop} {members : Entries Json} (hnull : P .null)
    (h : ∀ m ∈ members, P m.2) (key : String) : P (member members key) := by
  rw [member]
  cases hkey : members.get? key with
  | none => exact hnull
  | some j => exact h _ (Entries.mem_of_get? hkey)

variable (style : Style)

theorem renderItems_eq_map (items : List Json) :
    renderItems style items = items.map (render style) := by
  induction items with
  | nil => rfl
  | cons j rest ih => rw [renderItems, ih, List.map_cons]

def renderMember (m : String × Json) : List Char :=
  quote style m.1 ++ style.key ++ render style m.2

theorem renderMembers_eq_map (members : List (String × Json)) :
    renderMembers style members = members.map (renderMember style) := by
  induction members with
  | nil => rfl
  | cons m rest ih =>
    obtain ⟨k, j⟩ := m
    rw [renderMembers, ih, List.map_cons, renderMember]

theorem render_arr (items : List Json) : render style (.arr items) =
    '[' :: style.item.intercalate (items.map (render style)) ++ [']'] := by
  rw [render, renderItems_eq_map]

theorem render_obj (members : List (String × Json)) : render style (.obj members) =
    '{' :: style.item.intercalate (members.map (renderMember style)) ++ ['}'] := by
  rw [render, renderMembers_eq_map]

end PanelSearch.Json
