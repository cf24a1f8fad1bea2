import PanelSearch.Proofs.Json.Basic

/-! Changing every text in a value, keys included, and nothing else. -/

namespace PanelSearch.Json

mutual

/-- The value with every text in it and every key of an object changed. -/
def mapTexts (f : String → String) : Json → Json
  | null => null
  | bool b => bool b
  | int n => int n
  | double d => double d
  | str s => str (f s)
  | arr items => arr (mapItemTexts f items)
  | obj members => obj (mapMemberTexts f members)

def mapItemTexts (f : String → String) : List Json → List Json
  | [] => []
  | j :: rest => mapTexts f j :: mapItemTexts f rest

def mapMemberTexts (f : String → String) : List (String × Json) → List (String × Json)
  | [] => []
  | (k, j) :: rest => (f k, mapTexts f j) :: mapMemberTexts f rest

end

variable (f g : String → String)

theorem mapItemTexts_eq_map (items : List Json) :
    mapItemTexts f items = items.map (mapTexts f) := by
  induction items with
  | nil => rfl
  | cons j rest ih => rw [mapItemTexts, ih, List.map_cons]

theorem mapMemberTexts_eq_map (members : List (String × Json)) :
    mapMemberTexts f members = members.map fun m => (f m.1, mapTexts f m.2) := by
  induction members with
  | nil => rfl
  | cons m rest ih =>
    obtain ⟨k, j⟩ := m
    rw [mapMemberTexts, ih, List.map_cons]

theorem mapTexts_arr (items : List Json) :
    mapTexts f (.arr items) = .arr (items.map (mapTexts f)) := by
  rw [mapTexts, mapItemTexts_eq_map]

theorem mapTexts_obj (members : List (String × Json)) :
    mapTexts f (.obj members) = .obj (members.map fun m => (f m.1, mapTexts f m.2)) := by
  rw [mapTexts, mapMemberTexts_eq_map]

theorem mapTexts_mapTexts (j : Json) : mapTexts f (mapTexts g j) = mapTexts (f ∘ g) j := by
  induction j using inductionOn with
  | null | bool | int | double | str => rfl
  | arr items ih =>
    simp only [mapTexts_arr, List.map_map]
    congr 1
    exact List.map_congr_left ih
  | obj members ih =>
    simp only [mapTexts_obj, List.map_map]
    congr 1
    refine List.map_congr_left fun m hm => ?_
    simp [ih m hm]

end PanelSearch.Json
