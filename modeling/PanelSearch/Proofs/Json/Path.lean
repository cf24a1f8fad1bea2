import PanelSearch.Json.Basic

/-! Paths of keys into nested objects: a path leads on from where its first part ends. -/

namespace PanelSearch.Json

theorem path_null (keys : List String) : null.path keys = null := by
  cases keys <;> rfl

theorem path_cons (j : Json) (key : String) (keys : List String) :
    j.path (key :: keys) = (member j.membersD key).path keys := by
  cases j with
  | obj members => rfl
  | _ => exact (path_null keys).symm

theorem path_append (j : Json) (ks ls : List String) : j.path (ks ++ ls) = (j.path ks).path ls := by
  induction ks generalizing j with
  | nil => rfl
  | cons k ks ih => rw [List.cons_append, path_cons, path_cons, ih]

end PanelSearch.Json
