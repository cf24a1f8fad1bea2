import PanelSearch.Proofs.Entries
import PanelSearch.Proofs.Traversal
import PanelSearch.Request.Basic

/-! The written form of sibling nodes: under each key the last sibling with it, whose own members
are its body under its type and the object of its children. -/

namespace PanelSearch.Aggregation

open Json (member)

@[simp] theorem key_addChildren (agg : Aggregation) (more : List Aggregation) :
    (agg.addChildren more).key = agg.key := by
  cases agg
  rfl

@[simp] theorem body_addChildren (agg : Aggregation) (more : List Aggregation) :
    (agg.addChildren more).body = agg.body := by
  cases agg
  rfl

@[simp] theorem children_addChildren (agg : Aggregation) (more : List Aggregation) :
    (agg.addChildren more).children = agg.children ++ more := by
  cases agg
  rfl

theorem siblings_eq_map (aggs : List Aggregation) :
    siblings aggs = aggs.map fun agg => (agg.key, .obj agg.members) := by
  induction aggs with
  | nil => rfl
  | cons agg rest ih => rw [siblings, ih, List.map_cons]

theorem get?_map_members (aggs : List Aggregation) (key : String) :
    Entries.get? (aggs.map fun agg => (agg.key, Json.obj agg.members)) key =
      (aggs.find? (·.key == key)).map fun agg => .obj agg.members := by
  induction aggs with
  | nil => rfl
  | cons agg rest ih =>
    rw [List.map_cons, Entries.get?_cons, List.find?_cons, ih]
    by_cases hk : agg.key = key
    · simp [hk]
    · simp [hk, beq_eq_false_iff_ne.mpr hk]

/-- Of siblings with one key the last one is written. -/
theorem get?_siblingsJson (aggs : List Aggregation) (key : String) :
    Entries.get? (siblingsJson aggs) key =
      (aggs.reverse.find? (·.key == key)).map fun agg => .obj agg.members := by
  rw [siblingsJson, Entries.get?_ofList, siblings_eq_map, ← List.map_reverse, get?_map_members]

/-- A node is written: no sibling behind it has its key. -/
def IsWritten (aggs : List Aggregation) (n : Aggregation) : Prop :=
  aggs.reverse.find? (·.key == n.key) = some n

theorem get?_siblingsJson_eq_some_iff {aggs : List Aggregation} {key : String} {j : Json} :
    Entries.get? (siblingsJson aggs) key = some j ↔
      ∃ n, IsWritten aggs n ∧ n.key = key ∧ j = .obj n.members := by
  rw [get?_siblingsJson, Option.map_eq_some_iff]
  constructor
  · rintro ⟨n, hfind, rfl⟩
    have hkey : n.key = key := by simpa using List.find?_some hfind
    exact ⟨n, by rw [IsWritten, hkey, hfind], hkey, rfl⟩
  · rintro ⟨n, hwritten, rfl, rfl⟩
    exact ⟨n, hwritten, rfl⟩

theorem IsWritten.mem {aggs : List Aggregation} {n : Aggregation} (h : IsWritten aggs n) :
    n ∈ aggs :=
  List.mem_reverse.mp (List.mem_of_find?_eq_some h)

theorem isWritten_append_iff {as bs : List Aggregation} {n : Aggregation} :
    IsWritten (as ++ bs) n ↔ IsWritten bs n ∨ (∀ m ∈ bs, m.key ≠ n.key) ∧ IsWritten as n := by
  unfold IsWritten
  rw [List.reverse_append, List.find?_append, Option.or_eq_some_iff, List.find?_eq_none]
  simp

theorem isWritten_iff_mem {aggs : List Aggregation} (h : (aggs.map (·.key)).Nodup)
    {n : Aggregation} : IsWritten aggs n ↔ n ∈ aggs := by
  have hreverse : (aggs.reverse.map (·.key)).Nodup := by
    rwa [List.map_reverse, List.nodup_reverse]
  rw [IsWritten, Traversal.find?_key_eq_some_iff hreverse, List.mem_reverse, and_iff_left rfl]

theorem get?_siblingsJson_append (as : List Aggregation) (agg : Aggregation) :
    Entries.get? (siblingsJson (as ++ [agg])) agg.key = some (.obj agg.members) := by
  rw [get?_siblingsJson]
  simp

theorem mem_keys_siblingsJson {aggs : List Aggregation} {key : String} :
    key ∈ Entries.keys (siblingsJson aggs) ↔ ∃ agg ∈ aggs, agg.key = key := by
  rw [siblingsJson, Entries.mem_keys_ofList, siblings_eq_map]
  simp [Entries.keys]

/-- A node in written form: its body under its type, and its children under `aggs` if it has any. -/
theorem members_eq (agg : Aggregation) (h : agg.body.typeName ≠ "aggs") :
    agg.members = (agg.body.typeName, .obj agg.body.members) ::
      if agg.children.isEmpty then [] else [("aggs", .obj (siblingsJson agg.children))] := by
  obtain ⟨key, body, children⟩ := agg
  cases children with
  | nil => rfl
  | cons child rest =>
    change body.typeName ≠ "aggs" at h
    rw [members, Entries.put, if_neg h]
    rfl

theorem get?_members_type (agg : Aggregation) (h : agg.body.typeName ≠ "aggs") :
    Entries.get? agg.members agg.body.typeName = some (.obj agg.body.members) := by
  rw [members_eq agg h, Entries.get?_cons, if_pos rfl]

/-- A node holds its children under `aggs`, if it has any. -/
theorem aggs_members (agg : Aggregation) (h : agg.body.typeName ≠ "aggs") :
    (member agg.members "aggs").membersD = siblingsJson agg.children := by
  rw [member, members_eq agg h, Entries.get?_cons, if_neg h]
  cases agg.children <;> rfl

theorem members_leaf (key : String) (body : AggBody) :
    (node key body []).members = [(body.typeName, .obj body.members)] := rfl

end PanelSearch.Aggregation

namespace PanelSearch.SearchRequest

open Json (member)

/-- A body holds the trees of the request under `aggs`, if there are any. -/
theorem aggs_members (r : SearchRequest) :
    (member r.members "aggs").membersD = Aggregation.siblingsJson r.aggs := by
  have hsort : ∀ rest : Entries Json, Entries.get?
      ((if r.sort.isEmpty then [] else [("sort", .arr (r.sort.map SortKey.json))]) ++ rest)
      "aggs" = Entries.get? rest "aggs" := by
    intro rest
    split <;> simp [Entries.get?_cons]
  rw [member, members, optionalMembers, Entries.get?_append, hsort]
  cases haggs : r.aggs with
  | nil => rfl
  | cons agg rest => rfl

end PanelSearch.SearchRequest
