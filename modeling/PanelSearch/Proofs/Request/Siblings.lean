import PanelSearch.Proofs.Request.Aggregation

/-! The written form of whole forests of nodes. At every level a node takes the place of the
siblings before it with its key, and with them goes all that is inside them: what stands at a path
of keys is the node to which the last siblings with these keys lead. -/

namespace PanelSearch.Aggregation

open Json (member)

/-- A node of a forest, with its place and the keys on the way to it. A place is the position of
each node on the way among its siblings. -/
inductive NodeAt : List Aggregation → List Nat → List String → Aggregation → Prop
  | here {aggs : List Aggregation} {i : Nat} {n : Aggregation} (hnode : aggs[i]? = some n) :
      NodeAt aggs [i] [n.key] n
  | inside {aggs : List Aggregation} {i : Nat} {m n : Aggregation} {place : List Nat}
      {keys : List String} (hnode : aggs[i]? = some m) (hbelow : NodeAt m.children place keys n) :
      NodeAt aggs (i :: place) (m.key :: keys) n

/-- At a position there is a node, and no sibling behind it has its key. -/
def IsLast (aggs : List Aggregation) (i : Nat) (n : Aggregation) : Prop :=
  aggs[i]? = some n ∧ ∀ m ∈ aggs.drop (i + 1), m.key ≠ n.key

/-- A node to which the last siblings with their keys lead, level by level. -/
inductive LastAt : List Aggregation → List Nat → List String → Aggregation → Prop
  | here {aggs : List Aggregation} {i : Nat} {n : Aggregation} (hlast : IsLast aggs i n) :
      LastAt aggs [i] [n.key] n
  | inside {aggs : List Aggregation} {i : Nat} {m n : Aggregation} {place : List Nat}
      {keys : List String} (hlast : IsLast aggs i m) (hbelow : LastAt m.children place keys n) :
      LastAt aggs (i :: place) (m.key :: keys) n

/-- What stands in a written forest at a path of keys. Each key but the first is looked up under
`aggs` of what stands at the keys before it. -/
inductive WrittenAt : Entries Json → List String → Json → Prop
  | here {es : Entries Json} {key : String} {j : Json} (hget : Entries.get? es key = some j) :
      WrittenAt es [key] j
  | inside {es members inner : Entries Json} {key : String} {keys : List String} {j : Json}
      (hget : Entries.get? es key = some (.obj members))
      (haggs : Entries.get? members "aggs" = some (.obj inner)) (hbelow : WrittenAt inner keys j) :
      WrittenAt es (key :: keys) j

/-- All nodes of a forest, at whatever depth, have a property. -/
def Every (P : Aggregation → Prop) (aggs : List Aggregation) : Prop :=
  ∀ place keys n, NodeAt aggs place keys n → P n

/-- Siblings have distinct keys, at every level. -/
structure HasDistinctKeys (aggs : List Aggregation) : Prop where
  roots : (aggs.map (·.key)).Nodup
  inside : Every (fun n => (n.children.map (·.key)).Nodup) aggs

section Every

variable {P : Aggregation → Prop} {agg n : Aggregation} {aggs : List Aggregation} {i : Nat}

theorem Every.of_getElem? (h : Every P aggs) (hnode : aggs[i]? = some n) : P n :=
  h [i] [n.key] n (.here hnode)

theorem Every.children (h : Every P aggs) (hnode : aggs[i]? = some n) : Every P n.children :=
  fun place keys m hm => h (i :: place) (n.key :: keys) m (.inside hnode hm)

@[simp] theorem every_nil : Every P [] := by
  rintro place keys n (hnode | hnode) <;> simp at hnode

@[simp] theorem every_cons_iff :
    Every P (agg :: aggs) ↔ P agg ∧ Every P agg.children ∧ Every P aggs := by
  constructor
  · intro h
    have hfirst : (agg :: aggs)[0]? = some agg := rfl
    refine ⟨h.of_getElem? hfirst, h.children hfirst, fun place keys n hn => ?_⟩
    cases hn with
    | @here _ i _ hnode => exact h [i + 1] [n.key] n (.here hnode)
    | @inside _ i m _ place keys hnode hbelow =>
      exact h ((i + 1) :: place) (m.key :: keys) n (.inside hnode hbelow)
  · rintro ⟨hfirst, hchildren, hrest⟩ place keys n hn
    cases hn with
    | @here _ i _ hnode =>
      cases i with
      | zero =>
        cases hnode
        exact hfirst
      | succ i => exact hrest.of_getElem? hnode
    | @inside _ i m _ place keys hnode hbelow =>
      cases i with
      | zero =>
        cases hnode
        exact hchildren place keys n hbelow
      | succ i => exact hrest.children hnode place keys n hbelow

mutual

theorem isConcrete_of_every : (agg : Aggregation) → agg.body ≠ .abstract →
    Every (fun n => n.body ≠ .abstract) agg.children → agg.isConcrete = true
  | node key body children, hbody, hchildren => by
    unfold isConcrete
    rw [areConcrete_of_every children hchildren, Bool.and_true]
    split
    · exact absurd rfl hbody
    · rfl

/-- A forest without abstract nodes has a written form. -/
theorem areConcrete_of_every : (aggs : List Aggregation) →
    Every (fun n => n.body ≠ .abstract) aggs → areConcrete aggs = true
  | [], _ => rfl
  | agg :: rest, h => by
    obtain ⟨hbody, hchildren, hrest⟩ := every_cons_iff.mp h
    rw [areConcrete, isConcrete_of_every agg hbody hchildren, areConcrete_of_every rest hrest]
    rfl

end

end Every

section Last

variable {aggs : List Aggregation} {i j : Nat} {m n : Aggregation}

theorem eq_take_append (hnode : aggs[i]? = some n) :
    aggs = aggs.take i ++ ([n] ++ aggs.drop (i + 1)) := by
  obtain ⟨hi, rfl⟩ := List.getElem?_eq_some_iff.mp hnode
  rw [List.singleton_append, ← List.drop_eq_getElem_cons hi, List.take_append_drop]

theorem IsLast.isWritten (h : IsLast aggs i n) : IsWritten aggs n := by
  have hfront : IsWritten ([n] ++ aggs.drop (i + 1)) n :=
    isWritten_append_iff.mpr (.inr ⟨h.2, by simp [IsWritten]⟩)
  rw [eq_take_append h.1]
  exact isWritten_append_iff.mpr (.inl hfront)

theorem IsWritten.exists_isLast (h : IsWritten aggs n) : ∃ i, IsLast aggs i n := by
  obtain ⟨-, after, before, hsplit, hafter⟩ := List.find?_eq_some_iff_append.mp h
  have haggs : aggs = (before.reverse ++ [n]) ++ after.reverse := by
    rw [← List.reverse_reverse aggs, hsplit]
    simp
  have hbehind : aggs.drop (before.length + 1) = after.reverse := by
    rw [haggs]
    exact List.drop_left' (by simp)
  refine ⟨before.length, by simp [haggs], fun m hm => ?_⟩
  rw [hbehind, List.mem_reverse] at hm
  simpa using hafter m hm

/-- Under a key the last sibling with it is written. -/
theorem get?_siblingsJson_iff_isLast {key : String} {j : Json} :
    Entries.get? (siblingsJson aggs) key = some j ↔
      ∃ i n, IsLast aggs i n ∧ n.key = key ∧ j = .obj n.members := by
  rw [get?_siblingsJson_eq_some_iff]
  constructor
  · rintro ⟨n, hwritten, hrest⟩
    obtain ⟨i, hlast⟩ := hwritten.exists_isLast
    exact ⟨i, n, hlast, hrest⟩
  · rintro ⟨i, n, hlast, hrest⟩
    exact ⟨n, hlast.isWritten, hrest⟩

theorem IsLast.le (hn : IsLast aggs i n) (hm : IsLast aggs j m) (hkey : m.key = n.key) : j ≤ i := by
  by_contra hlt
  have hmem : m ∈ aggs.drop (i + 1) := by
    refine List.mem_iff_getElem?.mpr ⟨j - (i + 1), ?_⟩
    rw [List.getElem?_drop, ← hm.1]
    congr 1
    omega
  exact hn.2 m hmem hkey

/-- There is one last sibling with a key. -/
theorem IsLast.unique (hn : IsLast aggs i n) (hm : IsLast aggs j m) (hkey : n.key = m.key) :
    i = j ∧ n = m := by
  obtain rfl : i = j := Nat.le_antisymm (hm.le hn hkey) (hn.le hm hkey.symm)
  exact ⟨rfl, Option.some.inj (hn.1.symm.trans hm.1)⟩

theorem isLast_of_nodup (hkeys : (aggs.map (·.key)).Nodup) (hnode : aggs[i]? = some n) :
    IsLast aggs i n := by
  refine ⟨hnode, fun m hm => ?_⟩
  rw [eq_take_append hnode, List.Nodup, List.pairwise_map, List.pairwise_append] at hkeys
  exact ((List.pairwise_cons.mp hkeys.2.1).1 m hm).symm

end Last

section Written

variable {aggs : List Aggregation} {keys : List String} {place place' : List Nat}
  {n n' : Aggregation} {j : Json}

theorem get?_members_aggs_iff (h : n.body.typeName ≠ "aggs") {inner : Entries Json} :
    Entries.get? n.members "aggs" = some (.obj inner) ↔
      n.children ≠ [] ∧ inner = siblingsJson n.children := by
  rw [members_eq n h, Entries.get?_cons, if_neg h]
  cases n.children with
  | nil => simp
  | cons child rest => simp [Entries.get?_cons, eq_comm]

theorem LastAt.ne_nil (h : LastAt aggs place keys n) : aggs ≠ [] := by
  rintro rfl
  cases h with
  | here hlast | inside hlast _ => simp [IsLast] at hlast

theorem LastAt.keys_ne_nil (h : LastAt aggs place keys n) : keys ≠ [] := by
  cases h <;> exact List.cons_ne_nil _ _

theorem LastAt.nodeAt (h : LastAt aggs place keys n) : NodeAt aggs place keys n := by
  induction h with
  | here hlast => exact .here hlast.1
  | inside hlast _ ih => exact .inside hlast.1 ih

theorem LastAt.writtenAt (htypes : Every (fun n => n.body.typeName ≠ "aggs") aggs)
    (h : LastAt aggs place keys n) : WrittenAt (siblingsJson aggs) keys (.obj n.members) := by
  induction h with
  | here hlast => exact .here (get?_siblingsJson_iff_isLast.mpr ⟨_, _, hlast, rfl, rfl⟩)
  | inside hlast hbelow ih =>
    have haggs := (get?_members_aggs_iff (htypes.of_getElem? hlast.1)).mpr ⟨hbelow.ne_nil, rfl⟩
    exact .inside (get?_siblingsJson_iff_isLast.mpr ⟨_, _, hlast, rfl, rfl⟩) haggs
      (ih (htypes.children hlast.1))

/-- Below each key the forest is that of the children of the last sibling with it. -/
theorem WrittenAt.exists_lastAt {es : Entries Json} (h : WrittenAt es keys j)
    (htypes : Every (fun n => n.body.typeName ≠ "aggs") aggs) (hes : es = siblingsJson aggs) :
    ∃ place n, LastAt aggs place keys n ∧ j = .obj n.members := by
  induction h generalizing aggs with
  | here hget =>
    obtain ⟨i, n, hlast, rfl, rfl⟩ := get?_siblingsJson_iff_isLast.mp (hes ▸ hget)
    exact ⟨[i], n, .here hlast, rfl⟩
  | inside hget haggs hbelow ih =>
    obtain ⟨i, m, hlast, rfl, hm⟩ := get?_siblingsJson_iff_isLast.mp (hes ▸ hget)
    cases hm
    obtain ⟨-, hinner⟩ := (get?_members_aggs_iff (htypes.of_getElem? hlast.1)).mp haggs
    obtain ⟨place, n, hn, rfl⟩ := ih (htypes.children hlast.1) hinner
    exact ⟨i :: place, n, .inside hlast hn, rfl⟩

/-- A path of keys leads to one node at most. -/
theorem LastAt.unique (h : LastAt aggs place keys n) (h' : LastAt aggs place' keys n') :
    place = place' ∧ n = n' := by
  induction h generalizing place' n' with
  | @here _ i n hlast =>
    generalize hkeys : [n.key] = keys at h'
    cases h' with
    | here hlast' =>
      obtain ⟨rfl, rfl⟩ := hlast.unique hlast' (List.cons.inj hkeys).1
      exact ⟨rfl, rfl⟩
    | inside _ hbelow => exact absurd (List.cons.inj hkeys).2.symm hbelow.keys_ne_nil
  | @inside _ i m n place keys hlast hbelow ih =>
    generalize hkeys : m.key :: keys = keys' at h'
    cases h' with
    | here _ => exact absurd (List.cons.inj hkeys).2 hbelow.keys_ne_nil
    | inside hlast' hbelow' =>
      obtain ⟨hkey, rfl⟩ := List.cons.inj hkeys
      obtain ⟨rfl, rfl⟩ := hlast.unique hlast' hkey
      obtain ⟨rfl, rfl⟩ := ih hbelow'
      exact ⟨rfl, rfl⟩

theorem NodeAt.lastAt (h : NodeAt aggs place keys n) (hdistinct : HasDistinctKeys aggs) :
    LastAt aggs place keys n := by
  induction h with
  | here hnode => exact .here (isLast_of_nodup hdistinct.roots hnode)
  | inside hnode hbelow ih =>
    exact .inside (isLast_of_nodup hdistinct.roots hnode)
      (ih ⟨hdistinct.inside.of_getElem? hnode, hdistinct.inside.children hnode⟩)

theorem keys_siblingsJson (aggs : List Aggregation) :
    (siblingsJson aggs).keys = (aggs.map (·.key)).eraseDups := by
  rw [siblingsJson, Entries.keys_ofList, siblings_eq_map, Entries.keys, List.map_map]
  rfl

/-- In the body of a request a forest is written so that at every level the last sibling with a key
stays, in the place of the first: at a path of keys there is what the last siblings with these keys
lead to, and nothing else. Where siblings have distinct keys no node is lost, and paths of keys tell
the nodes apart. -/
theorem siblingsJson_keepsLast (hconcrete : Every (fun n => n.body ≠ .abstract) aggs)
    (htypes : Every (fun n => n.body.typeName ≠ "aggs") aggs) :
    (∃ members, ({ aggs } : SearchRequest).body = .ok (.obj members) ∧
      (member members "aggs").membersD = siblingsJson aggs) ∧
    (∀ keys j, WrittenAt (siblingsJson aggs) keys j ↔ ∃ place n, LastAt aggs place keys n ∧
      j = .obj ((n.body.typeName, .obj n.body.members) ::
        if n.children.isEmpty then [] else [("aggs", .obj (siblingsJson n.children))])) ∧
    (∀ level : List Aggregation, (siblingsJson level).keys = (level.map (·.key)).eraseDups) ∧
    (HasDistinctKeys aggs →
      (∀ place keys n, NodeAt aggs place keys n →
        WrittenAt (siblingsJson aggs) keys (.obj n.members)) ∧
      ∀ place place' keys n n', NodeAt aggs place keys n → NodeAt aggs place' keys n' →
        place = place') := by
  refine ⟨?_, fun keys j => ⟨fun h => ?_, ?_⟩, keys_siblingsJson, fun hdistinct => ⟨?_, ?_⟩⟩
  · refine ⟨({ aggs } : SearchRequest).members, ?_, SearchRequest.aggs_members { aggs }⟩
    rw [SearchRequest.body, if_pos (areConcrete_of_every aggs hconcrete)]
  · obtain ⟨place, n, hlast, rfl⟩ := h.exists_lastAt htypes rfl
    exact ⟨place, n, hlast, by rw [members_eq n (htypes place keys n hlast.nodeAt)]⟩
  · rintro ⟨place, n, hlast, rfl⟩
    rw [← members_eq n (htypes place keys n hlast.nodeAt)]
    exact hlast.writtenAt htypes
  · exact fun place keys n h => (h.lastAt hdistinct).writtenAt htypes
  · exact fun place place' keys n n' h h' =>
      ((h.lastAt hdistinct).unique (h'.lastAt hdistinct)).1

end Written

def bytesNode (key type : String) : Aggregation := .node key (.metric type "bytes" []) []

def eventsNode : Aggregation :=
  .node "2" (.nested "events") [bytesNode "3" "min", bytesNode "1" "max"]

/-- Two siblings with one key, and a metric with the key 1 inside each. -/
def doubled : List Aggregation := [.node "2" (.nested "spans") [bytesNode "1" "avg"], eventsNode]

/-- Of the doubled siblings the second one is written, and without the first one no node is lost. -/
theorem doubled_keepsLast :
    WrittenAt (siblingsJson doubled) ["2", "1"] (.obj [("max", .obj [("field", .str "bytes")])]) ∧
    (siblingsJson doubled).keys = ["2"] ∧ HasDistinctKeys [eventsNode] ∧
    WrittenAt (siblingsJson [eventsNode]) ["2", "3"] (.obj (bytesNode "3" "min").members) := by
  have hconcrete : Every (fun n => n.body ≠ .abstract) doubled := by
    simp [doubled, eventsNode, bytesNode, body, children]
  have htypes : Every (fun n => n.body.typeName ≠ "aggs") doubled := by
    simp [doubled, eventsNode, bytesNode, body, children, AggBody.typeName]
  have hdistinct : HasDistinctKeys [eventsNode] :=
    ⟨by simp, by simp [eventsNode, bytesNode, children, key]⟩
  have hevents : IsLast doubled 1 eventsNode := ⟨rfl, by simp [doubled]⟩
  have hmax : IsLast eventsNode.children 1 (bytesNode "1" "max") :=
    ⟨rfl, by simp [eventsNode, children]⟩
  have hmin : NodeAt eventsNode.children [0] ["3"] (bytesNode "3" "min") :=
    NodeAt.here (n := bytesNode "3" "min") rfl
  obtain ⟨-, hwritten, hkeys, -⟩ := siblingsJson_keepsLast hconcrete htypes
  obtain ⟨-, -, -, hnone⟩ :=
    siblingsJson_keepsLast (every_cons_iff.mp hconcrete).2.2 (every_cons_iff.mp htypes).2.2
  refine ⟨(hwritten _ _).mpr ⟨[1, 1], bytesNode "1" "max", ?_, rfl⟩, hkeys doubled, hdistinct, ?_⟩
  · exact .inside hevents (.here hmax)
  · exact (hnone hdistinct).1 [0, 0] ["2", "3"] (bytesNode "3" "min") (.inside rfl hmin)

end PanelSearch.Aggregation
