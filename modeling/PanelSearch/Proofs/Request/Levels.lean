import PanelSearch.Proofs.Request.Building
import PanelSearch.Proofs.Request.Dangling

/-! Where the nodes of a body stand. A bucket aggregation is reached under the ids around it and is
what was built for it, and every node that stands elsewhere is written by a metric. -/

namespace PanelSearch

open Json (member)
open SearchRequest (nest)

theorem levelPath_eq_aggPath (levels : List BucketAgg) :
    levelPath levels = aggPath (levels.map (·.id)) := by
  rw [levelPath, aggPath, List.flatMap_map]

theorem levelPath_concat (outer : List BucketAgg) (b : BucketAgg) :
    levelPath (outer ++ [b]) = levelPath outer ++ ["aggs", b.id] := by
  simp [levelPath]

/-- A body holds what is built for a query: at each level the node of its bucket aggregation, and in
it the levels below. -/
structure HoldsBuilt (q : Query) (target : Target) (body : Json) (leaves : List Aggregation) :
    Prop where
  metrics : List.Forall₂ q.MetricNode q.requestedMetrics leaves
  level : ∀ outer b inner, q.keptBuckets = outer ++ b :: inner → ∃ n below,
    BuiltNode q target b n ∧ List.Forall₂ (BuiltNode q target) inner below ∧
      body.path (levelPath (outer ++ [b])) = .obj (n.addChildren (nest below leaves)).members

theorem exists_holdsBuilt {target : Target} {q : Query} {r : SearchRequest}
    (hshape : q.shape = .aggregation) (hbuild : SearchRequest.ofQuery target q = .ok r) :
    ∃ body leaves, r.body = .ok body ∧ HoldsBuilt q target body leaves := by
  obtain ⟨nodes, leaves, hbody, htrees, hnodes, hleaves⟩ :=
    SearchRequest.body_eq_nest hshape hbuild
  refine ⟨_, leaves, hbody, hleaves, fun outer b inner hkept => ?_⟩
  have hlevels : ∀ c ∈ outer ++ b :: inner, c.isKept = true := by
    intro c hc
    rw [← hkept] at hc
    exact (List.mem_filter.mp hc).2
  have htop : HoldsTrees (.obj r.members) ([] ++ nest nodes leaves) := htrees
  obtain ⟨levels, hbuilt, hholds⟩ := holdsTrees_level (R := BuiltNode q target)
    (fun _ _ hn => hn.toBucketNode) (hkept ▸ hnodes) hlevels htop
  obtain ⟨n, below, hn, hbelow, rfl⟩ := List.forall₂_cons_left_iff.mp hbuilt
  refine ⟨n, below, hn, hbelow, ?_⟩
  have hpath := hholds.path_last
  rwa [Aggregation.key_addChildren, hn.key, ← Json.path_append, ← levelPath_concat] at hpath

/-- A node without children that computes a metric of the query. -/
def Query.IsLeaf (q : Query) (n : Aggregation) : Prop :=
  ∃ m ∈ q.metrics, ∃ body : AggBody, n = .node m.id body [] ∧ body.typeName = m.kind.name

section Nodes

variable {q : Query} {j : Json} {node : Entries Json}

theorem isLeaf_of_mem_orderNodes {b : BucketAgg} {n : Aggregation} (h : n ∈ q.orderNodes b) :
    q.IsLeaf n := by
  obtain ⟨m, hm, rfl⟩ := List.mem_map.mp h
  exact ⟨m, (Query.orderMetric?_mem (Option.mem_toList.mp hm)).1, _, rfl, rfl⟩

theorem isLeaf_of_mem_leaves {leaves : List Aggregation} {n : Aggregation}
    (hleaves : List.Forall₂ q.MetricNode q.requestedMetrics leaves) (h : n ∈ leaves) :
    q.IsLeaf n := by
  obtain ⟨m, hm, settings, -, rfl⟩ := Traversal.exists_mem_of_forall₂ hleaves.flip h
  exact ⟨m, (List.mem_filter.mp hm).1, _, rfl, q.typeName_metricBody m settings⟩

/-- A path through aggregations leads on from one of the nodes that stand at its beginning. -/
theorem HoldsTrees.exists_node {aggs : List Aggregation} (hj : HoldsTrees j aggs) {key : String}
    {keys : List String} (h : j.path (aggPath (key :: keys)) = .obj node) :
    ∃ n ∈ aggs, n.key = key ∧ (Json.obj n.members).path (aggPath keys) = .obj node := by
  have hpath : j.path (aggPath (key :: keys)) = (j.path ["aggs", key]).path (aggPath keys) := by
    rw [← Json.path_append]
    rfl
  rw [hpath, hj.path_key, member] at h
  cases hget : Entries.get? (Aggregation.siblingsJson aggs) key with
  | none =>
    rw [hget, Option.getD_none, Json.path_null] at h
    cases h
  | some v =>
    obtain ⟨n, hn, hkey, rfl⟩ := Aggregation.get?_siblingsJson_eq_some_iff.mp hget
    rw [hget] at h
    exact ⟨n, hn.mem, hkey, h⟩

/-- From a leaf no path leads on, unless its type is spelled like the member that holds children. -/
theorem Query.IsLeaf.keys_eq {n : Aggregation} (hn : q.IsLeaf n)
    (haggs : ∀ m ∈ q.metrics, m.kind.name ≠ "aggs") {keys : List String}
    (h : (Json.obj n.members).path (aggPath keys) = .obj node) :
    ∃ m ∈ q.metrics, Entries.keys node = [m.kind.name] := by
  obtain ⟨m, hm, body, rfl, htype⟩ := hn
  cases keys with
  | nil =>
    cases h
    exact ⟨m, hm, by rw [Aggregation.members_leaf, htype]; rfl⟩
  | cons key keys =>
    have hnull : (Json.obj (Aggregation.node m.id body []).members).path
        (aggPath (key :: keys)) = .null := by
      have hne : m.kind.name ≠ "aggs" := haggs m hm
      change Json.path _ ("aggs" :: key :: aggPath keys) = .null
      rw [Json.path_cons, Aggregation.members_leaf, htype, Json.membersD, Json.members?,
        Option.getD_some, member, Entries.get?_cons, if_neg hne]
      exact Json.path_null _
    rw [hnull] at h
    cases h

/-- Every node of some levels is that of a bucket aggregation, under the ids of the levels down to
it, or is written by a metric. -/
theorem node_cases {levels : List BucketAgg} {nodes leaves own : List Aggregation}
    (hnodes : List.Forall₂ (BucketNode q) levels nodes) (hkept : ∀ b ∈ levels, b.isKept = true)
    (hleaves : ∀ n ∈ leaves, q.IsLeaf n) (hown : ∀ n ∈ own, q.IsLeaf n)
    (haggs : ∀ m ∈ q.metrics, m.kind.name ≠ "aggs") (hj : HoldsTrees j (own ++ nest nodes leaves))
    {key : String} {keys : List String} (h : j.path (aggPath (key :: keys)) = .obj node) :
    (∃ outer b inner, levels = outer ++ b :: inner ∧ key :: keys = (outer ++ [b]).map (·.id) ∧
      ∀ type ∈ Entries.keys node, type = b.kind.name ∨ type = "aggs") ∨
    ∃ m ∈ q.metrics, Entries.keys node = [m.kind.name] := by
  induction hnodes generalizing own j key keys with
  | nil =>
    obtain ⟨n, hmem, -, hrest⟩ := hj.exists_node h
    refine .inr (Query.IsLeaf.keys_eq ?_ haggs hrest)
    exact (List.mem_append.mp hmem).elim (hown n) (hleaves n)
  | @cons b first levels nodes hfirst hnodes ih =>
    obtain ⟨n, hmem, hkey, hrest⟩ := hj.exists_node h
    rcases List.mem_append.mp hmem with hmem | hmem
    · exact .inr ((hown n hmem).keys_eq haggs hrest)
    obtain rfl : n = first.addChildren (nest nodes leaves) := by simpa [nest] using hmem
    obtain ⟨hb, hlevels⟩ := List.forall_mem_cons.mp hkept
    rw [Aggregation.key_addChildren, hfirst.key] at hkey
    subst hkey
    cases keys with
    | nil =>
      cases hrest
      refine .inl ⟨[], b, levels, rfl, rfl, fun type htype => ?_⟩
      have hmembers := Aggregation.mem_keys_members htype
      rwa [Aggregation.body_addChildren, hfirst.type] at hmembers
    | cons key keys =>
      have hnode := HoldsTrees.of_node (hfirst.typeName_ne hb (nest nodes leaves))
      rw [Aggregation.children_addChildren, hfirst.children] at hnode
      rcases ih hlevels (fun _ hn => isLeaf_of_mem_orderNodes hn) hnode hrest with
        ⟨outer, c, inner, rfl, hkeys, htypes⟩ | hmetric
      · refine .inl ⟨b :: outer, c, inner, rfl, ?_, htypes⟩
        rw [hkeys]
        rfl
      · exact .inr hmetric

end Nodes

theorem BucketAgg.kind_eq_of_name {b : BucketAgg} (hb : b.isKept = true) {kind : BucketKind}
    (hkind : ∀ name, kind ≠ .other name) (hname : b.kind.name = kind.name) : b.kind = kind := by
  unfold isKept at hb
  cases hk : b.kind with
  | other name => simp [hk] at hb
  | _ =>
    rw [hk] at hname
    cases kind with
    | other name => exact absurd rfl (hkind name)
    | _ => first | rfl | simp [BucketKind.name] at hname

/-- The nodes of the type of a kind are those of the bucket aggregations of that kind, each under
the ids of the levels down to it. -/
def KindAtLevels (q : Query) (kind : BucketKind) (body : Json) : Prop :=
  ∀ key keys node, body.path (aggPath (key :: keys)) = .obj node → kind.name ∈ Entries.keys node →
    ∃ outer b inner, q.keptBuckets = outer ++ b :: inner ∧ b.kind = kind ∧
      key :: keys = (outer ++ [b]).map (·.id)

section Body

variable {target : Target} {q : Query} {r : SearchRequest} {body : Json}
  (hbuild : SearchRequest.ofQuery target q = .ok r) (hbody : r.body = .ok body)
include hbuild hbody

/-- A node stands in the body of an aggregation query only. -/
theorem shape_eq_of_node {key : String} {keys : List String} {node : Entries Json}
    (hnode : body.path (aggPath (key :: keys)) = .obj node) : q.shape = .aggregation := by
  by_contra hshape
  have hholds := SearchRequest.holdsTrees_body hbody
  rw [SearchRequest.aggs_of_shape_ne hshape hbuild] at hholds
  obtain ⟨n, hn, -⟩ := hholds.exists_node hnode
  cases hn

/-- Where no metric is spelled like a kind of bucket aggregation, its nodes are at their levels. -/
theorem kindAtLevels {kind : BucketKind} (hkind : ∀ name, kind ≠ .other name)
    (hmetrics : ∀ m ∈ q.metrics, m.kind.name ≠ "aggs" ∧ m.kind.name ≠ kind.name) :
    KindAtLevels q kind body := by
  intro key keys node hnode htype
  have hshape := shape_eq_of_node hbuild hbody hnode
  have hholds := SearchRequest.holdsTrees_body hbody
  obtain ⟨nodes, leaves, haggs, hnodes, hleaves⟩ :=
    SearchRequest.aggregationsOf_eq_ok (SearchRequest.ofQuery_eq_ok hshape hbuild).1
  rw [haggs, ← List.nil_append (nest nodes leaves)] at hholds
  rcases node_cases hnodes (fun b hb => (List.mem_filter.mp hb).2)
    (fun n hn => isLeaf_of_mem_leaves hleaves hn) (by simp) (fun m hm => (hmetrics m hm).1) hholds
    hnode with ⟨outer, b, inner, hkept, hkeys, htypes⟩ | ⟨m, hm, hmetric⟩
  · have hname : b.kind.name = kind.name := by
      rcases htypes _ htype with hname | haggs
      · exact hname.symm
      · cases kind with
        | other name => exact absurd rfl (hkind name)
        | _ => simp [BucketKind.name] at haggs
    have hb := Query.isKept_of_keptBuckets hkept
    exact ⟨outer, b, inner, hkept, BucketAgg.kind_eq_of_name hb hkind hname, hkeys⟩
  · rw [hmetric, List.mem_singleton] at htype
    exact absurd htype.symm (hmetrics m hm).2

end Body

end PanelSearch
