import PanelSearch.Proofs.Json.Path
import PanelSearch.Proofs.Request.Members

/-! The shape of the body that is built for an aggregation query: a path of `aggs` objects leads
through the kept bucket aggregations in their order, each under its own id and type, and the last
of them holds the requested metrics. Between two levels stands nothing but the next level and, in a
terms aggregation, the metric that it is ordered by. Every level is sent with the members that it
asks for, and every metric with its settings over its field or its paths. -/

namespace PanelSearch

open Json (member)
open SearchRequest (nest)

/-- The object of a node or a body, whose `aggs` are the written form of some nodes. -/
def HoldsTrees (j : Json) (aggs : List Aggregation) : Prop :=
  ∃ members, j = .obj members ∧ (member members "aggs").membersD = Aggregation.siblingsJson aggs

namespace HoldsTrees

variable {j : Json} {aggs : List Aggregation}

theorem membersD (h : HoldsTrees j aggs) :
    (j.path ["aggs"]).membersD = Aggregation.siblingsJson aggs := by
  obtain ⟨members, rfl, h⟩ := h
  exact h

theorem path_key (h : HoldsTrees j aggs) (key : String) :
    j.path ["aggs", key] = member (Aggregation.siblingsJson aggs) key := by
  obtain ⟨members, rfl, h⟩ := h
  rw [Json.path_cons, Json.path_cons, ← h]
  rfl

theorem path_eq (h : HoldsTrees j aggs) {key : String} {v : Json}
    (hv : Entries.get? (Aggregation.siblingsJson aggs) key = some v) :
    j.path ["aggs", key] = v := by
  rw [h.path_key, member, hv, Option.getD_some]

theorem path_last {as : List Aggregation} {agg : Aggregation} (h : HoldsTrees j (as ++ [agg])) :
    j.path ["aggs", agg.key] = .obj agg.members :=
  h.path_eq (Aggregation.get?_siblingsJson_append as agg)

theorem of_node {agg : Aggregation} (h : agg.body.typeName ≠ "aggs") :
    HoldsTrees (.obj agg.members) agg.children :=
  ⟨_, rfl, Aggregation.aggs_members agg h⟩

end HoldsTrees

/-- The path to the node of the last of some bucket aggregations, each inside the one before. -/
def levelPath (levels : List BucketAgg) : List String := levels.flatMap fun b => ["aggs", b.id]

/-- The keys of the aggregations at the end of that path: at the top of the body when there are no
levels. -/
def aggKeys (body : Json) (levels : List BucketAgg) : List String :=
  Entries.keys (body.path (levelPath levels ++ ["aggs"])).membersD

namespace Query

/-- The bucket aggregations that have nodes, in order. -/
def keptBuckets (q : Query) : List BucketAgg := q.buckets.filter (·.isKept)

theorem isKept_of_keptBuckets {q : Query} {outer inner : List BucketAgg} {b : BucketAgg}
    (h : q.keptBuckets = outer ++ b :: inner) : b.isKept = true := by
  have hmem : b ∈ q.keptBuckets := by simp [h]
  exact (List.mem_filter.mp hmem).2

def requestedMetrics (q : Query) : List Metric := q.metrics.filter fun m => decide (q.emits m)

/-- The nodes that stand before the next level inside some levels: `own` at the top. -/
def nodesBefore (q : Query) (own : List Aggregation) (levels : List BucketAgg) :
    List Aggregation :=
  (levels.getLast?.map q.orderNodes).getD own

theorem nodesBefore_cons (q : Query) (own : List Aggregation) (b : BucketAgg)
    (levels : List BucketAgg) :
    q.nodesBefore own (b :: levels) = q.nodesBefore (q.orderNodes b) levels := by
  cases levels with
  | nil => rfl
  | cons c rest => rw [nodesBefore, List.getLast?_cons_cons, nodesBefore, List.getLast?_cons]; rfl

theorem key_mem_nodesBefore {q : Query} {levels : List BucketAgg} {key : String} :
    (∃ agg ∈ q.nodesBefore [] levels, agg.key = key) ↔
      ∃ b ∈ levels.getLast?, ∃ m, q.orderMetric? b = some m ∧ key = m.id := by
  rw [nodesBefore]
  cases levels.getLast? with
  | none => simp
  | some b =>
    cases hm : q.orderMetric? b with
    | none => simp [orderNodes, hm]
    | some m => simp [orderNodes, hm, orderNode, Aggregation.key, eq_comm]

end Query

section Levels

variable {q : Query} {leaves : List Aggregation}

theorem BucketNode.typeName_ne {b : BucketAgg} {n : Aggregation} (h : BucketNode q b n)
    (hb : b.isKept = true) (more : List Aggregation) :
    (n.addChildren more).body.typeName ≠ "aggs" := by
  rw [Aggregation.body_addChildren, h.type]
  exact BucketAgg.typeName_ne_aggs hb

/-- The object of a level holds the body of its node under the name of its kind. -/
theorem BucketNode.get?_members {b : BucketAgg} {n : Aggregation} (h : BucketNode q b n)
    (hb : b.isKept = true) (more : List Aggregation) :
    Entries.get? (n.addChildren more).members b.kind.name = some (.obj n.body.members) := by
  have hbody := Aggregation.get?_members_type (n.addChildren more) (h.typeName_ne hb more)
  rwa [Aggregation.body_addChildren, h.type] at hbody

theorem BucketNode.member_members {b : BucketAgg} {n : Aggregation} (h : BucketNode q b n)
    (hb : b.isKept = true) (more : List Aggregation) :
    member (n.addChildren more).members b.kind.name = .obj n.body.members := by
  rw [member, h.get?_members hb more, Option.getD_some]

/-- The object of the first level stands under its id, and holds the next level behind the nodes
that the first one brought with it. -/
theorem holdsTrees_first {b : BucketAgg} {n : Aggregation} {own rest : List Aggregation} {j : Json}
    (hn : BucketNode q b n) (hb : b.isKept = true)
    (hj : HoldsTrees j (own ++ [n.addChildren rest])) :
    HoldsTrees (j.path ["aggs", b.id]) (q.orderNodes b ++ rest) := by
  have hnode := hj.path_last
  rw [Aggregation.key_addChildren, hn.key] at hnode
  rw [hnode, ← hn.children, ← Aggregation.children_addChildren]
  exact HoldsTrees.of_node (hn.typeName_ne hb rest)

/-- Inside any of the outer levels stand the inner ones, with what is known of their nodes. -/
theorem holdsTrees_level {R : BucketAgg → Aggregation → Prop} (hR : ∀ b n, R b n → BucketNode q b n)
    {outer inner : List BucketAgg} {own nodes : List Aggregation} {j : Json}
    (hnodes : List.Forall₂ R (outer ++ inner) nodes) (hkept : ∀ b ∈ outer ++ inner, b.isKept = true)
    (hj : HoldsTrees j (own ++ nest nodes leaves)) : ∃ below, List.Forall₂ R inner below ∧
      HoldsTrees (j.path (levelPath outer)) (q.nodesBefore own outer ++ nest below leaves) := by
  induction outer generalizing own nodes j with
  | nil => exact ⟨nodes, hnodes, hj⟩
  | cons b outer ih =>
    obtain ⟨n, rest, hn, hrest, rfl⟩ := List.forall₂_cons_left_iff.mp hnodes
    have hfirst := holdsTrees_first (hR b n hn) (hkept b (by simp)) hj
    obtain ⟨below, hbelow, hholds⟩ := ih hrest (fun c hc => hkept c (by simp at hc ⊢; tauto)) hfirst
    refine ⟨below, hbelow, ?_⟩
    rw [q.nodesBefore_cons]
    rwa [← Json.path_append] at hholds

/-- The keys inside some levels are those of the order metric of the last of them and those of what
comes next. -/
theorem mem_aggKeys_iff {body : Json} {levels : List BucketAgg} {below : List Aggregation}
    (h : HoldsTrees (body.path (levelPath levels)) (q.nodesBefore [] levels ++ below))
    (key : String) : key ∈ aggKeys body levels ↔ (∃ agg ∈ below, agg.key = key) ∨
      ∃ b ∈ levels.getLast?, ∃ m, q.orderMetric? b = some m ∧ key = m.id := by
  rw [aggKeys, Json.path_append, h.membersD, Aggregation.mem_keys_siblingsJson,
    ← Query.key_mem_nodesBefore]
  simp only [List.mem_append, or_and_right, exists_or]
  exact or_comm

end Levels

/-- The shape of a body for a query. -/
structure HasShape (q : Query) (target : Target) (body : Json) : Prop where
  /-- Every kept bucket aggregation is reached under its own id and type, with its members. -/
  reaches : ∀ outer b inner, q.keptBuckets = outer ++ b :: inner →
    ∃ node, body.path (levelPath (outer ++ [b])) = .obj node ∧
      Entries.get? node b.kind.name = some (.obj (b.sentMembers q target)) ∧
      ∀ key ∈ Entries.keys node, key = b.kind.name ∨ key = "aggs"
  /-- The body itself holds the first of them only. -/
  outermost : ∀ b inner, q.keptBuckets = b :: inner → ∀ key, key ∈ aggKeys body [] ↔ key = b.id
  /-- All but the last hold the next one and the metric that they are ordered by. -/
  between : ∀ outer b next inner, q.keptBuckets = outer ++ b :: next :: inner → ∀ key,
    key ∈ aggKeys body (outer ++ [b]) ↔
      key = next.id ∨ ∃ m, q.orderMetric? b = some m ∧ key = m.id
  /-- The last one, or the body itself, holds the requested metrics and that metric. -/
  innermost : ∀ key, key ∈ aggKeys body q.keptBuckets ↔
    (∃ m ∈ q.metrics, q.emits m ∧ key = m.id) ∨
      ∃ b ∈ q.keptBuckets.getLast?, ∃ m, q.orderMetric? b = some m ∧ key = m.id
  /-- A requested metric is written with its settings in full, also where it orders buckets. -/
  metrics : ∀ m ∈ q.metrics, q.emits m → ∃ settings written,
    Metric.sentSettings m.kind m.settings = .ok settings ∧
      Metric.SentAs m.kind m.settings settings ∧
      WritesOver (q.metricSource m) settings written ∧
      body.path (levelPath q.keptBuckets ++ ["aggs", m.id]) = .obj [(m.kind.name, .obj written)]

namespace SearchRequest

theorem areConcrete_append (as bs : List Aggregation) :
    Aggregation.areConcrete (as ++ bs) =
      (Aggregation.areConcrete as && Aggregation.areConcrete bs) := by
  induction as with
  | nil => rfl
  | cons agg rest ih =>
    rw [List.cons_append, Aggregation.areConcrete, Aggregation.areConcrete, ih, Bool.and_assoc]

theorem isConcrete_addChildren {n : Aggregation} {more : List Aggregation}
    (hn : n.isConcrete = true) (hmore : Aggregation.areConcrete more = true) :
    (n.addChildren more).isConcrete = true := by
  obtain ⟨key, body, children⟩ := n
  unfold Aggregation.isConcrete at hn
  unfold Aggregation.addChildren Aggregation.isConcrete
  rw [Bool.and_eq_true] at hn
  rw [areConcrete_append, hn.1, hn.2, hmore]
  rfl

theorem areConcrete_leaves {q : Query} {ms : List Metric} {leaves : List Aggregation}
    (h : List.Forall₂ q.MetricNode ms leaves) : Aggregation.areConcrete leaves = true := by
  induction h with
  | nil => rfl
  | cons hm _ ih =>
    obtain ⟨settings, -, rfl⟩ := hm
    rw [Aggregation.areConcrete, q.metricBody_concrete, ih]
    rfl

theorem areConcrete_nest {q : Query} {levels : List BucketAgg} {nodes leaves : List Aggregation}
    (hnodes : List.Forall₂ (BucketNode q) levels nodes)
    (hleaves : Aggregation.areConcrete leaves = true) :
    Aggregation.areConcrete (nest nodes leaves) = true := by
  induction hnodes with
  | nil => exact hleaves
  | cons hn _ ih =>
    rw [nest, Aggregation.areConcrete, isConcrete_addChildren hn.concrete ih]
    rfl

theorem liftFault_eq_ok_iff {α : Type} {x : Except Fault α} {a : α} :
    liftFault x = .ok a ↔ x = .ok a := by
  cases x <;> simp [liftFault]

/-- The trees of a query are what is built for its bucket aggregations, one inside the next, around
its metric nodes. -/
theorem aggregationsOf_eq_nest {q : Query} {target : Target} {aggs : List Aggregation}
    (h : aggregationsOf q target = .ok aggs) : ∃ nodes leaves, aggs = nest nodes leaves ∧
      List.Forall₂ (BuiltNode q target) q.keptBuckets nodes ∧
      List.Forall₂ q.MetricNode q.requestedMetrics leaves := by
  rw [aggregationsOf] at h
  obtain ⟨levels, hlevels, h⟩ := Traversal.bind_eq_ok_iff.mp h
  obtain ⟨metrics, hmetrics, h⟩ := Traversal.bind_eq_ok_iff.mp h
  cases h
  refine ⟨_, _, rfl, Traversal.forall₂_filter ?_, Traversal.forall₂_filter ?_⟩
  · exact (Traversal.mapM_eq_ok_iff.mp hlevels).imp fun b o hb => builtNode_of_node_eq_ok hb
  · refine (Traversal.mapM_eq_ok_iff.mp (liftFault_eq_ok_iff.mp hmetrics)).imp fun m o hm => ?_
    simpa using Query.metricNode_eq_ok hm

theorem aggregationsOf_eq_ok {q : Query} {target : Target} {aggs : List Aggregation}
    (h : aggregationsOf q target = .ok aggs) :
    ∃ nodes leaves, aggs = nest nodes leaves ∧ List.Forall₂ (BucketNode q) q.keptBuckets nodes ∧
      List.Forall₂ q.MetricNode q.requestedMetrics leaves := by
  obtain ⟨nodes, leaves, haggs, hnodes, hleaves⟩ := aggregationsOf_eq_nest h
  exact ⟨nodes, leaves, haggs, hnodes.imp fun _ _ hn => hn.toBucketNode, hleaves⟩

theorem addTimeRange_eq_ok {r r' : SearchRequest} {field : String} {fromMs toMs : Int}
    (h : r.addTimeRange field fromMs toMs = .ok r') : ∃ filters, r' = { r with filters } := by
  obtain ⟨first, -, h⟩ := Traversal.bind_eq_ok_iff.mp h
  obtain ⟨last, -, h⟩ := Traversal.bind_eq_ok_iff.mp h
  cases h
  exact ⟨_, rfl⟩

theorem addQueryString_eq (r : SearchRequest) (query : String) :
    ∃ filters, r.addQueryString query = { r with filters } := by
  unfold addQueryString
  split
  · exact ⟨r.filters, rfl⟩
  · exact ⟨_, rfl⟩

/-- A built request is one without trees, order and sort values, finished by what the query asks
for. -/
theorem exists_start_of_ofQuery {target : Target} {q : Query} {r : SearchRequest}
    (h : ofQuery target q = .ok r) : ∃ start : SearchRequest, start.aggs = [] ∧
      start.sort = [] ∧ start.searchAfter = none ∧
      match q.shape with
      | .logs => r = start.forLogs q target.timeField
      | .rawData | .rawDocument => r = start.forDocuments q target.timeField
      | .aggregation => ∃ aggs, aggregationsOf q target = .ok aggs ∧ r = { start with aggs } := by
  obtain ⟨dated, hdated, h⟩ := Traversal.bind_eq_ok_iff.mp h
  obtain ⟨_, rfl⟩ := addTimeRange_eq_ok (liftFault_eq_ok_iff.mp hdated)
  generalize hstart : addQueryString _ q.rawQuery = start at h
  obtain ⟨_, hfilters⟩ := addQueryString_eq _ q.rawQuery
  rw [hstart] at hfilters
  refine ⟨start, by rw [hfilters], by rw [hfilters], by rw [hfilters], ?_⟩
  cases hshape : q.shape with
  | aggregation =>
    simp only [hshape] at h
    obtain ⟨aggs, haggs, h⟩ := Traversal.bind_eq_ok_iff.mp h
    cases h
    exact ⟨aggs, haggs, rfl⟩
  | _ =>
    simp only [hshape] at h
    cases h
    rfl

theorem ofQuery_eq_ok {target : Target} {q : Query} {r : SearchRequest}
    (hshape : q.shape = .aggregation) (h : ofQuery target q = .ok r) :
    aggregationsOf q target = .ok r.aggs ∧ r.searchAfter = none := by
  obtain ⟨start, -, -, hafter, hr⟩ := exists_start_of_ofQuery h
  rw [hshape] at hr
  obtain ⟨aggs, haggs, rfl⟩ := hr
  exact ⟨haggs, hafter⟩

/-- An aggregation query that builds has a body, whose trees are what is built for the query. -/
theorem body_eq_nest {target : Target} {q : Query} {r : SearchRequest}
    (hshape : q.shape = .aggregation) (h : ofQuery target q = .ok r) :
    ∃ nodes leaves, r.body = .ok (.obj r.members) ∧
      HoldsTrees (.obj r.members) (nest nodes leaves) ∧
      List.Forall₂ (BuiltNode q target) q.keptBuckets nodes ∧
      List.Forall₂ q.MetricNode q.requestedMetrics leaves := by
  obtain ⟨haggs, hafter⟩ := ofQuery_eq_ok hshape h
  obtain ⟨nodes, leaves, htrees, hnodes, hleaves⟩ := aggregationsOf_eq_nest haggs
  have hbuckets := hnodes.imp fun _ _ hn => hn.toBucketNode
  have hconcrete := areConcrete_nest hbuckets (areConcrete_leaves hleaves)
  refine ⟨nodes, leaves, ?_, ⟨_, rfl, ?_⟩, hnodes, hleaves⟩
  · rw [body, htrees, hconcrete, hafter]
    rfl
  · rw [aggs_members, htrees]

theorem body_eq_ok {target : Target} {q : Query} {r : SearchRequest}
    (hshape : q.shape = .aggregation) (h : ofQuery target q = .ok r) :
    ∃ nodes leaves, r.body = .ok (.obj r.members) ∧
      HoldsTrees (.obj r.members) (nest nodes leaves) ∧
      List.Forall₂ (BucketNode q) q.keptBuckets nodes ∧
      List.Forall₂ q.MetricNode q.requestedMetrics leaves := by
  obtain ⟨nodes, leaves, hbody, htrees, hnodes, hleaves⟩ := body_eq_nest hshape h
  exact ⟨nodes, leaves, hbody, htrees, hnodes.imp fun _ _ hn => hn.toBucketNode, hleaves⟩

end SearchRequest

section Leaves

variable {q : Query} {ms : List Metric} {leaves : List Aggregation}

theorem keys_leaves (h : List.Forall₂ q.MetricNode ms leaves) :
    leaves.map (·.key) = ms.map (·.id) := by
  induction h with
  | nil => rfl
  | cons hm _ ih =>
    obtain ⟨settings, -, rfl⟩ := hm
    rw [List.map_cons, List.map_cons, ih]
    rfl

theorem exists_leaf_iff (h : List.Forall₂ q.MetricNode ms leaves) (key : String) :
    (∃ agg ∈ leaves, agg.key = key) ↔ ∃ m ∈ ms, m.id = key := by
  rw [← List.mem_map, keys_leaves h, List.mem_map]

/-- A metric with an id of its own is the last sibling with that id, whatever stands before the
metrics. -/
theorem find?_leaf (h : List.Forall₂ q.MetricNode ms leaves) (hids : (ms.map (·.id)).Nodup)
    {m : Metric} (hm : m ∈ ms) (before : List Aggregation) :
    ∃ n, q.MetricNode m n ∧ (before ++ leaves).reverse.find? (·.key == m.id) = some n := by
  have hkeys : (leaves.map (·.key)).Nodup := by
    rwa [keys_leaves h]
  obtain ⟨n, hn, settings, hs, rfl⟩ := Traversal.exists_mem_of_forall₂ h hm
  refine ⟨_, ⟨settings, hs, rfl⟩, ?_⟩
  exact Aggregation.isWritten_append_iff.mpr (.inl ((Aggregation.isWritten_iff_mem hkeys).mpr hn))

end Leaves

/-- The members of a node are its body under its type, and at most `aggs` besides. -/
theorem Aggregation.mem_keys_members {agg : Aggregation} {key : String}
    (h : key ∈ Entries.keys agg.members) : key = agg.body.typeName ∨ key = "aggs" := by
  obtain ⟨k, body, children⟩ := agg
  change key = body.typeName ∨ key = "aggs"
  cases children with
  | nil =>
    rw [members, Entries.keys_cons] at h
    exact .inl (by simpa using h)
  | cons child rest =>
    rw [members, Entries.mem_keys_put, Entries.keys_cons] at h
    simpa [or_comm] using h

section Assembly

variable {q : Query} {target : Target} {body : Json} {nodes leaves : List Aggregation}

structure Holds (q : Query) (target : Target) (body : Json) (nodes leaves : List Aggregation) :
    Prop where
  trees : HoldsTrees body (nest nodes leaves)
  levels : List.Forall₂ (BuiltNode q target) q.keptBuckets nodes
  metrics : List.Forall₂ q.MetricNode q.requestedMetrics leaves

variable (h : Holds q target body nodes leaves)
include h

theorem Holds.level {outer inner : List BucketAgg} (hlevels : q.keptBuckets = outer ++ inner) :
    ∃ below, List.Forall₂ (BuiltNode q target) inner below ∧
      HoldsTrees (body.path (levelPath outer)) (q.nodesBefore [] outer ++ nest below leaves) := by
  have hkept : ∀ b ∈ outer ++ inner, b.isKept = true := by
    intro b hb
    rw [← hlevels] at hb
    exact (List.mem_filter.mp hb).2
  have htrees : HoldsTrees body ([] ++ nest nodes leaves) := h.trees
  exact holdsTrees_level (fun _ _ hn => hn.toBucketNode) (hlevels ▸ h.levels) hkept htrees

/-- Inside all but the last level stands one more node, which is that of the next level. -/
theorem Holds.next {outer inner : List BucketAgg} {b : BucketAgg}
    (hlevels : q.keptBuckets = outer ++ b :: inner) :
    ∃ n rest, BuiltNode q target b n ∧ HoldsTrees (body.path (levelPath outer))
      (q.nodesBefore [] outer ++ [n.addChildren rest]) := by
  obtain ⟨below, hbelow, hholds⟩ := h.level hlevels
  obtain ⟨n, rest, hn, -, rfl⟩ := List.forall₂_cons_left_iff.mp hbelow
  exact ⟨n, _, hn, hholds⟩

theorem Holds.mem_aggKeys_iff {outer inner : List BucketAgg} {b : BucketAgg}
    (hlevels : q.keptBuckets = outer ++ b :: inner) (key : String) :
    key ∈ aggKeys body outer ↔
      key = b.id ∨ ∃ c ∈ outer.getLast?, ∃ m, q.orderMetric? c = some m ∧ key = m.id := by
  obtain ⟨n, rest, hn, hholds⟩ := h.next hlevels
  rw [PanelSearch.mem_aggKeys_iff hholds]
  simp [hn.key, eq_comm]

theorem Holds.reaches {outer inner : List BucketAgg} {b : BucketAgg}
    (hlevels : q.keptBuckets = outer ++ b :: inner) :
    ∃ node, body.path (levelPath (outer ++ [b])) = .obj node ∧
      Entries.get? node b.kind.name = some (.obj (b.sentMembers q target)) ∧
      ∀ key ∈ Entries.keys node, key = b.kind.name ∨ key = "aggs" := by
  obtain ⟨n, rest, hn, hholds⟩ := h.next hlevels
  have hb := Query.isKept_of_keptBuckets hlevels
  have htype : (n.addChildren rest).body.typeName = b.kind.name := by
    rw [Aggregation.body_addChildren, hn.type]
  have hmembers := hn.get?_members hb rest
  rw [BucketAgg.members_of_built hn.built] at hmembers
  refine ⟨(n.addChildren rest).members, ?_, hmembers, fun key hk => ?_⟩
  · have hpath := hholds.path_last
    rw [Aggregation.key_addChildren, hn.key, ← Json.path_append] at hpath
    simpa [levelPath] using hpath
  · rw [← htype]
    exact Aggregation.mem_keys_members hk

theorem Holds.innermost (key : String) : key ∈ aggKeys body q.keptBuckets ↔
    (∃ m ∈ q.metrics, q.emits m ∧ key = m.id) ∨
      ∃ b ∈ q.keptBuckets.getLast?, ∃ m, q.orderMetric? b = some m ∧ key = m.id := by
  obtain ⟨below, hbelow, hholds⟩ := h.level (List.append_nil _).symm
  cases hbelow
  rw [PanelSearch.mem_aggKeys_iff hholds, nest, exists_leaf_iff h.metrics]
  simp [Query.requestedMetrics, and_assoc, eq_comm]

theorem Holds.metricJson (hids : q.DistinctIds) {m : Metric} (hm : m ∈ q.metrics)
    (he : q.emits m) : ∃ settings written, Metric.sentSettings m.kind m.settings = .ok settings ∧
      Metric.SentAs m.kind m.settings settings ∧
      WritesOver (q.metricSource m) settings written ∧
      body.path (levelPath q.keptBuckets ++ ["aggs", m.id]) =
        .obj [(m.kind.name, .obj written)] := by
  obtain ⟨below, hbelow, hholds⟩ := h.level (List.append_nil _).symm
  cases hbelow
  have hmem : m ∈ q.requestedMetrics := List.mem_filter.mpr ⟨hm, by simpa using he⟩
  have hnodup : (q.requestedMetrics.map (·.id)).Nodup :=
    hids.metrics.sublist (List.filter_sublist.map _)
  obtain ⟨n, ⟨settings, hs, rfl⟩, hfind⟩ :=
    find?_leaf h.metrics hnodup hmem (q.nodesBefore [] q.keptBuckets)
  have hover := writesOver_putAll (q.nodup_keys_metricSource m) settings
  refine ⟨settings, _, hs, Metric.sentAs_of_sentSettings hs, hover, ?_⟩
  rw [Json.path_append, ← Query.members_metricBody hids he, ← q.typeName_metricBody m settings,
    ← Aggregation.members_leaf m.id]
  refine hholds.path_eq ?_
  rw [nest, Aggregation.get?_siblingsJson, hfind, Option.map_some]

end Assembly

/-- An aggregation query that builds has a body of its shape. -/
theorem body_hasShape {target : Target} {q : Query} {r : SearchRequest} (hids : q.DistinctIds)
    (hshape : q.shape = .aggregation) (hbuild : SearchRequest.ofQuery target q = .ok r) :
    ∃ body, r.body = .ok body ∧ HasShape q target body := by
  obtain ⟨nodes, leaves, hbody, htrees, hlevels, hmetrics⟩ :=
    SearchRequest.body_eq_nest hshape hbuild
  have h : Holds q target (.obj r.members) nodes leaves := ⟨htrees, hlevels, hmetrics⟩
  refine ⟨_, hbody, ?_, ?_, ?_, h.innermost, fun m hm he => h.metricJson hids hm he⟩
  · intro outer b inner hkept
    exact h.reaches hkept
  · intro b inner hkept key
    have hlevels : q.keptBuckets = [] ++ b :: inner := hkept
    rw [h.mem_aggKeys_iff hlevels]
    simp
  · intro outer b next inner hkept key
    have hlevels : q.keptBuckets = (outer ++ [b]) ++ next :: inner := by rw [hkept]; simp
    rw [h.mem_aggKeys_iff hlevels]
    simp

/-- A query over terms that are ordered by a metric, filters without a filter, and time. -/
def latencyByService : Query where
  refId := "A"
  rawQuery := "status:error"
  buckets := [
    { id := "3", kind := .terms, field := "service", settings := [("orderBy", .str "1")] },
    { id := "4", kind := .filters, field := "", settings := [("filters", .arr [])] },
    { id := "2", kind := .dateHistogram, field := "timestamp", settings := [] }]
  metrics := [
    { id := "1", kind := .avg, field := "latency", hide := false, source := "", inputs := [],
      settings := [("missing", .int 0)], flags := [] },
    { id := "5", kind := .count, field := "", hide := false, source := "", inputs := [],
      settings := [], flags := [] }]
  aliasPattern := ""
  intervalMs := 1000
  maxDataPoints := 100
  rangeFrom := 0
  rangeTo := 60000

theorem latencyByService_hasShape : latencyByService.DistinctIds ∧
    latencyByService.shape = .aggregation ∧
    ∃ r body, SearchRequest.ofQuery ⟨"timestamp", "logs", 3⟩ latencyByService = .ok r ∧
      r.body = .ok body ∧ HasShape latencyByService ⟨"timestamp", "logs", 3⟩ body := by
  have hids : latencyByService.DistinctIds := by decide
  obtain ⟨r, hbuild⟩ : ∃ r, SearchRequest.ofQuery ⟨"timestamp", "logs", 3⟩ latencyByService =
    .ok r := ⟨_, rfl⟩
  obtain ⟨body, hbody, hshape⟩ := body_hasShape hids rfl hbuild
  exact ⟨hids, rfl, r, body, hbuild, hbody, hshape⟩

end PanelSearch
