import PanelSearch.Proofs.Query.MetricSettings
import PanelSearch.Proofs.Request.Building
import PanelSearch.Proofs.Request.Dangling

/-! What the pipeline metrics of a query refer to. A reference is followed when some metric has its
id, be that metric requested or not, so a path may lead to what is not there. -/

namespace PanelSearch

open Json (member)
open SearchRequest (nest)
open Traversal

namespace Metric

/-- The metrics that a pipeline metric is computed from, by their ids. -/
def references (m : Metric) : List String :=
  if m.kind.hasVariables then m.inputs.map (·.2) else [m.reference]

end Metric

namespace Query

variable {q : Query}

theorem findMetric?_eq_some_iff (hids : q.DistinctIds) {id : String} {m : Metric} :
    q.findMetric? id = some m ↔ m ∈ q.metrics ∧ m.id = id :=
  find?_key_eq_some_iff hids.metrics

/-- The paths that the references of a metric resolve to. -/
theorem mem_paths_iff (hids : q.DistinctIds) {m : Metric} {path : String} :
    path ∈ m.references.filterMap q.resolvePath? ↔ ∃ t ∈ q.metrics, t.id ∈ m.references ∧
      Text.isDigits t.id.toList = true ∧
      path = if t.kind = .count then "_count" else t.id := by
  simp only [List.mem_filterMap, resolvePath?]
  constructor
  · rintro ⟨reference, href, h⟩
    split at h
    · rename_i hdigits
      obtain ⟨t, ht, rfl⟩ := Option.map_eq_some_iff.mp h
      obtain ⟨hmem, rfl⟩ := (findMetric?_eq_some_iff hids).mp ht
      exact ⟨t, hmem, href, hdigits, rfl⟩
    · cases h
  · rintro ⟨t, hmem, href, hdigits, rfl⟩
    refine ⟨t.id, href, ?_⟩
    rw [if_pos hdigits, (findMetric?_eq_some_iff hids).mpr ⟨hmem, rfl⟩]
    rfl

/-- Every metric that a requested pipeline metric is computed from is a count or requested
itself. -/
def Connected (q : Query) : Prop :=
  ∀ m ∈ q.metrics, q.emits m → m.kind.isPipeline = true → ∀ t ∈ q.metrics, t.id ∈ m.references →
    Text.isDigits t.id.toList = true → t.kind = .count ∨ q.emits t

instance (q : Query) : Decidable q.Connected :=
  inferInstanceAs (Decidable (∀ m ∈ q.metrics, q.emits m → m.kind.isPipeline = true →
    ∀ t ∈ q.metrics, t.id ∈ m.references → Text.isDigits t.id.toList = true →
      t.kind = .count ∨ q.emits t))

/-- A pipeline metric orders the last of some bucket aggregations only, and if it is requested. -/
def OrdersLast (q : Query) (levels : List BucketAgg) : Prop :=
  ∀ outer b inner, levels = outer ++ b :: inner → ∀ m, q.orderMetric? b = some m →
    m.kind.isPipeline = true → inner = [] ∧ q.emits m

theorem ordersLast_nil : q.OrdersLast [] := by
  intro outer b inner hsplit
  simp at hsplit

theorem ordersLast_cons_iff {b : BucketAgg} {levels : List BucketAgg} :
    q.OrdersLast (b :: levels) ↔ (∀ m, q.orderMetric? b = some m → m.kind.isPipeline = true →
      levels = [] ∧ q.emits m) ∧ q.OrdersLast levels := by
  constructor
  · intro h
    refine ⟨h [] b levels rfl, fun outer c inner hsplit => h (b :: outer) c inner ?_⟩
    rw [hsplit, List.cons_append]
  · rintro ⟨hfirst, hrest⟩ outer c inner hsplit
    cases outer with
    | nil =>
      cases hsplit
      exact hfirst
    | cons _ outer =>
      cases hsplit
      exact hrest outer c inner rfl

theorem map_variablePaths (m : Metric) :
    (q.variablePaths m).map (·.2) = (m.inputs.map (·.2)).filterMap q.resolvePath? := by
  rw [variablePaths, List.map_filterMap, List.filterMap_map]
  refine List.filterMap_congr fun v _ => ?_
  cases hpath : q.resolvePath? v.2 <;> simp [hpath]

/-- What is sent of a pipeline metric leads on when all its references do that resolve. -/
theorem pathsLead_metricBody {siblings : List String} {m : Metric} {settings : Entries Json}
    (he : q.emits m) (hp : m.kind.isPipeline = true)
    (hpath : "buckets_path" ∉ Entries.keys settings) :
    PathsLead siblings (member (q.metricBody m settings).members "buckets_path") ↔
      ∀ path ∈ m.references.filterMap q.resolvePath?, LeadsTo siblings path := by
  have hsettings : Entries.get? settings.reverse "buckets_path" = none :=
    Entries.get?_of_not_mem_keys (by simpa [Entries.keys] using hpath)
  have hmember : ∀ path, member (AggBody.pipeline m.kind.name path settings).members
      "buckets_path" = AggBody.pathJson path := by
    intro path
    rw [AggBody.members, member, Entries.get?_putAll, hsettings]
    rfl
  unfold metricBody Metric.references
  rw [if_pos hp, hmember]
  cases hv : m.kind.hasVariables with
  | true =>
    simp only [if_true]
    rw [pathsLead_named, map_variablePaths]
  | false =>
    simp only [Bool.false_eq_true, if_false]
    rw [pathsLead_single ((emits_iff_of_reference he.1 hp hv).mp he)]
    simp only [List.mem_filterMap, List.mem_singleton, exists_eq_left, Option.mem_def]

end Query

/-- What a query is that was read, but for clashes of ids and paths among the settings. -/
structure Query.WellFormed (q : Query) : Prop where
  ids : q.DistinctIds
  kinds : ∀ m ∈ q.metrics, ∃ name, m.kind = .ofName name
  settings : ∀ m ∈ q.metrics, "buckets_path" ∉ Entries.keys m.settings

theorem Query.wellFormed_of_read {q : Query} {rangeFrom rangeTo : Int} {raw : Json}
    (h : read rangeFrom rangeTo raw = .ok q) (hids : q.DistinctIds)
    (hsettings : ∀ m ∈ q.metrics, "buckets_path" ∉ Entries.keys m.settings) : q.WellFormed :=
  ⟨hids, exists_ofName_of_read h, hsettings⟩

/-- A metric of a type with the name `aggs` is written in the place of children, so its settings are
to hold no node with a dangling path. -/
def Query.SettingsLead (q : Query) : Prop :=
  ∀ m ∈ q.metrics, m.kind = .other "aggs" →
    NoDangling (.obj [("aggs", .obj (AggBody.metric "aggs" m.field m.settings).members)])

theorem leaf_of_aggs {q : Query} {m : Metric} {settings : Entries Json} (key : String)
    (hkind : m.kind = .other "aggs")
    (hsent : Metric.sentSettings m.kind m.settings = .ok settings) :
    (Aggregation.node key (q.metricBody m settings) []).members =
      [("aggs", .obj (AggBody.metric "aggs" m.field m.settings).members)] := by
  have hsame : m.settings = settings := by
    rw [hkind] at hsent
    exact Except.ok.inj hsent
  have hbody : q.metricBody m settings = .metric "aggs" m.field m.settings := by
    simp [Query.metricBody, hkind, hsame, MetricKind.isPipeline, MetricKind.name]
  rw [hbody, Aggregation.members_leaf]
  rfl

theorem MetricKind.eq_other_of_name {kind : MetricKind} (h : kind.name = "aggs") :
    kind = .other "aggs" := by
  cases kind <;> simp_all [MetricKind.name]

section Assembly

variable {q : Query} (hq : q.WellFormed)
include hq

theorem Query.WellFormed.name_mem_pipelineTypes_iff {m : Metric} (hm : m ∈ q.metrics) :
    m.kind.name ∈ pipelineTypes ↔ m.kind.isPipeline = true := by
  obtain ⟨name, hname⟩ := hq.kinds m hm
  rw [hname]
  exact MetricKind.name_mem_pipelineTypes_iff name

theorem pathsLead_iff {siblings : List String} {m : Metric}
    (hsiblings : ∀ key, key ∈ siblings ↔ ∃ t ∈ q.metrics, q.emits t ∧ t.id = key) :
    (∀ path ∈ m.references.filterMap q.resolvePath?, LeadsTo siblings path) ↔
      ∀ t ∈ q.metrics, t.id ∈ m.references → Text.isDigits t.id.toList = true →
        t.kind = .count ∨ q.emits t := by
  simp only [Query.mem_paths_iff hq.ids]
  constructor
  · intro h t ht href hdigits
    by_cases hcount : t.kind = .count
    · exact .inl hcount
    · rcases h t.id ⟨t, ht, href, hdigits, (if_neg hcount).symm⟩ with hid | hid
      · rw [hid] at hdigits
        exact absurd hdigits (by decide)
      · obtain ⟨u, hu, hemits, hid⟩ := (hsiblings _).mp hid
        rw [← List.inj_on_of_nodup_map hq.ids.metrics hu ht hid]
        exact .inr hemits
  · rintro h path ⟨t, ht, href, hdigits, rfl⟩
    by_cases hcount : t.kind = .count
    · exact .inl (if_pos hcount)
    · rw [if_neg hcount]
      exact .inr ((hsiblings _).mpr ⟨t, ht, (h t ht href hdigits).resolve_left hcount, rfl⟩)

theorem nodeLeads_metric_iff {siblings : List String} {m : Metric} {settings : Entries Json}
    (hsiblings : ∀ key, key ∈ siblings ↔ ∃ t ∈ q.metrics, q.emits t ∧ t.id = key)
    (hm : m ∈ q.metrics) (he : q.emits m)
    (hsent : Metric.sentSettings m.kind m.settings = .ok settings) :
    NodeLeads siblings (.obj (Aggregation.node m.id (q.metricBody m settings) []).members) ↔
      (m.kind.isPipeline = true → ∀ t ∈ q.metrics, t.id ∈ m.references →
        Text.isDigits t.id.toList = true → t.kind = .count ∨ q.emits t) := by
  rw [nodeLeads_leaf, q.typeName_metricBody, hq.name_mem_pipelineTypes_iff hm]
  refine imp_congr_right fun hp => ?_
  have hpath := hq.settings m hm
  rw [← Metric.keys_sentSettings hsent] at hpath
  rw [Query.pathsLead_metricBody he hp hpath, pathsLead_iff hq hsiblings]

/-- The requested metrics lead on when what they are computed from is a count or requested. -/
theorem leaves_lead_iff {siblings : List String} {leaves : List Aggregation}
    (hsiblings : ∀ key, key ∈ siblings ↔ ∃ t ∈ q.metrics, q.emits t ∧ t.id = key)
    (hleaves : List.Forall₂ q.MetricNode q.requestedMetrics leaves) :
    (∀ n ∈ leaves, NodeLeads siblings (.obj n.members) ∧ NoDangling (.obj n.members)) ↔
      q.Connected ∧ q.SettingsLead := by
  constructor
  · intro h
    have hmetric : ∀ m ∈ q.metrics, q.emits m → ∃ settings,
        Metric.sentSettings m.kind m.settings = .ok settings ∧
        .node m.id (q.metricBody m settings) [] ∈ leaves := by
      intro m hm he
      obtain ⟨n, hn, settings, hsent, rfl⟩ :=
        exists_mem_of_forall₂ hleaves (List.mem_filter.mpr ⟨hm, by simpa using he⟩)
      exact ⟨settings, hsent, hn⟩
    constructor
    · intro m hm he
      obtain ⟨settings, hsent, hn⟩ := hmetric m hm he
      exact (nodeLeads_metric_iff hq hsiblings hm he hsent).mp (h _ hn).1
    · intro m hm hkind
      have he : q.emits m := by
        apply Query.emits_of_plain <;> simp [hkind, MetricKind.isPipeline]
      obtain ⟨settings, hsent, hn⟩ := hmetric m hm he
      rw [← leaf_of_aggs m.id hkind hsent]
      exact (h _ hn).2
  · rintro ⟨hconnected, hsettings⟩ n hn
    obtain ⟨m, hm, settings, hsent, rfl⟩ :=
      exists_mem_of_forall₂ (R := fun n m => q.MetricNode m n) hleaves.flip hn
    obtain ⟨hm, he⟩ := List.mem_filter.mp hm
    have he : q.emits m := by simpa using he
    refine ⟨(nodeLeads_metric_iff hq hsiblings hm he hsent).mpr (hconnected m hm he), ?_⟩
    by_cases htype : m.kind.name = "aggs"
    · have hkind := MetricKind.eq_other_of_name htype
      rw [leaf_of_aggs m.id hkind hsent]
      exact hsettings m hm hkind
    · refine noDangling_leaf ?_
      rwa [q.typeName_metricBody]

variable {own : Option Metric} {leaves : List Aggregation} {j : Json}

theorem exists_leaf_iff_emits (hleaves : List.Forall₂ q.MetricNode q.requestedMetrics leaves)
    {m : Metric} (hm : m ∈ q.metrics) : (∃ n ∈ leaves, n.key = m.id) ↔ q.emits m := by
  rw [exists_leaf_iff hleaves]
  simp only [Query.requestedMetrics, List.mem_filter, decide_eq_true_eq]
  constructor
  · rintro ⟨t, ⟨ht, he⟩, hid⟩
    rwa [← List.inj_on_of_nodup_map hq.ids.metrics ht hm hid]
  · intro he
    exact ⟨m, ⟨hm, he⟩, rfl⟩

/-- At the innermost level a metric that orders buckets is written only if it is not requested. -/
theorem noDangling_innermost (hown : ∀ m ∈ own, m ∈ q.metrics ∧ m.kind ≠ .count)
    (hleaves : List.Forall₂ q.MetricNode q.requestedMetrics leaves)
    (hj : HoldsTrees j (own.toList.map orderNode ++ leaves)) :
    NoDangling j ↔ (∀ m ∈ own, m.kind.isPipeline = true → q.emits m) ∧
      q.Connected ∧ q.SettingsLead := by
  have hkeys : (leaves.map (·.key)).Nodup := by
    rw [keys_leaves hleaves]
    exact hq.ids.metrics.sublist (List.filter_sublist.map _)
  rw [hj.noDangling_iff_of_order (fun m hm => hq.name_mem_pipelineTypes_iff (hown m hm).1) hkeys]
  have horder : (∀ m ∈ own, (∀ n ∈ leaves, n.key ≠ m.id) → m.kind.isPipeline = false) ↔
      ∀ m ∈ own, m.kind.isPipeline = true → q.emits m := by
    refine forall₂_congr fun m hm => ?_
    have hno : (∀ n ∈ leaves, n.key ≠ m.id) ↔ ¬q.emits m := by
      rw [← exists_leaf_iff_emits hq hleaves (hown m hm).1]
      simp
    rw [hno, not_imp_comm, Bool.not_eq_false]
  rw [horder]
  refine and_congr_right fun hemits => leaves_lead_iff hq (fun key => ?_) hleaves
  have hleaf : (∃ t ∈ q.metrics, q.emits t ∧ t.id = key) ↔ ∃ n ∈ leaves, n.key = key := by
    rw [exists_leaf_iff hleaves]
    simp [Query.requestedMetrics, and_assoc]
  rw [Aggregation.mem_keys_siblingsJson, hleaf]
  simp only [List.mem_append, List.mem_map, Option.mem_toList, or_and_right, exists_or]
  refine or_iff_right_of_imp ?_
  rintro ⟨_, ⟨m, hm, rfl⟩, rfl⟩
  obtain ⟨hmem, hcount⟩ := hown m hm
  refine (exists_leaf_iff_emits hq hleaves hmem).mpr ?_
  cases hp : m.kind.isPipeline with
  | true => exact hemits m hm hp
  | false => exact Query.emits_of_plain hcount hp

theorem noDangling_nest {levels : List BucketAgg} {nodes : List Aggregation}
    (hlevels : ∀ b ∈ levels, b ∈ q.keptBuckets)
    (hown : ∀ m ∈ own, m ∈ q.metrics ∧ m.kind ≠ .count)
    (hnodes : List.Forall₂ (BucketNode q) levels nodes)
    (hleaves : List.Forall₂ q.MetricNode q.requestedMetrics leaves)
    (hj : HoldsTrees j (own.toList.map orderNode ++ nest nodes leaves)) :
    NoDangling j ↔
      ((∀ m ∈ own, m.kind.isPipeline = true → levels = [] ∧ q.emits m) ∧ q.OrdersLast levels) ∧
      q.Connected ∧ q.SettingsLead := by
  induction levels generalizing own nodes j with
  | nil =>
    cases hnodes
    rw [noDangling_innermost hq hown hleaves hj]
    simp [Query.ordersLast_nil]
  | cons b levels ih =>
    obtain ⟨n, rest, hn, hrest, rfl⟩ := List.forall₂_cons_left_iff.mp hnodes
    obtain ⟨hb, hlevels⟩ := List.forall_mem_cons.mp hlevels
    obtain ⟨hbucket, hkept⟩ := List.mem_filter.mp hb
    have hinner : HoldsTrees (.obj (n.addChildren (nest rest leaves)).members)
        ((q.orderMetric? b).toList.map orderNode ++ nest rest leaves) := by
      have hchildren := HoldsTrees.of_node (hn.typeName_ne hkept (nest rest leaves))
      rwa [Aggregation.children_addChildren, hn.children] at hchildren
    have hkey : ∀ m ∈ own, b.id ≠ m.id := by
      intro m hm
      exact (List.nodup_append.mp hq.ids).2.2 _ (List.mem_map_of_mem hbucket) _
        (List.mem_map_of_mem (hown m hm).1)
    rw [nest] at hj
    rw [hj.noDangling_iff_of_order (fun m hm => hq.name_mem_pipelineTypes_iff (hown m hm).1)
      (by simp), Query.ordersLast_cons_iff]
    simp only [List.forall_mem_singleton, Aggregation.key_addChildren, hn.key,
      nodeLeads_bucket hn hkept, true_and]
    rw [ih hlevels (fun m hm => Query.orderMetric?_mem hm) hrest hinner, ← and_assoc]
    refine and_congr_left fun _ => and_congr_left fun _ => forall₂_congr fun m hm => ?_
    simp [hkey m hm]

end Assembly

namespace SearchRequest

variable {target : Target} {q : Query} {r start : SearchRequest}

/-- No path dangles in the body for a query exactly if its pipeline metrics are computed from
metrics that are requested, and order the innermost buckets only, where they are requested. -/
theorem noDangling_body_iff (hq : q.WellFormed) (h : ofQuery target q = .ok r) :
    ∃ body, r.body = .ok body ∧ (NoDangling body ↔ (q.shape = .aggregation →
      q.OrdersLast q.keptBuckets ∧ q.Connected ∧ q.SettingsLead)) := by
  by_cases hshape : q.shape = .aggregation
  · obtain ⟨nodes, leaves, hbody, hholds, hnodes, hleaves⟩ := body_eq_ok hshape h
    refine ⟨_, hbody, ?_⟩
    have hown : ∀ m ∈ (none : Option Metric), m ∈ q.metrics ∧ m.kind ≠ .count := by simp
    rw [noDangling_nest hq (fun _ hb => hb) hown hnodes hleaves hholds]
    simp [hshape]
  · obtain ⟨body, hbody⟩ := exists_body_of_ofQuery h
    refine ⟨body, hbody, iff_of_true ?_ fun hagg => absurd hagg hshape⟩
    have hholds := holdsTrees_body hbody
    rw [aggs_of_shape_ne hshape h] at hholds
    refine hholds.noDangling_iff.mpr fun n hn => ?_
    cases hn

/-- A metric without settings that is computed from the field or metric given. -/
def bareMetric (id : String) (kind : MetricKind) (field : String) : Metric where
  id := id
  kind := kind
  field := field
  hide := false
  source := ""
  inputs := []
  settings := []
  flags := []

/-- A query over time, inside other bucket aggregations. -/
def overTime (outer : List BucketAgg) (metrics : List Metric) : Query where
  refId := "A"
  rawQuery := ""
  buckets := outer ++ [{ id := "2", kind := .dateHistogram, field := "ts", settings := [] }]
  metrics := metrics
  aliasPattern := ""
  intervalMs := 1000
  maxDataPoints := 100
  rangeFrom := 0
  rangeTo := 60000

/-- How the latency of services changes, the slowest first, and that for each request. -/
def slowdown : Query :=
  overTime [{ id := "8", kind := .terms, field := "service", settings := [("orderBy", .str "1")] }]
    [bareMetric "5" .derivative "4", bareMetric "4" .derivative "1", bareMetric "1" .avg "latency",
      { bareMetric "6" .bucketScript "" with inputs := [("slower", "5"), ("requests", "7")] },
      bareMetric "7" .count ""]

theorem slowdown_noDangling : slowdown.WellFormed ∧ slowdown.shape = .aggregation ∧
    ∃ r body, ofQuery ⟨"ts", "logs", 3⟩ slowdown = .ok r ∧ r.body = .ok body ∧
      NoDangling body := by
  have hq : slowdown.WellFormed := by
    refine ⟨by decide, ?_, by decide⟩
    simp only [slowdown, overTime, bareMetric, List.forall_mem_cons]
    exact ⟨⟨"derivative", rfl⟩, ⟨"derivative", rfl⟩, ⟨"avg", rfl⟩, ⟨"bucket_script", rfl⟩,
      ⟨"count", rfl⟩, by simp⟩
  have horders : slowdown.OrdersLast slowdown.keptBuckets := by
    change slowdown.OrdersLast slowdown.buckets
    refine Query.ordersLast_cons_iff.mpr ⟨fun m hm hp => ?_, ?_⟩
    · cases hm
      cases hp
    · refine Query.ordersLast_cons_iff.mpr ⟨fun m hm _ => ?_, Query.ordersLast_nil⟩
      cases hm
  have hsettings : slowdown.SettingsLead := by
    intro m hm hkind
    have hknown : ∀ m ∈ slowdown.metrics, m.kind ≠ .other "aggs" := by decide
    exact absurd hkind (hknown m hm)
  obtain ⟨r, hbuild⟩ : ∃ r, ofQuery ⟨"ts", "logs", 3⟩ slowdown = .ok r := ⟨_, rfl⟩
  obtain ⟨body, hbody, hiff⟩ := noDangling_body_iff hq hbuild
  exact ⟨hq, rfl, r, body, hbuild, hbody, hiff.mpr fun _ => ⟨horders, by decide, hsettings⟩⟩

/-- Services by the change of their count. The change is written for each service without its path,
before it is written for each time with it. -/
def byChange : Query :=
  overTime [{ id := "8", kind := .terms, field := "service", settings := [("orderBy", .str "5")] }]
    [bareMetric "5" .derivative "7", bareMetric "7" .count ""]

/-- The second metric refers to nothing and is dropped, and the first one still refers to it. -/
def changeOfDropped : Query :=
  overTime [] [bareMetric "3" .derivative "1", bareMetric "1" .derivative "9"]

theorem paths_dangle :
    (byChange.WellFormed ∧ ∃ r body, ofQuery ⟨"ts", "logs", 3⟩ byChange = .ok r ∧
      r.body = .ok body ∧ ¬NoDangling body) ∧
    (changeOfDropped.WellFormed ∧ ∃ r body, ofQuery ⟨"ts", "logs", 3⟩ changeOfDropped = .ok r ∧
      r.body = .ok body ∧ ¬NoDangling body) := by
  constructor
  · refine ⟨⟨by decide, ?_, by decide⟩, _, _, rfl, rfl, fun hno => ?_⟩
    · simp only [byChange, overTime, bareMetric, List.forall_mem_cons]
      exact ⟨⟨"derivative", rfl⟩, ⟨"count", rfl⟩, by simp⟩
    · exact hno ["8"] "5" "derivative" (by decide) (by decide)
  · refine ⟨⟨by decide, ?_, by decide⟩, _, _, rfl, rfl, fun hno => ?_⟩
    · simp only [changeOfDropped, overTime, bareMetric, List.forall_mem_cons]
      exact ⟨⟨"derivative", rfl⟩, ⟨"derivative", rfl⟩, by simp⟩
    · rcases hno ["2"] "3" "derivative" (by decide) (by decide) with hcount | hsibling
      · exact absurd hcount (by decide)
      · exact absurd hsibling (by decide)

end SearchRequest

end PanelSearch
