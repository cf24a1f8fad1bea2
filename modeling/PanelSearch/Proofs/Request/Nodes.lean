import PanelSearch.Proofs.Request.Aggregation
import PanelSearch.Request.OfQuery

/-! Which bucket aggregations and metrics of a query have nodes in its tree, and what these nodes
are: a bucket aggregation has one unless its kind is unknown or its filters hold no object, and a
metric has one unless it is a count or none of its references resolves. -/

namespace PanelSearch

open Json (member)

/-- No two bucket aggregations or metrics of a query have the same id. -/
def Query.DistinctIds (q : Query) : Prop :=
  (q.buckets.map (·.id) ++ q.metrics.map (·.id)).Nodup

instance (q : Query) : Decidable q.DistinctIds :=
  inferInstanceAs (Decidable (List.Nodup _))

theorem Query.DistinctIds.metrics {q : Query} (h : q.DistinctIds) :
    (q.metrics.map (·.id)).Nodup :=
  (List.nodup_append.mp h).2.1

theorem Query.DistinctIds.buckets {q : Query} (h : q.DistinctIds) :
    (q.buckets.map (·.id)).Nodup :=
  (List.nodup_append.mp h).1

def AggBody.isBucket : AggBody → Bool
  | .abstract | .metric .. | .pipeline .. => false
  | _ => true

namespace BucketAgg

/-- An entry of the filters is an object. -/
def hasFilter (b : BucketAgg) : Bool :=
  ((member b.settings "filters").items?.getD []).any (·.isObject)

/-- The kind is known, and filters hold an object. -/
def isKept (b : BucketAgg) : Bool :=
  match b.kind with
  | .other _ => false
  | .filters => b.hasFilter
  | _ => true

theorem typeName_ne_aggs {b : BucketAgg} (h : b.isKept = true) : b.kind.name ≠ "aggs" := by
  unfold isKept at h
  cases hk : b.kind with
  | other name => simp [hk] at h
  | _ => simp [BucketKind.name]

/-- Reading a numeral changes no other setting. -/
theorem member_countedSettings {settings : Entries Json} {key : String}
    (h : key ≠ "min_doc_count") : member (countedSettings settings) key = member settings key := by
  unfold countedSettings
  split
  · split
    · rw [member, Entries.get?_put, if_neg h]
      rfl
    · rfl
  · rfl

theorem labelledFilter_eq_none_iff (j : Json) :
    labelledFilter j = none ↔ j.isObject = false := by
  cases j <;> simp [labelledFilter, Json.isObject]

theorem filterMap_labelledFilter_eq_nil_iff (items : List Json) :
    items.filterMap labelledFilter = [] ↔ items.any (·.isObject) = false := by
  simp [List.filterMap_eq_nil_iff, labelledFilter_eq_none_iff]

theorem ofList_isEmpty {α : Type} (pairs : List (String × α)) :
    (Entries.ofList pairs).isEmpty = pairs.isEmpty := by
  cases pairs with
  | nil => rfl
  | cons e rest =>
    have hkey : e.1 ∈ Entries.keys (Entries.ofList (e :: rest)) :=
      Entries.mem_keys_ofList.mpr (by simp)
    cases hlist : Entries.ofList (e :: rest) with
    | nil => simp [hlist] at hkey
    | cons _ _ => rfl

/-- Only an array holds filters: the characters of a text and the keys of an object are texts. -/
theorem filterMap_labelledFilter_elements {j : Json} {items : List Json}
    (h : j.elements? = some items) :
    items.filterMap labelledFilter = (j.items?.getD []).filterMap labelledFilter := by
  cases j with
  | arr _ =>
    cases h
    rfl
  | str s =>
    cases h
    refine List.filterMap_eq_nil_iff.mpr fun j hj => ?_
    obtain ⟨c, -, rfl⟩ := List.mem_map.mp hj
    rfl
  | obj members =>
    cases h
    refine List.filterMap_eq_nil_iff.mpr fun j hj => ?_
    obtain ⟨e, -, rfl⟩ := List.mem_map.mp hj
    rfl
  | _ => cases h

/-- The field of a date histogram: the time field of the index if the query names none. -/
def dateField (b : BucketAgg) (target : Target) : String :=
  if b.field.isEmpty then target.timeField else b.field

/-- A date histogram that has a node has a field, and its settings. -/
theorem dateHistogramNode_eq_node {q : Query} {target : Target} {b : BucketAgg}
    {settings : Entries Json} {n : Aggregation}
    (h : b.dateHistogramNode settings q target = .ok n) :
    n = .node b.id
      (.dateHistogram (b.dateField target) (dateInterval settings) (minDocCount settings)
        (some (q.rangeFrom, q.rangeTo)) (member settings "offset").str?
        (member settings "missing").str?
        ((member settings "timeZone").str?.filter (· != "utc"))) [] := by
  rw [dateHistogramNode] at h
  change (if (b.dateField target).isEmpty then _ else _) = _ at h
  by_cases hempty : (b.dateField target).isEmpty
  · rw [if_pos hempty] at h
    cases h
  · rw [if_neg hempty] at h
    cases h
    rfl

theorem dateHistogramNode_eq_ok {q : Query} {target : Target} {b : BucketAgg}
    {settings : Entries Json} {n : Aggregation}
    (h : b.dateHistogramNode settings q target = .ok n) :
    n.key = b.id ∧ n.body.isBucket = true ∧ n.body.typeName = "date_histogram" ∧
      n.isConcrete = true ∧ n.children = [] := by
  obtain rfl := dateHistogramNode_eq_node h
  exact ⟨rfl, rfl, rfl, rfl, rfl⟩

/-- The filters of a bucket aggregation under their labels, in order. -/
def labelledFilters (b : BucketAgg) : List (String × String) :=
  ((member b.settings "filters").items?.getD []).filterMap labelledFilter

theorem labelledFilters_isEmpty (b : BucketAgg) : b.labelledFilters.isEmpty = !b.hasFilter := by
  rw [Bool.eq_iff_iff, List.isEmpty_iff, labelledFilters, filterMap_labelledFilter_eq_nil_iff,
    Bool.not_eq_true']
  rfl

theorem filtersNode_eq_ok {b : BucketAgg} {settings : Entries Json} {o : Option Aggregation}
    (hs : member settings "filters" = member b.settings "filters")
    (h : b.filtersNode settings = .ok o) :
    o = if b.hasFilter then some (.node b.id (.filters (Entries.ofList b.labelledFilters)) [])
      else none := by
  have hnode : o = if (Entries.ofList b.labelledFilters).isEmpty then none
      else some (.node b.id (.filters (Entries.ofList b.labelledFilters)) []) := by
    rw [filtersNode, hs] at h
    unfold labelledFilters
    by_cases hg : (member b.settings "filters").isGiven
    · cases he : (member b.settings "filters").elements? with
      | none => simp [hg, he, bind, Except.bind, throw, throwThe, MonadExceptOf.throw] at h
      | some items =>
        simp only [hg, he, if_true, pure_bind] at h
        rw [← filterMap_labelledFilter_elements he]
        exact (Except.ok.inj h).symm
    · simp only [hg, Bool.false_eq_true, if_false, pure_bind] at h
      cases h
      cases hf : member b.settings "filters" with
      | arr items => simp_all [Json.isGiven, Json.items?]
      | _ => rfl
  rw [hnode, ofList_isEmpty, labelledFilters_isEmpty]
  cases b.hasFilter <;> rfl

end BucketAgg

/-- The metric that a terms aggregation is ordered by, if that is no count: the ordering begins
with its id. -/
def Query.orderMetric? (q : Query) (b : BucketAgg) : Option Metric :=
  match b.kind, member b.settings "orderBy" with
  | .terms, .str orderBy =>
    let id := BucketAgg.orderedMetric orderBy
    if id.isEmpty then none else (q.metrics.find? (·.id == id)).filter (·.kind != .count)
  | _, _ => none

theorem Query.orderMetric?_mem {q : Query} {b : BucketAgg} {m : Metric}
    (h : q.orderMetric? b = some m) : m ∈ q.metrics ∧ m.kind ≠ .count := by
  unfold orderMetric? at h
  split at h
  · simp only at h
    split at h
    · cases h
    · obtain ⟨hfind, hcount⟩ := Option.filter_eq_some_iff.mp h
      exact ⟨List.mem_of_find?_eq_some hfind, by simpa using hcount⟩
  · cases h

/-- The node of a metric that buckets are ordered by: it has no settings. -/
def orderNode (m : Metric) : Aggregation := .node m.id (.metric m.kind.name m.field []) []

/-- The nodes that a bucket aggregation brings into its buckets. -/
def Query.orderNodes (q : Query) (b : BucketAgg) : List Aggregation :=
  (q.orderMetric? b).toList.map orderNode

structure BucketNode (q : Query) (b : BucketAgg) (n : Aggregation) : Prop where
  key : n.key = b.id
  bucket : n.body.isBucket = true
  type : n.body.typeName = b.kind.name
  concrete : n.isConcrete = true
  children : n.children = q.orderNodes b

theorem termsOrder_nodes (q : Query) {b : BucketAgg} (hk : b.kind = .terms) :
    (BucketAgg.termsOrder (BucketAgg.countedSettings b.settings) q.metrics).2 =
      q.orderNodes b := by
  rw [BucketAgg.termsOrder, BucketAgg.member_countedSettings (by decide), Query.orderNodes,
    Query.orderMetric?, hk]
  cases member b.settings "orderBy" with
  | str orderBy =>
    simp only
    split
    · rfl
    · cases hm : q.metrics.find? (·.id == BucketAgg.orderedMetric orderBy) with
      | none => rfl
      | some m =>
        by_cases hc : m.kind = .count
        · simp [hc, Option.filter]
        · simp [hc, Option.filter, orderNode]
  | _ => rfl

theorem orderNodes_of_ne_terms (q : Query) {b : BucketAgg} (hk : b.kind ≠ .terms) :
    q.orderNodes b = [] := by
  unfold Query.orderNodes Query.orderMetric?
  split
  · contradiction
  · rfl

theorem orderNodes_concrete (q : Query) (b : BucketAgg) :
    Aggregation.areConcrete (q.orderNodes b) = true := by
  unfold Query.orderNodes
  cases q.orderMetric? b <;> rfl

theorem bucketNode_of_ne_terms {q : Query} {b : BucketAgg} {body : AggBody}
    (hk : b.kind ≠ .terms) (hbucket : body.isBucket = true) (htype : body.typeName = b.kind.name)
    (hconcrete : (Aggregation.node b.id body []).isConcrete = true) :
    BucketNode q b (.node b.id body []) where
  key := rfl
  bucket := hbucket
  type := htype
  concrete := hconcrete
  children := (orderNodes_of_ne_terms q hk).symm

/-- A bucket aggregation has a node when it is kept, and has none otherwise. -/
theorem node_eq_ok {q : Query} {target : Target} {b : BucketAgg} {o : Option Aggregation}
    (h : b.node q target = .ok o) :
    if b.isKept then ∃ n, o = some n ∧ BucketNode q b n else o = none := by
  unfold BucketAgg.isKept
  unfold BucketAgg.node at h
  cases hk : b.kind with
  | dateHistogram =>
    simp only [hk] at h
    obtain ⟨n, hn, rfl⟩ := Traversal.map_eq_ok_iff.mp h
    obtain ⟨hkey, hbucket, htype, hconcrete, hchildren⟩ := BucketAgg.dateHistogramNode_eq_ok hn
    refine ⟨n, rfl, hkey, hbucket, by rw [htype, hk]; rfl, hconcrete, ?_⟩
    rw [hchildren, orderNodes_of_ne_terms q (by simp [hk])]
  | terms =>
    simp only [hk] at h
    cases h
    refine ⟨_, rfl, rfl, rfl, by rw [hk]; rfl, ?_, termsOrder_nodes q hk⟩
    have hc := orderNodes_concrete q b
    rw [← termsOrder_nodes q hk] at hc
    simpa [BucketAgg.termsNode, Aggregation.isConcrete] using hc
  | filters =>
    simp only [hk] at h
    obtain rfl := BucketAgg.filtersNode_eq_ok (BucketAgg.member_countedSettings (by decide)) h
    cases hf : b.hasFilter with
    | false => rfl
    | true =>
      simp only [if_true]
      exact ⟨_, rfl, bucketNode_of_ne_terms (by simp [hk]) rfl (by rw [hk]; rfl) rfl⟩
  | other name =>
    simp only [hk] at h
    cases h
    rfl
  | histogram =>
    simp only [hk] at h
    cases h
    exact ⟨_, rfl, bucketNode_of_ne_terms (by simp [hk]) rfl (by rw [hk]; rfl) rfl⟩
  | nested =>
    simp only [hk] at h
    cases h
    exact ⟨_, rfl, bucketNode_of_ne_terms (by simp [hk]) rfl (by rw [hk]; rfl) rfl⟩
  | geohashGrid =>
    simp only [hk] at h
    cases h
    exact ⟨_, rfl, bucketNode_of_ne_terms (by simp [hk]) rfl (by rw [hk]; rfl) rfl⟩

/-- The node that is built for a bucket aggregation. -/
structure BuiltNode (q : Query) (target : Target) (b : BucketAgg) (n : Aggregation) : Prop
    extends BucketNode q b n where
  built : b.node q target = .ok (some n)

theorem builtNode_of_node_eq_ok {q : Query} {target : Target} {b : BucketAgg}
    {o : Option Aggregation} (h : b.node q target = .ok o) :
    if b.isKept then ∃ n, o = some n ∧ BuiltNode q target b n else o = none := by
  have hnode := node_eq_ok h
  by_cases hkept : b.isKept = true
  · rw [if_pos hkept] at hnode ⊢
    obtain ⟨n, rfl, hn⟩ := hnode
    exact ⟨n, rfl, hn, h⟩
  · rwa [if_neg hkept] at hnode ⊢

namespace Query

/-- A reference is the id of a metric of the query, and ids are digits. -/
def resolves (q : Query) (reference : String) : Prop :=
  Text.isDigits reference.toList = true ∧ ∃ m ∈ q.metrics, m.id = reference

instance (q : Query) (reference : String) : Decidable (q.resolves reference) :=
  inferInstanceAs (Decidable (_ ∧ ∃ m ∈ q.metrics, m.id = reference))

theorem resolvePath?_isSome_iff (q : Query) (reference : String) :
    (q.resolvePath? reference).isSome ↔ q.resolves reference := by
  rw [resolvePath?, resolves]
  by_cases hd : Text.isDigits reference.toList = true
  · simp [hd, findMetric?]
  · simp [hd]

/-- A metric is requested: it is no count, and of a pipeline some reference resolves. -/
def emits (q : Query) (m : Metric) : Prop :=
  m.kind ≠ .count ∧ (m.kind.isPipeline = false ∨
    (m.kind.isPipeline = true ∧ m.kind.hasVariables = false ∧ q.resolves m.reference) ∨
    (m.kind.hasVariables = true ∧ ∃ v ∈ m.inputs, q.resolves v.2))

instance (q : Query) (m : Metric) : Decidable (q.emits m) :=
  inferInstanceAs (Decidable (_ ∧ (_ ∨ (_ ∧ _ ∧ _) ∨ (_ ∧ ∃ v ∈ m.inputs, q.resolves v.2))))

def variablePaths (q : Query) (m : Metric) : Entries String :=
  m.inputs.filterMap fun (name, reference) => (q.resolvePath? reference).map (name, ·)

theorem variablePaths_isEmpty_iff (q : Query) (m : Metric) :
    (q.variablePaths m).isEmpty = true ↔ ¬∃ v ∈ m.inputs, q.resolves v.2 := by
  simp only [variablePaths, List.isEmpty_iff, List.filterMap_eq_nil_iff, Option.map_eq_none_iff,
    ← resolvePath?_isSome_iff, not_exists, not_and, Option.not_isSome_iff_eq_none]

/-- What a metric computes, with its settings in full. -/
def metricBody (q : Query) (m : Metric) (settings : Entries Json) : AggBody :=
  if m.kind.isPipeline then
    let path := if m.kind.hasVariables then .named (q.variablePaths m)
      else .single ((q.resolvePath? m.reference).getD "")
    .pipeline m.kind.name path settings
  else .metric m.kind.name m.field settings

theorem typeName_metricBody (q : Query) (m : Metric) (settings : Entries Json) :
    (q.metricBody m settings).typeName = m.kind.name := by
  unfold metricBody
  split <;> rfl

theorem metricBody_concrete (q : Query) (m : Metric) (settings : Entries Json) (key : String) :
    (Aggregation.node key (q.metricBody m settings) []).isConcrete = true := by
  unfold metricBody
  split <;> rfl

/-- A node of a metric: it computes the metric with its settings in full, and holds no others. -/
def MetricNode (q : Query) (m : Metric) (n : Aggregation) : Prop :=
  ∃ settings, Metric.sentSettings m.kind m.settings = .ok settings ∧
    n = .node m.id (q.metricBody m settings) []

theorem isPipeline_of_hasVariables {kind : MetricKind} (h : kind.hasVariables = true) :
    kind.isPipeline = true := by
  cases kind <;> first | rfl | cases h

section Emits

variable {q : Query} {m : Metric}

theorem emits_of_plain (hc : m.kind ≠ .count) (hp : m.kind.isPipeline = false) : q.emits m :=
  ⟨hc, .inl hp⟩

theorem emits_iff_of_variables (hc : m.kind ≠ .count) (hv : m.kind.hasVariables = true) :
    q.emits m ↔ ¬(q.variablePaths m).isEmpty = true := by
  rw [variablePaths_isEmpty_iff, not_not]
  constructor
  · rintro ⟨-, h | h | h⟩
    · rw [isPipeline_of_hasVariables hv] at h
      cases h
    · rw [hv] at h
      cases h.2.1
    · exact h.2
  · intro h
    exact ⟨hc, .inr (.inr ⟨hv, h⟩)⟩

theorem emits_iff_of_reference (hc : m.kind ≠ .count) (hp : m.kind.isPipeline = true)
    (hv : m.kind.hasVariables = false) :
    q.emits m ↔ (q.resolvePath? m.reference).isSome = true := by
  rw [resolvePath?_isSome_iff]
  constructor
  · rintro ⟨-, h | h | h⟩
    · rw [hp] at h
      cases h
    · exact h.2.2
    · rw [hv] at h
      cases h.1
  · intro h
    exact ⟨hc, .inr (.inl ⟨hp, hv, h⟩)⟩

theorem metricNode_eq (q : Query) (m : Metric) : q.metricNode m =
    if q.emits m then (Metric.sentSettings m.kind m.settings).map fun settings =>
      some (.node m.id (q.metricBody m settings) [])
    else .ok none := by
  rw [metricNode]
  by_cases hc : m.kind = .count
  · have hno : ¬q.emits m := fun h => h.1 hc
    rw [if_pos hc, if_neg hno]
  rw [if_neg hc]
  cases hp : m.kind.isPipeline with
  | false =>
    rw [if_pos (emits_of_plain hc hp)]
    simp only [metricBody, hp]
    rfl
  | true =>
    cases hv : m.kind.hasVariables with
    | true =>
      have hiff := emits_iff_of_variables (q := q) hc hv
      simp only [metricBody, hp, hv]
      change (if (q.variablePaths m).isEmpty then _ else _) = _
      by_cases hpaths : (q.variablePaths m).isEmpty = true
      · rw [if_pos hpaths, if_neg (hiff.not.mpr (not_not.mpr hpaths))]
      · rw [if_neg hpaths, if_pos (hiff.mpr hpaths)]
        rfl
    | false =>
      have hiff := emits_iff_of_reference (q := q) hc hp hv
      simp only [metricBody, hp, hv]
      cases hpath : q.resolvePath? m.reference with
      | none =>
        rw [hpath] at hiff
        rw [if_neg (hiff.not.mpr (by simp))]
        rfl
      | some path =>
        rw [hpath] at hiff
        rw [if_pos (hiff.mpr rfl)]
        rfl

end Emits

/-- A metric has a node when it is requested, and has none otherwise. -/
theorem metricNode_eq_ok {q : Query} {m : Metric} {o : Option Aggregation}
    (h : q.metricNode m = .ok o) :
    if q.emits m then ∃ n, o = some n ∧ MetricNode q m n else o = none := by
  rw [metricNode_eq] at h
  by_cases hemits : q.emits m
  · rw [if_pos hemits] at h ⊢
    obtain ⟨settings, hs, rfl⟩ := Traversal.map_eq_ok_iff.mp h
    exact ⟨_, rfl, settings, hs, rfl⟩
  · rw [if_neg hemits] at h ⊢
    cases h
    rfl

end Query

end PanelSearch
