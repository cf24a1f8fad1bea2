import PanelSearch.Proofs.Query.MetricSettings
import PanelSearch.Proofs.Request.Nodes

/-! What the nodes of a query are sent with: the members of each kind of bucket aggregation, with
their values from the query, and those of a metric, over which its settings are written. -/

namespace PanelSearch

open Json (member)
open Setting

/-- Settings are written over members: a key stands where it came first, and of equal keys the last
setting counts. -/
structure WritesOver (source settings written : Entries Json) : Prop where
  keys : Entries.keys written = (Entries.keys source ++ Entries.keys settings).eraseDups
  setting : ∀ before key value after, settings = before ++ (key, value) :: after →
    key ∉ Entries.keys after → written.get? key = some value
  source : ∀ key ∉ Entries.keys settings, written.get? key = source.get? key

theorem writesOver_putAll {source : Entries Json} (h : (Entries.keys source).Nodup)
    (settings : Entries Json) : WritesOver source settings (source.putAll settings) := by
  refine ⟨Entries.keys_putAll h settings, ?_, fun key hkey => ?_⟩
  · rintro before key value after rfl hafter
    have hnone : Entries.get? after.reverse key = none :=
      Entries.get?_of_not_mem_keys (by simpa [Entries.keys] using hafter)
    rw [Entries.get?_putAll, List.reverse_append, List.reverse_cons, Entries.get?_append,
      Entries.get?_append, hnone, Entries.get?_cons, if_pos rfl]
    rfl
  · have hnone : Entries.get? settings.reverse key = none :=
      Entries.get?_of_not_mem_keys (by simpa [Entries.keys] using hkey)
    rw [Entries.get?_putAll, hnone]
    rfl

namespace BucketAgg

def direction (b : BucketAgg) : String := (member b.settings "order").str?.getD "desc"

/-- The order that a terms aggregation asks for: by a key of the buckets, by their count, or by a
metric of the query. -/
def askedOrder (q : Query) (b : BucketAgg) : Entries Json :=
  match member b.settings "orderBy" with
  | .str text =>
    if orderedMetric text = "" then [(if text = "_term" then "_key" else text, .str b.direction)]
    else
      match q.metrics.find? (·.id == orderedMetric text) with
      | none => []
      | some m => [(if m.kind = .count then "_count" else text, .str b.direction)]
  | _ => []

/-- The members that a bucket aggregation asks for, in order, and their values if it has any. -/
def asked (q : Query) (target : Target) (b : BucketAgg) : List (String × Option Json) :=
  let setting (key : String) : Json := member b.settings key
  let counted : Json := member (countedSettings b.settings) "min_doc_count"
  match b.kind with
  | .dateHistogram =>
    [("field", some (.str (b.dateField target))),
      ("fixed_interval", some (.str (dateInterval b.settings))),
      ("min_doc_count", some (.int (integer counted 0 false))),
      ("extended_bounds", some (.obj [("min", .int q.rangeFrom), ("max", .int q.rangeTo)])),
      ("offset", ((setting "offset").str?.filter (!·.isEmpty)).map .str),
      ("missing", (setting "missing").str?.map .str),
      ("time_zone", (((setting "timeZone").str?.filter (· != "utc")).filter (!·.isEmpty)).map .str)]
  | .histogram =>
    [("field", some (.str b.field)),
      ("interval", some (.int (integer (setting "interval") 1000 true))),
      ("min_doc_count", some (.int (integer counted 0 false))),
      ("missing", (whole? (setting "missing")).map .int)]
  | .terms =>
    [("field", some (.str b.field)),
      ("size", some (.int (integer (setting "size") 100 true))),
      ("shard_size", some (.int (integer (setting "shard_size") 100 true))),
      ("order", some (.obj (b.askedOrder q))),
      ("min_doc_count", (whole? counted).map .int),
      ("missing", (setting "missing").str?.map .str)]
  | .filters =>
    let queryJson (query : String) : Json :=
      .obj [("query_string", .obj [("query", .str query), ("analyze_wildcard", .bool true)])]
    [("filters", some (.obj (Entries.ofList (b.labelledFilters.map fun (label, query) =>
      (label, queryJson query)))))]
  | .nested => [("path", some (.str b.field))]
  | .geohashGrid =>
    [("field", some (.str b.field)),
      ("precision",
        some (.int ((whole? (setting "precision")).getD target.geohashPrecision)))]
  | .other _ => []

/-- The members that there are values for. -/
def present (values : List (String × Option Json)) : Entries Json :=
  values.filterMap fun (key, value) => value.map (key, ·)

theorem present_nil : present [] = [] := rfl

theorem present_cons (key : String) (value : Option Json) (values : List (String × Option Json)) :
    present ((key, value) :: values) = AggBody.optional key value ++ present values := by
  cases value <;> rfl

theorem get?_present {values : List (String × Option Json)} (hkeys : (Entries.keys values).Nodup)
    (key : String) : Entries.get? (present values) key = (Entries.get? values key).join := by
  induction values with
  | nil => rfl
  | cons e values ih =>
    obtain ⟨k, value⟩ := e
    rw [Entries.keys_cons, List.nodup_cons] at hkeys
    rw [present_cons, Entries.get?_append, Entries.get?_cons, ih hkeys.2]
    by_cases hk : k = key
    · subst hk
      rw [if_pos rfl, Entries.get?_of_not_mem_keys hkeys.1]
      cases value <;> simp [AggBody.optional, Entries.get?_cons]
    · rw [if_neg hk]
      cases value <;> simp [AggBody.optional, Entries.get?_cons, hk]

/-- The members that a bucket aggregation is sent with. -/
def sentMembers (q : Query) (target : Target) (b : BucketAgg) : Entries Json :=
  present (b.asked q target)

theorem nodup_keys_asked (q : Query) (target : Target) (b : BucketAgg) :
    (Entries.keys (b.asked q target)).Nodup := by
  unfold asked
  cases b.kind <;> simp

theorem get?_sentMembers (q : Query) (target : Target) (b : BucketAgg) (key : String) :
    (b.sentMembers q target).get? key = (Entries.get? (b.asked q target) key).join :=
  get?_present (nodup_keys_asked q target b) key

theorem orderKey_of_digits {text : String} (h : orderedMetric text ≠ "") :
    AggBody.orderKey text = text := by
  refine if_neg ?_
  rintro rfl
  exact h (by decide)

/-- The order of a terms aggregation is written as it asks for it. -/
theorem orderJson_termsOrder (q : Query) (b : BucketAgg) :
    Entries.ofList ((termsOrder (countedSettings b.settings) q.metrics).1.map
      fun e => (AggBody.orderKey e.1, Json.str e.2)) = b.askedOrder q := by
  unfold termsOrder askedOrder direction
  rw [member_countedSettings (by decide), member_countedSettings (by decide)]
  cases member b.settings "orderBy" with
  | str text =>
    simp only [String.isEmpty_iff]
    by_cases hdigits : orderedMetric text = ""
    · rw [if_pos hdigits, if_pos hdigits]
      rfl
    rw [if_neg hdigits, if_neg hdigits]
    cases q.metrics.find? (·.id == orderedMetric text) with
    | none => rfl
    | some m =>
      by_cases hcount : m.kind = .count
      · simp only [if_pos hcount]
        rfl
      · simp only [if_neg hcount, List.map_singleton, orderKey_of_digits hdigits]
        rfl
  | _ => rfl

section Built

variable {q : Query} {target : Target} {b : BucketAgg} {n : Aggregation}

theorem members_dateHistogramNode (hkind : b.kind = .dateHistogram)
    (h : b.dateHistogramNode (countedSettings b.settings) q target = .ok n) :
    n.body.members = b.sentMembers q target := by
  obtain rfl := dateHistogramNode_eq_node h
  have hinterval : dateInterval (countedSettings b.settings) = dateInterval b.settings := by
    rw [dateInterval, member_countedSettings (by decide)]
    rfl
  unfold sentMembers asked
  rw [hinterval, member_countedSettings (by decide), member_countedSettings (by decide),
    member_countedSettings (by decide)]
  simp only [hkind, present_cons, present_nil, Aggregation.body, AggBody.members,
    List.append_nil, List.append_assoc]
  rfl

theorem members_histogramNode (hkind : b.kind = .histogram) :
    (b.histogramNode (countedSettings b.settings)).body.members = b.sentMembers q target := by
  unfold sentMembers asked
  rw [histogramNode, member_countedSettings (by decide), member_countedSettings (by decide)]
  simp only [hkind, present_cons, present_nil, List.append_nil]
  rfl

theorem members_termsNode (hkind : b.kind = .terms) :
    (b.termsNode (countedSettings b.settings) q.metrics).body.members =
      b.sentMembers q target := by
  unfold sentMembers asked
  rw [termsNode, member_countedSettings (by decide : "size" ≠ "min_doc_count"),
    member_countedSettings (by decide : "shard_size" ≠ "min_doc_count"),
    member_countedSettings (by decide : "missing" ≠ "min_doc_count")]
  simp only [hkind, present_cons, present_nil, List.append_nil, ← orderJson_termsOrder,
    Aggregation.body, AggBody.members, List.append_assoc]
  rfl

theorem members_filtersNode (hkind : b.kind = .filters)
    (h : b.filtersNode (countedSettings b.settings) = .ok (some n)) :
    n.body.members = b.sentMembers q target := by
  have hnode := filtersNode_eq_ok (member_countedSettings (by decide)) h
  have hqueries := Entries.mapValues_ofList AggBody.filterJson b.labelledFilters
  unfold sentMembers asked
  split at hnode
  · cases hnode
    simp only [hkind, Aggregation.body, AggBody.members, hqueries]
    rfl
  · cases hnode

/-- What is built for a bucket aggregation is sent with the members that it asks for. -/
theorem members_of_built (h : b.node q target = .ok (some n)) :
    n.body.members = b.sentMembers q target := by
  unfold node at h
  cases hkind : b.kind with
  | dateHistogram =>
    simp only [hkind] at h
    obtain ⟨built, hbuilt, hn⟩ := Traversal.map_eq_ok_iff.mp h
    cases hn
    exact members_dateHistogramNode hkind hbuilt
  | histogram =>
    simp only [hkind] at h
    cases h
    exact members_histogramNode hkind
  | terms =>
    simp only [hkind] at h
    cases h
    exact members_termsNode hkind
  | filters =>
    simp only [hkind] at h
    exact members_filtersNode hkind h
  | nested =>
    simp only [hkind] at h
    cases h
    simp only [sentMembers, asked, hkind]
    rfl
  | geohashGrid =>
    simp only [hkind] at h
    cases h
    simp only [sentMembers, asked, hkind]
    rw [geohashNode, member_countedSettings (by decide)]
    rfl
  | other name =>
    simp only [hkind] at h
    cases h

end Built

end BucketAgg

namespace Query

/-- Where the values of a referenced metric are: a count is a statistic of every bucket. -/
def bucketsPath (q : Query) (reference : String) : String :=
  if ∃ m ∈ q.metrics, m.id = reference ∧ m.kind = .count then "_count" else reference

/-- The members that a metric has besides its settings: the paths to the metrics that a pipeline is
computed from, or the field if the query names one. -/
def metricSource (q : Query) (m : Metric) : Entries Json :=
  if m.kind.hasVariables then
    [("buckets_path", .obj ((m.inputs.filter fun (_, reference) => q.resolves reference).map
      fun (name, reference) => (name, .str (q.bucketsPath reference))))]
  else if m.kind.isPipeline then [("buckets_path", .str (q.bucketsPath m.reference))]
  else if m.field.isEmpty then []
  else [("field", .str m.field)]

theorem nodup_keys_metricSource (q : Query) (m : Metric) :
    (Entries.keys (q.metricSource m)).Nodup := by
  unfold metricSource
  split
  · simp
  · split
    · simp
    · split <;> simp

section Sources

variable {q : Query} (hids : q.DistinctIds)
include hids

/-- With distinct ids a reference is to the one metric that has it for its id. -/
theorem resolvePath?_eq (reference : String) : q.resolvePath? reference =
    if q.resolves reference then some (q.bucketsPath reference) else none := by
  by_cases hr : q.resolves reference
  · obtain ⟨hdigits, m, hm, hid⟩ := id hr
    have hfind : q.findMetric? reference = some m :=
      (Traversal.find?_key_eq_some_iff hids.metrics).mpr ⟨hm, hid⟩
    have hcount : (∃ t ∈ q.metrics, t.id = reference ∧ t.kind = .count) ↔ m.kind = .count := by
      constructor
      · rintro ⟨t, ht, htid, htkind⟩
        rwa [← List.inj_on_of_nodup_map hids.metrics ht hm (htid.trans hid.symm)]
      · exact fun hkind => ⟨m, hm, hid, hkind⟩
    rw [if_pos hr, resolvePath?, if_pos hdigits, hfind, Option.map_some, bucketsPath]
    simp only [hcount]
  · rw [if_neg hr]
    exact Option.not_isSome_iff_eq_none.mp (mt (resolvePath?_isSome_iff q reference).mp hr)

theorem variablePaths_eq (m : Metric) : q.variablePaths m =
    (m.inputs.filter fun (_, reference) => q.resolves reference).map
      fun (name, reference) => (name, q.bucketsPath reference) := by
  unfold variablePaths
  induction m.inputs with
  | nil => rfl
  | cons input rest ih =>
    obtain ⟨name, reference⟩ := input
    have hpath := resolvePath?_eq hids reference
    rw [List.filterMap_cons, ih]
    by_cases hr : q.resolves reference
    · rw [if_pos hr] at hpath
      rw [List.filter_cons_of_pos (by simpa using hr)]
      simp only [hpath]
      rfl
    · rw [if_neg hr] at hpath
      rw [List.filter_cons_of_neg (by simpa using hr)]
      simp only [hpath]
      rfl

/-- A requested metric is sent with its settings over the members that it has besides. -/
theorem members_metricBody {m : Metric} (he : q.emits m) (settings : Entries Json) :
    (q.metricBody m settings).members = (q.metricSource m).putAll settings := by
  unfold metricBody metricSource
  cases hp : m.kind.isPipeline with
  | false =>
    have hv : m.kind.hasVariables = false := by
      by_contra hv
      rw [isPipeline_of_hasVariables (by simpa using hv)] at hp
      cases hp
    simp only [hv, Bool.false_eq_true, if_false]
    rfl
  | true =>
    cases hv : m.kind.hasVariables with
    | true =>
      simp only [if_true, variablePaths_eq hids, AggBody.members, AggBody.pathJson,
        Entries.mapValues, List.map_map]
      rfl
    | false =>
      have hpath := (emits_iff_of_reference he.1 hp hv).mp he
      have hresolves := (resolvePath?_isSome_iff q m.reference).mp hpath
      rw [resolvePath?_eq hids, if_pos hresolves]
      rfl

end Sources

end Query

end PanelSearch
