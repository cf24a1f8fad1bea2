import PanelSearch.Proofs.Query.MetricSettings
import PanelSearch.Proofs.Query.Reading
import PanelSearch.Proofs.Request.Shape
import PanelSearch.Request.Batch

/-! What stops the building of requests from queries that are read: a time bound outside the
calendar, filters that are a scalar, or a percentile that is an integer beyond every double. Once
requests are built, their batch can be written. -/

namespace PanelSearch

open Json (member)
open Traversal

variable {f : Fault}

theorem Time.rfc3339Text_eq_error_iff {ns : Int} :
    Time.rfc3339Text ns = .error f ↔ inCalendar ns = false ∧ f = .beyondRange := by
  rw [Time.rfc3339Text]
  cases inCalendar ns with
  | false => simp [eq_comm]
  | true => simp

/-- The time range of a query lies in the calendar. -/
def Query.isDated (q : Query) : Bool :=
  inCalendar (q.rangeFrom * 1000000) && inCalendar (q.rangeTo * 1000000)

theorem SearchRequest.addTimeRange_eq_error_iff {r : SearchRequest} {field : String} {q : Query} :
    r.addTimeRange field q.rangeFrom q.rangeTo = .error f ↔
      q.isDated = false ∧ f = .beyondRange := by
  rw [addTimeRange, bind_eq_error_iff, Time.rfc3339Text_eq_error_iff, Query.isDated]
  cases hfrom : inCalendar (q.rangeFrom * 1000000) with
  | false => simp [Time.rfc3339Text, hfrom]
  | true =>
    simp only [Time.rfc3339Text, hfrom, if_true, Except.ok.injEq, bind_eq_error_iff]
    cases inCalendar (q.rangeTo * 1000000) <;> simp [eq_comm, pure, Except.pure]

namespace Query

theorem metricNode_eq_error_iff {q : Query} {m : Metric} : q.metricNode m = .error f ↔
    m.kind = .percentiles ∧ Metric.HasHugePercentile m.settings ∧ f = .beyondRange := by
  rw [metricNode_eq]
  by_cases hemits : q.emits m
  · rw [if_pos hemits, map_eq_error_iff, Metric.sentSettings_eq_error_iff]
  · rw [if_neg hemits]
    simp only [reduceCtorEq, false_iff]
    rintro ⟨hk, -⟩
    exact hemits (emits_of_plain (by simp [hk]) (by simp [hk, MetricKind.isPipeline]))

/-- A metric of percentiles that are requested is an integer beyond every double. -/
def HasHugePercentile (q : Query) : Prop :=
  ∃ m ∈ q.metrics, m.kind = .percentiles ∧ Metric.HasHugePercentile m.settings

theorem mapM_metricNode_eq_error_iff {q : Query} :
    q.metrics.mapM q.metricNode = .error f ↔ q.HasHugePercentile ∧ f = .beyondRange := by
  constructor
  · intro h
    obtain ⟨before, m, after, hsplit, -, hm⟩ := mapM_eq_error_iff.mp h
    obtain ⟨hk, hhuge, rfl⟩ := metricNode_eq_error_iff.mp hm
    exact ⟨⟨m, by simp [hsplit], hk, hhuge⟩, rfl⟩
  · rintro ⟨⟨m, hmem, hk, hhuge⟩, rfl⟩
    refine (mapM_eq_error_iff_exists fun _ _ h => (metricNode_eq_error_iff.mp h).2.2).mpr ?_
    exact ⟨m, hmem, metricNode_eq_error_iff.mpr ⟨hk, hhuge, rfl⟩⟩

end Query

namespace BucketAgg

variable {b : BucketAgg} {q : Query} {target : Target} {settings : Entries Json} {e : QueryError}

/-- Filters that are a scalar. -/
def HasBareFilters (b : BucketAgg) : Prop :=
  b.kind = .filters ∧ (member b.settings "filters").isBareScalar = true

/-- A date histogram misses its field, and there is no time field to stand in for it. -/
def LacksTime (b : BucketAgg) (timeField : String) : Prop :=
  b.kind = .dateHistogram ∧ b.field = "" ∧ timeField = ""

theorem filtersNode_eq_error_iff : b.filtersNode settings = .error e ↔
    (member settings "filters").isBareScalar = true ∧ e = .fault .notAList := by
  rw [Json.isBareScalar_iff, filtersNode]
  cases (member settings "filters").isGiven with
  | false => simp [pure, Except.pure, bind, Except.bind]
  | true =>
    cases (member settings "filters").elements? with
    | none => simp [bind, Except.bind, throw, throwThe, MonadExceptOf.throw, eq_comm]
    | some items => simp [pure, Except.pure, bind, Except.bind]

theorem dateHistogramNode_eq_error_iff : b.dateHistogramNode settings q target = .error e ↔
    (b.field = "" ∧ target.timeField = "") ∧ e = .invalid (.noTimeField b.id) := by
  rw [dateHistogramNode]
  by_cases hfield : b.field = ""
  · by_cases htime : target.timeField = "" <;> simp [hfield, htime, @eq_comm _ e]
  · simp [hfield]

/-- A bucket aggregation has no node for want of a time field, or for its filters. -/
theorem node_eq_error_iff : b.node q target = .error e ↔
    (b.LacksTime target.timeField ∧ e = .invalid (.noTimeField b.id)) ∨
      (b.HasBareFilters ∧ e = .fault .notAList) := by
  unfold node LacksTime HasBareFilters
  cases hk : b.kind with
  | filters =>
    have hfilters : member (countedSettings b.settings) "filters" = member b.settings "filters" :=
      member_countedSettings (by decide)
    simp [filtersNode_eq_error_iff, hfilters]
  | dateHistogram => simp [map_eq_error_iff, dateHistogramNode_eq_error_iff]
  | _ => simp

theorem node_eq_fault_iff : b.node q target = .error (.fault f) ↔
    b.HasBareFilters ∧ f = .notAList := by
  simp [node_eq_error_iff]

end BucketAgg

namespace SearchRequest

theorem liftFault_eq_error_iff {α : Type} {x : Except Fault α} {e : QueryError} :
    liftFault x = .error e ↔ ∃ f, x = .error f ∧ e = .fault f := by
  cases x <;> simp [liftFault, eq_comm]

/-- What building a query stops at, everything before it being built. -/
inductive Unbuildable (target : Target) (q : Query) : Fault → Prop
  | range (undated : q.isDated = false) : Unbuildable target q .beyondRange
  | filters {before after : List BucketAgg} {b : BucketAgg} (dated : q.isDated = true)
    (shape : q.shape = .aggregation) (buckets : q.buckets = before ++ b :: after)
    (built : ∀ other ∈ before, ∃ node, other.node q target = .ok node)
    (scalar : b.HasBareFilters) : Unbuildable target q .notAList
  | percentiles (dated : q.isDated = true) (shape : q.shape = .aggregation)
    (built : ∀ b ∈ q.buckets, ∃ node, b.node q target = .ok node)
    (huge : q.HasHugePercentile) : Unbuildable target q .beyondRange

variable {target : Target} {q : Query} {e : QueryError}

theorem aggregationsOf_eq_error_iff : aggregationsOf q target = .error e ↔
    (∃ before b after, q.buckets = before ++ b :: after ∧
      (∀ other ∈ before, ∃ node, other.node q target = .ok node) ∧ b.node q target = .error e) ∨
    (∀ b ∈ q.buckets, ∃ node, b.node q target = .ok node) ∧
      q.HasHugePercentile ∧ e = .fault .beyondRange := by
  rw [aggregationsOf, bind_eq_error_iff, mapM_eq_error_iff]
  refine or_congr_right ?_
  constructor
  · rintro ⟨levels, hlevels, h⟩
    rcases bind_eq_error_iff.mp h with h | ⟨_, _, h⟩
    · obtain ⟨f, hf, rfl⟩ := liftFault_eq_error_iff.mp h
      obtain ⟨hhuge, rfl⟩ := Query.mapM_metricNode_eq_error_iff.mp hf
      exact ⟨mapM_isOk_iff.mp ⟨levels, hlevels⟩, hhuge, rfl⟩
    · cases h
  · rintro ⟨hbuilt, hhuge, rfl⟩
    obtain ⟨levels, hlevels⟩ := mapM_isOk_iff.mpr hbuilt
    have hstop := Query.mapM_metricNode_eq_error_iff.mpr ⟨hhuge, rfl⟩
    exact ⟨levels, hlevels,
      bind_eq_error_iff.mpr (.inl (liftFault_eq_error_iff.mpr ⟨_, hstop, rfl⟩))⟩

theorem isDated_of_addTimeRange {r r' : SearchRequest} {field : String}
    (h : r.addTimeRange field q.rangeFrom q.rangeTo = .ok r') : q.isDated = true := by
  by_contra hundated
  have hstop : r.addTimeRange field q.rangeFrom q.rangeTo = .error .beyondRange :=
    addTimeRange_eq_error_iff.mpr ⟨Bool.eq_false_iff.mpr hundated, rfl⟩
  rw [hstop] at h
  cases h

/-- A query is not built for its time range or, if it asks for aggregations, for those. -/
theorem ofQuery_eq_error_iff : ofQuery target q = .error e ↔
    (q.isDated = false ∧ e = .fault .beyondRange) ∨
      (q.isDated = true ∧ q.shape = .aggregation ∧ aggregationsOf q target = .error e) := by
  rw [ofQuery, bind_eq_error_iff]
  constructor
  · rintro (h | ⟨start, hstart, h⟩)
    · obtain ⟨f, hf, rfl⟩ := liftFault_eq_error_iff.mp h
      obtain ⟨hundated, rfl⟩ := addTimeRange_eq_error_iff.mp hf
      exact .inl ⟨hundated, rfl⟩
    · have hdated := isDated_of_addTimeRange (liftFault_eq_ok_iff.mp hstart)
      cases hshape : q.shape with
      | aggregation =>
        simp only [hshape] at h
        rcases bind_eq_error_iff.mp h with h | ⟨_, _, h⟩
        · exact .inr ⟨hdated, rfl, h⟩
        · cases h
      | _ =>
        simp only [hshape] at h
        cases h
  · rintro (⟨hundated, rfl⟩ | ⟨hdated, hshape, h⟩)
    · exact .inl (liftFault_eq_error_iff.mpr
        ⟨_, addTimeRange_eq_error_iff.mpr ⟨hundated, rfl⟩, rfl⟩)
    · cases hstart : liftFault (addTimeRange _ target.timeField q.rangeFrom q.rangeTo) with
      | error e' =>
        obtain ⟨f, hf, -⟩ := liftFault_eq_error_iff.mp hstart
        rw [(addTimeRange_eq_error_iff.mp hf).1] at hdated
        cases hdated
      | ok start =>
        refine .inr ⟨start, rfl, ?_⟩
        simp only [hshape]
        exact bind_eq_error_iff.mpr (.inl h)

theorem ofQuery_eq_fault_iff :
    ofQuery target q = .error (.fault f) ↔ Unbuildable target q f := by
  simp only [ofQuery_eq_error_iff, aggregationsOf_eq_error_iff, BucketAgg.node_eq_fault_iff,
    QueryError.fault.injEq]
  constructor
  · rintro (⟨hundated, rfl⟩ | ⟨hdated, hshape,
      ⟨before, b, after, hbuckets, hbuilt, hbare, rfl⟩ | ⟨hbuilt, hhuge, rfl⟩⟩)
    · exact .range hundated
    · exact .filters hdated hshape hbuckets hbuilt hbare
    · exact .percentiles hdated hshape hbuilt hhuge
  · rintro (hundated | ⟨hdated, hshape, hbuckets, hbuilt, hbare⟩ | ⟨hdated, hshape, hbuilt, hhuge⟩)
    · exact .inl ⟨hundated, rfl⟩
    · exact .inr ⟨hdated, hshape, .inl ⟨_, _, _, hbuckets, hbuilt, hbare, rfl⟩⟩
    · exact .inr ⟨hdated, hshape, .inr ⟨hbuilt, hhuge, rfl⟩⟩

def checked (q : Query) : Except QueryError Unit :=
  match q.check with
  | .ok () => .ok ()
  | .error reason => .error (.invalid reason)

theorem checked_eq_ok_iff : checked q = .ok () ↔ q.check = .ok () := by
  rw [checked]
  split <;> simp_all

theorem checked_ne_fault : checked q ≠ .error (.fault f) := by
  rw [checked]
  split <;> simp

theorem ofQueries_eq (target : Target) (qs : List Query) :
    ofQueries target qs = (qs.forM checked >>= fun _ => qs.mapM (ofQuery target)) := rfl

theorem exists_body {r : SearchRequest} (haggs : Aggregation.areConcrete r.aggs = true)
    (hafter : ∀ value, r.searchAfter = some value → ∃ items, value = .arr items) :
    ∃ j, r.body = .ok j := by
  rw [body, if_pos haggs]
  cases h : r.searchAfter with
  | none => exact ⟨_, rfl⟩
  | some value =>
    obtain ⟨items, rfl⟩ := hafter value h
    exact ⟨_, rfl⟩

theorem addSort_eq (r : SearchRequest) (field order format : String) :
    ∃ sort, r.addSort field order format = { r with sort } := by
  unfold addSort
  split
  · exact ⟨_, rfl⟩
  · exact ⟨r.sort, rfl⟩

theorem exists_body_forLogs {start : SearchRequest} (haggs : start.aggs = [])
    (hafter : start.searchAfter = none) (q : Query) (timeField : String) :
    ∃ j, (start.forLogs q timeField).body = .ok j := by
  rw [forLogs]
  simp only
  generalize (if (member (hitSettings q) "sortDirection").str? = some "asc" then "asc"
    else "desc") = order
  obtain ⟨sort, hsort⟩ := addSort_eq start timeField order epochNanosFormat
  rw [hsort]
  split
  · refine exists_body (by simp [haggs, Aggregation.areConcrete]) fun value h => ?_
    cases h
    exact ⟨_, rfl⟩
  · refine exists_body (by simp [haggs, Aggregation.areConcrete]) fun value h => ?_
    rw [hafter] at h
    cases h

theorem exists_body_forDocuments {start : SearchRequest} (haggs : start.aggs = [])
    (hafter : start.searchAfter = none) (q : Query) (timeField : String) :
    ∃ j, (start.forDocuments q timeField).body = .ok j := by
  obtain ⟨sort, hsort⟩ := addSort_eq start timeField "desc" epochNanosFormat
  obtain ⟨sort', hsort'⟩ := addSort_eq { start with sort } "_doc" "desc" ""
  rw [forDocuments, hsort, hsort']
  refine exists_body (by simp [haggs, Aggregation.areConcrete]) fun value h => ?_
  rw [hafter] at h
  cases h

/-- A built request has a body: sort values behind which hits begin are passed on as arrays
only. -/
theorem exists_body_of_ofQuery {r : SearchRequest} (h : ofQuery target q = .ok r) :
    ∃ j, r.body = .ok j := by
  obtain ⟨start, haggs, -, hafter, hr⟩ := exists_start_of_ofQuery h
  cases hshape : q.shape with
  | aggregation =>
    obtain ⟨_, _, hbody, -⟩ := body_eq_ok hshape h
    exact ⟨_, hbody⟩
  | logs =>
    rw [hshape] at hr
    rw [hr]
    exact exists_body_forLogs haggs hafter q target.timeField
  | _ =>
    rw [hshape] at hr
    rw [hr]
    exact exists_body_forDocuments haggs hafter q target.timeField

/-- A body has the members of its request, and at most the sort values behind which the hits begin
besides. -/
theorem exists_members_of_body {r : SearchRequest} {body : Json} (h : r.body = .ok body) :
    ∃ after, body = .obj (r.members ++ after) ∧
      ∀ key ∈ Entries.keys after, key = "search_after" := by
  unfold SearchRequest.body at h
  split at h
  · split at h
    · cases h
      exact ⟨[], by rw [List.append_nil], by simp⟩
    · split at h
      · cases h
        exact ⟨_, rfl, by simp⟩
      · cases h
  · cases h

/-- A body holds the trees of its request. -/
theorem holdsTrees_body {r : SearchRequest} {body : Json} (h : r.body = .ok body) :
    HoldsTrees body r.aggs := by
  obtain ⟨after, rfl, hafter⟩ := exists_members_of_body h
  have hnone : Entries.get? after "aggs" = none :=
    Entries.get?_of_not_mem_keys fun hkey => absurd (hafter _ hkey) (by decide)
  refine ⟨_, rfl, ?_⟩
  rw [← aggs_members, member, member, Entries.get?_append, hnone, Option.or_none]

theorem aggs_addSort (start : SearchRequest) (field order format : String) :
    (start.addSort field order format).aggs = start.aggs := by
  obtain ⟨sort, hsort⟩ := addSort_eq start field order format
  rw [hsort]

theorem aggs_forLogs (start : SearchRequest) (q : Query) (timeField : String) :
    (start.forLogs q timeField).aggs = start.aggs := by
  unfold forLogs
  simp only
  split <;> exact aggs_addSort start _ _ _

theorem aggs_forDocuments (start : SearchRequest) (q : Query) (timeField : String) :
    (start.forDocuments q timeField).aggs = start.aggs := by
  simp only [forDocuments, aggs_addSort]

/-- Requests for hits ask for no aggregations. -/
theorem aggs_of_shape_ne {r : SearchRequest} (hshape : q.shape ≠ .aggregation)
    (h : ofQuery target q = .ok r) : r.aggs = [] := by
  obtain ⟨start, haggs, -, -, hr⟩ := exists_start_of_ofQuery h
  cases hs : q.shape with
  | aggregation => exact absurd hs hshape
  | logs =>
    simp only [hs] at hr
    rw [hr, aggs_forLogs, haggs]
  | _ =>
    simp only [hs] at hr
    rw [hr, aggs_forDocuments, haggs]

/-- Building requests stops at the first query that cannot be built, once all queries are
checked. -/
theorem ofQueries_eq_fault_iff {qs : List Query} : ofQueries target qs = .error (.fault f) ↔
    (∀ q ∈ qs, q.check = .ok ()) ∧ ∃ before q after, qs = before ++ q :: after ∧
      (∀ other ∈ before, ∃ r, ofQuery target other = .ok r) ∧ Unbuildable target q f := by
  simp only [← checked_eq_ok_iff, ← forM_eq_ok_iff, ← ofQuery_eq_fault_iff, ← mapM_eq_error_iff]
  rw [ofQueries_eq, bind_eq_error_iff]
  constructor
  · rintro (h | ⟨_, hchecked, h⟩)
    · obtain ⟨q, -, hq⟩ := exists_mem_of_forM h
      exact absurd hq checked_ne_fault
    · exact ⟨hchecked, h⟩
  · rintro ⟨hchecked, h⟩
    exact .inr ⟨(), hchecked, h⟩

/-- The requests of a batch of queries can be written as its lines. -/
theorem exists_entries {qs : List Query} {requests : List SearchRequest}
    (h : ofQueries target qs = .ok requests) :
    ∃ entries, Batch.ofRequests requests = .ok entries := by
  rw [ofQueries_eq] at h
  obtain ⟨_, -, h⟩ := bind_eq_ok_iff.mp h
  refine mapM_isOk_iff.mpr fun r hr => ?_
  obtain ⟨q, -, hq⟩ := exists_mem_of_mem_mapM h hr
  obtain ⟨j, hj⟩ := exists_body_of_ofQuery hq
  exact ⟨_, bind_eq_ok_iff.mpr ⟨j, hj, rfl⟩⟩

end SearchRequest

end PanelSearch
