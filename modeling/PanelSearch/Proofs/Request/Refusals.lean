import PanelSearch.Proofs.Request.Building

/-! The queries that are refused. All are checked before the first is built: a query must ask for
something, and its bucket aggregations must have the fields that nothing stands in for. That a date
histogram has neither a field nor a time field comes out when it is built. -/

namespace PanelSearch

open Traversal

namespace BucketAgg

/-- A field is missing that nothing stands in for. -/
def LacksField (b : BucketAgg) : Prop :=
  b.kind ≠ .dateHistogram ∧ b.kind ≠ .filters ∧ b.field = ""

theorem lacksField_iff (b : BucketAgg) :
    (Query.needsField b.kind && b.field.isEmpty) = true ↔ b.LacksField := by
  unfold LacksField Query.needsField
  cases b.kind <;> simp

end BucketAgg

namespace Query

variable {q : Query} {target : Target} {timeField : String} {reason : InvalidQuery}

def AsksNothing (q : Query) : Prop := q.buckets = [] ∧ q.wantsHits = false

def LacksField (q : Query) : Prop := ∃ b ∈ q.buckets, b.LacksField

def LacksTime (timeField : String) (q : Query) : Prop :=
  q.wantsHits = false ∧ ∃ b ∈ q.buckets, b.LacksTime timeField

/-- What a query is refused for before anything is built. -/
inductive Refused (q : Query) : InvalidQuery → Prop
  | nothing (asks : q.AsksNothing) : Refused q .nothingAsked
  | field {b : BucketAgg} (lacks : First BucketAgg.LacksField q.buckets b) :
    Refused q (.bucketWithoutField b.id b.kind.name)

/-- What a query is refused for when it is built. -/
inductive Untimed (timeField : String) (q : Query) : InvalidQuery → Prop
  | intro {b : BucketAgg} (hits : q.wantsHits = false)
    (lacks : First (BucketAgg.LacksTime · timeField) q.buckets b) :
    Untimed timeField q (.noTimeField b.id)

theorem check_eq_error_iff : q.check = .error reason ↔ q.Refused reason := by
  unfold check
  constructor
  · intro h
    split at h
    · rename_i hbuckets
      split at h
      · cases h
      · rename_i hhits
        cases h
        exact .nothing ⟨by simpa using hbuckets, by simpa using hhits⟩
    · split at h
      · rename_i b hfind
        cases h
        exact .field ((find?_eq_some_iff_first BucketAgg.lacksField_iff).mp hfind)
      · cases h
  · rintro (⟨hbuckets, hhits⟩ | hlacks)
    · simp [hbuckets, hhits]
    · have hsome : q.buckets.isEmpty = false := by simpa using List.ne_nil_of_mem hlacks.mem
      rw [hsome, (find?_eq_some_iff_first BucketAgg.lacksField_iff).mpr hlacks]
      rfl

theorem exists_refused_iff : (∃ reason, q.Refused reason) ↔ q.AsksNothing ∨ q.LacksField := by
  constructor
  · rintro ⟨_, hasks | hlacks⟩
    · exact .inl hasks
    · exact .inr (exists_first_iff.mp ⟨_, hlacks⟩)
  · rintro (hasks | hlacks)
    · exact ⟨_, .nothing hasks⟩
    · obtain ⟨b, hb⟩ := exists_first_iff.mpr hlacks
      exact ⟨_, .field hb⟩

theorem exists_untimed_iff : (∃ reason, q.Untimed timeField reason) ↔ q.LacksTime timeField := by
  constructor
  · rintro ⟨_, hhits, hlacks⟩
    exact ⟨hhits, exists_first_iff.mp ⟨_, hlacks⟩⟩
  · rintro ⟨hhits, hlacks⟩
    obtain ⟨b, hb⟩ := exists_first_iff.mpr hlacks
    exact ⟨_, .intro hhits hb⟩

theorem check_eq_ok_iff : q.check = .ok () ↔ ¬(q.AsksNothing ∨ q.LacksField) := by
  rw [← exists_refused_iff]
  simp only [← check_eq_error_iff]
  cases q.check <;> simp

/-- Nothing in the query stops the work: its time range lies in the calendar, its filters can be
gone through, and its percentiles fit the doubles. -/
structure Works (q : Query) : Prop where
  dated : q.isDated = true
  filters : ∀ b ∈ q.buckets, ¬b.HasBareFilters
  percentiles : ¬q.HasHugePercentile

theorem shape_eq_aggregation_iff : q.shape = .aggregation ↔ q.wantsHits = false := by
  simp [wantsHits]

end Query

namespace SearchRequest

variable {q : Query} {target : Target} {e : QueryError} {qs : List Query}

/-- A bucket aggregation that stops nothing has a node unless it lacks a time field. -/
theorem node_eq_error_iff_lacksTime {b : BucketAgg} (hb : ¬b.HasBareFilters) :
    b.node q target = .error e ↔
      b.LacksTime target.timeField ∧ e = .invalid (.noTimeField b.id) := by
  rw [BucketAgg.node_eq_error_iff]
  simp [hb]

/-- A query that stops nothing is built unless a date histogram in it lacks a time field. -/
theorem ofQuery_eq_error_iff_untimed (hq : q.Works) : ofQuery target q = .error e ↔
    ∃ reason, e = .invalid reason ∧ q.Untimed target.timeField reason := by
  have hbuild : aggregationsOf q target = .error e ↔
      q.buckets.mapM (BucketAgg.node q target) = .error e := by
    rw [aggregationsOf_eq_error_iff, mapM_eq_error_iff]
    simp [hq.percentiles]
  have hlacks : ∀ b ∈ q.buckets,
      (∃ e, b.node q target = .error e) ↔ b.LacksTime target.timeField := by
    intro b hb
    simp [node_eq_error_iff_lacksTime (hq.filters b hb)]
  rw [ofQuery_eq_error_iff, hbuild, Query.shape_eq_aggregation_iff, mapM_eq_error_iff_first]
  constructor
  · rintro (⟨hundated, -⟩ | ⟨-, hhits, b, hfirst, hnode⟩)
    · rw [hq.dated] at hundated
      cases hundated
    · obtain ⟨-, rfl⟩ := (node_eq_error_iff_lacksTime (hq.filters b hfirst.mem)).mp hnode
      exact ⟨_, rfl, .intro hhits (hfirst.congr hlacks)⟩
  · rintro ⟨_, rfl, ⟨hhits, hfirst⟩⟩
    rename_i b
    refine .inr ⟨hq.dated, hhits, b, hfirst.congr fun c hc => (hlacks c hc).symm, ?_⟩
    exact (node_eq_error_iff_lacksTime (hq.filters b hfirst.mem)).mpr ⟨hfirst.of, rfl⟩

theorem checked_eq_error_iff :
    checked q = .error e ↔ ∃ reason, e = .invalid reason ∧ q.Refused reason := by
  simp only [← Query.check_eq_error_iff, checked]
  cases q.check with
  | ok _ => simp
  | error reason => simp [eq_comm]

/-- What is said of queries that are not all accepted. A query that is refused outright comes before
every one that is refused when it is built, wherever they stand. -/
inductive Complaint (target : Target) (qs : List Query) : InvalidQuery → Prop
  | refused {q : Query} {reason : InvalidQuery}
    (first : First (fun q => q.AsksNothing ∨ q.LacksField) qs q) (why : q.Refused reason) :
    Complaint target qs reason
  | untimed {q : Query} {reason : InvalidQuery}
    (accepted : ∀ q ∈ qs, ¬(q.AsksNothing ∨ q.LacksField))
    (first : First (Query.LacksTime target.timeField) qs q)
    (why : q.Untimed target.timeField reason) : Complaint target qs reason

/-- Where queries fail for a reason each, the first one that fails is the first that has one. -/
theorem first_error_iff {α : Type} {f : Query → Except QueryError α}
    {Fails : Query → InvalidQuery → Prop} {Lacks : Query → Prop}
    (hf : ∀ q ∈ qs, ∀ e, f q = .error e ↔ ∃ reason, e = .invalid reason ∧ Fails q reason)
    (hlacks : ∀ q, (∃ reason, Fails q reason) ↔ Lacks q) :
    (∃ q, First (fun q => ∃ e, f q = .error e) qs q ∧ f q = .error e) ↔
      ∃ q reason, First Lacks qs q ∧ Fails q reason ∧ e = .invalid reason := by
  have hstops : ∀ q ∈ qs, (∃ e, f q = .error e) ↔ Lacks q := by
    intro q hq
    rw [← hlacks]
    constructor
    · rintro ⟨e, he⟩
      obtain ⟨reason, -, h⟩ := (hf q hq e).mp he
      exact ⟨reason, h⟩
    · rintro ⟨reason, h⟩
      exact ⟨_, (hf q hq _).mpr ⟨reason, rfl, h⟩⟩
  constructor
  · rintro ⟨q, hfirst, he⟩
    obtain ⟨reason, rfl, h⟩ := (hf q hfirst.mem e).mp he
    exact ⟨q, reason, hfirst.congr hstops, h, rfl⟩
  · rintro ⟨q, reason, hfirst, h, rfl⟩
    refine ⟨q, hfirst.congr fun q hq => (hstops q hq).symm, ?_⟩
    exact (hf q hfirst.mem _).mpr ⟨reason, rfl, h⟩

/-- Building requests stops for what there is to say of the queries, and for nothing else. -/
theorem ofQueries_eq_error_iff (hqs : ∀ q ∈ qs, q.Works) : ofQueries target qs = .error e ↔
    ∃ reason, e = .invalid reason ∧ Complaint target qs reason := by
  have hchecked : qs.forM checked = .error e ↔ ∃ q reason,
      First (fun q => q.AsksNothing ∨ q.LacksField) qs q ∧ q.Refused reason ∧
        e = .invalid reason := by
    rw [forM_eq_error_iff_first]
    exact first_error_iff (fun q _ e => checked_eq_error_iff) fun q => Query.exists_refused_iff
  have hbuilt : qs.mapM (ofQuery target) = .error e ↔ ∃ q reason,
      First (Query.LacksTime target.timeField) qs q ∧ q.Untimed target.timeField reason ∧
        e = .invalid reason := by
    rw [mapM_eq_error_iff_first]
    exact first_error_iff (fun q hq e => ofQuery_eq_error_iff_untimed (hqs q hq)) fun q =>
      Query.exists_untimed_iff
  have haccepted : qs.forM checked = .ok () ↔ ∀ q ∈ qs, ¬(q.AsksNothing ∨ q.LacksField) := by
    simp only [forM_eq_ok_iff, checked_eq_ok_iff, Query.check_eq_ok_iff]
  rw [ofQueries_eq, bind_eq_error_iff, hchecked, hbuilt]
  constructor
  · rintro (⟨q, reason, hfirst, hwhy, rfl⟩ | ⟨⟨⟩, hok, q, reason, hfirst, hwhy, rfl⟩)
    · exact ⟨reason, rfl, .refused hfirst hwhy⟩
    · exact ⟨reason, rfl, .untimed (haccepted.mp hok) hfirst hwhy⟩
  · rintro ⟨reason, rfl, ⟨hfirst, hwhy⟩ | ⟨hok, hfirst, hwhy⟩⟩
    · exact .inl ⟨_, reason, hfirst, hwhy, rfl⟩
    · exact .inr ⟨(), haccepted.mpr hok, _, reason, hfirst, hwhy, rfl⟩

theorem exists_complaint_iff : (∃ reason, Complaint target qs reason) ↔
    ∃ q ∈ qs, q.AsksNothing ∨ q.LacksField ∨ q.LacksTime target.timeField := by
  constructor
  · rintro ⟨reason, ⟨hfirst, -⟩ | ⟨-, hfirst, -⟩⟩
    · exact ⟨_, hfirst.mem, or_assoc.mp (.inl hfirst.of)⟩
    · exact ⟨_, hfirst.mem, .inr (.inr hfirst.of)⟩
  · rintro ⟨q, hq, hlacks⟩
    by_cases hrefused : ∃ q ∈ qs, q.AsksNothing ∨ q.LacksField
    · obtain ⟨p, hp⟩ := exists_first_iff.mpr hrefused
      obtain ⟨reason, hwhy⟩ := Query.exists_refused_iff.mpr hp.of
      exact ⟨reason, .refused hp hwhy⟩
    · have haccepted : ∀ q ∈ qs, ¬(q.AsksNothing ∨ q.LacksField) := fun q hq h =>
        hrefused ⟨q, hq, h⟩
      have htime := (or_assoc.mpr hlacks).resolve_left (haccepted q hq)
      obtain ⟨p, hp⟩ := exists_first_iff.mpr ⟨q, hq, htime⟩
      obtain ⟨reason, hwhy⟩ := Query.exists_untimed_iff.mpr hp.of
      exact ⟨reason, .untimed haccepted hp hwhy⟩

/-- Queries in which nothing stops the work are refused exactly if one of them asks for nothing,
lacks a field or lacks a time field, and what is said is then said of the first that is to blame.
Otherwise there is a request for each query, in order. -/
theorem ofQueries_complains (hqs : ∀ q ∈ qs, q.Works) :
    (∀ e, ofQueries target qs = .error e ↔
      ∃ reason, e = .invalid reason ∧ Complaint target qs reason) ∧
    ((∃ e, ofQueries target qs = .error e) ↔
      ∃ q ∈ qs, q.AsksNothing ∨ q.LacksField ∨ q.LacksTime target.timeField) ∧
    ((¬∃ q ∈ qs, q.AsksNothing ∨ q.LacksField ∨ q.LacksTime target.timeField) →
      ∃ rs, ofQueries target qs = .ok rs ∧
        List.Forall₂ (fun q r => ofQuery target q = .ok r) qs rs) := by
  have hstops : (∃ e, ofQueries target qs = .error e) ↔
      ∃ q ∈ qs, q.AsksNothing ∨ q.LacksField ∨ q.LacksTime target.timeField := by
    rw [← exists_complaint_iff]
    constructor
    · rintro ⟨e, he⟩
      obtain ⟨reason, -, h⟩ := (ofQueries_eq_error_iff hqs).mp he
      exact ⟨reason, h⟩
    · rintro ⟨reason, h⟩
      exact ⟨_, (ofQueries_eq_error_iff hqs).mpr ⟨reason, rfl, h⟩⟩
  refine ⟨fun e => ofQueries_eq_error_iff hqs, hstops, fun hnone => ?_⟩
  cases hrs : ofQueries target qs with
  | error e => exact absurd (hstops.mp ⟨e, hrs⟩) hnone
  | ok rs =>
    rw [ofQueries_eq] at hrs
    obtain ⟨_, -, hbuilt⟩ := bind_eq_ok_iff.mp hrs
    exact ⟨rs, rfl, mapM_eq_ok_iff.mp hbuilt⟩

/-- A query for one bucket aggregation without a field, over the first second of all times. -/
def fieldless (id : String) (kind : BucketKind) : Query where
  refId := "A"
  rawQuery := ""
  buckets := [⟨id, kind, "", []⟩]
  metrics := []
  aliasPattern := ""
  intervalMs := 0
  maxDataPoints := 100
  rangeFrom := 0
  rangeTo := 1000

/-- A later query that lacks a field is spoken of, and not an earlier one that lacks a time
field. -/
theorem ofQueries_complains_of_later :
    (∀ q ∈ [fieldless "2" .dateHistogram, fieldless "5" .terms], q.Works) ∧
      (fieldless "2" .dateHistogram).LacksTime "" ∧
      ofQueries ⟨"", "logs", 3⟩ [fieldless "2" .dateHistogram, fieldless "5" .terms] =
        .error (.invalid (.bucketWithoutField "5" "terms")) := by
  have hworks : ∀ q ∈ [fieldless "2" .dateHistogram, fieldless "5" .terms], q.Works := by
    intro q hq
    simp only [List.mem_cons, List.not_mem_nil, or_false] at hq
    rcases hq with rfl | rfl
    · exact ⟨by decide, by simp [fieldless, BucketAgg.HasBareFilters], by
        simp [fieldless, Query.HasHugePercentile]⟩
    · exact ⟨by decide, by simp [fieldless, BucketAgg.HasBareFilters], by
        simp [fieldless, Query.HasHugePercentile]⟩
  have htime : (fieldless "2" .dateHistogram).LacksTime "" :=
    ⟨rfl, _, List.mem_singleton_self _, rfl, rfl, rfl⟩
  have hlacks : First BucketAgg.LacksField (fieldless "5" .terms).buckets ⟨"5", .terms, "", []⟩ :=
    ⟨(List.nil_append _).symm, by simp, by simp, by simp, rfl⟩
  have hfirst : First (fun q => q.AsksNothing ∨ q.LacksField)
      [fieldless "2" .dateHistogram, fieldless "5" .terms] (fieldless "5" .terms) := by
    refine ⟨(List.singleton_append).symm, ?_, .inr ⟨_, hlacks.mem, hlacks.of⟩⟩
    simp [fieldless, Query.AsksNothing, Query.LacksField, BucketAgg.LacksField]
  exact ⟨hworks, htime, ((ofQueries_complains hworks).1 _).mpr
    ⟨_, rfl, .refused hfirst (.field hlacks)⟩⟩

end SearchRequest

end PanelSearch
