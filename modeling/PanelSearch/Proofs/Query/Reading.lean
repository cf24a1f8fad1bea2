import PanelSearch.Proofs.Traversal
import PanelSearch.Query.Reader

/-! What stops the reading of a query. A value that is given where a list belongs is gone through
unless it is a scalar, and a number that is read as an integer must not be infinite. Everything else
either is read or makes the query invalid, which is found out on the way from the first member to
the last. -/

namespace PanelSearch

open Json (member)
open Traversal

/-- The value is given, but is no array, object or text: it is `true` or a number that is not
zero. -/
def Json.isBareScalar (j : Json) : Bool := j.isGiven && (j.isBool || j.isNumber)

theorem Json.isBareScalar_iff (j : Json) :
    j.isBareScalar = true ↔ j.isGiven = true ∧ j.elements? = none := by
  cases j <;> simp [isBareScalar, elements?, isGiven, isBool, isNumber]

theorem Json.isObject_iff {j : Json} : j.isObject = true ↔ ∃ members, j = .obj members := by
  cases j <;> simp [isObject]

namespace Query

variable {members : Entries Json} {key : String} {f : Fault}

theorem listed_eq_error_iff {e : QueryError} : listed members key = .error e ↔
    (member members key).isBareScalar = true ∧ e = .fault .notAList := by
  rw [Json.isBareScalar_iff, listed]
  cases hgiven : (member members key).isGiven with
  | false => simp
  | true =>
    cases (member members key).elements? with
    | none => simp [eq_comm]
    | some items => simp

theorem fieldInt_eq_error_iff {value : Json} {e : QueryError} : fieldInt value = .error e ↔
    (∃ negative, value = .double (.infinite negative)) ∧ e = .fault .beyondRange := by
  cases value with
  | double d => cases d <;> simp [fieldInt, eq_comm]
  | _ => simp [fieldInt]

theorem readBucket_ne_fault (raw : Json) : readBucket raw ≠ .error (.fault f) := by
  unfold readBucket
  split
  · split <;> simp
  · simp

/-- The metric is an object that needs variables, but holds a scalar in their place. -/
inductive LacksVariables : Json → Prop
  | intro {members : Entries Json}
    (kind : (MetricKind.ofName (Setting.fieldText (member members "type"))).hasVariables = true)
    (scalar : (member members "pipelineVariables").isBareScalar = true) :
    LacksVariables (.obj members)

theorem not_isNull_of_hasVariables {j : Json}
    (h : (MetricKind.ofName (Setting.fieldText j)).hasVariables = true) : j.isNull = false := by
  cases j with
  | null => exact absurd h (by decide)
  | _ => rfl

theorem readMetric_eq_fault_iff {raw : Json} :
    readMetric raw = .error (.fault f) ↔ LacksVariables raw ∧ f = .notAList := by
  cases raw with
  | obj members =>
    simp only [readMetric]
    constructor
    · intro h
      split at h
      · cases h
      · split at h
        · rename_i hkind
          rcases bind_eq_error_iff.mp h with h | ⟨_, _, h⟩
          · obtain ⟨hscalar, hf⟩ := listed_eq_error_iff.mp h
            cases hf
            exact ⟨.intro hkind hscalar, rfl⟩
          · cases h
        · cases h
    · rintro ⟨⟨hkind, hscalar⟩, rfl⟩
      rw [not_isNull_of_hasVariables hkind, if_neg (by simp), if_pos hkind]
      exact bind_eq_error_iff.mpr (.inl (listed_eq_error_iff.mpr ⟨hscalar, rfl⟩))
  | _ =>
    simp only [readMetric, reduceCtorEq, Except.error.injEq, false_iff]
    rintro ⟨⟨⟩, -⟩

def readBuckets (members : Entries Json) : Except QueryError (List BucketAgg) :=
  listed members "bucketAggs" >>= List.mapM readBucket

def readMetrics (members : Entries Json) : Except QueryError (List Metric) :=
  listed members "metrics" >>= List.mapM readMetric

theorem readBuckets_eq_fault_iff : readBuckets members = .error (.fault f) ↔
    (member members "bucketAggs").isBareScalar = true ∧ f = .notAList := by
  rw [readBuckets, bind_eq_error_iff, listed_eq_error_iff, QueryError.fault.injEq]
  constructor
  · rintro (h | ⟨items, -, h⟩)
    · exact h
    · obtain ⟨-, raw, -, -, -, hraw⟩ := mapM_eq_error_iff.mp h
      exact absurd hraw (readBucket_ne_fault raw)
  · exact .inl

/-- The metrics begin with some that are read, behind which one holds a scalar in the place of its
variables. -/
inductive MetricsLackVariables (members : Entries Json) : Prop
  | intro {before after : List Json} {raw : Json}
    (items : listed members "metrics" = .ok (before ++ raw :: after))
    (read : ∀ other ∈ before, ∃ m, readMetric other = .ok m)
    (stop : LacksVariables raw)

theorem readMetrics_eq_fault_iff : readMetrics members = .error (.fault f) ↔
    ((member members "metrics").isBareScalar = true ∨ MetricsLackVariables members) ∧
      f = .notAList := by
  rw [readMetrics, bind_eq_error_iff, listed_eq_error_iff, QueryError.fault.injEq, or_and_right]
  refine or_congr_right ?_
  constructor
  · rintro ⟨items, hitems, h⟩
    obtain ⟨before, raw, after, rfl, hbefore, hraw⟩ := mapM_eq_error_iff.mp h
    obtain ⟨hstop, rfl⟩ := readMetric_eq_fault_iff.mp hraw
    exact ⟨⟨hitems, hbefore, hstop⟩, rfl⟩
  · rintro ⟨⟨hitems, hbefore, hstop⟩, rfl⟩
    exact ⟨_, hitems, mapM_eq_error_iff.mpr
      ⟨_, _, _, rfl, hbefore, readMetric_eq_fault_iff.mpr ⟨hstop, rfl⟩⟩⟩

/-- One of the numbers of a query is infinite. -/
def HasInfinity (members : Entries Json) : Prop :=
  ∃ key ∈ ["intervalMs", "maxDataPoints"], ∃ negative,
    member members key = .double (.infinite negative)

/-- What reading a query stops at, everything before it being read. -/
inductive Unreadable (members : Entries Json) : Fault → Prop
  | buckets (scalar : (member members "bucketAggs").isBareScalar = true) :
    Unreadable members .notAList
  | metrics {buckets : List BucketAgg} (read : readBuckets members = .ok buckets)
    (scalar : (member members "metrics").isBareScalar = true ∨ MetricsLackVariables members) :
    Unreadable members .notAList
  | numbers {buckets : List BucketAgg} {metrics : List Metric}
    (buckets : readBuckets members = .ok buckets) (metrics : readMetrics members = .ok metrics)
    (infinity : HasInfinity members) : Unreadable members .beyondRange

variable {rangeFrom rangeTo : Int}

theorem read_obj (members : Entries Json) : read rangeFrom rangeTo (.obj members) = do
    let buckets ← readBuckets members
    let metrics ← readMetrics members
    let intervalMs ← fieldInt (member members "intervalMs")
    let maxDataPoints ← fieldInt (member members "maxDataPoints")
    return {
      refId := Setting.fieldText (member members "refId")
      rawQuery := Setting.fieldText (member members "query")
      buckets
      metrics
      aliasPattern := Setting.fieldText (member members "alias")
      intervalMs
      maxDataPoints
      rangeFrom
      rangeTo } := by
  simp only [read, readBuckets, readMetrics, bind_assoc]

theorem exists_ofName_of_readMetric {raw : Json} {m : Metric} (h : readMetric raw = .ok m) :
    ∃ name, m.kind = .ofName name := by
  cases raw with
  | obj members =>
    simp only [readMetric] at h
    split at h
    · cases h
    · split at h
      · obtain ⟨_, -, h⟩ := bind_eq_ok_iff.mp h
        cases h
        exact ⟨_, rfl⟩
      · cases h
        exact ⟨_, rfl⟩
  | _ => cases h

/-- The metrics of a query that is read have kinds that a type is read as. -/
theorem exists_ofName_of_read {raw : Json} {q : Query} (h : read rangeFrom rangeTo raw = .ok q) :
    ∀ m ∈ q.metrics, ∃ name, m.kind = .ofName name := by
  intro m hm
  cases raw with
  | obj members =>
    rw [read_obj] at h
    obtain ⟨_, -, h⟩ := bind_eq_ok_iff.mp h
    obtain ⟨metrics, hmetrics, h⟩ := bind_eq_ok_iff.mp h
    obtain ⟨_, -, h⟩ := bind_eq_ok_iff.mp h
    obtain ⟨_, -, h⟩ := bind_eq_ok_iff.mp h
    cases h
    obtain ⟨_, -, hmetrics⟩ := bind_eq_ok_iff.mp hmetrics
    obtain ⟨raw, -, hraw⟩ := exists_mem_of_mem_mapM hmetrics hm
    exact exists_ofName_of_readMetric hraw
  | _ => cases h

theorem fieldInts_eq_fault_iff {α : Type} {g : Int → Int → α} :
    (do
      let intervalMs ← fieldInt (member members "intervalMs")
      let maxDataPoints ← fieldInt (member members "maxDataPoints")
      return g intervalMs maxDataPoints) = .error (.fault f) ↔
    HasInfinity members ∧ f = .beyondRange := by
  constructor
  · intro h
    rcases bind_eq_error_iff.mp h with h | ⟨_, _, h⟩
    · obtain ⟨hinfinite, hf⟩ := fieldInt_eq_error_iff.mp h
      cases hf
      exact ⟨⟨_, by simp, hinfinite⟩, rfl⟩
    · rcases bind_eq_error_iff.mp h with h | ⟨_, _, h⟩
      · obtain ⟨hinfinite, hf⟩ := fieldInt_eq_error_iff.mp h
        cases hf
        exact ⟨⟨_, by simp, hinfinite⟩, rfl⟩
      · cases h
  · rintro ⟨⟨key, hkey, hinfinite⟩, rfl⟩
    have hstop := fieldInt_eq_error_iff.mpr ⟨hinfinite, rfl⟩
    rcases List.mem_pair.mp hkey with rfl | rfl
    · exact bind_eq_error_iff.mpr (.inl hstop)
    · rw [bind_eq_error_iff]
      cases hfirst : fieldInt (member members "intervalMs") with
      | error e => exact .inl (by rw [(fieldInt_eq_error_iff.mp hfirst).2])
      | ok n => exact .inr ⟨n, rfl, bind_eq_error_iff.mpr (.inl hstop)⟩

theorem read_obj_eq_fault_iff :
    read rangeFrom rangeTo (.obj members) = .error (.fault f) ↔ Unreadable members f := by
  rw [read_obj, bind_eq_error_iff, readBuckets_eq_fault_iff]
  simp only [bind_eq_error_iff (x := readMetrics members), readMetrics_eq_fault_iff,
    fieldInts_eq_fault_iff]
  constructor
  · rintro (⟨hscalar, rfl⟩ | ⟨buckets, hbuckets, ⟨hscalar, rfl⟩ | ⟨metrics, hmetrics, h, rfl⟩⟩)
    · exact .buckets hscalar
    · exact .metrics hbuckets hscalar
    · exact .numbers hbuckets hmetrics h
  · rintro (hscalar | ⟨hbuckets, hscalar⟩ | ⟨hbuckets, hmetrics, h⟩)
    · exact .inl ⟨hscalar, rfl⟩
    · exact .inr ⟨_, hbuckets, .inl ⟨hscalar, rfl⟩⟩
    · exact .inr ⟨_, hbuckets, .inr ⟨_, hmetrics, h, rfl⟩⟩

/-- Reading queries stops at the first one that holds what cannot be read, if all before it are
read. -/
theorem readAll_eq_fault_iff {raws : List Json} (hobj : ∀ raw ∈ raws, raw.isObject = true) :
    readAll rangeFrom rangeTo raws = .error (.fault f) ↔
      ∃ before members after, raws = before ++ .obj members :: after ∧
        (∀ raw ∈ before, ∃ q, read rangeFrom rangeTo raw = .ok q) ∧ Unreadable members f := by
  rw [readAll, mapM_eq_error_iff]
  constructor
  · rintro ⟨before, raw, after, rfl, hbefore, hraw⟩
    obtain ⟨members, rfl⟩ := Json.isObject_iff.mp (hobj raw (by simp))
    exact ⟨before, members, after, rfl, hbefore, read_obj_eq_fault_iff.mp hraw⟩
  · rintro ⟨before, members, after, rfl, hbefore, hstop⟩
    exact ⟨before, .obj members, after, rfl, hbefore, read_obj_eq_fault_iff.mpr hstop⟩

end Query

end PanelSearch
