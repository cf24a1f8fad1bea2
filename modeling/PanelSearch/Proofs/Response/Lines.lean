import PanelSearch.Proofs.Json.Path
import PanelSearch.Proofs.Number.Integer
import PanelSearch.Proofs.Traversal
import PanelSearch.Response.Series

/-! What the series of a metric are to show: for each kind of metric the lines it is drawn as, and
for each line the value that every bucket has for it. The series of a leaf are these lines wherever
the keys and values of its buckets can be read. -/

namespace PanelSearch

open Json (member)

namespace Json

/-- The double that a value stands for. -/
def number? : Json → Option Double
  | int n => Double.ofInt? n
  | double d => some d
  | str s => Numeral.double? s.toList
  | _ => none

/-- The whole milliseconds that a value stands for. -/
def millis? : Json → Option Int
  | int n => some n
  | double d => d.truncate?
  | str s => (Numeral.double? s.toList).bind Double.truncate?
  | _ => none

/-- A value is no integer beyond the doubles. -/
def Fits : Json → Prop
  | int n => (Double.ofInt? n).isSome = true
  | _ => True

instance (j : Json) : Decidable j.Fits :=
  match j with
  | int n => inferInstanceAs (Decidable ((Double.ofInt? n).isSome = true))
  | null | bool _ | double _ | str _ | arr _ | obj _ => inferInstanceAs (Decidable True)

theorem fits_int_iff {n : Int} : (int n).Fits ↔ ∃ d, Double.ofInt? n = some d := by
  rw [Fits, Option.isSome_iff_exists]

theorem Fits.toDouble_eq {j : Json} (h : j.Fits) : j.toDouble = .ok j.number? := by
  cases j with
  | int n =>
    obtain ⟨d, hd⟩ := fits_int_iff.mp h
    rw [toDouble, number?, hd]
  | _ => rfl

end Json

namespace Bucket

/-- The instant of a bucket, which its key tells in epoch milliseconds. -/
def time? (b : Bucket) : Option Instant :=
  (member b "key").millis?.bind fun ms => Instant.ofNanos? (ms * 1000000)

/-- The key of a bucket tells an instant, or is nothing like a number. -/
def KeyReads (b : Bucket) : Prop :=
  b.time?.isSome = true ∨ (member b "key").Fits ∧ (member b "key").number? = none

def topValue (b : Bucket) (metricId name : String) : Json :=
  (((b.under [metricId, "top"]).items?.bind (·.head?)).getD .null).path ["metrics", name]

theorem instant?_of_number {b : Bucket} {d : Double} {ms : Int} {t : Instant}
    (hkey : (member b "key").toDouble = .ok (some d)) (hms : d.truncate? = some ms)
    (ht : Instant.ofNanos? (ms * 1000000) = some t) : Series.instant? b = .ok (some t) := by
  unfold Series.instant?
  rw [hkey]
  cases d with
  | finite negative significand shift canonical =>
    simp only [bind, Except.bind, hms, Option.getD_some, ht]
    rfl
  | infinite negative => cases hms
  | nan => cases hms

/-- An integer in the calendar is a double of the same milliseconds. -/
theorem instant?_of_time? {b : Bucket} {t : Instant} (h : b.time? = some t) :
    Series.instant? b = .ok (some t) := by
  obtain ⟨ms, hms, hinstant⟩ := Option.bind_eq_some_iff.mp h
  cases hkey : member b "key" with
  | int n =>
    rw [hkey] at hms
    cases hms
    obtain ⟨d, hd, htruncate⟩ := Double.ofInt?_truncate (Instant.natAbs_lt_of_ofNanos? hinstant)
    refine instant?_of_number ?_ htruncate hinstant
    rw [hkey, Json.toDouble, hd]
  | double d =>
    rw [hkey] at hms
    exact instant?_of_number (by rw [hkey]; rfl) hms hinstant
  | str s =>
    rw [hkey] at hms
    obtain ⟨d, hd, htruncate⟩ := Option.bind_eq_some_iff.mp hms
    refine instant?_of_number ?_ htruncate hinstant
    rw [hkey, Json.toDouble, hd]
  | _ =>
    rw [hkey] at hms
    cases hms

theorem time?_eq_none {b : Bucket} (hfits : (member b "key").Fits)
    (hnone : (member b "key").number? = none) : b.time? = none := by
  unfold time?
  cases hkey : member b "key" with
  | int n =>
    rw [hkey] at hfits hnone
    obtain ⟨d, hd⟩ := Json.fits_int_iff.mp hfits
    rw [Json.number?, hd] at hnone
    cases hnone
  | double d =>
    rw [hkey] at hnone
    cases hnone
  | str s =>
    rw [hkey, Json.number?] at hnone
    rw [Json.millis?, hnone]
    rfl
  | _ => rfl

theorem KeyReads.instant?_eq {b : Bucket} (h : b.KeyReads) : Series.instant? b = .ok b.time? := by
  rcases h with h | ⟨hfits, hnone⟩
  · obtain ⟨t, ht⟩ := Option.isSome_iff_exists.mp h
    rw [ht]
    exact instant?_of_time? ht
  · unfold Series.instant?
    rw [hfits.toDouble_eq, hnone, time?_eq_none hfits hnone]
    rfl

end Bucket

/-- What one series of a metric is to show: its names, and the value of each bucket. A bucket
without a value gives no point. -/
structure Line where
  metricLabel : String
  fieldLabel : String
  value : Bucket → Option Json

namespace Line

def points (l : Line) (buckets : List Bucket) : List Point :=
  buckets.filterMap fun b => (l.value b).bind fun j => b.time?.map (·, j.number?)

def series (m : Metric) (labels : Entries String) (buckets : List Bucket) (l : Line) : Series :=
  { metric := m, metricLabel := l.metricLabel, fieldLabel := l.fieldLabel, labels
    points := l.points buckets }

/-- No value of a line is an integer beyond the doubles. -/
def Fits (l : Line) (buckets : List Bucket) : Prop :=
  ∀ b ∈ buckets, ∀ j ∈ l.value b, j.Fits

instance (l : Line) (buckets : List Bucket) : Decidable (l.Fits buckets) :=
  inferInstanceAs (Decidable (∀ b ∈ buckets, ∀ j ∈ l.value b, j.Fits))

end Line

namespace Metric

/-- The value of a metric that has one in a bucket, if the bucket holds the metric. -/
def plainValue? (m : Metric) (b : Bucket) : Option Json :=
  (member b m.id).members?.map fun found =>
    (Entries.get? found "normalized_value").getD (member found "value")

def plainLine (m : Metric) : Line :=
  ⟨m.kind.name, if m.kind.isPipeline then m.reference else m.field, m.plainValue?⟩

/-- The names of the percentiles in the first bucket, in the order of their code points. -/
def percentileNames (m : Metric) (buckets : List Bucket) : List String :=
  (buckets.head?.map fun first => (first.under [m.id, "values"]).membersD.sortedKeys).getD []

/-- The values of the top document that are asked for. -/
def topNames (m : Metric) : List Json := (member m.settings "metrics").items?.getD []

/-- The lines of a metric over some buckets: one for a count and for a metric with one value, and
one for each percentile, each value of the top document and each statistic. -/
def lines (m : Metric) (buckets : List Bucket) : List Line :=
  match m.kind with
  | .count => [⟨"count", "", fun b => some (member b "doc_count")⟩]
  | .percentiles => (m.percentileNames buckets).map fun name =>
    ⟨"p" ++ name, m.field, fun b => some (b.under [m.id, "values", name])⟩
  | .topMetrics => (m.topNames.filterMap Json.str?).map fun name =>
    ⟨"top_metrics", name, fun b => some (b.topValue m.id name)⟩
  | .extendedStats => m.statistics.map fun stat =>
    ⟨stat, m.field, fun b => some (b.statistic m.id stat)⟩
  | _ => [m.plainLine]

end Metric

def Query.visible (q : Query) : List Metric := q.metrics.filter (!·.hide)

namespace Leaf

/-- The buckets of a leaf: the objects of its array. -/
def buckets (leaf : Leaf) : List Bucket :=
  ((member leaf.result "buckets").items?.getD []).filterMap Json.members?

/-- The series that a leaf is to show: the lines of the visible metrics. -/
def series (q : Query) (leaf : Leaf) : List Series :=
  q.visible.flatMap fun m =>
    (m.lines leaf.buckets).map (Line.series m leaf.labels leaf.buckets)

/-- The keys and values that the visible metrics need can be read. -/
structure Reads (q : Query) (leaf : Leaf) : Prop where
  array : ∃ items, member leaf.result "buckets" = .arr items
  keys : ∀ b ∈ leaf.buckets, b.KeyReads
  names : ∀ m ∈ q.visible, m.kind = .topMetrics →
    ∃ names : List String, m.topNames = names.map .str
  values : ∀ m ∈ q.visible, ∀ l ∈ m.lines leaf.buckets, l.Fits leaf.buckets

end Leaf

namespace Series

open Traversal

theorem pointsOf_eq {value : Bucket → Except Fault (Option Double)}
    {v : Bucket → Option Double} {buckets : List Bucket} (hkeys : ∀ b ∈ buckets, b.KeyReads)
    (hvalue : ∀ b ∈ buckets, value b = .ok (v b)) :
    pointsOf value buckets = .ok (buckets.filterMap fun b => b.time?.map (·, v b)) := by
  unfold pointsOf
  have hsteps : ∀ b ∈ buckets,
      (do let v ← value b; let t ← instant? b; return t.map (·, v)) =
        (.ok (b.time?.map (·, v b)) : Except Fault (Option Point)) := by
    intro b hb
    rw [hvalue b hb, (hkeys b hb).instant?_eq]
    rfl
  rw [mapM_eq_ok_map hsteps]
  simp [bind, Except.bind, pure, Except.pure, List.filterMap_map]

section Lines

variable {m : Metric} {labels : Entries String} {buckets : List Bucket}

/-- The series over values that can be read is that of their line. -/
theorem ofPoints_eq (hkeys : ∀ b ∈ buckets, b.KeyReads) {metricLabel fieldLabel : String}
    {v : Bucket → Json} {value : Bucket → Except Fault (Option Double)}
    (hvalue : ∀ b, value b = (v b).toDouble)
    (hfits : Line.Fits ⟨metricLabel, fieldLabel, fun b => some (v b)⟩ buckets) :
    (do
      let points ← pointsOf value buckets
      return ({ metric := m, metricLabel, fieldLabel, labels, points } : Series)) =
      (.ok (Line.series m labels buckets ⟨metricLabel, fieldLabel, fun b => some (v b)⟩) :
        Except Fault Series) := by
  have hpoints : pointsOf value buckets =
      .ok (Line.points ⟨metricLabel, fieldLabel, fun b => some (v b)⟩ buckets) := by
    refine pointsOf_eq hkeys fun b hb => ?_
    rw [hvalue b, (hfits b hb (v b) rfl).toDouble_eq]
  rw [hpoints]
  rfl

theorem percentileNames_eq (m : Metric) (buckets : List Bucket) :
    percentileNames m buckets = m.percentileNames buckets := by
  cases buckets with
  | nil => rfl
  | cons first rest =>
    change ((first.percentiles? m.id).map Entries.sortedKeys).getD [] =
      ((first.percentiles? m.id).getD []).sortedKeys
    cases first.percentiles? m.id with
    | none => simp [Entries.sortedKeys, Entries.keys]
    | some values => rfl

theorem member_percentiles (b : Bucket) (metricId name : String) :
    member ((b.percentiles? metricId).getD []) name = b.under [metricId, "values", name] := by
  have hpath : [metricId, "values", name] = [metricId, "values"] ++ [name] := rfl
  rw [Bucket.under, hpath, Json.path_append, Json.path_cons]
  rfl

theorem ofPercentiles_eq (hkeys : ∀ b ∈ buckets, b.KeyReads) (hkind : m.kind = .percentiles)
    (hfits : ∀ l ∈ m.lines buckets, l.Fits buckets) : ofPercentiles m labels buckets =
      .ok ((m.lines buckets).map (Line.series m labels buckets)) := by
  simp only [Metric.lines, hkind] at hfits ⊢
  rw [ofPercentiles, percentileNames_eq, List.map_map]
  refine mapM_eq_ok_map fun name hname => ?_
  refine ofPoints_eq hkeys (fun b => ?_) (hfits _ (List.mem_map_of_mem hname))
  rw [member_percentiles]

/-- Without an object at the front of the array there is nothing to follow a path into. -/
theorem topMetric_eq (b : Bucket) (metricId name : String) :
    b.topMetric metricId (.str name) = .ok (b.topValue metricId name) := by
  unfold Bucket.topMetric Bucket.topValue
  split
  · next top rest htop =>
    rw [htop]
    change _ = Except.ok ((member top "metrics").path [name])
    rw [Json.path_cons]
    cases member top "metrics" <;> rfl
  · next hnone =>
    suffices hpath : (((b.under [metricId, "top"]).items?.bind (·.head?)).getD .null).path
        ["metrics", name] = .null by rw [hpath]
    cases htop : b.under [metricId, "top"] with
    | arr items =>
      cases items with
      | nil => rfl
      | cons first rest =>
        cases first with
        | obj top => exact absurd htop (hnone top rest)
        | _ => rfl
    | _ => rfl

theorem ofTopMetrics_eq (hkeys : ∀ b ∈ buckets, b.KeyReads) (hkind : m.kind = .topMetrics)
    {names : List String} (hnames : m.topNames = names.map .str)
    (hfits : ∀ l ∈ m.lines buckets, l.Fits buckets) : ofTopMetrics m labels buckets =
      .ok ((m.lines buckets).map (Line.series m labels buckets)) := by
  have htexts : (names.map Json.str).filterMap Json.str? = names := by
    rw [List.filterMap_map]
    exact List.filterMap_some
  simp only [Metric.lines, hkind, hnames, htexts] at hfits ⊢
  have hsteps : ∀ name ∈ names.map Json.str,
      (do
        let points ← pointsOf (fun b => do (← b.topMetric m.id name).toDouble) buckets
        return ({
          metric := m, metricLabel := MetricKind.topMetrics.name, fieldLabel := name.label, labels,
          points } : Series)) = (.ok (Line.series m labels buckets
            ⟨"top_metrics", name.label, fun b => some (b.topValue m.id name.label)⟩) :
              Except Fault Series) := by
    intro name hname
    obtain ⟨s, hs, rfl⟩ := List.mem_map.mp hname
    refine ofPoints_eq hkeys (fun b => ?_) (hfits _ (List.mem_map_of_mem hs))
    rw [topMetric_eq]
    rfl
  rw [ofTopMetrics, ← Metric.topNames, hnames, mapM_eq_ok_map hsteps, List.map_map, List.map_map]
  rfl

theorem ofStatistics_eq (hkeys : ∀ b ∈ buckets, b.KeyReads) (hkind : m.kind = .extendedStats)
    (hfits : ∀ l ∈ m.lines buckets, l.Fits buckets) : ofStatistics m labels buckets =
      .ok ((m.lines buckets).map (Line.series m labels buckets)) := by
  simp only [Metric.lines, hkind] at hfits ⊢
  rw [ofStatistics, List.map_map]
  refine mapM_eq_ok_map fun stat hstat => ?_
  exact ofPoints_eq hkeys (fun _ => rfl) (hfits _ (List.mem_map_of_mem hstat))

theorem ofCount_eq (hkeys : ∀ b ∈ buckets, b.KeyReads) (hkind : m.kind = .count)
    (hfits : ∀ l ∈ m.lines buckets, l.Fits buckets) : ofMetric labels buckets m =
      .ok ((m.lines buckets).map (Line.series m labels buckets)) := by
  simp only [ofMetric, Metric.lines, hkind] at hfits ⊢
  have hpoints : pointsOf Bucket.count buckets =
      .ok (Line.points ⟨"count", "", fun b => some (member b "doc_count")⟩ buckets) := by
    refine pointsOf_eq hkeys fun b hb => ?_
    exact (hfits _ (List.mem_singleton.mpr rfl) b hb _ rfl).toDouble_eq
  rw [hpoints]
  rfl

/-- Buckets without a metric are left out of its line. -/
theorem points_plainLine (m : Metric) (buckets : List Bucket) :
    m.plainLine.points buckets =
      ((buckets.filterMap fun b => (member b m.id).members?.map (b, ·)).map fun x =>
        (m.plainValue? x.1).bind fun j => (Bucket.time? x.1).map (·, j.number?)).filterMap id := by
  rw [List.filterMap_map, List.filterMap_filterMap]
  refine List.filterMap_congr fun b _ => ?_
  change (m.plainValue? b).bind _ = _
  cases hfound : (member b m.id).members? with
  | none =>
    rw [Metric.plainValue?, hfound]
    rfl
  | some found => rfl

theorem ofPlain_eq (hkeys : ∀ b ∈ buckets, b.KeyReads)
    (hfits : m.plainLine.Fits buckets) :
    ofPlain m labels buckets = .ok (Line.series m labels buckets m.plainLine) := by
  have hsteps : ∀ x ∈ (buckets.filterMap fun b => (member b m.id).members?.map (b, ·) :
      List (Bucket × Entries Json)),
      (do
        let v ← plainValue x.2
        let t ← instant? x.1
        return t.map (·, v)) = (.ok ((m.plainValue? x.1).bind fun j =>
          x.1.time?.map (·, j.number?)) : Except Fault (Option Point)) := by
    rintro ⟨b, found⟩ hx
    obtain ⟨b', hb, heq⟩ := List.mem_filterMap.mp hx
    obtain ⟨found', hfound, heq⟩ := Option.map_eq_some_iff.mp heq
    cases heq
    have hvalue : m.plainValue? b = some
        ((Entries.get? found "normalized_value").getD (member found "value")) := by
      rw [Metric.plainValue?, hfound, Option.map_some]
    rw [plainValue, (hfits b hb _ hvalue).toDouble_eq, (hkeys b hb).instant?_eq, hvalue]
    rfl
  unfold ofPlain
  refine bind_eq_ok_iff.mpr ⟨_, mapM_eq_ok_map hsteps, ?_⟩
  rw [← points_plainLine]
  rfl

theorem ofMetric_eq (hkeys : ∀ b ∈ buckets, b.KeyReads)
    (hnames : m.kind = .topMetrics → ∃ names : List String, m.topNames = names.map .str)
    (hfits : ∀ l ∈ m.lines buckets, l.Fits buckets) : ofMetric labels buckets m =
      .ok ((m.lines buckets).map (Line.series m labels buckets)) := by
  cases hkind : m.kind with
  | count => exact ofCount_eq hkeys hkind hfits
  | percentiles =>
    rw [ofMetric, hkind]
    exact ofPercentiles_eq hkeys hkind hfits
  | topMetrics =>
    obtain ⟨names, hnames⟩ := hnames hkind
    rw [ofMetric, hkind]
    exact ofTopMetrics_eq hkeys hkind hnames hfits
  | extendedStats =>
    rw [ofMetric, hkind]
    exact ofStatistics_eq hkeys hkind hfits
  | _ =>
    have hlines : m.lines buckets = [m.plainLine] := by rw [Metric.lines, hkind]
    have hmetric : ofMetric labels buckets m = (ofPlain m labels buckets).map ([·]) := by
      rw [ofMetric, hkind]
    rw [hlines] at hfits ⊢
    rw [hmetric, ofPlain_eq hkeys (hfits _ (List.mem_singleton.mpr rfl))]
    rfl

end Lines

theorem ofResult_eq_ok {leaf : Leaf} {items : List Json}
    (h : member leaf.result "buckets" = .arr items) :
    Bucket.ofResult leaf.result = .ok leaf.buckets := by
  rw [Bucket.ofResult, Leaf.buckets, h]
  cases items with
  | nil => rfl
  | cons item items => rfl

/-- The series of a leaf that can be read are those that it is to show. -/
theorem ofLeaf_eq {q : Query} {leaf : Leaf} (h : leaf.Reads q) :
    ofLeaf q leaf = .ok (leaf.series q) := by
  obtain ⟨items, hitems⟩ := h.array
  have hgroups : ∀ m ∈ q.visible, ofMetric leaf.labels leaf.buckets m =
      .ok ((m.lines leaf.buckets).map (Line.series m leaf.labels leaf.buckets)) := by
    intro m hm
    exact ofMetric_eq h.keys (h.names m hm) (h.values m hm)
  unfold ofLeaf
  refine bind_eq_ok_iff.mpr ⟨_, ofResult_eq_ok hitems, ?_⟩
  refine bind_eq_ok_iff.mpr ⟨_, mapM_eq_ok_map hgroups, ?_⟩
  rfl

end Series

end PanelSearch
