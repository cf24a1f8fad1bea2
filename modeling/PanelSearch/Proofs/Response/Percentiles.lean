import PanelSearch.Proofs.Request.References
import PanelSearch.Proofs.Response.Drawn

/-! Percentiles over time. The series of a metric are those of the percentiles in the first bucket
of a leaf. Each of them has a point for every bucket whose key is a number, be the percentile in it
or not. A percentile that is missing in the first bucket has no series, whatever the later buckets
have. -/

namespace PanelSearch

open Json (member)
open Traversal

namespace Bucket

/-- The names of the percentiles that a bucket holds of a metric. -/
def percentileNames (b : Bucket) (metricId : String) : List String :=
  Entries.keys (b.under [metricId, "values"]).membersD

/-- The key of a bucket is a number, or a numeral. -/
def hasNumericKey (b : Bucket) : Bool := (member b "key").number?.isSome

/-- Where keys are read, just those that are numbers tell an instant. -/
theorem hasNumericKey_eq {b : Bucket} {t : Option Instant} (h : Series.instant? b = .ok t) :
    b.hasNumericKey = b.time?.isSome := by
  rw [time?_of_instant? h]
  unfold Series.instant? at h
  obtain ⟨key, hkey, h⟩ := bind_eq_ok_iff.mp h
  rw [hasNumericKey, ← Json.number?_of_toDouble hkey]
  cases key with
  | none =>
    cases h
    rfl
  | some d =>
    cases d with
    | finite negative significand shift canonical =>
      simp only at h
      split at h
      · cases h
        rfl
      · cases h
    | infinite negative => cases h
    | nan => cases h

end Bucket

namespace Line

/-- Only buckets that tell an instant have a point. -/
theorem points_filter (l : Line) (buckets : List Bucket) :
    l.points (buckets.filter fun b => b.time?.isSome) = l.points buckets := by
  rw [points, List.filterMap_filter]
  refine List.filterMap_congr fun b _ => ?_
  split
  · rfl
  · next hnone =>
    rw [Option.not_isSome_iff_eq_none.mp hnone]
    cases l.value b <;> rfl

/-- A line with a value in every bucket has one point for each bucket whose key is a number. -/
theorem shows_points_of_instants (l : Line) {buckets : List Bucket}
    (hvalue : ∀ b, (l.value b).isSome = true)
    (hinstants : ∀ b ∈ buckets, ∃ t, Series.instant? b = .ok t) :
    List.Forall₂ l.Shows (buckets.filter Bucket.hasNumericKey) (l.points buckets) := by
  have hkeys : buckets.filter Bucket.hasNumericKey = buckets.filter fun b => b.time?.isSome := by
    refine List.filter_congr fun b hb => ?_
    obtain ⟨t, ht⟩ := hinstants b hb
    exact Bucket.hasNumericKey_eq ht
  have htimes : ∀ b ∈ buckets.filter (fun b => b.time?.isSome), b.time?.isSome = true :=
    fun b hb => (List.mem_filter.mp hb).2
  have hshows := l.shows_points htimes
  rw [List.filter_eq_self.mpr fun b _ => hvalue b, l.points_filter] at hshows
  rw [hkeys]
  exact hshows

end Line

namespace Metric

variable {m : Metric}

/-- The line of one percentile. A bucket without it has null there. -/
def percentileLine (m : Metric) (name : String) : Line :=
  ⟨"p" ++ name, m.field, fun b => some (b.under [m.id, "values", name])⟩

theorem percentileNames_perm (m : Metric) (first : Bucket) (rest : List Bucket) :
    (m.percentileNames (first :: rest)).Perm (first.percentileNames m.id) :=
  List.mergeSort_perm _ _

/-- There are as many series under a label as the percentile has entries in the first bucket. -/
theorem filter_percentileLines (m : Metric) (labels : Entries String) (buckets : List Bucket)
    (names : List String) (name : String) :
    (names.map fun n => Line.series m labels buckets (m.percentileLine n)).filter
        (fun s => s.metricLabel == "p" ++ name) =
      List.replicate (names.count name) (Line.series m labels buckets (m.percentileLine name)) := by
  have hlabels : (fun s : Series => s.metricLabel == "p" ++ name) ∘
      (fun n => Line.series m labels buckets (m.percentileLine n)) = (· == name) := by
    funext n
    rw [Bool.eq_iff_iff, beq_iff_eq]
    exact beq_iff_eq.trans (String.append_right_inj "p")
  rw [List.filter_map, hlabels, List.filter_beq, List.map_replicate]

end Metric

namespace Leaf

/-- Among the series of a metric there is exactly one for a percentile, with one point for each
bucket whose key is a number: at the time of the bucket, with its value of the percentile or with
null. -/
def KeepsPercentile (leaf : Leaf) (m : Metric) (group : List Series) (name : String) : Prop :=
  ∃ points, group.filter (fun s => s.metricLabel == "p" ++ name) = [{
      metric := m, metricLabel := "p" ++ name, fieldLabel := m.field, labels := leaf.labels
      points }] ∧
    List.Forall₂ (m.percentileLine name).Shows (leaf.buckets.filter Bucket.hasNumericKey) points

end Leaf

namespace Series

variable {m : Metric} {leaf : Leaf} {group : List Series}

theorem eq_percentileLines_of_ofMetric {labels : Entries String} {buckets : List Bucket}
    (hkind : m.kind = .percentiles) (h : ofMetric labels buckets m = .ok group) :
    group = (m.percentileNames buckets).map fun name =>
      Line.series m labels buckets (m.percentileLine name) := by
  rw [eq_map_drawnLines_of_ofMetric h]
  simp only [Metric.drawnLines, Metric.lines, hkind, List.map_map]
  rfl

/-- Where there is a series for a percentile, the keys of all buckets were read. -/
theorem exists_instant?_of_ofMetric {labels : Entries String} {buckets : List Bucket}
    {name : String} (hkind : m.kind = .percentiles) (h : ofMetric labels buckets m = .ok group)
    (hname : name ∈ m.percentileNames buckets) : ∀ b ∈ buckets, ∃ t, instant? b = .ok t := by
  intro b hb
  simp only [ofMetric, hkind, ofPercentiles, percentileNames_eq] at h
  obtain ⟨s, -, hs⟩ := exists_mem_of_mapM h hname
  obtain ⟨points, hpoints, -⟩ := bind_eq_ok_iff.mp hs
  obtain ⟨found, hfound, -⟩ := bind_eq_ok_iff.mp hpoints
  obtain ⟨p, -, hp⟩ := exists_mem_of_mapM hfound hb
  obtain ⟨v, -, hp⟩ := bind_eq_ok_iff.mp hp
  obtain ⟨t, ht, -⟩ := bind_eq_ok_iff.mp hp
  exact ⟨t, ht⟩

/-- A percentile of the first bucket is kept. -/
theorem keepsPercentile_of_mem (hkind : m.kind = .percentiles)
    (h : ofMetric leaf.labels leaf.buckets m = .ok group)
    (hnames : (m.percentileNames leaf.buckets).Nodup) {name : String}
    (hname : name ∈ m.percentileNames leaf.buckets) : leaf.KeepsPercentile m group name := by
  refine ⟨(m.percentileLine name).points leaf.buckets, ?_, ?_⟩
  · rw [eq_percentileLines_of_ofMetric hkind h, Metric.filter_percentileLines,
      List.count_eq_one_of_mem hnames hname]
    rfl
  · exact Line.shows_points_of_instants _ (fun b => rfl)
      (exists_instant?_of_ofMetric hkind h hname)

/-- A percentile that is missing in the first bucket has no series. -/
theorem filter_eq_nil_of_not_mem (hkind : m.kind = .percentiles)
    (h : ofMetric leaf.labels leaf.buckets m = .ok group) {name : String}
    (hname : name ∉ m.percentileNames leaf.buckets) :
    group.filter (fun s => s.metricLabel == "p" ++ name) = [] := by
  rw [eq_percentileLines_of_ofMetric hkind h, Metric.filter_percentileLines,
    List.count_eq_zero.mpr hname]
  rfl

/-- A percentile is kept just when the first bucket has it, and has no series otherwise. -/
theorem keepsPercentile_iff_of_ofMetric (hkind : m.kind = .percentiles)
    (h : ofMetric leaf.labels leaf.buckets m = .ok group) {first : Bucket} {rest : List Bucket}
    (hfirst : leaf.buckets = first :: rest) (hnames : (first.percentileNames m.id).Nodup)
    (name : String) : (leaf.KeepsPercentile m group name ↔ name ∈ first.percentileNames m.id) ∧
      (name ∉ first.percentileNames m.id →
        group.filter (fun s => s.metricLabel == "p" ++ name) = []) := by
  have hperm : (m.percentileNames leaf.buckets).Perm (first.percentileNames m.id) := by
    rw [hfirst]
    exact m.percentileNames_perm first rest
  have hlost : name ∉ first.percentileNames m.id →
      group.filter (fun s => s.metricLabel == "p" ++ name) = [] := fun hname =>
    filter_eq_nil_of_not_mem hkind h (mt hperm.mem_iff.mp hname)
  refine ⟨⟨fun hkeeps => ?_, fun hname => ?_⟩, hlost⟩
  · by_contra hname
    obtain ⟨points, hone, -⟩ := hkeeps
    rw [hlost hname] at hone
    cases hone
  · exact keepsPercentile_of_mem hkind h (hperm.nodup_iff.mpr hnames) (hperm.mem_iff.mpr hname)

end Series

namespace Leaf

/-- A leaf that can be read has a group of series for each visible metric, in order. A percentile of
any bucket is kept in the group of its metric just when the first bucket has it, and has no series
there otherwise. -/
theorem keepsPercentile_iff {q : Query} {leaf : Leaf}
    (hnames : ∀ m ∈ q.visible, ∀ b ∈ leaf.buckets, (b.percentileNames m.id).Nodup) :
    (leaf.Reads q → ∃ series, Series.ofLeaf q leaf = .ok series) ∧
    ∀ series, Series.ofLeaf q leaf = .ok series → ∃ groups, series = groups.flatten ∧
      List.Forall₂ (fun m group => m.kind = .percentiles → ∀ first rest,
        leaf.buckets = first :: rest → ∀ name,
          (leaf.KeepsPercentile m group name ↔ name ∈ first.percentileNames m.id) ∧
          (name ∉ first.percentileNames m.id →
            group.filter (fun s => s.metricLabel == "p" ++ name) = [])) q.visible groups := by
  refine ⟨fun hreads => ⟨_, Series.ofLeaf_eq hreads⟩, fun series hseries => ?_⟩
  obtain ⟨buckets, hbuckets, hseries⟩ := bind_eq_ok_iff.mp hseries
  obtain ⟨groups, hgroups, hseries⟩ := bind_eq_ok_iff.mp hseries
  rw [Bucket.eq_buckets_of_ofResult hbuckets] at hgroups
  cases hseries
  refine ⟨groups, rfl, ?_⟩
  have hmetrics := (List.forall₂_and_left _ _).mpr ⟨hnames, mapM_eq_ok_iff.mp hgroups⟩
  refine hmetrics.imp fun m group hgroup hkind first rest hfirst name => ?_
  have hfirstNames := hgroup.1 first (by rw [hfirst]; exact .head rest)
  exact Series.keepsPercentile_iff_of_ofMetric hkind hgroup.2 hfirst hfirstNames name

end Leaf

def latencyMetric : Metric := SearchRequest.bareMetric "1" .percentiles "latency"

/-- The percentiles of the latency over time. -/
def percentilesOverTime : Query := SearchRequest.overTime [] [latencyMetric]

def percentilesLeaf (buckets : List Bucket) : Leaf :=
  ⟨{ id := "2", kind := .dateHistogram, field := "ts", settings := [] }, [],
    [("buckets", .arr (buckets.map .obj))]⟩

def percentilesBucket (ms : Int) (values : Entries Json) : Bucket :=
  [("key", .int ms), ("doc_count", .int 3), ("1", .obj [("values", .obj values)])]

theorem buckets_percentilesLeaf (buckets : List Bucket) :
    (percentilesLeaf buckets).buckets = buckets := by
  change (buckets.map Json.obj).filterMap Json.members? = buckets
  rw [List.filterMap_map]
  exact List.filterMap_some

theorem reads_percentilesLeaf {buckets : List Bucket} (names : List String)
    (htimes : ∀ b ∈ buckets, b.time?.isSome = true)
    (hnames : latencyMetric.percentileNames buckets = names)
    (hfits : ∀ name ∈ names, (latencyMetric.percentileLine name).Fits buckets) :
    (percentilesLeaf buckets).Reads percentilesOverTime := by
  have hkinds : ∀ m ∈ percentilesOverTime.visible, m.kind ≠ .topMetrics := by decide
  refine ⟨⟨_, rfl⟩, ?_, fun m hm htop => absurd htop (hkinds m hm), ?_⟩
  · rw [buckets_percentilesLeaf]
    exact fun b hb => .inl (htimes b hb)
  · rw [buckets_percentilesLeaf]
    intro m hm l hl
    cases List.mem_singleton.mp hm
    obtain ⟨name, hname, rfl⟩ := List.mem_map.mp hl
    rw [hnames] at hname
    exact hfits name hname

/-- The second bucket lacks the first percentile. -/
def narrowingLeaf : Leaf := percentilesLeaf [
  percentilesBucket 1000 [("75.0", .int 5), ("90.0", .int 8)],
  percentilesBucket 2000 [("90.0", .int 9)]]

theorem narrowingLeaf_keeps : ∃ series,
    Series.ofLeaf percentilesOverTime narrowingLeaf = .ok series ∧
      narrowingLeaf.KeepsPercentile latencyMetric series "75.0" ∧
      narrowingLeaf.KeepsPercentile latencyMetric series "90.0" := by
  have hreads : narrowingLeaf.Reads percentilesOverTime :=
    reads_percentilesLeaf ["75.0", "90.0"] (by decide) (List.mergeSort_of_pairwise (by decide))
      (by decide +kernel)
  have hnames : ∀ m ∈ percentilesOverTime.visible, ∀ b ∈ narrowingLeaf.buckets,
      (b.percentileNames m.id).Nodup := by decide
  obtain ⟨hsome, hall⟩ := Leaf.keepsPercentile_iff hnames
  obtain ⟨series, hseries⟩ := hsome hreads
  obtain ⟨groups, rfl, hgroups⟩ := hall series hseries
  rcases hgroups with _ | ⟨hgroup, hgroups⟩
  cases hgroups
  refine ⟨_, hseries, ?_, ?_⟩
  · rw [List.flatten_singleton]
    exact (hgroup rfl _ _ rfl "75.0").1.mpr (by decide)
  · rw [List.flatten_singleton]
    exact (hgroup rfl _ _ rfl "90.0").1.mpr (by decide)

/-- The first bucket has no document, and so no percentile. -/
def lateLeaf : Leaf := percentilesLeaf [
  [("key", .int 1000), ("doc_count", .int 0)],
  percentilesBucket 2000 [("95.0", .int 120)]]

/-- The percentile of the second bucket is in no series. -/
theorem lateLeaf_loses : lateLeaf.agg.kind = .dateHistogram ∧ lateLeaf.Reads percentilesOverTime ∧
    latencyMetric ∈ percentilesOverTime.visible ∧ latencyMetric.kind = .percentiles ∧
    (∀ b ∈ lateLeaf.buckets, b.hasNumericKey = true) ∧
    (∃ b ∈ lateLeaf.buckets, "95.0" ∈ b.percentileNames latencyMetric.id) ∧
    ∃ series, Series.ofLeaf percentilesOverTime lateLeaf = .ok series ∧ series.length = 0 ∧
      ¬lateLeaf.KeepsPercentile latencyMetric series "95.0" := by
  have hreads : lateLeaf.Reads percentilesOverTime :=
    reads_percentilesLeaf [] (by decide) List.mergeSort_nil (by decide)
  refine ⟨rfl, hreads, .head _, rfl, by decide +kernel, by decide, [], rfl, rfl, ?_⟩
  rintro ⟨points, hone, -⟩
  cases hone

end PanelSearch
