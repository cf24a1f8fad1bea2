import PanelSearch.Proofs.Json.Basic
import PanelSearch.Proofs.Response.Trimming
import PanelSearch.Request.OfQuery

/-! Hidden metrics. A metric that is hidden is requested all the same, since others may be computed
from it, and the walk over the response goes the same way. Only its own series are not drawn. -/

namespace PanelSearch

open Json (member)
open Traversal

/-! ### Building -/

def Metric.shown (m : Metric) : Metric := { m with hide := false }

namespace Query

/-- A query with the flags of its metrics set, each by the place of the metric. -/
def withHidden (q : Query) (hidden : Nat → Bool) : Query :=
  { q with metrics := q.metrics.mapIdx fun i m => { m with hide := hidden i } }

/-- A query with all metrics visible. -/
def shown (q : Query) : Query := { q with metrics := q.metrics.map Metric.shown }

theorem shown_withHidden (q : Query) (hidden : Nat → Bool) :
    (q.withHidden hidden).shown = q.shown := by
  have hmetrics : (q.withHidden hidden).metrics.map Metric.shown = q.metrics.map Metric.shown := by
    refine List.ext_getElem? fun i => ?_
    simp only [withHidden, List.getElem?_map, List.getElem?_mapIdx, Option.map_map]
    rfl
  rw [shown, hmetrics]
  rfl

theorem shape_shown (q : Query) : q.shown.shape = q.shape := by
  unfold shape shown
  cases q.metrics <;> rfl

theorem check_shown (q : Query) : q.shown.check = q.check := by
  unfold check wantsHits
  rw [shape_shown]
  rfl

theorem resolvePath?_shown (q : Query) (reference : String) :
    q.shown.resolvePath? reference = q.resolvePath? reference := by
  unfold resolvePath? findMetric? shown
  rw [List.find?_map, Option.map_map]
  rfl

theorem metricNode_shown (q : Query) (m : Metric) :
    q.shown.metricNode m.shown = q.metricNode m := by
  unfold metricNode
  simp only [resolvePath?_shown]
  rfl

end Query

namespace BucketAgg

theorem termsOrder_shown (settings : Entries Json) (metrics : List Metric) :
    termsOrder settings (metrics.map Metric.shown) = termsOrder settings metrics := by
  have hfind : ∀ id, (metrics.map Metric.shown).find? (·.id == id) =
      (metrics.find? (·.id == id)).map Metric.shown := fun id => List.find?_map
  unfold termsOrder
  simp only [hfind]
  split
  · next orderBy _ =>
    cases metrics.find? (·.id == orderedMetric orderBy) <;> rfl
  · rfl

theorem node_shown (q : Query) (target : Target) (b : BucketAgg) :
    b.node q.shown target = b.node q target := by
  unfold node termsNode Query.shown
  simp only [termsOrder_shown]
  rfl

end BucketAgg

namespace SearchRequest

theorem aggregationsOf_shown (q : Query) (target : Target) :
    aggregationsOf q.shown target = aggregationsOf q target := by
  have hlevels : BucketAgg.node q.shown target = BucketAgg.node q target :=
    funext (BucketAgg.node_shown q target)
  have hmetrics : q.shown.metrics.mapM q.shown.metricNode = q.metrics.mapM q.metricNode :=
    calc q.shown.metrics.mapM q.shown.metricNode
      _ = q.metrics.mapM (q.shown.metricNode ∘ Metric.shown) := List.mapM_map
      _ = q.metrics.mapM q.metricNode := congrArg (List.mapM · _) (funext q.metricNode_shown)
  unfold aggregationsOf
  rw [hlevels, hmetrics]
  rfl

theorem hitSettings_shown (q : Query) : hitSettings q.shown = hitSettings q := by
  unfold hitSettings Query.shown
  cases q.metrics <;> rfl

/-- A request is built from what a query asks for, whether it is to be seen or not. -/
theorem ofQuery_shown (target : Target) (q : Query) :
    ofQuery target q.shown = ofQuery target q := by
  unfold ofQuery forLogs forDocuments
  rw [q.shape_shown, aggregationsOf_shown, hitSettings_shown]
  rfl

theorem ofQueries_shown (target : Target) (qs : List Query) :
    ofQueries target (qs.map Query.shown) = ofQueries target qs := by
  unfold ofQueries
  rw [List.forM_eq_forM, List.forM_map, List.mapM_map]
  simp only [Query.check_shown, Function.comp_def, ofQuery_shown]

end SearchRequest

/-! ### Reading -/

namespace Leaf

/-- The walk over a value goes the same way for two queries. -/
structure SameWalk (q q' : Query) (j : Json) : Prop where
  level : ∀ depth labels, ofLevel q depth labels j = ofLevel q' depth labels j
  result : ∀ depth labels id, ofResult q depth labels id j = ofResult q' depth labels id j
  buckets : ∀ depth labels agg, ofBuckets q depth labels agg j = ofBuckets q' depth labels agg j

section Walk

variable {q q' : Query}

theorem sameWalk_of_not_container {j : Json} (hitems : j.items? = none)
    (hmembers : j.members? = none) : SameWalk q q' j := by
  cases j with
  | arr items => cases hitems
  | obj members => cases hmembers
  | _ => constructor <;> simp [ofLevel, ofResult, ofBuckets]

theorem SameWalk.arr {items : List Json} (h : ∀ j ∈ items, SameWalk q q' j) :
    SameWalk q q' (.arr items) where
  level := by simp [ofLevel]
  result := by simp [ofResult]
  buckets depth labels agg := by
    rw [ofBuckets_arr, ofBuckets_arr]
    exact List.flatMap_congr fun bucket hbucket => (h bucket hbucket).level _ _

theorem SameWalk.obj (hlevels : q.buckets = q'.buckets) {members : Entries Json}
    (h : ∀ m ∈ members, SameWalk q q' m.2) : SameWalk q q' (.obj members) := by
  have hmembers : ∀ depth labels,
      ofMembers q depth labels members = ofMembers q' depth labels members := by
    intro depth labels
    rw [ofMembers_eq_map, ofMembers_eq_map]
    exact List.map_congr_left fun m hm => congrArg _ ((h m hm).result depth labels m.1)
  constructor
  · intro depth labels
    rw [ofLevel, ofLevel, hmembers]
  · intro depth labels id
    rw [ofResult, ofResult, Query.findBucket?, Query.findBucket?, hlevels]
    split
    · rfl
    · next agg _ =>
      have hbuckets : SameWalk q q' (member members "buckets") :=
        Json.member_of_forall (sameWalk_of_not_container rfl rfl) h "buckets"
      rw [hmembers, ofBucketsMember_eq, ofBucketsMember_eq, hbuckets.buckets depth labels agg]
  · intro depth labels agg
    rw [ofBuckets_obj, ofBuckets_obj]
    exact List.flatMap_congr fun m hm => (h m (Entries.mem_sorted.mp hm)).level _ _

/-- The walk looks at the bucket aggregations of a query and at nothing else. -/
theorem sameWalk (hlevels : q.buckets = q'.buckets) (j : Json) : SameWalk q q' j := by
  induction j using Json.inductionOn with
  | arr items ih => exact .arr ih
  | obj members ih => exact .obj hlevels ih
  | _ => exact sameWalk_of_not_container rfl rfl

end Walk

theorem ofResponse_withHidden (q : Query) (hidden : Nat → Bool) (response : Entries Json) :
    ofResponse (q.withHidden hidden) response = ofResponse q response := by
  have hlevels : (q.withHidden hidden).buckets = q.buckets := rfl
  exact (sameWalk hlevels (member response "aggregations")).level 0 []

end Leaf

/-- The series of all metrics over a leaf, be they visible or not, each with the place of its
metric. -/
def Leaf.seriesAt (q : Query) (leaf : Leaf) : List (Nat × Series) :=
  q.metrics.zipIdx.flatMap fun x =>
    (x.1.drawnLines leaf.buckets).map fun l => (x.2, Line.series x.1 leaf.labels leaf.buckets l)

theorem Leaf.drawn_eq_filter_seriesAt (q : Query) (leaf : Leaf) :
    leaf.drawn q = ((leaf.seriesAt q).filter fun x => !x.2.metric.hide).map (·.2) := by
  have hvisible : q.visible = (q.metrics.zipIdx.filter fun x => !x.1.hide).map (·.1) := by
    conv_lhs => rw [Query.visible, ← List.zipIdx_map_fst 0 q.metrics, List.filter_map]
    rfl
  rw [drawn, hvisible, seriesAt, List.filter_flatMap, List.map_flatMap, List.flatMap_map,
    flatMap_filter]
  refine List.flatMap_congr fun x _ => ?_
  rw [List.filter_map, List.map_map]
  change _ = ((x.1.drawnLines leaf.buckets).filter fun _ => !x.1.hide).map
    (Line.series x.1 leaf.labels leaf.buckets)
  cases x.1.hide <;> simp

namespace Query

/-- The series of all metrics over the leaves of a response, each with the place of its metric. -/
def seriesAt (q : Query) (response : Entries Json) : List (Nat × Series) :=
  (Leaf.overTime q response).flatMap (Leaf.seriesAt q)

/-- Frames draw some series, without the points at their ends, and behind them there may be a
table. No frame tells the flag of the metric that it draws. -/
def FramesDraw (q : Query) (series : List Series) (frames : List Frame) : Prop :=
  ∃ drawn table, frames = drawn ++ Option.toList table ∧
    List.Forall₂ (fun s f => Frame.Draws (s.trimmed q.trimEdges) f) series drawn

theorem zipIdx_withHidden (q : Query) (hidden : Nat → Bool) :
    (q.withHidden hidden).metrics.zipIdx =
      q.metrics.zipIdx.map fun x => ({ x.1 with hide := hidden x.2 }, x.2) := by
  refine List.ext_getElem? fun i => ?_
  simp only [withHidden, List.getElem?_zipIdx, List.getElem?_mapIdx, List.getElem?_map,
    Option.map_map, Nat.zero_add]
  rfl

/-- A series with the flag of its metric set. -/
def flagged (hidden : Nat → Bool) (x : Nat × Series) : Nat × Series :=
  (x.1, { x.2 with metric := { x.2.metric with hide := hidden x.1 } })

/-- The flags play no part in the series themselves. -/
theorem seriesAt_withHidden (q : Query) (hidden : Nat → Bool) (response : Entries Json) :
    (q.withHidden hidden).seriesAt response = (q.seriesAt response).map (flagged hidden) := by
  unfold seriesAt Leaf.seriesAt
  rw [Leaf.overTime, Leaf.ofResponse_withHidden, ← Leaf.overTime, List.map_flatMap,
    zipIdx_withHidden]
  refine List.flatMap_congr fun leaf _ => ?_
  rw [List.map_flatMap, List.flatMap_map]
  refine List.flatMap_congr fun x _ => ?_
  rw [List.map_map]
  rfl

theorem series_eq_filter_seriesAt {q : Query} {response : Entries Json} {c : Collected}
    (h : Collected.ofResponse q response = .ok c) :
    c.series = ((q.seriesAt response).filter fun x => !x.2.metric.hide).map (·.2) := by
  rw [Collected.series_eq_flatMap h, seriesAt, List.filter_flatMap, List.map_flatMap]
  exact List.flatMap_congr fun leaf _ => leaf.drawn_eq_filter_seriesAt q

/-- The frames of a response draw the series of the visible metrics. -/
theorem framesDraw_visible {q : Query} {response : Entries Json} {frames : List Frame}
    (h : aggregationFrames q response = .ok frames) :
    q.FramesDraw (((q.seriesAt response).filter fun x => !x.2.metric.hide).map (·.2)) frames := by
  obtain ⟨c, hc, rfl⟩ := aggregationFrames_eq_ok_iff.mp h
  refine ⟨_, c.table.map fun t => { columns := t }, rfl, ?_⟩
  rw [← series_eq_filter_seriesAt hc, ← c.drawn_map_fst (q := q), List.forall₂_map_left_iff,
    List.forall₂_map_right_iff, List.forall₂_same]
  intro x hx
  obtain ⟨named, -, rfl⟩ := List.mem_map.mp hx
  exact Frame.draws_ofSeries _ named.2

/-- Hiding some metrics and showing others changes no request, and of the series over a response
just those of the visible metrics are drawn before and after, each with its labels and points and
all in the order of one list. -/
theorem hiding_removes_own_series (q : Query) (hidden : Nat → Bool) :
    (∀ target before after,
      SearchRequest.ofQueries target (before ++ q.withHidden hidden :: after) =
        SearchRequest.ofQueries target (before ++ q :: after)) ∧
    ∀ response frames frames', aggregationFrames q response = .ok frames →
      aggregationFrames (q.withHidden hidden) response = .ok frames' →
      q.FramesDraw (((q.seriesAt response).filter fun x => !x.2.metric.hide).map (·.2)) frames ∧
      q.FramesDraw (((q.seriesAt response).filter fun x => !hidden x.1).map (·.2)) frames' := by
  refine ⟨fun target before after => ?_, fun response frames frames' h h' => ?_⟩
  · rw [← SearchRequest.ofQueries_shown,
      ← SearchRequest.ofQueries_shown target (before ++ q :: after), List.map_append,
      List.map_append, List.map_cons, List.map_cons, shown_withHidden]
  · refine ⟨framesDraw_visible h, ?_⟩
    have hdraw := framesDraw_visible h'
    rw [seriesAt_withHidden, List.filter_map, List.map_map] at hdraw
    obtain ⟨drawn, table, rfl, hall⟩ := hdraw
    refine ⟨drawn, table, rfl, ?_⟩
    rw [List.forall₂_map_left_iff] at hall ⊢
    exact hall

def latencyAnswer : Entries Json :=
  timesAnswer [latencyBucket 1000 5, latencyBucket 2000 7, latencyBucket 3000 9]

/-- Of the average latency and the count the average is hidden. -/
theorem hiding_average : ∃ frames frames',
    aggregationFrames trimmedLatency latencyAnswer = .ok frames ∧
    aggregationFrames (trimmedLatency.withHidden (· == 0)) latencyAnswer = .ok frames' ∧
    trimmedLatency.FramesDraw (((trimmedLatency.seriesAt latencyAnswer).filter
      fun x => !x.2.metric.hide).map (·.2)) frames ∧
    trimmedLatency.FramesDraw (((trimmedLatency.seriesAt latencyAnswer).filter
      fun x => !(x.1 == 0)).map (·.2)) frames' := by
  obtain ⟨frames, hframes⟩ : ∃ frames, aggregationFrames trimmedLatency latencyAnswer =
      .ok frames := by
    rw [aggregationFrames, Collected.ofResponse, latencyAnswer, ofResponse_timesAnswer]
    exact exists_of_isOk (by decide +kernel)
  obtain ⟨frames', hframes'⟩ : ∃ frames', aggregationFrames (trimmedLatency.withHidden (· == 0))
      latencyAnswer = .ok frames' := by
    rw [aggregationFrames, Collected.ofResponse, Leaf.ofResponse_withHidden, latencyAnswer,
      ofResponse_timesAnswer]
    exact exists_of_isOk (by decide +kernel)
  exact ⟨frames, frames', hframes, hframes',
    (hiding_removes_own_series trimmedLatency (· == 0)).2 _ _ _ hframes hframes'⟩

end Query

end PanelSearch
