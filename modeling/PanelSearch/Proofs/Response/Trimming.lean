import PanelSearch.Proofs.Request.References
import PanelSearch.Proofs.Response.Drawn

/-! Trimming of series. The setting counts points at either end of a series. These are the points of
the buckets at either end of its leaf wherever a series has a point for every bucket there, so that
all series of a leaf are trimmed alike. A bucket without a metric has no point in its series, and
then the next bucket loses its point in its place. -/

namespace PanelSearch

open Json (member)

section Ends

variable {α β : Type}

/-- What is left of a list without `n` items at either end. -/
def inner (n : Nat) (xs : List α) : List α := (xs.drop n).take (xs.length - 2 * n)

/-- The items at either end of a list, `n` of them each if there are as many. -/
def edges (n : Nat) (xs : List α) : List α := xs.take n ++ xs.drop (xs.length - n)

theorem inner_eq_nil {n : Nat} {xs : List α} (h : xs.length ≤ 2 * n) : inner n xs = [] := by
  rw [inner, Nat.sub_eq_zero_of_le h, List.take_zero]

theorem inner_append {n : Nat} {front middle back : List α} (hfront : front.length = n)
    (hback : back.length = n) : inner n (front ++ middle ++ back) = middle := by
  have hlength : (front ++ middle ++ back).length - 2 * n = middle.length := by
    simp only [List.length_append]
    omega
  rw [inner, hlength, List.append_assoc, List.drop_left' hfront, List.take_left]

theorem edges_append {n : Nat} {front middle back : List α} (hfront : front.length = n)
    (hback : back.length = n) : edges n (front ++ middle ++ back) = front ++ back := by
  have hlength : (front ++ middle ++ back).length - n = (front ++ middle).length := by
    simp only [List.length_append]
    omega
  rw [edges, hlength, List.drop_left, List.append_assoc, List.take_left' hfront]

theorem exists_split {n : Nat} {xs : List α} (h : 2 * n ≤ xs.length) :
    ∃ front middle back, xs = front ++ middle ++ back ∧ front.length = n ∧ back.length = n := by
  refine ⟨xs.take n, (xs.drop n).take (xs.length - 2 * n), (xs.drop n).drop (xs.length - 2 * n),
    ?_, ?_, ?_⟩
  · rw [List.append_assoc, List.take_append_drop, List.take_append_drop]
  · rw [List.length_take]
    omega
  · rw [List.length_drop, List.length_drop]
    omega

theorem length_inner (n : Nat) (xs : List α) : (inner n xs).length = xs.length - 2 * n := by
  rw [inner, List.length_take, List.length_drop]
  omega

/-- What some items yield is trimmed like the items just when none of the inner ones yields
anything, or each of those at the ends does. -/
theorem inner_filterMap_eq_iff (f : α → Option β) (n : Nat) (xs : List α) :
    inner n (xs.filterMap f) = (inner n xs).filterMap f ↔
      (∀ x ∈ inner n xs, f x = none) ∨ ∀ x ∈ edges n xs, (f x).isSome = true := by
  by_cases hshort : xs.length ≤ 2 * n
  · have hyield : (xs.filterMap f).length ≤ 2 * n :=
      Nat.le_trans (List.length_filterMap_le f xs) hshort
    rw [inner_eq_nil hshort, inner_eq_nil hyield]
    exact iff_of_true rfl (.inl fun x hx => absurd hx List.not_mem_nil)
  obtain ⟨front, middle, back, rfl, hfront, hback⟩ := exists_split (Nat.le_of_not_le hshort)
  have hfrontLe := List.length_filterMap_le f front
  have hbackLe := List.length_filterMap_le f back
  rw [inner_append hfront hback, edges_append hfront hback, List.filterMap_append,
    List.filterMap_append, List.forall_mem_append]
  constructor
  · intro h
    by_cases hmiddle : middle.filterMap f = []
    · exact .inl (List.filterMap_eq_nil_iff.mp hmiddle)
    · have hpos := List.length_pos_iff.mpr hmiddle
      have hlength := congrArg List.length h
      rw [length_inner, List.length_append, List.length_append] at hlength
      refine .inr ⟨List.filterMap_length_eq_length.mp ?_, List.filterMap_length_eq_length.mp ?_⟩
      · omega
      · omega
  · rintro (hnone | ⟨hfrontAll, hbackAll⟩)
    · rw [List.filterMap_eq_nil_iff.mpr hnone, List.append_nil]
      refine inner_eq_nil ?_
      rw [List.length_append]
      omega
    · refine inner_append ?_ ?_
      · rw [List.filterMap_length_eq_length.mpr hfrontAll, hfront]
      · rw [List.filterMap_length_eq_length.mpr hbackAll, hback]

end Ends

namespace Line

/-- The point of a bucket, which has one if it has a value and an instant. -/
def point? (l : Line) (b : Bucket) : Option Point :=
  (l.value b).bind fun j => b.time?.map (·, j.number?)

theorem point?_isSome_iff (l : Line) {b : Bucket} :
    (l.point? b).isSome = true ↔ (l.value b).isSome = true ∧ b.time?.isSome = true := by
  rw [point?]
  cases l.value b <;> simp

/-- Trimming a line takes the points of the inner buckets, just when none of these has a point or
each bucket at the ends has one. -/
theorem inner_points_eq_iff (l : Line) (n : Nat) (buckets : List Bucket) :
    inner n (l.points buckets) = l.points (inner n buckets) ↔
      (∀ b ∈ inner n buckets, l.point? b = none) ∨
        ∀ b ∈ edges n buckets, (l.point? b).isSome = true :=
  inner_filterMap_eq_iff l.point? n buckets

end Line

theorem Query.trimEdges_eq {q : Query} {outer : List BucketAgg} {d : BucketAgg} {n : Nat}
    (hlevels : q.buckets = outer ++ [d]) (hkind : d.kind = .dateHistogram)
    (houter : ∀ b ∈ outer, b.kind ≠ .dateHistogram)
    (hedges : Setting.integer? (member d.settings "trimEdges") = some (n : Int)) :
    q.trimEdges = n := by
  have hfind : q.buckets.find? (·.kind == .dateHistogram) = some d := by
    rw [hlevels, List.find?_append, List.find?_eq_none.mpr (by simpa using houter)]
    simp [hkind]
  rw [trimEdges, hfind]
  simp only [Setting.integer, hedges]
  split
  · next h => exact (Int.natCast_eq_zero.mp h.1).symm
  · exact Int.toNat_natCast n

/-- Only the line of a metric with one value may lack one in a bucket. -/
theorem Metric.eq_plainLine_or_value_isSome {m : Metric} {buckets : List Bucket} {l : Line}
    (h : l ∈ m.drawnLines buckets) : l = m.plainLine ∨ ∀ b, (l.value b).isSome = true := by
  cases hkind : m.kind with
  | count =>
    simp only [drawnLines, lines, hkind] at h
    cases List.mem_singleton.mp h
    exact .inr fun b => rfl
  | percentiles | topMetrics | extendedStats =>
    simp only [drawnLines, lines, hkind] at h
    obtain ⟨name, -, rfl⟩ := List.mem_map.mp h
    exact .inr fun b => rfl
  | _ =>
    simp only [drawnLines, lines, hkind] at h
    exact .inl (List.mem_singleton.mp h)

/-- A frame draws a series without as many points at either end as the date histogram says, under
the name and with the labels of the whole series. These are the points of the inner buckets just
when none of the inner buckets has a point in the series or each bucket at the ends has one. A
bucket with an instant has one if it has a value, which only the metrics with one value may lack. -/
theorem trimmed_frames {q : Query} {response : Entries Json} {outer : List BucketAgg}
    {d : BucketAgg} {n : Nat} {frames : List Frame} (hlevels : q.buckets = outer ++ [d])
    (hkind : d.kind = .dateHistogram) (houter : ∀ b ∈ outer, b.kind ≠ .dateHistogram)
    (hedges : Setting.integer? (member d.settings "trimEdges") = some (n : Int))
    (hframes : aggregationFrames q response = .ok frames) :
    ∃ c, Collected.ofResponse q response = .ok c ∧
      c.series = (Leaf.overTime q response).flatMap (Leaf.drawn q) ∧
      frames = (Series.named q c.series).map (fun x =>
        Frame.ofSeries (inner n x.1.points) x.1.labels x.2) ++ c.tableFrames ∧
      ∀ leaf ∈ Leaf.overTime q response, ∀ m ∈ q.visible, ∀ l ∈ m.drawnLines leaf.buckets,
        (inner n (l.points leaf.buckets) = l.points (inner n leaf.buckets) ↔
          (∀ b ∈ inner n leaf.buckets, l.point? b = none) ∨
            ∀ b ∈ edges n leaf.buckets, (l.point? b).isSome = true) ∧
        (∀ b, (l.point? b).isSome = true ↔
          (l.value b).isSome = true ∧ b.time?.isSome = true) ∧
        (l = m.plainLine ∨ ∀ b, (l.value b).isSome = true) := by
  obtain ⟨c, hc, rfl⟩ := aggregationFrames_eq_ok_iff.mp hframes
  refine ⟨c, hc, Collected.series_eq_flatMap hc, ?_, fun leaf _ m _ l hl => ?_⟩
  · rw [Collected.drawn, Query.trimEdges_eq hlevels hkind houter hedges, List.map_map]
    rfl
  · exact ⟨l.inner_points_eq_iff n leaf.buckets, fun b => l.point?_isSome_iff,
      Metric.eq_plainLine_or_value_isSome hl⟩

def trimmedTimes : BucketAgg := ⟨"2", .dateHistogram, "ts", [("trimEdges", .str "1")]⟩

/-- The average latency and the count over time, without the first and the last point. -/
def trimmedLatency : Query :=
  { SearchRequest.overTime []
      [SearchRequest.bareMetric "1" .avg "latency", SearchRequest.bareMetric "3" .count ""] with
    buckets := [trimmedTimes] }

def timesAnswer (buckets : List Bucket) : Entries Json :=
  [("aggregations", .obj [("2", .obj [("buckets", .arr (buckets.map .obj))])])]

def latencyBucket (ms average : Int) : Bucket :=
  [("key", .int ms), ("doc_count", .int 1), ("1", .obj [("value", .int average)])]

/-- A bucket without the average. -/
def silentBucket (ms : Int) : Bucket := [("key", .int ms), ("doc_count", .int 0)]

theorem ofResponse_timesAnswer (buckets : List Bucket) :
    Leaf.ofResponse trimmedLatency (timesAnswer buckets) =
      [⟨trimmedTimes, [], [("buckets", .arr (buckets.map .obj))]⟩] := by
  have hkeys : Entries.keys (member (timesAnswer buckets) "aggregations").membersD = ["2"] := rfl
  have htree : Carries trimmedLatency trimmedLatency.buckets
      (member (timesAnswer buckets) "aggregations") :=
    .last ⟨by rw [hkeys]; decide, rfl, by rw [hkeys]; decide⟩
  exact (Leaf.ofResponse_eq (by decide) (List.nil_append _).symm (by decide) htree).trans rfl

theorem overTime_timesAnswer (buckets : List Bucket) :
    Leaf.overTime trimmedLatency (timesAnswer buckets) =
      [⟨trimmedTimes, [], [("buckets", .arr (buckets.map .obj))]⟩] := by
  rw [Leaf.overTime, ofResponse_timesAnswer]
  rfl

theorem latencies_trimmed : ∃ leaf ∈ Leaf.overTime trimmedLatency
      (timesAnswer [latencyBucket 1000 5, latencyBucket 2000 7, latencyBucket 3000 9]),
    leaf.buckets.length = 3 ∧ ∀ m ∈ trimmedLatency.visible, ∀ l ∈ m.drawnLines leaf.buckets,
      inner 1 (l.points leaf.buckets) = l.points (inner 1 leaf.buckets) := by
  obtain ⟨frames, hframes⟩ : ∃ frames, aggregationFrames trimmedLatency
      (timesAnswer [latencyBucket 1000 5, latencyBucket 2000 7, latencyBucket 3000 9]) =
        .ok frames := by
    rw [aggregationFrames, Collected.ofResponse, ofResponse_timesAnswer]
    exact Traversal.exists_of_isOk (by decide +kernel)
  obtain ⟨c, -, -, -, htrimmed⟩ := trimmed_frames (n := 1) (List.nil_append [trimmedTimes]).symm rfl
    (by simp) (by decide +kernel) hframes
  rw [overTime_timesAnswer] at htrimmed ⊢
  refine ⟨_, List.mem_singleton.mpr rfl, rfl, fun m hm l hl => ?_⟩
  refine (htrimmed _ (List.mem_singleton.mpr rfl) m hm l hl).1.mpr (.inr ?_)
  revert m l
  decide +kernel

/-- Without an average in the first bucket the average of the second one is lost. -/
theorem silentBucket_shifts : ∃ leaf ∈ Leaf.overTime trimmedLatency
      (timesAnswer [silentBucket 1000, latencyBucket 2000 5, latencyBucket 3000 7]),
    leaf.buckets.length = 3 ∧ (∀ b ∈ leaf.buckets, (member b "key").number?.isSome = true) ∧
    (∃ m ∈ trimmedLatency.visible, ∃ l ∈ m.drawnLines leaf.buckets,
      (inner 1 (l.points leaf.buckets)).length = 0 ∧
        (l.points (inner 1 leaf.buckets)).length = 1) ∧
    (aggregationFrames trimmedLatency
      (timesAnswer [silentBucket 1000, latencyBucket 2000 5, latencyBucket 3000 7])).toOption.map
        (·.map Frame.rowCount) = some [0, 1] := by
  rw [overTime_timesAnswer, aggregationFrames, Collected.ofResponse, ofResponse_timesAnswer]
  refine ⟨_, List.mem_singleton.mpr rfl, rfl, by decide +kernel, ?_, by decide +kernel⟩
  exact ⟨_, .head _, _, .head _, by decide +kernel⟩

end PanelSearch
