import PanelSearch.Proofs.Response.TimeSeries

/-! What the frames of any response that has frames draw: for each leaf over time the lines of the
visible metrics, and then the table. Nothing is asked of the response. That its keys and values can
be read follows from there being frames. -/

namespace PanelSearch

open Json (member)
open Traversal

namespace Json

theorem fits_of_toDouble {j : Json} {v : Option Double} (h : j.toDouble = .ok v) : j.Fits := by
  cases j with
  | int n =>
    rw [toDouble] at h
    cases hd : Double.ofInt? n with
    | none => rw [hd] at h; cases h
    | some d => exact fits_int_iff.mpr ⟨d, hd⟩
  | _ => trivial

theorem number?_of_toDouble {j : Json} {v : Option Double} (h : j.toDouble = .ok v) :
    v = j.number? := by
  rw [(fits_of_toDouble h).toDouble_eq] at h
  exact (Except.ok.inj h).symm

/-- The whole part of the double that stands for a value, where it is in the calendar. -/
theorem millis?_of_number? {j : Json} {d : Double} {ms : Int} {t : Instant}
    (hd : j.number? = some d) (hms : d.truncate? = some ms)
    (ht : Instant.ofNanos? (ms * 1000000) = some t) : j.millis? = some ms := by
  cases j with
  | int n =>
    rw [Double.eq_of_ofInt?_truncate hd hms (Instant.natAbs_lt_of_ofNanos? ht)]
    rfl
  | double d' => cases hd; exact hms
  | str s => rw [millis?, show Numeral.double? s.toList = some d from hd, Option.bind_some, hms]
  | _ => cases hd

end Json

namespace Bucket

/-- A key that is read as an instant is the number of its milliseconds. -/
theorem time?_of_instant? {b : Bucket} {t : Option Instant} (h : Series.instant? b = .ok t) :
    b.time? = t := by
  unfold Series.instant? at h
  obtain ⟨key, hkey, h⟩ := bind_eq_ok_iff.mp h
  have hnumber := Json.number?_of_toDouble hkey
  cases key with
  | none =>
    cases h
    exact time?_eq_none (Json.fits_of_toDouble hkey) hnumber.symm
  | some d =>
    cases d with
    | finite negative significand shift canonical =>
      obtain ⟨ms, hms⟩ : ∃ ms, (Double.finite negative significand shift canonical).truncate? =
          some ms := ⟨_, rfl⟩
      simp only [hms, Option.getD_some] at h
      split at h
      · next instant hinstant =>
        cases h
        rw [time?, Json.millis?_of_number? hnumber.symm hms hinstant, Option.bind_some, hinstant]
      · cases h
    | infinite negative => cases h
    | nan => cases h

/-- The value of the top document under a name of any kind, which is null unless it is a text. -/
def topValueAt (b : Bucket) (metricId : String) : Json → Json
  | .str name => b.topValue metricId name
  | _ => .null

theorem eq_topValueAt {b : Bucket} {name j : Json} {metricId : String}
    (h : b.topMetric metricId name = .ok j) : j = b.topValueAt metricId name := by
  cases name with
  | str s =>
    rw [Series.topMetric_eq] at h
    exact (Except.ok.inj h).symm
  | _ =>
    unfold topMetric at h
    split at h
    · split at h
      · first | (cases h; rfl) | cases h
      · cases h; rfl
    · cases h; rfl

theorem filterMap_members?_of_elements? {j : Json} (hno : j.items? = none) {items : List Json}
    (h : j.elements? = some items) : items.filterMap Json.members? = [] := by
  cases j with
  | arr items => cases hno
  | str s => cases h; simp [List.filterMap_map, Json.members?]
  | obj members => cases h; simp [List.filterMap_map, Json.members?]
  | _ => cases h

/-- Of what stands for buckets only the objects of an array are some. -/
theorem eq_buckets_of_ofResult {leaf : Leaf} {buckets : List Bucket}
    (h : ofResult leaf.result = .ok buckets) : buckets = leaf.buckets := by
  cases hitems : (member leaf.result "buckets").items? with
  | some items =>
    have harray : member leaf.result "buckets" = .arr items := by
      cases hmember : member leaf.result "buckets" <;> rw [hmember] at hitems <;> cases hitems
      rfl
    rw [Series.ofResult_eq_ok harray] at h
    exact (Except.ok.inj h).symm
  | none =>
    rw [Leaf.buckets, hitems]
    unfold ofResult at h
    simp only at h
    split at h
    · split at h
      · next items helements =>
        cases h
        exact filterMap_members?_of_elements? hitems helements
      · cases h
    · cases h
      rfl

end Bucket

namespace Metric

/-- The lines that a metric is drawn as: those that it is to show, where a name that is no text
names no value of the top document. -/
def drawnLines (m : Metric) (buckets : List Bucket) : List Line :=
  match m.kind with
  | .topMetrics => m.topNames.map fun name =>
    ⟨"top_metrics", name.label, fun b => some (b.topValueAt m.id name)⟩
  | _ => m.lines buckets

end Metric

namespace Leaf

def drawn (q : Query) (leaf : Leaf) : List Series :=
  q.visible.flatMap fun m =>
    (m.drawnLines leaf.buckets).map (Line.series m leaf.labels leaf.buckets)

end Leaf

namespace Series

variable {m : Metric} {labels : Entries String} {buckets : List Bucket}

/-- Points that are found draw the line of the values that are read for them. -/
theorem eq_series_of_pointsOf {metricLabel fieldLabel : String} {v : Bucket → Json}
    {value : Bucket → Except Fault (Option Double)} {s : Series}
    (hvalue : ∀ b o, value b = .ok o → o = (v b).number?)
    (h : (do
      let points ← pointsOf value buckets
      return ({ metric := m, metricLabel, fieldLabel, labels, points } : Series)) = .ok s) :
    s = Line.series m labels buckets ⟨metricLabel, fieldLabel, fun b => some (v b)⟩ := by
  obtain ⟨points, hpoints, h⟩ := bind_eq_ok_iff.mp h
  cases h
  obtain ⟨found, hfound, hpoints⟩ := bind_eq_ok_iff.mp hpoints
  cases hpoints
  have hsteps : found = buckets.map fun b => b.time?.map (·, (v b).number?) := by
    refine eq_map_of_mapM (fun b _ p hp => ?_) hfound
    obtain ⟨o, ho, hp⟩ := bind_eq_ok_iff.mp hp
    obtain ⟨t, ht, hp⟩ := bind_eq_ok_iff.mp hp
    cases hp
    rw [hvalue b o ho, Bucket.time?_of_instant? ht]
  rw [hsteps, List.filterMap_map]
  rfl

theorem eq_series_of_ofPlain {s : Series} (h : ofPlain m labels buckets = .ok s) :
    s = Line.series m labels buckets m.plainLine := by
  obtain ⟨found, hfound, h⟩ := bind_eq_ok_iff.mp h
  cases h
  have hsteps : found = (buckets.filterMap fun b => (member b m.id).members?.map (b, ·)).map
      fun x => (m.plainValue? x.1).bind fun j => (Bucket.time? x.1).map (·, j.number?) := by
    refine eq_map_of_mapM (fun x hx p hp => ?_) hfound
    obtain ⟨b, -, hvalue⟩ := List.mem_filterMap.mp hx
    obtain ⟨value, hmember, rfl⟩ := Option.map_eq_some_iff.mp hvalue
    obtain ⟨o, ho, hp⟩ := bind_eq_ok_iff.mp hp
    obtain ⟨t, ht, hp⟩ := bind_eq_ok_iff.mp hp
    cases hp
    rw [Metric.plainValue?, hmember, Bucket.time?_of_instant? ht, Json.number?_of_toDouble ho]
    rfl
  rw [hsteps, ← points_plainLine]
  rfl

theorem eq_map_drawnLines_of_ofMetric {group : List Series}
    (h : ofMetric labels buckets m = .ok group) :
    group = (m.drawnLines buckets).map (Line.series m labels buckets) := by
  cases hkind : m.kind with
  | count =>
    simp only [Metric.drawnLines, Metric.lines, hkind, ofMetric] at h ⊢
    obtain ⟨points, hpoints, h⟩ := bind_eq_ok_iff.mp h
    cases h
    rw [eq_series_of_pointsOf (fun _ _ => Json.number?_of_toDouble)
      (bind_eq_ok_iff.mpr ⟨points, hpoints, rfl⟩)]
    rfl
  | percentiles =>
    simp only [Metric.drawnLines, Metric.lines, hkind, ofMetric] at h ⊢
    rw [← percentileNames_eq, List.map_map]
    refine eq_map_of_mapM (fun name _ s hs => eq_series_of_pointsOf (fun b o ho => ?_) hs) h
    rw [← member_percentiles]
    exact Json.number?_of_toDouble ho
  | topMetrics =>
    simp only [Metric.drawnLines, hkind, ofMetric] at h ⊢
    rw [List.map_map]
    refine eq_map_of_mapM (fun name _ s hs => eq_series_of_pointsOf (fun b o ho => ?_) hs) h
    obtain ⟨j, hj, ho⟩ := bind_eq_ok_iff.mp ho
    rw [← Bucket.eq_topValueAt hj]
    exact Json.number?_of_toDouble ho
  | extendedStats =>
    simp only [Metric.drawnLines, Metric.lines, hkind, ofMetric] at h ⊢
    rw [List.map_map]
    exact eq_map_of_mapM
      (fun stat _ s hs => eq_series_of_pointsOf (fun _ _ => Json.number?_of_toDouble) hs) h
  | _ =>
    simp only [Metric.drawnLines, Metric.lines, hkind, ofMetric] at h ⊢
    obtain ⟨s, hs, rfl⟩ := map_eq_ok_iff.mp h
    rw [eq_series_of_ofPlain hs]
    rfl

/-- The series of a leaf that has any are the lines of the visible metrics. -/
theorem eq_drawn_of_ofLeaf {q : Query} {leaf : Leaf} {series : List Series}
    (h : ofLeaf q leaf = .ok series) : series = leaf.drawn q := by
  obtain ⟨buckets, hbuckets, h⟩ := bind_eq_ok_iff.mp h
  obtain ⟨groups, hgroups, h⟩ := bind_eq_ok_iff.mp h
  cases h
  rw [Bucket.eq_buckets_of_ofResult hbuckets] at hgroups
  rw [eq_map_of_mapM (fun m _ group => eq_map_drawnLines_of_ofMetric) hgroups]
  rfl

end Series

namespace Leaf

/-- The leaves of a response over time, in walk order. -/
def overTime (q : Query) (response : Entries Json) : List Leaf :=
  (ofResponse q response).filter fun leaf => decide (leaf.agg.kind = .dateHistogram)

end Leaf

namespace Collected

variable {q : Query}

theorem series_of_foldlM {leaves : List Leaf} {c after : Collected}
    (h : leaves.foldlM (add q) c = .ok after) :
    after.series = c.series ++ (leaves.filter fun leaf =>
      decide (leaf.agg.kind = .dateHistogram)).flatMap (Leaf.drawn q) := by
  induction leaves generalizing c with
  | nil =>
    cases h
    simp
  | cons leaf leaves ih =>
    rw [List.foldlM_cons] at h
    obtain ⟨next, hadd, h⟩ := bind_eq_ok_iff.mp h
    rw [ih h]
    rw [add] at hadd
    by_cases hkind : leaf.agg.kind = .dateHistogram
    · rw [if_pos hkind] at hadd
      obtain ⟨series, hseries, hadd⟩ := bind_eq_ok_iff.mp hadd
      cases hadd
      rw [List.filter_cons_of_pos (by simpa using hkind), Series.eq_drawn_of_ofLeaf hseries,
        List.flatMap_cons, List.append_assoc]
    · rw [if_neg hkind] at hadd
      obtain ⟨t, -, hadd⟩ := bind_eq_ok_iff.mp hadd
      cases hadd
      rw [List.filter_cons_of_neg (by simpa using hkind)]

/-- The series of a response are those of its leaves over time. -/
theorem series_eq_flatMap {response : Entries Json} {c : Collected}
    (h : ofResponse q response = .ok c) :
    c.series = (Leaf.overTime q response).flatMap (Leaf.drawn q) := by
  simpa [Leaf.overTime] using series_of_foldlM h

/-- The series with the frames that draw them. -/
def drawn (q : Query) (c : Collected) : List (Series × Frame) :=
  (Series.named q c.series).map fun x =>
    (x.1, Frame.ofSeries (x.1.trimmed q.trimEdges).points x.1.labels x.2)

theorem drawn_map_fst (c : Collected) : (c.drawn q).map (·.1) = c.series := by
  rw [drawn, List.map_map]
  exact Series.named_map_fst q c.series

/-- The frame of the table, if there is one. -/
def tableFrames (c : Collected) : List Frame := (c.table.map fun t => { columns := t }).toList

theorem frames_eq_drawn (c : Collected) : c.frames q = (c.drawn q).map (·.2) ++ c.tableFrames := by
  rw [drawn, List.map_map, tableFrames, frames]
  cases c.table with
  | none => exact (List.append_nil _).symm
  | some t => rfl

end Collected

theorem aggregationFrames_eq_ok_iff {q : Query} {response : Entries Json} {frames : List Frame} :
    aggregationFrames q response = .ok frames ↔
      ∃ c, Collected.ofResponse q response = .ok c ∧
        frames = (c.drawn q).map (·.2) ++ c.tableFrames := by
  rw [aggregationFrames, bind_eq_ok_iff]
  constructor
  · rintro ⟨c, hc, h⟩
    cases h
    exact ⟨c, hc, c.frames_eq_drawn⟩
  · rintro ⟨c, hc, rfl⟩
    exact ⟨c, hc, by rw [← c.frames_eq_drawn]; rfl⟩

end PanelSearch
