import PanelSearch.Proofs.Json.Basic
import PanelSearch.Proofs.Json.Reordered
import PanelSearch.Proofs.Response.Walk
import PanelSearch.Proofs.Traversal
import PanelSearch.Response.Aggregations

/-! Responses that differ only in the order of the keys of their objects have the same frames. What
a bucket says is looked up by key, and what is gone through in an object is sorted first, so the
walk finds the same leaves, with results that again differ in the order of keys only. -/

namespace PanelSearch

open Json (member Reordered)
open Traversal

namespace Bucket

/-- Two buckets differ only in the order of keys. -/
def Alike (a b : Bucket) : Prop := Reordered (.obj a) (.obj b)

namespace Alike

variable {a b : Bucket} (h : a.Alike b)
include h

theorem label?_eq : a.label? = b.label? := by
  have htext := h.member "key_as_string"
  have hkey := h.member "key"
  unfold label?
  generalize member a "key_as_string" = textA, member b "key_as_string" = textB at htext
  generalize member a "key" = keyA, member b "key" = keyB at hkey
  cases htext <;> cases hkey <;> rfl

theorem under (keys : List String) : Reordered (a.under keys) (b.under keys) := h.path keys

theorem count_eq : a.count = b.count := (h.member "doc_count").toDouble_eq

theorem statistic (metricId stat : String) :
    Reordered (a.statistic metricId stat) (b.statistic metricId stat) := by
  unfold Bucket.statistic
  split <;> exact h.under _

theorem percentiles (metricId : String) :
    Reordered (.obj ((a.percentiles? metricId).getD []))
      (.obj ((b.percentiles? metricId).getD [])) :=
  (h.under _).getD_members

theorem instant?_eq : Series.instant? a = Series.instant? b := by
  rw [Series.instant?, Series.instant?, (h.member "key").toDouble_eq]

/-- What is read from the top document does not depend on the order of keys. -/
theorem topMetric_bind_eq {β : Type} {f : Json → Except Fault β}
    (hf : ∀ x y, Reordered x y → f x = f y) (metricId : String) (name : Json) :
    a.topMetric metricId name >>= f = b.topMetric metricId name >>= f := by
  have htop := h.under [metricId, "top"]
  unfold Bucket.topMetric
  generalize a.under [metricId, "top"] = topA, b.under [metricId, "top"] = topB at htop
  cases htop with
  | same => rfl
  | obj => rfl
  | arr hlength hitems =>
    cases Json.forall₂_of_getElem? hlength hitems with
    | nil => rfl
    | @cons x y _ _ hfirst _ =>
      cases hfirst with
      | same => cases x <;> rfl
      | arr => rfl
      | @obj docA docB hdistinct hkeys hvalues =>
        have hmetrics := (Reordered.obj hdistinct hkeys hvalues).member "metrics"
        simp only
        generalize member docA "metrics" = metricsA, member docB "metrics" = metricsB at hmetrics
        cases hmetrics with
        | same => rfl
        | arr => rfl
        | obj hdistinct hkeys hvalues =>
          cases name with
          | str s => exact hf _ _ ((Reordered.obj hdistinct hkeys hvalues).member s)
          | _ => rfl

end Alike

theorem forall₂_alike_members {as bs : List Json} (h : List.Forall₂ Reordered as bs) :
    List.Forall₂ Alike (as.filterMap Json.members?) (bs.filterMap Json.members?) :=
  List.rel_filterMap (fun _ _ hab => hab.members) h

/-- The buckets of an aggregation are alike, or there are none on either side. -/
theorem forall₂_ofResult {a b : Entries Json} (h : Reordered (.obj a) (.obj b)) :
    (∃ as bs, ofResult a = .ok as ∧ ofResult b = .ok bs ∧ List.Forall₂ Alike as bs) ∨
      ofResult a = ofResult b := by
  have hbuckets := h.member "buckets"
  unfold ofResult
  generalize member a "buckets" = bucketsA, member b "buckets" = bucketsB at hbuckets
  cases hbuckets with
  | same => exact .inr rfl
  | @arr as bs hlength hitems =>
    have hall := Json.forall₂_of_getElem? hlength hitems
    refine .inl ⟨as.filterMap Json.members?, bs.filterMap Json.members?, ?_, ?_,
      forall₂_alike_members hall⟩
    · cases as <;> rfl
    · cases bs <;> rfl
  | @obj as bs hdistinct hkeys hvalues =>
    refine .inr ?_
    have hempty := (Reordered.obj hdistinct hkeys hvalues).isEmpty_eq
    simp only [Json.isGiven, Json.elements?, hempty, List.filterMap_map]
    simp only [Function.comp_def, Json.members?]
    simp

end Bucket

section Series

open Bucket (Alike)

variable {m : Metric} {labels : Entries String} {as bs : List Bucket}
  (h : List.Forall₂ Alike as bs)
include h

namespace Series

theorem pointsOf_eq_of_alike {f g : Bucket → Except Fault (Option Double)}
    (hvalue : ∀ a b, Alike a b → f a = g b) : pointsOf f as = pointsOf g bs := by
  unfold pointsOf
  refine congrArg (· >>= _) (mapM_eq_of_forall₂ h fun a b hab => ?_)
  rw [hvalue a b hab, hab.instant?_eq]

theorem ofPlain_eq_of_alike : ofPlain m labels as = ofPlain m labels bs := by
  have hvalues : List.Forall₂ (fun x y => Alike x.1 y.1 ∧ Reordered (.obj x.2) (.obj y.2))
      (as.filterMap fun b => (member b m.id).members?.map (b, ·))
      (bs.filterMap fun b => (member b m.id).members?.map (b, ·)) := by
    refine List.rel_filterMap (fun a b hab => ?_) h
    have hmembers := (Reordered.member hab m.id).members
    generalize (member a m.id).members? = foundA, (member b m.id).members? = foundB at hmembers
    cases hmembers with
    | none => exact .none
    | some hfound => exact .some ⟨hab, hfound⟩
  unfold ofPlain
  refine congrArg (· >>= _) (mapM_eq_of_forall₂ hvalues ?_)
  rintro ⟨bucketA, valueA⟩ ⟨bucketB, valueB⟩ ⟨hbucket, hfound⟩
  have hvalue : plainValue valueA = plainValue valueB :=
    (Json.getD_rel (hfound.get? "normalized_value") (hfound.member "value")).toDouble_eq
  simp only [hvalue, Alike.instant?_eq hbucket]

theorem percentileNames_eq_of_alike : percentileNames m as = percentileNames m bs := by
  cases h with
  | nil => rfl
  | @cons a b _ _ hab _ =>
    have hvalues := (hab.under [m.id, "values"]).members
    change ((a.percentiles? m.id).map Entries.sortedKeys).getD [] =
      ((b.percentiles? m.id).map Entries.sortedKeys).getD []
    unfold Bucket.percentiles?
    generalize (a.under [m.id, "values"]).members? = valuesA,
      (b.under [m.id, "values"]).members? = valuesB at hvalues
    cases hvalues with
    | none => rfl
    | some hobj => rw [Option.map_some, Option.map_some, hobj.sortedKeys_eq]

theorem ofMetric_eq_of_alike : ofMetric labels as m = ofMetric labels bs m := by
  unfold ofMetric
  split
  · rw [pointsOf_eq_of_alike h fun a b hab => hab.count_eq]
  · unfold ofPercentiles
    rw [percentileNames_eq_of_alike h]
    refine congrArg (List.mapM · _) (funext fun name => ?_)
    rw [pointsOf_eq_of_alike h fun a b hab => ((hab.percentiles m.id).member name).toDouble_eq]
  · unfold ofTopMetrics
    refine congrArg (List.mapM · _) (funext fun name => ?_)
    rw [pointsOf_eq_of_alike h fun a b hab =>
      hab.topMetric_bind_eq (fun _ _ hxy => hxy.toDouble_eq) m.id name]
  · unfold ofStatistics
    refine congrArg (List.mapM · _) (funext fun stat => ?_)
    rw [pointsOf_eq_of_alike h fun a b hab => (hab.statistic m.id stat).toDouble_eq]
  · rw [ofPlain_eq_of_alike h]

end Series

end Series

namespace Leaf

/-- Two leaves were reached under the same labels, and their results differ only in the order of
keys. -/
structure Alike (a b : Leaf) : Prop where
  agg : a.agg = b.agg
  labels : a.labels = b.labels
  result : Reordered (.obj a.result) (.obj b.result)

theorem Alike.refl (leaf : Leaf) : Alike leaf leaf := ⟨rfl, rfl, .same _⟩

theorem labelled_eq_of_reordered {a b : Json} (h : Reordered a b) (labels : Entries String)
    (agg : BucketAgg) : labelled labels agg a = labelled labels agg b := by
  have hmembers := h.members
  unfold labelled
  generalize a.members? = membersA, b.members? = membersB at hmembers
  cases hmembers with
  | none => rfl
  | some hbuckets => rw [Option.bind_some, Option.bind_some, Bucket.Alike.label?_eq hbuckets]

theorem inKeyOrder_ofMembers (q : Query) (depth : Nat) (labels : Entries String)
    (members : Entries Json) : inKeyOrder (ofMembers q depth labels members) =
      (Entries.sorted members).flatMap fun e => ofResult q depth labels e.1 e.2 := by
  rw [ofMembers_eq_map, inKeyOrder_eq, Entries.sorted_map, List.flatMap_map]

/-- The walk finds the same leaves in two values, in each of the places where it can meet them. -/
structure SameLeaves (q : Query) (a b : Json) : Prop where
  level : ∀ depth labels,
    List.Forall₂ Alike (ofLevel q depth labels a) (ofLevel q depth labels b)
  result : ∀ depth labels id,
    List.Forall₂ Alike (ofResult q depth labels id a) (ofResult q depth labels id b)
  buckets : ∀ depth labels agg,
    List.Forall₂ Alike (ofBuckets q depth labels agg a) (ofBuckets q depth labels agg b)

namespace SameLeaves

variable {q : Query}

theorem refl (j : Json) : SameLeaves q j j where
  level _ _ := List.forall₂_same.mpr fun leaf _ => .refl leaf
  result _ _ _ := List.forall₂_same.mpr fun leaf _ => .refl leaf
  buckets _ _ _ := List.forall₂_same.mpr fun leaf _ => .refl leaf

theorem arr {as bs : List Json} (hitems : List.Forall₂ Reordered as bs)
    (h : List.Forall₂ (SameLeaves q) as bs) : SameLeaves q (.arr as) (.arr bs) where
  level depth labels := by
    rw [ofLevel, ofLevel]
    · exact .nil
    all_goals
      intro _ heq
      cases heq
  result depth labels id := by
    rw [ofResult, ofResult]
    · exact .nil
    all_goals
      intro _ heq
      cases heq
  buckets depth labels agg := by
    rw [ofBuckets_arr, ofBuckets_arr]
    induction h with
    | nil => exact .nil
    | @cons a b as bs hab _ ih =>
      obtain ⟨hsame, hrest⟩ := List.forall₂_cons.mp hitems
      rw [List.flatMap_cons, List.flatMap_cons, labelled_eq_of_reordered hsame labels agg]
      exact List.rel_append (hab.level _ _) (ih hrest)

/-- Sorted, the members of both objects stand under the same keys, one by one. -/
theorem obj {as bs : Entries Json} (hmembers : Reordered (.obj as) (.obj bs))
    (hdistinct : (Entries.keys as).Nodup) (hkeys : (Entries.keys as).Perm (Entries.keys bs))
    (h : ∀ (key : String) (a b : Json), Entries.get? as key = some a →
      Entries.get? bs key = some b → SameLeaves q a b) : SameLeaves q (.obj as) (.obj bs) := by
  have hsorted := Entries.forall₂_sorted hdistinct hkeys h
  have hresults : ∀ depth labels, List.Forall₂ Alike (inKeyOrder (ofMembers q depth labels as))
      (inKeyOrder (ofMembers q depth labels bs)) := by
    intro depth labels
    rw [inKeyOrder_ofMembers, inKeyOrder_ofMembers]
    refine List.rel_flatMap hsorted fun x y hxy => ?_
    rw [hxy.1]
    exact hxy.2.result depth labels y.1
  constructor
  · intro depth labels
    rw [ofLevel, ofLevel]
    exact hresults depth labels
  · intro depth labels id
    rw [ofResult, ofResult]
    cases q.findBucket? id with
    | none => exact .nil
    | some agg =>
      simp only
      split
      · exact hresults (depth + 1) labels
      · split
        · exact .cons ⟨rfl, rfl, hmembers⟩ .nil
        · rw [ofBucketsMember_eq, ofBucketsMember_eq]
          have hbuckets : SameLeaves q (member as "buckets") (member bs "buckets") :=
            Json.getD_rel (Json.get?_rel hkeys h "buckets") (.refl _)
          exact hbuckets.buckets depth labels agg
  · intro depth labels agg
    rw [ofBuckets_obj, ofBuckets_obj]
    refine List.rel_flatMap hsorted fun x y hxy => ?_
    rw [hxy.1]
    exact hxy.2.level (depth + 1) _

theorem of_reordered (q : Query) {a b : Json} (h : Reordered a b) : SameLeaves q a b := by
  induction h with
  | same j => exact .refl j
  | arr hlength hitems ih =>
    exact .arr (Json.forall₂_of_getElem? hlength hitems) (Json.forall₂_of_getElem? hlength ih)
  | obj hdistinct hkeys hvalues ih =>
    exact .obj (.obj hdistinct hkeys hvalues) hdistinct hkeys ih

end SameLeaves

theorem forall₂_ofResponse (q : Query) {a b : Entries Json} (h : Reordered (.obj a) (.obj b)) :
    List.Forall₂ Alike (ofResponse q a) (ofResponse q b) :=
  (SameLeaves.of_reordered q (h.member "aggregations")).level 0 []

variable {a b : Leaf}

theorem series_eq_of_alike (q : Query) (h : Alike a b) : Series.ofLeaf q a = Series.ofLeaf q b := by
  unfold Series.ofLeaf
  rw [h.labels]
  rcases Bucket.forall₂_ofResult h.result with ⟨as, bs, ha, hb, hbuckets⟩ | heq
  · have hmetrics : Series.ofMetric b.labels as = Series.ofMetric b.labels bs :=
      funext fun m => Series.ofMetric_eq_of_alike hbuckets
    rw [ha, hb]
    change List.mapM (Series.ofMetric b.labels as) _ >>= _ = _
    rw [hmetrics]
    rfl
  · rw [heq]

end Leaf

namespace Table

section Row

variable {a b : Bucket} (h : a.Alike b)
include h

theorem keyCell_eq_of_alike : keyCell a = keyCell b := by
  have hkey := h.member "key"
  unfold keyCell
  generalize member a "key" = keyA, member b "key" = keyB at hkey
  cases hkey <;> rfl

theorem metricCells_eq_of_alike (q : Query) (m : Metric) :
    metricCells q a m = metricCells q b m := by
  have hvalues := h.percentiles m.id
  unfold metricCells
  split
  · rw [h.count_eq]
  · simp only [hvalues.sortedKeys_eq, fun name => (hvalues.member name).toDouble_eq]
  · simp only [fun stat => (h.statistic m.id stat).toDouble_eq]
  · refine congrArg (· >>= _) (congrArg (List.mapM · _) (funext fun name => ?_))
    refine h.topMetric_bind_eq (fun x y hxy => ?_) m.id name
    rw [hxy.isNull_eq, hxy.toDouble_eq]
  · rw [(h.under [m.id, "value"]).toDouble_eq]

theorem addRow_eq_of_alike (q : Query) {la lb : Leaf} (hleaf : la.Alike lb) (t : Table) :
    addRow q la t a = addRow q lb t b := by
  unfold addRow
  rw [hleaf.agg, hleaf.labels, keyCell_eq_of_alike h, funext (metricCells_eq_of_alike h q)]

end Row

theorem addLeaf_eq_of_alike (q : Query) {a b : Leaf} (h : a.Alike b) (t : Option Table) :
    addLeaf q a t = addLeaf q b t := by
  have hrows : ∀ {as bs : List Json}, List.Forall₂ Reordered as bs → ∀ start,
      (as.filterMap Json.members?).foldlM (addRow q a) start =
        (bs.filterMap Json.members?).foldlM (addRow q b) start := fun hitems =>
    foldlM_eq_of_forall₂ (Bucket.forall₂_alike_members hitems) fun t _ _ hbucket =>
      addRow_eq_of_alike hbucket q h t
  have hbuckets := h.result.member "buckets"
  unfold addLeaf
  rw [h.labels]
  generalize member a.result "buckets" = bucketsA, member b.result "buckets" = bucketsB at hbuckets
  cases hbuckets with
  | same =>
    cases bucketsA with
    | arr items =>
      cases items with
      | nil => rfl
      | cons item items =>
        simp only [hrows (List.forall₂_same.mpr fun j _ => Reordered.same j)]
    | _ => rfl
  | arr hlength hitems =>
    cases Json.forall₂_of_getElem? hlength hitems with
    | nil => rfl
    | cons hfirst hrest => simp only [hrows (.cons hfirst hrest)]
  | obj => rfl

end Table

theorem Collected.add_eq_of_alike (q : Query) (c : Collected) {a b : Leaf} (h : a.Alike b) :
    c.add q a = c.add q b := by
  unfold add
  rw [h.agg, Leaf.series_eq_of_alike q h, Table.addLeaf_eq_of_alike q h]

/-- The order of keys in a response has no say in its frames, nor in the fault that leaves it
without frames. -/
theorem aggregationFrames_eq_of_reordered (q : Query) {a b : Entries Json}
    (h : Reordered (.obj a) (.obj b)) : aggregationFrames q a = aggregationFrames q b := by
  have hcollected : Collected.ofResponse q a = Collected.ofResponse q b :=
    foldlM_eq_of_forall₂ (Leaf.forall₂_ofResponse q h)
      (fun c _ _ hleaf => Collected.add_eq_of_alike q c hleaf) {}
  rw [aggregationFrames, aggregationFrames, hcollected]

/-- A query for percentiles over time in each of some filters. -/
def latencyOverTime : Query where
  refId := "A"
  rawQuery := ""
  buckets := [
    { id := "3", kind := .filters, field := "", settings := [] },
    { id := "2", kind := .dateHistogram, field := "timestamp", settings := [] }]
  metrics := [
    { id := "1", kind := .percentiles, field := "latency", hide := false, source := "",
      inputs := [], settings := [], flags := [] }]
  aliasPattern := ""
  intervalMs := 1000
  maxDataPoints := 100
  rangeFrom := 0
  rangeTo := 60000

def overTime (b : Bucket) : Json := .obj [("2", .obj [("buckets", .arr [.obj b])])]

def latencies : Entries Json := [
  ("took", .int 4),
  ("aggregations", .obj [("3", .obj [("buckets", .obj [
    ("api", overTime [
      ("key", .int 1000),
      ("1", .obj [("values", .obj [("50.0", .int 10), ("95.0", .int 20)])])]),
    ("web", overTime [("key", .int 1000)])])])])]

/-- The latencies with the other order of keys in the response, among the filters, in a bucket and
among its percentiles. -/
def latenciesReordered : Entries Json := [
  ("aggregations", .obj [("3", .obj [("buckets", .obj [
    ("web", overTime [("key", .int 1000)]),
    ("api", overTime [
      ("1", .obj [("values", .obj [("95.0", .int 20), ("50.0", .int 10)])]),
      ("key", .int 1000)])])])]),
  ("took", .int 4)]

theorem reordered_overTime {a b : Bucket} (h : a.Alike b) :
    Reordered (overTime a) (overTime b) := by
  have hbuckets : Reordered (.arr [.obj a]) (.arr [.obj b]) := by
    refine .arr rfl fun i x y hx hy => ?_
    cases i with
    | zero =>
      cases hx
      cases hy
      exact h
    | succ i => cases hx
  exact .single "2" (.single "buckets" hbuckets)

theorem latencies_frames : Reordered (.obj latencies) (.obj latenciesReordered) ∧
    aggregationFrames latencyOverTime latencies =
      aggregationFrames latencyOverTime latenciesReordered := by
  have hvalues : Reordered (.obj [("50.0", .int 10), ("95.0", .int 20)])
      (.obj [("95.0", .int 20), ("50.0", .int 10)]) :=
    .swap (by decide) (.same _) (.same _)
  have hbucket : Bucket.Alike
      [("key", .int 1000), ("1", .obj [("values", .obj [("50.0", .int 10), ("95.0", .int 20)])])]
      [("1", .obj [("values", .obj [("95.0", .int 20), ("50.0", .int 10)])]), ("key", .int 1000)] :=
    .swap (by decide) (.same _) (.single "values" hvalues)
  have hresponse : Reordered (.obj latencies) (.obj latenciesReordered) := by
    refine .swap (by decide) (.same _) (.single "3" (.single "buckets" ?_))
    exact .swap (by decide) (reordered_overTime hbucket) (.same _)
  exact ⟨hresponse, aggregationFrames_eq_of_reordered latencyOverTime hresponse⟩

end PanelSearch
