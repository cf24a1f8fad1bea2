import PanelSearch.Proofs.Request.Nodes
import PanelSearch.Proofs.Response.Tree

/-! The walk over a response finds the leaves of a tree that carries all levels of the query, and
none at all in a tree that lacks a level. -/

namespace PanelSearch

open Json (member)

theorem Query.findBucket?_eq {q : Query} (hids : (q.buckets.map (·.id)).Nodup) {b : BucketAgg}
    (hb : b ∈ q.buckets) : q.findBucket? b.id = some b :=
  (Traversal.find?_key_eq_some_iff hids).mpr ⟨hb, rfl⟩

namespace Leaf

variable {q : Query} {depth : Nat} {labels : Entries String}

theorem ofMembers_eq_map (members : Entries Json) : ofMembers q depth labels members =
    members.map fun e => (e.1, ofResult q depth labels e.1 e.2) := by
  induction members with
  | nil => rw [ofMembers, List.map_nil]
  | cons e members ih => rw [ofMembers, ih, List.map_cons]

theorem ofArray_eq_flatMap (agg : BucketAgg) (items : List Json) :
    ofArray q depth labels agg items =
      items.flatMap fun bucket => ofLevel q (depth + 1) (labelled labels agg bucket) bucket := by
  induction items with
  | nil => rw [ofArray, List.flatMap_nil]
  | cons bucket items ih => rw [ofArray, ih, List.flatMap_cons]

theorem ofKeyed_eq_map (buckets : Entries Json) : ofKeyed q depth labels buckets =
    buckets.map fun e => (e.1, ofLevel q (depth + 1) (labels.put filterLabel e.1) e.2) := by
  induction buckets with
  | nil => rw [ofKeyed, List.map_nil]
  | cons e buckets ih => rw [ofKeyed, ih, List.map_cons]

theorem ofBucketsMember_eq (agg : BucketAgg) (result : Entries Json) :
    ofBucketsMember q depth labels agg result =
      ofBuckets q depth labels agg (member result "buckets") := by
  induction result with
  | nil => simp [ofBucketsMember, member, ofBuckets]
  | cons e result ih =>
    rw [ofBucketsMember, ih, member, member, Entries.get?_cons]
    split <;> rfl

theorem inKeyOrder_eq (groups : Entries (List Leaf)) :
    inKeyOrder groups = (Entries.sorted groups).flatMap (·.2) := rfl

theorem ofLevel_eq_nil_of_isObject {tree : Json} (h : tree.isObject = false) :
    ofLevel q depth labels tree = [] := by
  cases tree with
  | obj members => cases h
  | _ => simp [ofLevel]

theorem ofResult_eq_nil {id : String} (h : ∀ b ∈ q.buckets, b.id ≠ id) (result : Json) :
    ofResult q depth labels id result = [] := by
  have hnone : q.findBucket? id = none := by
    rw [Query.findBucket?, List.find?_eq_none]
    intro b hb
    simpa using h b hb
  cases result with
  | obj members => rw [ofResult, hnone]
  | _ => simp [ofResult]

theorem ofLevel_eq_nil {members : Entries Json}
    (h : ∀ b ∈ q.buckets, b.id ∉ Entries.keys members) :
    ofLevel q depth labels (.obj members) = [] := by
  rw [ofLevel, inKeyOrder_eq, List.flatMap_eq_nil_iff]
  intro group hgroup
  rw [Entries.mem_sorted, ofMembers_eq_map] at hgroup
  obtain ⟨e, he, rfl⟩ := List.mem_map.mp hgroup
  refine ofResult_eq_nil (fun b hb heq => h b hb ?_) e.2
  exact heq ▸ List.mem_map_of_mem he

/-- An object that holds the result of one bucket aggregation has the leaves of that result. -/
theorem ofLevel_of_holdsOnly {tree : Json} {id : String} {result : Entries Json}
    (h : HoldsOnly q tree id result) :
    ofLevel q depth labels tree = ofResult q depth labels id (.obj result) := by
  have hmem := Entries.mem_of_get? h.result
  cases tree with
  | obj members =>
    change (id, Json.obj result) ∈ members at hmem
    rw [ofLevel, inKeyOrder_eq]
    have hkeys : (Entries.keys (ofMembers q depth labels members)).Nodup := by
      rw [ofMembers_eq_map, Entries.keys, List.map_map]
      exact h.distinct
    have hown : (id, ofResult q depth labels id (.obj result)) ∈
        Entries.sorted (ofMembers q depth labels members) := by
      rw [Entries.mem_sorted, ofMembers_eq_map]
      exact List.mem_map.mpr ⟨_, hmem, rfl⟩
    refine Entries.flatMap_of_only (Entries.nodup_keys_sorted hkeys) hown ?_
    intro group hgroup hne
    rw [Entries.mem_sorted, ofMembers_eq_map] at hgroup
    obtain ⟨e, he, rfl⟩ := List.mem_map.mp hgroup
    refine ofResult_eq_nil (fun b hb heq => hne ?_) e.2
    have hkey : b.id ∈ Entries.keys members := heq ▸ List.mem_map_of_mem he
    rw [← h.others b hb hkey, heq]
  | _ => cases hmem

section Result

variable (hids : (q.buckets.map (·.id)).Nodup) {b : BucketAgg} (hb : b ∈ q.buckets)
include hids hb

theorem ofResult_nested (hkind : b.kind = .nested) (result : Entries Json) :
    ofResult q depth labels b.id (.obj result) = ofLevel q (depth + 1) labels (.obj result) := by
  rw [ofResult, ofLevel, Query.findBucket?_eq hids hb]
  exact if_pos hkind

theorem ofResult_last (hkind : b.kind ≠ .nested) (hdepth : depth + 1 = q.buckets.length)
    (result : Entries Json) :
    ofResult q depth labels b.id (.obj result) = [⟨b, labels, result⟩] := by
  rw [ofResult, Query.findBucket?_eq hids hb]
  simp only [if_neg hkind, if_pos hdepth]

theorem ofResult_outer (hkind : b.kind ≠ .nested) (hdepth : depth + 1 ≠ q.buckets.length)
    (result : Entries Json) : ofResult q depth labels b.id (.obj result) =
      ofBuckets q depth labels b (member result "buckets") := by
  rw [ofResult, Query.findBucket?_eq hids hb]
  simp only [if_neg hkind, if_neg hdepth, ofBucketsMember_eq]

end Result

theorem ofBuckets_arr (agg : BucketAgg) (items : List Json) :
    ofBuckets q depth labels agg (.arr items) =
      items.flatMap fun bucket => ofLevel q (depth + 1) (labelled labels agg bucket) bucket := by
  rw [ofBuckets, ofArray_eq_flatMap]

theorem ofBuckets_obj (agg : BucketAgg) (buckets : Entries Json) :
    ofBuckets q depth labels agg (.obj buckets) = (Entries.sorted buckets).flatMap fun e =>
      ofLevel q (depth + 1) (labels.put filterLabel e.1) e.2 := by
  rw [ofBuckets, ofKeyed_eq_map, inKeyOrder_eq, Entries.sorted_map, List.flatMap_map]

theorem map_under (step : Step) (leaves : List (Trail × Leaf)) :
    (leaves.map (under step)).map (·.2) = leaves.map (·.2) := by
  rw [List.map_map]
  rfl

/-- Into what is no object the walk does not go, and no trail leads there. -/
theorem ofLevel_eq_map_leavesBelow {b : BucketAgg} {rest : List BucketAgg} {bucket : Json}
    (h : bucket.isObject = true → ofLevel q depth labels bucket =
      (leavesBelow (b :: rest) labels bucket).map (·.2)) :
    ofLevel q depth labels bucket = (leavesBelow (b :: rest) labels bucket).map (·.2) := by
  by_cases hobject : bucket.isObject = true
  · exact h hobject
  · rw [ofLevel_eq_nil_of_isObject (by simpa using hobject),
      leavesBelow_of_isObject_eq_false (by simpa using hobject)]
    rfl

/-- The walk finds the leaves of a tree that carries the remaining levels. -/
theorem ofLevel_eq_leavesBelow (hids : (q.buckets.map (·.id)).Nodup) {levels : List BucketAgg}
    {tree : Json} (h : Carries q levels tree) {outer : List BucketAgg}
    (hlevels : q.buckets = outer ++ levels)
    (hlast : ∀ b, levels.getLast? = some b → b.kind ≠ .nested) :
    ofLevel q outer.length labels tree = (leavesBelow levels labels tree).map (·.2) := by
  induction h generalizing outer labels with
  | @last b tree result hholds =>
    have hb : b ∈ q.buckets := by simp [hlevels]
    have hdepth : outer.length + 1 = q.buckets.length := by simp [hlevels]
    rw [ofLevel_of_holdsOnly hholds, ofResult_last hids hb (hlast b rfl) hdepth,
      leavesBelow_last hholds.member_eq]
    rfl
  | @nested b next rest tree result hkind hholds _ ih =>
    have hb : b ∈ q.buckets := by simp [hlevels]
    have hinner : q.buckets = (outer ++ [b]) ++ next :: rest := by simp [hlevels]
    rw [ofLevel_of_holdsOnly hholds, ofResult_nested hids hb hkind,
      leavesBelow_nested hholds.member_eq hkind, ← ih hinner hlast, List.length_append]
    rfl
  | @array b next rest tree result items hkind hholds hbuckets hbelow ih =>
    have hb : b ∈ q.buckets := by simp [hlevels]
    have hinner : q.buckets = (outer ++ [b]) ++ next :: rest := by simp [hlevels]
    have hdepth : outer.length + 1 ≠ q.buckets.length := by simp [hlevels]
    rw [ofLevel_of_holdsOnly hholds, ofResult_outer hids hb hkind hdepth, hbuckets, ofBuckets_arr,
      leavesBelow_array hholds.member_eq hkind hbuckets, List.map_flatMap]
    conv_lhs => rw [← List.zipIdx_map_fst 0 items, List.flatMap_map]
    refine List.flatMap_congr fun ⟨bucket, i⟩ hitem => ?_
    change ofLevel q (outer.length + 1) _ bucket = _
    rw [map_under]
    refine ofLevel_eq_map_leavesBelow fun hobject => ?_
    rw [← ih bucket (List.fst_mem_of_mem_zipIdx hitem) hobject hinner hlast, List.length_append]
    rfl
  | @keyed b next rest tree result buckets hkind hholds hbuckets hkeys hbelow ih =>
    have hb : b ∈ q.buckets := by simp [hlevels]
    have hinner : q.buckets = (outer ++ [b]) ++ next :: rest := by simp [hlevels]
    have hdepth : outer.length + 1 ≠ q.buckets.length := by simp [hlevels]
    rw [ofLevel_of_holdsOnly hholds, ofResult_outer hids hb hkind hdepth, hbuckets, ofBuckets_obj,
      leavesBelow_keyed hholds.member_eq hkind hbuckets, List.map_flatMap]
    refine List.flatMap_congr fun ⟨key, bucket⟩ hkey => ?_
    rw [map_under]
    refine ofLevel_eq_map_leavesBelow fun hobject => ?_
    rw [← ih (key, bucket) (Entries.mem_sorted.mp hkey) hobject hinner hlast, List.length_append]
    rfl

/-- The leaves of a response whose tree carries all levels of a query. -/
theorem ofResponse_eq {response : Entries Json} {outer : List BucketAgg} {d : BucketAgg}
    (hids : (q.buckets.map (·.id)).Nodup) (hlevels : q.buckets = outer ++ [d])
    (hkind : d.kind ≠ .nested)
    (htree : Carries q q.buckets (member response "aggregations")) :
    ofResponse q response =
      (leavesBelow q.buckets [] (member response "aggregations")).map (·.2) := by
  refine ofLevel_eq_leavesBelow hids htree (List.nil_append _).symm fun b hb => ?_
  rw [hlevels, List.getLast?_concat] at hb
  rwa [← Option.some.inj hb]

/-- No bucket of a leaf holds the result of a bucket aggregation. -/
structure EndsTree (q : Query) (leaf : Leaf) : Prop where
  kind : leaf.agg.kind ≠ .nested
  buckets : ∃ items, member leaf.result "buckets" = .arr items ∧
    ∀ bucket ∈ items, ∀ b ∈ q.buckets, b.id ∉ Entries.keys bucket.membersD

theorem ofBuckets_arr_eq_nil {agg : BucketAgg} {items : List Json}
    (h : ∀ bucket ∈ items, bucket.isObject = true →
      ofLevel q (depth + 1) (labelled labels agg bucket) bucket = []) :
    ofBuckets q depth labels agg (.arr items) = [] := by
  rw [ofBuckets_arr, List.flatMap_eq_nil_iff]
  intro bucket hbucket
  by_cases hobject : bucket.isObject = true
  · exact h bucket hbucket hobject
  · exact ofLevel_eq_nil_of_isObject (by simpa using hobject)

theorem ofBuckets_obj_eq_nil {agg : BucketAgg} {buckets : Entries Json}
    (h : ∀ e ∈ buckets, e.2.isObject = true →
      ofLevel q (depth + 1) (labels.put filterLabel e.1) e.2 = []) :
    ofBuckets q depth labels agg (.obj buckets) = [] := by
  rw [ofBuckets_obj, List.flatMap_eq_nil_iff]
  intro e he
  by_cases hobject : e.2.isObject = true
  · exact h e (Entries.mem_sorted.mp he) hobject
  · exact ofLevel_eq_nil_of_isObject (by simpa using hobject)

/-- The walk finds nothing in a tree with fewer levels than remain. -/
theorem ofLevel_eq_nil_of_length_lt (hids : (q.buckets.map (·.id)).Nodup)
    {levels : List BucketAgg} {tree : Json} (h : Carries q levels tree)
    (hlevels : ∀ b ∈ levels, b ∈ q.buckets) (hdepth : depth + levels.length < q.buckets.length)
    (hends : ∀ trail leaf, LeafAt levels labels tree trail leaf → leaf.EndsTree q) :
    ofLevel q depth labels tree = [] := by
  induction h generalizing depth labels with
  | @last b tree result hholds =>
    have hb : b ∈ q.buckets := hlevels b (by simp)
    simp only [List.length_singleton] at hdepth
    have hne : depth + 1 ≠ q.buckets.length := by omega
    obtain ⟨hkind, items, hbuckets, hbare⟩ := hends _ _ (.last hholds.member_eq)
    rw [ofLevel_of_holdsOnly hholds, ofResult_outer hids hb hkind hne, hbuckets]
    refine ofBuckets_arr_eq_nil fun bucket hbucket hobject => ?_
    cases bucket with
    | obj members => exact ofLevel_eq_nil (hbare _ hbucket)
    | _ => cases hobject
  | @nested b next rest tree result hkind hholds _ ih =>
    have hb : b ∈ q.buckets := hlevels b (by simp)
    simp only [List.length_cons] at hdepth ih
    rw [ofLevel_of_holdsOnly hholds, ofResult_nested hids hb hkind]
    refine ih (fun c hc => hlevels c (List.mem_cons_of_mem _ hc)) (by omega) ?_
    intro trail leaf hleaf
    exact hends trail leaf (.nested hkind hholds.member_eq hleaf)
  | @array b next rest tree result items hkind hholds hbuckets hbelow ih =>
    have hb : b ∈ q.buckets := hlevels b (by simp)
    simp only [List.length_cons] at hdepth ih
    have hne : depth + 1 ≠ q.buckets.length := by omega
    rw [ofLevel_of_holdsOnly hholds, ofResult_outer hids hb hkind hne, hbuckets]
    refine ofBuckets_arr_eq_nil fun bucket hbucket hobject => ?_
    refine ih bucket hbucket hobject (fun c hc => hlevels c (List.mem_cons_of_mem _ hc))
      (by omega) ?_
    intro trail leaf hleaf
    obtain ⟨i, hitem⟩ := List.mem_iff_getElem?.mp hbucket
    exact hends _ leaf (.item hkind hholds.member_eq hbuckets hitem hleaf)
  | @keyed b next rest tree result buckets hkind hholds hbuckets hkeys hbelow ih =>
    have hb : b ∈ q.buckets := hlevels b (by simp)
    simp only [List.length_cons] at hdepth ih
    have hne : depth + 1 ≠ q.buckets.length := by omega
    rw [ofLevel_of_holdsOnly hholds, ofResult_outer hids hb hkind hne, hbuckets]
    refine ofBuckets_obj_eq_nil fun e he hobject => ?_
    refine ih e he hobject (fun c hc => hlevels c (List.mem_cons_of_mem _ hc)) (by omega) ?_
    intro trail leaf hleaf
    exact hends _ leaf (.key hkind hholds.member_eq hbuckets he hleaf)

end Leaf

end PanelSearch
