import PanelSearch.Proofs.Request.Shape
import PanelSearch.Proofs.Response.TimeSeries

/-! Whether the walk over a response agrees with the tree of the request that it answers. The walk
counts the bucket aggregations of the query, and the request has no nodes for some of them: they
agree when no bucket aggregation is left out, and otherwise nothing of the response is read. -/

namespace PanelSearch

open Json (member)
open SearchRequest (nest)

def bucketNodes (aggs : List Aggregation) : List Aggregation := aggs.filter (·.body.isBucket)

/-- A response nests like some trees of a request: inside each bucket of the node that gives buckets
stand the answers to its children, and what answers only metrics holds no buckets. The innermost
buckets stand in an array, and the ones above in an array or under keys. -/
inductive Answers (q : Query) : List Aggregation → Json → Prop where
  | metrics {aggs : List Aggregation} {tree : Json} (hnode : bucketNodes aggs = [])
      (hbare : ∀ b ∈ q.buckets, b.id ∉ Entries.keys tree.membersD) : Answers q aggs tree
  | nested {aggs : List Aggregation} {n : Aggregation} {tree : Json} {result : Entries Json}
      (hnode : bucketNodes aggs = [n]) (hkind : n.body.typeName = "nested")
      (hholds : HoldsOnly q tree n.key result) (hbelow : Answers q n.children (.obj result)) :
      Answers q aggs tree
  | array {aggs : List Aggregation} {n : Aggregation} {tree : Json} {result : Entries Json}
      {items : List Json} (hnode : bucketNodes aggs = [n]) (hkind : n.body.typeName ≠ "nested")
      (hholds : HoldsOnly q tree n.key result) (hbuckets : member result "buckets" = .arr items)
      (hbelow : ∀ bucket ∈ items, bucket.isObject = true → Answers q n.children bucket) :
      Answers q aggs tree
  | keyed {aggs : List Aggregation} {n : Aggregation} {tree : Json} {result buckets : Entries Json}
      (hnode : bucketNodes aggs = [n]) (hkind : n.body.typeName ≠ "nested")
      (houter : bucketNodes n.children ≠ []) (hholds : HoldsOnly q tree n.key result)
      (hbuckets : member result "buckets" = .obj buckets) (hkeys : (Entries.keys buckets).Nodup)
      (hbelow : ∀ e ∈ buckets, e.2.isObject = true → Answers q n.children e.2) :
      Answers q aggs tree

section Built

variable {q : Query} {levels : List BucketAgg} {nodes leaves own : List Aggregation}

theorem bucketNodes_orderNodes (q : Query) (b : BucketAgg) : bucketNodes (q.orderNodes b) = [] := by
  unfold Query.orderNodes
  cases q.orderMetric? b <;> rfl

theorem bucketNodes_leaves {ms : List Metric} (h : List.Forall₂ q.MetricNode ms leaves) :
    bucketNodes leaves = [] := by
  induction h with
  | nil => rfl
  | @cons m n ms leaves hm _ ih =>
    obtain ⟨settings, -, rfl⟩ := hm
    have hbody : (q.metricBody m settings).isBucket = false := by
      unfold Query.metricBody
      split <;> rfl
    rw [bucketNodes, List.filter_cons_of_neg (by simpa [Aggregation.body] using hbody)]
    exact ih

theorem bucketNodes_append (as bs : List Aggregation) :
    bucketNodes (as ++ bs) = bucketNodes as ++ bucketNodes bs :=
  List.filter_append _ _

/-- Behind the nodes that a level brought with it, the next level is the one that gives buckets. -/
theorem bucketNodes_nest {b : BucketAgg} {n : Aggregation} {rest : List Aggregation}
    (hown : bucketNodes own = []) (hn : BucketNode q b n) :
    bucketNodes (own ++ nest (n :: rest) leaves) = [n.addChildren (nest rest leaves)] := by
  rw [bucketNodes_append, hown, List.nil_append, nest, bucketNodes, List.filter_cons_of_pos]
  · rfl
  · rw [Aggregation.body_addChildren]
    exact hn.bucket

theorem BucketNode.typeName_eq_nested_iff {b : BucketAgg} {n : Aggregation} (h : BucketNode q b n)
    (hb : b.isKept = true) (more : List Aggregation) :
    (n.addChildren more).body.typeName = "nested" ↔ b.kind = .nested := by
  rw [Aggregation.body_addChildren, h.type]
  unfold BucketAgg.isKept at hb
  cases hk : b.kind with
  | other name => simp [hk] at hb
  | _ => simp [BucketKind.name]

theorem Answers.bare {aggs : List Aggregation} {tree : Json} (h : Answers q aggs tree)
    (hnone : bucketNodes aggs = []) : ∀ b ∈ q.buckets, b.id ∉ Entries.keys tree.membersD := by
  cases h with
  | metrics _ hbare => exact hbare
  | nested hnode => rw [hnone] at hnode; cases hnode
  | array hnode => rw [hnone] at hnode; cases hnode
  | keyed hnode => rw [hnone] at hnode; cases hnode

/-- The answers to one level of a query, above those to the nodes below it. -/
inductive AnswersLevel (q : Query) (b : BucketAgg) (below : List Aggregation) (tree : Json) :
    Prop where
  | nested {result : Entries Json} (hkind : b.kind = .nested)
      (hholds : HoldsOnly q tree b.id result) (hbelow : Answers q below (.obj result)) :
      AnswersLevel q b below tree
  | array {result : Entries Json} {items : List Json} (hkind : b.kind ≠ .nested)
      (hholds : HoldsOnly q tree b.id result) (hbuckets : member result "buckets" = .arr items)
      (hbelow : ∀ bucket ∈ items, bucket.isObject = true → Answers q below bucket) :
      AnswersLevel q b below tree
  | keyed {result buckets : Entries Json} (hkind : b.kind ≠ .nested)
      (houter : bucketNodes below ≠ []) (hholds : HoldsOnly q tree b.id result)
      (hbuckets : member result "buckets" = .obj buckets) (hkeys : (Entries.keys buckets).Nodup)
      (hbelow : ∀ e ∈ buckets, e.2.isObject = true → Answers q below e.2) :
      AnswersLevel q b below tree

theorem Answers.level {b : BucketAgg} {n : Aggregation} {rest : List Aggregation} {tree : Json}
    (hown : bucketNodes own = []) (hn : BucketNode q b n) (hb : b.isKept = true)
    (h : Answers q (own ++ nest (n :: rest) leaves) tree) :
    AnswersLevel q b (q.orderNodes b ++ nest rest leaves) tree := by
  have hfirst : bucketNodes (own ++ nest (n :: rest) leaves) = [n.addChildren (nest rest leaves)] :=
    bucketNodes_nest hown hn
  have hnested := hn.typeName_eq_nested_iff hb (nest rest leaves)
  have hkey : b.id = (n.addChildren (nest rest leaves)).key := by
    rw [Aggregation.key_addChildren, hn.key]
  have hchildren : q.orderNodes b ++ nest rest leaves =
      (n.addChildren (nest rest leaves)).children := by
    rw [Aggregation.children_addChildren, hn.children]
  rw [hchildren]
  cases h with
  | metrics hnode =>
    rw [hfirst] at hnode
    cases hnode
  | nested hnode hkind hholds hbelow =>
    cases hfirst.symm.trans hnode
    rw [← hkey] at hholds
    exact .nested (hnested.mp hkind) hholds hbelow
  | array hnode hkind hholds hbuckets hbelow =>
    cases hfirst.symm.trans hnode
    rw [← hkey] at hholds
    exact .array (fun heq => hkind (hnested.mpr heq)) hholds hbuckets hbelow
  | keyed hnode hkind houter hholds hbuckets hkeys hbelow =>
    cases hfirst.symm.trans hnode
    rw [← hkey] at hholds
    exact .keyed (fun heq => hkind (hnested.mpr heq)) houter hholds hbuckets hkeys hbelow

namespace AnswersLevel

variable {b : BucketAgg} {below : List Aggregation} {tree : Json} {result : Entries Json}

theorem of_nested (h : AnswersLevel q b below tree) (hkind : b.kind = .nested)
    (hresult : member tree.membersD b.id = .obj result) : Answers q below (.obj result) := by
  cases h with
  | nested _ hholds hbelow =>
    cases hholds.member_eq.symm.trans hresult
    exact hbelow
  | array hne => exact absurd hkind hne
  | keyed hne => exact absurd hkind hne

theorem of_array (h : AnswersLevel q b below tree) (hkind : b.kind ≠ .nested)
    (hresult : member tree.membersD b.id = .obj result) {items : List Json}
    (hbuckets : member result "buckets" = .arr items) {bucket : Json} (hbucket : bucket ∈ items)
    (hobject : bucket.isObject = true) : Answers q below bucket := by
  cases h with
  | nested heq => exact absurd heq hkind
  | array _ hholds harray hbelow =>
    cases hholds.member_eq.symm.trans hresult
    cases harray.symm.trans hbuckets
    exact hbelow bucket hbucket hobject
  | keyed _ _ hholds hkeyed =>
    cases hholds.member_eq.symm.trans hresult
    cases hkeyed.symm.trans hbuckets

theorem of_keyed (h : AnswersLevel q b below tree) (hkind : b.kind ≠ .nested)
    (hresult : member tree.membersD b.id = .obj result) {buckets : Entries Json}
    (hbuckets : member result "buckets" = .obj buckets) {e : String × Json} (he : e ∈ buckets)
    (hobject : e.2.isObject = true) : Answers q below e.2 := by
  cases h with
  | nested heq => exact absurd heq hkind
  | array _ hholds harray =>
    cases hholds.member_eq.symm.trans hresult
    cases harray.symm.trans hbuckets
  | keyed _ _ hholds hkeyed _ hbelow =>
    cases hholds.member_eq.symm.trans hresult
    cases hkeyed.symm.trans hbuckets
    exact hbelow e he hobject

/-- Above metrics only there are buckets in an array, and nothing to walk on into. -/
theorem innermost (h : AnswersLevel q b below tree) (hkind : b.kind ≠ .nested)
    (hnone : bucketNodes below = []) :
    ∃ result items, HoldsOnly q tree b.id result ∧ member result "buckets" = .arr items ∧
      ∀ bucket ∈ items, ∀ c ∈ q.buckets, c.id ∉ Entries.keys bucket.membersD := by
  cases h with
  | nested heq => exact absurd heq hkind
  | keyed _ houter => exact absurd hnone houter
  | array _ hholds hbuckets hbelow =>
    refine ⟨_, _, hholds, hbuckets, fun bucket hbucket => ?_⟩
    cases bucket with
    | obj members => exact (hbelow _ hbucket rfl).bare hnone
    | _ =>
      intro c _ hkey
      cases hkey

end AnswersLevel

theorem bucketNodes_innermost (b : BucketAgg) (hleaves : bucketNodes leaves = []) :
    bucketNodes (q.orderNodes b ++ nest [] leaves) = [] := by
  rw [bucketNodes_append, bucketNodes_orderNodes, nest, hleaves]
  rfl

theorem carries_of_answers (hleaves : bucketNodes leaves = [])
    (hkept : ∀ b ∈ levels, b.isKept = true) (hne : levels ≠ [])
    (hlast : ∀ b, levels.getLast? = some b → b.kind ≠ .nested)
    (hnodes : List.Forall₂ (BucketNode q) levels nodes) (hown : bucketNodes own = []) {tree : Json}
    (h : Answers q (own ++ nest nodes leaves) tree) : Carries q levels tree := by
  induction hnodes generalizing own tree with
  | nil => exact absurd rfl hne
  | @cons b n rest ns hn hns ih =>
    have hlevel := h.level hown hn (hkept b List.mem_cons_self)
    cases rest with
    | nil =>
      cases hns
      obtain ⟨result, items, hholds, -⟩ :=
        hlevel.innermost (hlast b rfl) (bucketNodes_innermost b hleaves)
      exact .last hholds
    | cons c rest =>
      have hbelow : ∀ {tree'}, Answers q (q.orderNodes b ++ nest ns leaves) tree' →
          Carries q (c :: rest) tree' :=
        ih (fun d hd => hkept d (List.mem_cons_of_mem _ hd)) (by simp) hlast
          (bucketNodes_orderNodes q b)
      cases hlevel with
      | nested hkind hholds hanswers => exact .nested hkind hholds (hbelow hanswers)
      | array hkind hholds hbuckets hanswers =>
        exact .array hkind hholds hbuckets fun bucket hbucket hobject =>
          hbelow (hanswers bucket hbucket hobject)
      | keyed hkind _ hholds hbuckets hkeys hanswers =>
        exact .keyed hkind hholds hbuckets hkeys fun e he hobject =>
          hbelow (hanswers e he hobject)

theorem endsTree_of_answers (hleaves : bucketNodes leaves = [])
    (hkept : ∀ b ∈ levels, b.isKept = true)
    (hlast : ∀ b, levels.getLast? = some b → b.kind ≠ .nested)
    (hnodes : List.Forall₂ (BucketNode q) levels nodes) (hown : bucketNodes own = [])
    {labels : Entries String} {tree : Json} {trail : Trail} {leaf : Leaf}
    (h : Answers q (own ++ nest nodes leaves) tree) (hleaf : LeafAt levels labels tree trail leaf) :
    leaf.EndsTree q := by
  induction hleaf generalizing own nodes with
  | @last b labels tree result hresult =>
    obtain ⟨n, ns, hn, hns, rfl⟩ := List.forall₂_cons_left_iff.mp hnodes
    cases hns
    have hlevel := h.level hown hn (hkept b List.mem_cons_self)
    have hinner : b.kind ≠ .nested := hlast b rfl
    obtain ⟨result', items, hholds, hbuckets, hbare⟩ :=
      hlevel.innermost hinner (bucketNodes_innermost b hleaves)
    cases hholds.member_eq.symm.trans hresult
    exact ⟨hinner, items, hbuckets, hbare⟩
  | @nested b next rest labels tree result trail leaf hkind hresult _ ih =>
    obtain ⟨n, ns, hn, hns, rfl⟩ := List.forall₂_cons_left_iff.mp hnodes
    have hlevel := h.level hown hn (hkept b List.mem_cons_self)
    exact ih (fun d hd => hkept d (List.mem_cons_of_mem _ hd)) hlast hns
      (bucketNodes_orderNodes q b) (hlevel.of_nested hkind hresult)
  | @item b next rest labels tree result items i bucket trail leaf hkind hresult hbuckets hitem
      hleaf ih =>
    obtain ⟨n, ns, hn, hns, rfl⟩ := List.forall₂_cons_left_iff.mp hnodes
    have hlevel := h.level hown hn (hkept b List.mem_cons_self)
    exact ih (fun d hd => hkept d (List.mem_cons_of_mem _ hd)) hlast hns
      (bucketNodes_orderNodes q b)
      (hlevel.of_array hkind hresult hbuckets (List.mem_of_getElem? hitem) hleaf.isObject)
  | @key b next rest labels tree result buckets key bucket trail leaf hkind hresult hbuckets hkey
      hleaf ih =>
    obtain ⟨n, ns, hn, hns, rfl⟩ := List.forall₂_cons_left_iff.mp hnodes
    have hlevel := h.level hown hn (hkept b List.mem_cons_self)
    exact ih (fun d hd => hkept d (List.mem_cons_of_mem _ hd)) hlast hns
      (bucketNodes_orderNodes q b) (hlevel.of_keyed hkind hresult hbuckets hkey hleaf.isObject)

end Built

namespace Leaf

/-- The number of documents over time: one point for each bucket whose key tells an instant. -/
def countPoints (leaf : Leaf) : List Point :=
  leaf.buckets.filterMap fun b => b.time?.map (·, (member b "doc_count").number?)

/-- Every bucket of a leaf whose key tells an instant counts in a series of each visible count. -/
def IsCounted (q : Query) (series : List Series) (leaf : Leaf) : Prop :=
  leaf.countPoints ≠ [] → ∀ m ∈ q.visible, m.kind = .count →
    ∃ s ∈ series, s.metric = m ∧ s.labels = leaf.labels ∧ s.points = leaf.countPoints

theorem isCounted_of_subset {q : Query} {series : List Series} {leaf : Leaf}
    (h : leaf.series q ⊆ series) : leaf.IsCounted q series := by
  intro _ m hm hcount
  refine ⟨Line.series m leaf.labels leaf.buckets
    ⟨"count", "", fun b => some (member b "doc_count")⟩, h ?_, rfl, rfl, rfl⟩
  refine List.mem_flatMap.mpr ⟨m, hm, List.mem_map_of_mem ?_⟩
  rw [Metric.lines, hcount]
  exact List.mem_singleton.mpr rfl

/-- Without series, only what has nothing to show is counted. -/
theorem isCounted_nil_iff {q : Query} {leaf : Leaf} :
    leaf.IsCounted q [] ↔ leaf.countPoints = [] ∨ ∀ m ∈ q.visible, m.kind ≠ .count := by
  constructor
  · intro h
    by_cases hpoints : leaf.countPoints = []
    · exact .inl hpoints
    · refine .inr fun m hm hcount => ?_
      obtain ⟨s, hs, -⟩ := h hpoints m hm hcount
      cases hs
  · rintro (hnil | hnone) hpoints m hm hcount
    · exact absurd hnil hpoints
    · exact absurd hcount (hnone m hm)

end Leaf

theorem Query.keptBuckets_eq_iff (q : Query) :
    q.keptBuckets = q.buckets ↔ ∀ b ∈ q.buckets, b.isKept = true :=
  List.filter_eq_self

theorem Query.keptBuckets_length_lt {q : Query} (h : ¬∀ b ∈ q.buckets, b.isKept = true) :
    q.keptBuckets.length < q.buckets.length := by
  refine Nat.lt_of_le_of_ne (List.length_filter_le _ _) fun heq => h ?_
  rw [← q.keptBuckets_eq_iff]
  exact List.filter_sublist.eq_of_length heq

section Response

variable {target : Target} {q : Query} {r : SearchRequest} {outer : List BucketAgg} {d : BucketAgg}
  {response : Entries Json}

/-- A response that nests like the request of a query carries the levels that have nodes. -/
theorem carries_of_built (hshape : q.shape = .aggregation)
    (hbuild : SearchRequest.ofQuery target q = .ok r) (hlevels : q.keptBuckets = outer ++ [d])
    (hkind : d.kind = .dateHistogram) {tree : Json} (hanswers : Answers q r.aggs tree) :
    Carries q q.keptBuckets tree ∧ ∀ labels trail leaf,
      LeafAt q.keptBuckets labels tree trail leaf → leaf.EndsTree q := by
  obtain ⟨haggs, -⟩ := SearchRequest.ofQuery_eq_ok hshape hbuild
  obtain ⟨nodes, leaves, htrees, hnodes, hleaves⟩ := SearchRequest.aggregationsOf_eq_ok haggs
  have hkept : ∀ b ∈ q.keptBuckets, b.isKept = true := fun b hb => (List.mem_filter.mp hb).2
  have hne : q.keptBuckets ≠ [] := by simp [hlevels]
  have hlast : ∀ b, q.keptBuckets.getLast? = some b → b.kind ≠ .nested := by
    intro b hb
    rw [hlevels, List.getLast?_concat] at hb
    rw [← Option.some.inj hb, hkind]
    decide
  have htree : Answers q ([] ++ nest nodes leaves) tree := by
    rw [List.nil_append, ← htrees]
    exact hanswers
  have hnone := bucketNodes_leaves hleaves
  exact ⟨carries_of_answers hnone hkept hne hlast hnodes rfl htree,
    fun _ _ _ hleaf => endsTree_of_answers hnone hkept hlast hnodes rfl htree hleaf⟩

theorem ofResponse_eq_empty (hids : q.DistinctIds) (hskips : ¬∀ b ∈ q.buckets, b.isKept = true)
    (hcarries : Carries q q.keptBuckets (member response "aggregations"))
    (hends : ∀ labels trail leaf, LeafAt q.keptBuckets labels (member response "aggregations")
      trail leaf → leaf.EndsTree q) : Collected.ofResponse q response = .ok {} := by
  have hmem : ∀ b ∈ q.keptBuckets, b ∈ q.buckets := fun b hb => (List.mem_filter.mp hb).1
  have hlength : 0 + q.keptBuckets.length < q.buckets.length := by
    rw [Nat.zero_add]
    exact Query.keptBuckets_length_lt hskips
  have hnone : Leaf.ofResponse q response = [] :=
    Leaf.ofLevel_eq_nil_of_length_lt hids.buckets hcarries hmem hlength (hends [])
  rw [Collected.ofResponse, hnone]
  rfl

theorem exists_isCounted (hids : q.DistinctIds) (hlevels : q.buckets = outer ++ [d])
    (hkind : d.kind = .dateHistogram)
    (hcarries : Carries q q.buckets (member response "aggregations"))
    (hreads : ∀ trail leaf, LeafAt q.buckets [] (member response "aggregations") trail leaf →
      leaf.Reads q) :
    ∃ c, Collected.ofResponse q response = .ok c ∧ ∀ trail leaf,
      LeafAt q.buckets [] (member response "aggregations") trail leaf →
        leaf.IsCounted q c.series := by
  obtain ⟨found, hfound, hcollected⟩ := Collected.ofResponse_eq hids hlevels hkind hcarries hreads
  refine ⟨_, hcollected, fun trail leaf hat => Leaf.isCounted_of_subset ?_⟩
  intro s hs
  exact List.mem_flatMap.mpr ⟨(trail, leaf), (hfound.mem_iff trail leaf).mpr hat, hs⟩

/-- A response that nests like the request of a query is read down to its date histogram when the
request leaves out no bucket aggregation; otherwise no frame is drawn, whatever it holds. -/
theorem isCounted_iff (hids : q.DistinctIds) (hshape : q.shape = .aggregation)
    (hbuild : SearchRequest.ofQuery target q = .ok r) (hlevels : q.keptBuckets = outer ++ [d])
    (hkind : d.kind = .dateHistogram)
    (hanswers : Answers q r.aggs (member response "aggregations")) :
    (¬(∀ b ∈ q.buckets, b.isKept = true) → aggregationFrames q response = .ok []) ∧
    ((∀ trail leaf, LeafAt q.keptBuckets [] (member response "aggregations") trail leaf →
        leaf.Reads q) →
      ((∃ c, Collected.ofResponse q response = .ok c ∧ ∀ trail leaf,
          LeafAt q.keptBuckets [] (member response "aggregations") trail leaf →
            leaf.IsCounted q c.series) ↔
        (∀ b ∈ q.buckets, b.isKept = true) ∨ ∀ trail leaf,
          LeafAt q.keptBuckets [] (member response "aggregations") trail leaf →
            leaf.countPoints = [] ∨ ∀ m ∈ q.visible, m.kind ≠ .count)) := by
  obtain ⟨hcarries, hends⟩ := carries_of_built hshape hbuild hlevels hkind hanswers
  constructor
  · intro hskips
    rw [aggregationFrames, ofResponse_eq_empty hids hskips hcarries hends]
    rfl
  intro hreads
  by_cases hkept : ∀ b ∈ q.buckets, b.isKept = true
  · refine ⟨fun _ => .inl hkept, fun _ => ?_⟩
    rw [q.keptBuckets_eq_iff.mpr hkept] at hlevels hcarries hreads ⊢
    exact exists_isCounted hids hlevels hkind hcarries hreads
  · have hcollected := ofResponse_eq_empty hids hkept hcarries hends
    constructor
    · rintro ⟨c, hc, hcounted⟩
      rw [hcollected] at hc
      cases hc
      exact .inr fun trail leaf hat => Leaf.isCounted_nil_iff.mp (hcounted trail leaf hat)
    · rintro (hall | hempty)
      · exact absurd hall hkept
      · exact ⟨_, hcollected, fun trail leaf hat =>
          Leaf.isCounted_nil_iff.mpr (hempty trail leaf hat)⟩

end Response

/-- A query over filters without a filter, and time. -/
def eventsOverTime : Query where
  refId := "A"
  rawQuery := ""
  buckets := [
    { id := "2", kind := .filters, field := "", settings := [("filters", .arr [])] },
    { id := "3", kind := .dateHistogram, field := "@timestamp", settings := [] }]
  metrics := [
    { id := "1", kind := .count, field := "", hide := false, source := "", inputs := [],
      settings := [], flags := [] }]
  aliasPattern := ""
  intervalMs := 0
  maxDataPoints := 0
  rangeFrom := 0
  rangeTo := 0

def eventsResponse : Entries Json := [("aggregations", .obj [("3", .obj [("buckets", .arr [
  .obj [("key", .int 1000), ("doc_count", .int 5)]])])])]

theorem answers_eventsResponse : ∃ r,
    SearchRequest.ofQuery ⟨"@timestamp", "logs", 3⟩ eventsOverTime = .ok r ∧
      Answers eventsOverTime r.aggs (member eventsResponse "aggregations") := by
  refine ⟨_, rfl, .array rfl (by decide) ⟨by decide, rfl, by decide⟩ rfl fun bucket hbucket _ => ?_⟩
  cases List.mem_singleton.mp hbucket
  exact .metrics rfl (by decide)

theorem keptBuckets_eventsOverTime : ∃ d, eventsOverTime.keptBuckets = [] ++ [d] ∧
    d.kind = .dateHistogram :=
  ⟨_, rfl, rfl⟩

theorem eventsResponse_not_counted : eventsOverTime.DistinctIds ∧
    eventsOverTime.shape = .aggregation ∧
    (∃ d, eventsOverTime.keptBuckets = [] ++ [d] ∧ d.kind = .dateHistogram) ∧
    (∃ r, SearchRequest.ofQuery ⟨"@timestamp", "logs", 3⟩ eventsOverTime = .ok r ∧
      Answers eventsOverTime r.aggs (member eventsResponse "aggregations")) ∧
    ¬∃ c, Collected.ofResponse eventsOverTime eventsResponse = .ok c ∧ ∀ trail leaf,
      LeafAt eventsOverTime.keptBuckets [] (member eventsResponse "aggregations") trail leaf →
        leaf.IsCounted eventsOverTime c.series := by
  have hids : eventsOverTime.DistinctIds := by decide
  have hskips : ¬∀ b ∈ eventsOverTime.buckets, b.isKept = true := by decide
  obtain ⟨d, hlevels, hkind⟩ := keptBuckets_eventsOverTime
  refine ⟨hids, rfl, ⟨d, hlevels, hkind⟩, answers_eventsResponse, ?_⟩
  rintro ⟨c, hc, hcounted⟩
  obtain ⟨r, hbuild, hanswers⟩ := answers_eventsResponse
  obtain ⟨hcarries, hends⟩ := carries_of_built rfl hbuild hlevels hkind hanswers
  rw [ofResponse_eq_empty hids hskips hcarries hends] at hc
  cases hc
  rcases Leaf.isCounted_nil_iff.mp (hcounted [] _ (.last rfl)) with hnil | hnone
  · exact absurd hnil (by decide +kernel)
  · exact hnone _ (.head _) rfl

theorem eventsResponse_frames : eventsOverTime.DistinctIds ∧
    aggregationFrames eventsOverTime eventsResponse = .ok [] := by
  have hids : eventsOverTime.DistinctIds := by decide
  have hskips : ¬∀ b ∈ eventsOverTime.buckets, b.isKept = true := by decide
  obtain ⟨d, hlevels, hkind⟩ := keptBuckets_eventsOverTime
  obtain ⟨r, hbuild, hanswers⟩ := answers_eventsResponse
  exact ⟨hids, (isCounted_iff hids rfl hbuild hlevels hkind hanswers).1 hskips⟩

end PanelSearch
