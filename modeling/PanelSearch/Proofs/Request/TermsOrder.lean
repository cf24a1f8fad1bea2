import Mathlib.Data.List.TakeWhile
import PanelSearch.Proofs.Request.Levels
import PanelSearch.Proofs.Request.References

/-! The order of the buckets of terms aggregations. There is at most one key to order by, and what
it names is there: a key of the buckets themselves, their count, or a metric that is computed inside
them, wherever the terms aggregation stands and whatever it holds besides. -/

namespace PanelSearch

open Json (member)
open SearchRequest (nest)

/-- The digits that a text begins with, and no digit comes behind them. -/
structure LeadingDigits (text digits : String) : Prop where
  nonempty : digits ≠ ""
  isDigits : ∀ c ∈ digits.toList, Text.isDecimalDigit c = true
  split : ∃ rest, text.toList = digits.toList ++ rest ∧
    ∀ c ∈ rest.head?, Text.isDecimalDigit c = false

namespace BucketAgg

/-- The order that a terms aggregation is sent with, for each way to ask for one. -/
inductive HasOrder (q : Query) (b : BucketAgg) (node : Json) : Prop
  | unordered (hset : ∀ text, member b.settings "orderBy" ≠ .str text)
    (horder : node.path ["terms", "order"] = .obj [])
  | named {text : String} (hset : member b.settings "orderBy" = .str text)
    (hdigits : ∀ c ∈ text.toList.head?, Text.isDecimalDigit c = false)
    (horder : node.path ["terms", "order"] =
      .obj [(if text = "_term" then "_key" else text, .str b.direction)])
  /-- No metric has the id that the ordering begins with. -/
  | unknown {text digits : String} (hset : member b.settings "orderBy" = .str text)
    (hdigits : LeadingDigits text digits) (hmetrics : ∀ m ∈ q.metrics, m.id ≠ digits)
    (horder : node.path ["terms", "order"] = .obj [])
  | count {text : String} {m : Metric} (hset : member b.settings "orderBy" = .str text)
    (hdigits : LeadingDigits text m.id) (hm : m ∈ q.metrics) (hkind : m.kind = .count)
    (horder : node.path ["terms", "order"] = .obj [("_count", .str b.direction)])
  /-- The metric is computed inside the buckets. -/
  | metric {text : String} {m : Metric} {computed : Entries Json}
    (hset : member b.settings "orderBy" = .str text) (hdigits : LeadingDigits text m.id)
    (hm : m ∈ q.metrics) (hkind : m.kind ≠ .count)
    (horder : node.path ["terms", "order"] = .obj [(text, .str b.direction)])
    (hagg : node.path ["aggs", m.id] = .obj [(m.kind.name, .obj computed)])

theorem toList_orderedMetric (text : String) :
    (orderedMetric text).toList = text.toList.takeWhile Text.isDecimalDigit := by
  unfold orderedMetric
  rw [String.toList_ofList]

example : orderedMetric "1[95]" = "1" := by decide

theorem leadingDigits_orderedMetric {text : String} (h : orderedMetric text ≠ "") :
    LeadingDigits text (orderedMetric text) := by
  refine ⟨h, fun c hc => ?_, text.toList.dropWhile Text.isDecimalDigit, ?_, fun c hc => ?_⟩
  · rw [toList_orderedMetric] at hc
    exact List.mem_takeWhile_imp hc
  · rw [toList_orderedMetric, List.takeWhile_append_dropWhile]
  · have hstop := List.head?_dropWhile_not Text.isDecimalDigit text.toList
    rw [hc] at hstop
    exact hstop

theorem not_isDecimalDigit_of_orderedMetric {text : String} (h : orderedMetric text = "") :
    ∀ c ∈ text.toList.head?, Text.isDecimalDigit c = false := by
  have hnil := toList_orderedMetric text
  rw [h] at hnil
  intro c hc
  cases htext : text.toList with
  | nil =>
    rw [htext] at hc
    cases hc
  | cons first rest =>
    rw [htext] at hc hnil
    cases hc
    by_contra hdigit
    rw [List.takeWhile_cons_of_pos (by simpa using hdigit)] at hnil
    cases hnil

section Node

variable {q : Query} {target : Target} {b : BucketAgg} {n : Aggregation}

/-- A terms aggregation is written with its order, whatever it holds. -/
theorem path_order (hkind : b.kind = .terms) (hn : BuiltNode q target b n)
    (inner : List Aggregation) :
    (Json.obj (n.addChildren inner).members).path ["terms", "order"] = .obj (b.askedOrder q) := by
  have hb : b.isKept = true := by rw [isKept, hkind]
  have hterms : (Json.obj (n.addChildren inner).members).path ["terms"] =
      .obj n.body.members := by
    have hnamed := hn.member_members hb inner
    rwa [hkind] at hnamed
  have hpath : ["terms", "order"] = ["terms"] ++ ["order"] := rfl
  rw [hpath, Json.path_append, hterms, members_of_built hn.built, sentMembers, asked, hkind]
  rfl

theorem orderMetric?_eq {text : String} {m : Metric} (hkind : b.kind = .terms)
    (hset : member b.settings "orderBy" = .str text) (hdigits : orderedMetric text ≠ "")
    (hfind : q.metrics.find? (·.id == orderedMetric text) = some m) (hcount : m.kind ≠ .count) :
    q.orderMetric? b = some m := by
  rw [Query.orderMetric?, hkind, hset]
  simp only [String.isEmpty_iff, if_neg hdigits, hfind]
  simp [Option.filter, hcount]

/-- A terms aggregation is ordered as it was asked for, once the metric that it may be ordered by is
inside its buckets. -/
theorem hasOrder_of_built (hkind : b.kind = .terms) (hn : BuiltNode q target b n)
    {inner : List Aggregation} (hmetric : ∀ m, q.orderMetric? b = some m → ∃ computed,
      (Json.obj (n.addChildren inner).members).path ["aggs", m.id] =
        .obj [(m.kind.name, .obj computed)]) :
    HasOrder q b (.obj (n.addChildren inner).members) := by
  have horder := path_order hkind hn inner
  unfold askedOrder at horder
  cases hset : member b.settings "orderBy" with
  | str text =>
    simp only [hset] at horder
    by_cases hdigits : orderedMetric text = ""
    · rw [if_pos hdigits] at horder
      exact .named hset (not_isDecimalDigit_of_orderedMetric hdigits) horder
    have hleading := leadingDigits_orderedMetric hdigits
    rw [if_neg hdigits] at horder
    cases hfind : q.metrics.find? (·.id == orderedMetric text) with
    | none =>
      simp only [hfind] at horder
      refine .unknown hset hleading (fun m hm heq => ?_) horder
      simpa [heq] using List.find?_eq_none.mp hfind m hm
    | some m =>
      have hm := List.mem_of_find?_eq_some hfind
      have hid : m.id = orderedMetric text := by simpa using List.find?_some hfind
      simp only [hfind] at horder
      by_cases hcount : m.kind = .count
      · rw [if_pos hcount] at horder
        exact .count hset (hid ▸ hleading) hm hcount horder
      · rw [if_neg hcount] at horder
        obtain ⟨computed, hagg⟩ := hmetric m (orderMetric?_eq hkind hset hdigits hfind hcount)
        exact .metric hset (hid ▸ hleading) hm hcount horder hagg
  | _ =>
    simp only [hset] at horder
    exact .unordered (by simp [hset]) horder

end Node

end BucketAgg

namespace Query

variable {q : Query} {target : Target}

theorem IsLeaf.members_eq (hids : q.DistinctIds) {n : Aggregation} (hn : q.IsLeaf n) {m : Metric}
    (hm : m ∈ q.metrics) (hkey : n.key = m.id) :
    ∃ computed, n.members = [(m.kind.name, .obj computed)] := by
  obtain ⟨other, hother, body, rfl, htype⟩ := hn
  obtain rfl : other = m := List.inj_on_of_nodup_map hids.metrics hother hm hkey
  exact ⟨body.members, by rw [Aggregation.members_leaf, htype]⟩

/-- The metric that buckets are ordered by is inside them. Where it is requested as well, its own
node has its place, which is of the same type. -/
theorem exists_computed (hids : q.DistinctIds) {b : BucketAgg} {n : Aggregation}
    (hn : BucketNode q b n) (hb : b.isKept = true) {inner : List BucketAgg}
    (hinner : ∀ c ∈ inner, c ∈ q.buckets) {below leaves : List Aggregation}
    (hbelow : List.Forall₂ (BuiltNode q target) inner below)
    (hleaves : List.Forall₂ q.MetricNode q.requestedMetrics leaves) {m : Metric}
    (hm : q.orderMetric? b = some m) : ∃ computed,
      (Json.obj (n.addChildren (nest below leaves)).members).path ["aggs", m.id] =
        .obj [(m.kind.name, .obj computed)] := by
  have hmetric := (orderMetric?_mem hm).1
  have hholds := HoldsTrees.of_node (hn.typeName_ne hb (nest below leaves))
  rw [Aggregation.children_addChildren, hn.children] at hholds
  have horder : orderNode m ∈ q.orderNodes b := by rw [orderNodes, hm]; exact .head _
  have hthere : m.id ∈
      Entries.keys (Aggregation.siblingsJson (q.orderNodes b ++ nest below leaves)) :=
    Aggregation.mem_keys_siblingsJson.mpr ⟨orderNode m, List.mem_append_left _ horder, rfl⟩
  obtain ⟨v, hv⟩ := Entries.exists_get?_of_mem_keys hthere
  obtain ⟨written, hwritten, hkey, rfl⟩ := Aggregation.get?_siblingsJson_eq_some_iff.mp hv
  have hleaf : q.IsLeaf written := by
    rcases List.mem_append.mp hwritten.mem with hown | hnested
    · exact isLeaf_of_mem_orderNodes hown
    · cases hbelow with
      | nil => exact isLeaf_of_mem_leaves hleaves hnested
      | @cons c next inner below hnext _ =>
        obtain rfl := List.mem_singleton.mp hnested
        rw [Aggregation.key_addChildren, hnext.key] at hkey
        have hbucket := List.mem_map_of_mem (f := (·.id)) (hinner c List.mem_cons_self)
        have hid := List.mem_map_of_mem (f := (·.id)) hmetric
        exact absurd hkey ((List.nodup_append.mp hids).2.2 _ hbucket _ hid)
  obtain ⟨computed, hmembers⟩ := hleaf.members_eq hids hmetric hkey
  exact ⟨computed, by rw [hholds.path_eq hv, hmembers]⟩

/-- Every terms aggregation of a body has an order that can be followed. -/
structure OrdersResolve (q : Query) (body : Json) : Prop where
  levels : q.shape = .aggregation → ∀ outer b inner, q.keptBuckets = outer ++ b :: inner →
    b.kind = .terms → b.HasOrder q (body.path (levelPath (outer ++ [b])))
  /-- No other node is one, unless a metric is spelled like it. -/
  only : (∀ m ∈ q.metrics, m.kind.name ≠ "aggs" ∧ m.kind.name ≠ "terms") →
    ∀ key keys node, body.path (aggPath (key :: keys)) = .obj node → "terms" ∈ Entries.keys node →
      ∃ b ∈ q.keptBuckets, b.kind = .terms ∧ b.HasOrder q (.obj node)

end Query

/-- The orders in the body of any query with distinct ids can be followed. -/
theorem ofQuery_ordersResolve {target : Target} {q : Query} {r : SearchRequest}
    (hids : q.DistinctIds) (hbuild : SearchRequest.ofQuery target q = .ok r) :
    ∃ body, r.body = .ok body ∧ q.OrdersResolve body := by
  obtain ⟨body, hbody⟩ := SearchRequest.exists_body_of_ofQuery hbuild
  have hlevels : q.shape = .aggregation → ∀ outer b inner, q.keptBuckets = outer ++ b :: inner →
      b.kind = .terms → b.HasOrder q (body.path (levelPath (outer ++ [b]))) := by
    intro hshape outer b inner hkept hkind
    obtain ⟨built, leaves, hbuilt, hholds⟩ := exists_holdsBuilt hshape hbuild
    obtain rfl : built = body := Except.ok.inj (hbuilt.symm.trans hbody)
    obtain ⟨n, below, hn, hbelow, hpath⟩ := hholds.level outer b inner hkept
    have hinner : ∀ c ∈ inner, c ∈ q.buckets := by
      intro c hc
      have hmem : c ∈ q.keptBuckets := by simp [hkept, hc]
      exact (List.mem_filter.mp hmem).1
    rw [hpath]
    have hb := Query.isKept_of_keptBuckets hkept
    exact BucketAgg.hasOrder_of_built hkind hn fun m hm =>
      Query.exists_computed hids hn.toBucketNode hb hinner hbelow hholds.metrics hm
  refine ⟨body, hbody, hlevels, fun hmetrics key keys node hnode htype => ?_⟩
  have hterms : KindAtLevels q .terms body := kindAtLevels hbuild hbody (by simp) hmetrics
  obtain ⟨outer, b, inner, hkept, hkind, hkeys⟩ := hterms key keys node hnode htype
  have hshape := shape_eq_of_node hbuild hbody hnode
  have horder := hlevels hshape outer b inner hkept hkind
  rw [levelPath_eq_aggPath, ← hkeys, hnode] at horder
  exact ⟨b, by simp [hkept], hkind, horder⟩

theorem slowdown_ordersResolve : SearchRequest.slowdown.DistinctIds ∧
    ∃ r body, SearchRequest.ofQuery ⟨"ts", "logs", 3⟩ SearchRequest.slowdown = .ok r ∧
      r.body = .ok body ∧ SearchRequest.slowdown.OrdersResolve body := by
  have hids : SearchRequest.slowdown.DistinctIds := by decide
  obtain ⟨r, hbuild⟩ : ∃ r, SearchRequest.ofQuery ⟨"ts", "logs", 3⟩ SearchRequest.slowdown =
    .ok r := ⟨_, rfl⟩
  obtain ⟨body, hbody, horders⟩ := ofQuery_ordersResolve hids hbuild
  exact ⟨hids, r, body, hbuild, hbody, horders⟩

end PanelSearch
