import PanelSearch.Proofs.Request.Shape

/-! Where the pipeline aggregations in a body find what they are computed from: each has paths,
which are to lead to the count or to a sibling. Which of them do is found out node by node. A metric
that the buckets of a terms aggregation are ordered by is written without any path. -/

namespace PanelSearch

open Json (member)

/-- The types of aggregations that are computed from their siblings. -/
def pipelineTypes : List String :=
  ["moving_avg", "moving_fn", "cumulative_sum", "derivative", "serial_diff", "bucket_script"]

def LeadsTo (siblings : List String) (path : String) : Prop :=
  path = "_count" ∨ path ∈ siblings

/-- The value is a path that leads to a sibling, or an object of such paths. -/
def PathsLead (siblings : List String) : Json → Prop
  | .str path => LeadsTo siblings path
  | .obj paths => ∀ p ∈ paths, ∃ path, p.2 = .str path ∧ LeadsTo siblings path
  | _ => False

/-- A node of a pipeline type has paths, and all of them lead to its siblings. -/
def NodeLeads (siblings : List String) (node : Json) : Prop :=
  ∀ type ∈ pipelineTypes, type ∈ Entries.keys node.membersD →
    PathsLead siblings (node.path [type, "buckets_path"])

/-- The path to a node under the keys of the nodes around it and its own. -/
def aggPath (keys : List String) : List String := keys.flatMap fun key => ["aggs", key]

/-- No path of a pipeline aggregation dangles, at whatever level it stands. -/
def NoDangling (body : Json) : Prop :=
  ∀ above key, NodeLeads (Entries.keys (body.path (aggPath above ++ ["aggs"])).membersD)
    (body.path (aggPath above ++ ["aggs", key]))

theorem nodeLeads_of_noMembers {siblings : List String} {j : Json} (h : j.membersD = []) :
    NodeLeads siblings j := by
  intro type _ hkey
  rw [h] at hkey
  cases hkey

theorem noDangling_iff {j : Json} : NoDangling j ↔
    ∀ key, NodeLeads (Entries.keys (j.path ["aggs"]).membersD) (j.path ["aggs", key]) ∧
      NoDangling (j.path ["aggs", key]) := by
  have hstep : ∀ key above rest, j.path (aggPath (key :: above) ++ rest) =
      (j.path ["aggs", key]).path (aggPath above ++ rest) := by
    intro key above rest
    rw [← Json.path_append]
    rfl
  constructor
  · intro h key
    refine ⟨h [] key, fun above inner => ?_⟩
    rw [← hstep, ← hstep]
    exact h (key :: above) inner
  · intro h above key
    cases above with
    | nil => exact (h key).1
    | cons first above =>
      rw [hstep, hstep]
      exact (h first).2 above key

theorem noDangling_of_noAggs {j : Json} (h : j.path ["aggs"] = .null) : NoDangling j := by
  have hnode : ∀ above key, j.path (aggPath above ++ ["aggs", key]) = .null := by
    intro above key
    cases above with
    | nil =>
      change j.path (["aggs"] ++ [key]) = .null
      rw [Json.path_append, h]
      rfl
    | cons first above =>
      change j.path (["aggs"] ++ first :: (aggPath above ++ ["aggs", key])) = .null
      rw [Json.path_append, h, Json.path_null]
  intro above key
  rw [hnode]
  exact nodeLeads_of_noMembers rfl

theorem noDangling_of_noMembers {j : Json} (h : j.membersD = []) : NoDangling j := by
  refine noDangling_of_noAggs ?_
  rw [Json.path_cons, h]
  rfl

/-- No path dangles in the written form of some nodes when none does among them or inside them. -/
theorem HoldsTrees.noDangling_iff {j : Json} {aggs : List Aggregation} (h : HoldsTrees j aggs) :
    NoDangling j ↔ ∀ n, Aggregation.IsWritten aggs n →
      NodeLeads (Entries.keys (Aggregation.siblingsJson aggs)) (.obj n.members) ∧
        NoDangling (.obj n.members) := by
  rw [PanelSearch.noDangling_iff, h.membersD]
  simp only [h.path_key]
  constructor
  · intro hall n hn
    have hget := Aggregation.get?_siblingsJson_eq_some_iff.mpr ⟨n, hn, rfl, rfl⟩
    have hkey := hall n.key
    rwa [member, hget] at hkey
  · intro hall key
    rw [member]
    cases hget : Entries.get? (Aggregation.siblingsJson aggs) key with
    | none => exact ⟨nodeLeads_of_noMembers rfl, noDangling_of_noMembers rfl⟩
    | some j =>
      obtain ⟨n, hn, -, rfl⟩ := Aggregation.get?_siblingsJson_eq_some_iff.mp hget
      exact hall n hn

theorem MetricKind.name_mem_pipelineTypes_iff (name : String) :
    (ofName name).name ∈ pipelineTypes ↔ (ofName name).isPipeline = true := by
  unfold ofName
  split
  case h_19 => simp_all [MetricKind.name, pipelineTypes, isPipeline]
  all_goals decide

theorem BucketAgg.name_not_mem_pipelineTypes {b : BucketAgg} (h : b.isKept = true) :
    b.kind.name ∉ pipelineTypes := by
  unfold isKept at h
  cases hk : b.kind with
  | other name => simp [hk] at h
  | _ => decide

theorem pathsLead_single {siblings : List String} {path? : Option String}
    (h : path?.isSome = true) : PathsLead siblings (AggBody.pathJson (.single (path?.getD ""))) ↔
      ∀ path ∈ path?, LeadsTo siblings path := by
  obtain ⟨path, rfl⟩ := Option.isSome_iff_exists.mp h
  simp [AggBody.pathJson, PathsLead]

theorem pathsLead_named {siblings : List String} {paths : Entries String} :
    PathsLead siblings (AggBody.pathJson (.named paths)) ↔
      ∀ path ∈ paths.map (·.2), LeadsTo siblings path := by
  simp only [AggBody.pathJson, PathsLead, Entries.mapValues, List.forall_mem_map]
  refine forall₂_congr fun p _ => ?_
  simp

section Leads

variable {q : Query} {siblings : List String} {m : Metric}

theorem nodeLeads_leaf {key : String} {body : AggBody} :
    NodeLeads siblings (.obj (Aggregation.node key body []).members) ↔
      (body.typeName ∈ pipelineTypes →
        PathsLead siblings (member body.members "buckets_path")) := by
  rw [Aggregation.members_leaf]
  have hpath : (Json.obj [(body.typeName, .obj body.members)]).path
      [body.typeName, "buckets_path"] = member body.members "buckets_path" := by
    simp [Json.path, member, Entries.get?_cons]
  constructor
  · intro h hpipeline
    rw [← hpath]
    exact h _ hpipeline (by simp [Json.membersD, Json.members?])
  · intro h type hpipeline hkey
    obtain rfl : type = body.typeName := by simpa [Json.membersD, Json.members?] using hkey
    rw [hpath]
    exact h hpipeline

theorem noDangling_leaf {key : String} {body : AggBody} (h : body.typeName ≠ "aggs") :
    NoDangling (.obj (Aggregation.node key body []).members) := by
  refine noDangling_of_noAggs ?_
  simp [Aggregation.members_leaf, Json.path, member, Entries.get?_cons, h]

/-- A metric that orders buckets is written without a path. -/
theorem nodeLeads_orderNode (hname : m.kind.name ∈ pipelineTypes ↔ m.kind.isPipeline = true) :
    NodeLeads siblings (.obj (orderNode m).members) ↔ m.kind.isPipeline = false := by
  rw [orderNode, nodeLeads_leaf]
  have hpath : member (AggBody.metric m.kind.name m.field []).members "buckets_path" = .null := by
    rw [AggBody.members, member]
    split <;> rfl
  rw [hpath, AggBody.typeName, hname, ← Bool.not_eq_true]
  exact Iff.rfl

/-- Where the metric is spelled `aggs`, its field stands where children would, and is no node. -/
theorem noDangling_orderNode : NoDangling (.obj (orderNode m).members) := by
  by_cases htype : m.kind.name = "aggs"
  · refine noDangling_iff.mpr fun key => ?_
    have hpath : ((Json.obj (orderNode m).members).path ["aggs", key]).membersD = [] := by
      rw [orderNode, Aggregation.members_leaf]
      simp only [AggBody.typeName, AggBody.members, htype]
      by_cases hfield : m.field = ""
      · simp [Json.path, member, Entries.get?_cons, hfield, Entries.putAll, Json.membersD,
          Json.members?]
      · by_cases hkey : "field" = key <;>
          simp [Json.path, member, Entries.get?_cons, hfield, hkey, Entries.putAll, Json.membersD,
            Json.members?]
    exact ⟨nodeLeads_of_noMembers hpath, noDangling_of_noMembers hpath⟩
  · exact noDangling_leaf htype

theorem nodeLeads_bucket {b : BucketAgg} {n : Aggregation} (hn : BucketNode q b n)
    (hb : b.isKept = true) (inner : List Aggregation) :
    NodeLeads siblings (.obj (n.addChildren inner).members) := by
  intro type hpipeline hkey
  rcases Aggregation.mem_keys_members hkey with rfl | rfl
  · rw [Aggregation.body_addChildren, hn.type] at hpipeline
    exact absurd hpipeline (BucketAgg.name_not_mem_pipelineTypes hb)
  · exact absurd hpipeline (by decide)

/-- Nodes with keys of their own, behind a metric that the buckets around them are ordered by. -/
theorem HoldsTrees.noDangling_iff_of_order {own : Option Metric} {inner : List Aggregation}
    {j : Json} (hj : HoldsTrees j (own.toList.map orderNode ++ inner))
    (hname : ∀ m ∈ own, m.kind.name ∈ pipelineTypes ↔ m.kind.isPipeline = true)
    (hkeys : (inner.map (·.key)).Nodup) : NoDangling j ↔
      (∀ m ∈ own, (∀ n ∈ inner, n.key ≠ m.id) → m.kind.isPipeline = false) ∧
      ∀ n ∈ inner, NodeLeads
          (Entries.keys (Aggregation.siblingsJson (own.toList.map orderNode ++ inner)))
          (.obj n.members) ∧ NoDangling (.obj n.members) := by
  have hown : ∀ n, Aggregation.IsWritten (own.toList.map orderNode) n ↔
      ∃ m ∈ own, orderNode m = n := by
    intro n
    rw [Aggregation.isWritten_iff_mem (by cases own <;> simp), List.mem_map]
    simp
  simp only [hj.noDangling_iff, Aggregation.isWritten_append_iff,
    Aggregation.isWritten_iff_mem hkeys, hown]
  constructor
  · intro h
    refine ⟨fun m hm hkey => ?_, fun n hn => h n (.inl hn)⟩
    exact (nodeLeads_orderNode (hname m hm)).mp (h (orderNode m) (.inr ⟨hkey, m, hm, rfl⟩)).1
  · rintro ⟨horder, hinner⟩ n (hn | ⟨hkey, m, hm, rfl⟩)
    · exact hinner n hn
    · exact ⟨(nodeLeads_orderNode (hname m hm)).mpr (horder m hm hkey), noDangling_orderNode⟩

end Leads

end PanelSearch
