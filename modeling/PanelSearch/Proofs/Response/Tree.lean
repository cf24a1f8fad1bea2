import PanelSearch.Proofs.KeyOrder
import PanelSearch.Proofs.Traversal
import PanelSearch.Response.Leaf

/-! Bucket trees that carry the levels of a query, and the leaves of a tree with the steps that lead
to them. The steps say which leaves there are and in which order they come, without a walk. -/

namespace PanelSearch

open Json (member)

/-- A step into a bucket: by its position in an array, or by its key. -/
inductive Step where
  | item (index : Nat)
  | key (key : String)

def Step.Before : Step → Step → Prop
  | item i, item j => i < j
  | key a, key b => Entries.KeyLt a b
  | _, _ => False

abbrev Trail := List Step

/-- Depth-first order: the first steps that differ decide. -/
def Trail.Before : Trail → Trail → Prop := List.Lex Step.Before

/-- A tree has a leaf at the end of a trail, below some labels. A nested level is entered without
a step and without a label. -/
inductive LeafAt : List BucketAgg → Entries String → Json → Trail → Leaf → Prop where
  | last {b : BucketAgg} {labels : Entries String} {tree : Json} {result : Entries Json}
      (hresult : member tree.membersD b.id = .obj result) :
      LeafAt [b] labels tree [] ⟨b, labels, result⟩
  | nested {b next : BucketAgg} {rest : List BucketAgg} {labels : Entries String} {tree : Json}
      {result : Entries Json} {trail : Trail} {leaf : Leaf} (hkind : b.kind = .nested)
      (hresult : member tree.membersD b.id = .obj result)
      (hbelow : LeafAt (next :: rest) labels (.obj result) trail leaf) :
      LeafAt (b :: next :: rest) labels tree trail leaf
  | item {b next : BucketAgg} {rest : List BucketAgg} {labels : Entries String} {tree : Json}
      {result : Entries Json} {items : List Json} {i : Nat} {bucket : Json} {trail : Trail}
      {leaf : Leaf} (hkind : b.kind ≠ .nested)
      (hresult : member tree.membersD b.id = .obj result)
      (hbuckets : member result "buckets" = .arr items) (hitem : items[i]? = some bucket)
      (hbelow : LeafAt (next :: rest) (Leaf.labelled labels b bucket) bucket trail leaf) :
      LeafAt (b :: next :: rest) labels tree (.item i :: trail) leaf
  | key {b next : BucketAgg} {rest : List BucketAgg} {labels : Entries String} {tree : Json}
      {result buckets : Entries Json} {key : String} {bucket : Json} {trail : Trail}
      {leaf : Leaf} (hkind : b.kind ≠ .nested)
      (hresult : member tree.membersD b.id = .obj result)
      (hbuckets : member result "buckets" = .obj buckets) (hkey : (key, bucket) ∈ buckets)
      (hbelow : LeafAt (next :: rest) (labels.put Leaf.filterLabel key) bucket trail leaf) :
      LeafAt (b :: next :: rest) labels tree (.key key :: trail) leaf

/-- Leaves in depth-first order: those of a tree, each with its trail. -/
structure DepthFirst (levels : List BucketAgg) (labels : Entries String) (tree : Json)
    (leaves : List (Trail × Leaf)) : Prop where
  mem_iff : ∀ trail leaf, (trail, leaf) ∈ leaves ↔ LeafAt levels labels tree trail leaf
  ordered : leaves.Pairwise fun x y => x.1.Before y.1

/-- Of the results of bucket aggregations an object holds one. -/
structure HoldsOnly (q : Query) (tree : Json) (id : String) (result : Entries Json) : Prop where
  distinct : (Entries.keys tree.membersD).Nodup
  result : Entries.get? tree.membersD id = some (.obj result)
  others : ∀ b ∈ q.buckets, b.id ∈ Entries.keys tree.membersD → b.id = id

/-- A tree carries levels: an object holds the result of the first of them and of no other bucket
aggregation, and what is below carries the others. Nested results hold the next level themselves,
other ones hold it in every bucket of an array or of an object. -/
inductive Carries (q : Query) : List BucketAgg → Json → Prop where
  | last {b : BucketAgg} {tree : Json} {result : Entries Json}
      (hholds : HoldsOnly q tree b.id result) : Carries q [b] tree
  | nested {b next : BucketAgg} {rest : List BucketAgg} {tree : Json} {result : Entries Json}
      (hkind : b.kind = .nested) (hholds : HoldsOnly q tree b.id result)
      (hbelow : Carries q (next :: rest) (.obj result)) : Carries q (b :: next :: rest) tree
  | array {b next : BucketAgg} {rest : List BucketAgg} {tree : Json} {result : Entries Json}
      {items : List Json} (hkind : b.kind ≠ .nested) (hholds : HoldsOnly q tree b.id result)
      (hbuckets : member result "buckets" = .arr items)
      (hbelow : ∀ bucket ∈ items, bucket.isObject = true → Carries q (next :: rest) bucket) :
      Carries q (b :: next :: rest) tree
  | keyed {b next : BucketAgg} {rest : List BucketAgg} {tree : Json}
      {result buckets : Entries Json} (hkind : b.kind ≠ .nested)
      (hholds : HoldsOnly q tree b.id result) (hbuckets : member result "buckets" = .obj buckets)
      (hkeys : (Entries.keys buckets).Nodup)
      (hbelow : ∀ e ∈ buckets, e.2.isObject = true → Carries q (next :: rest) e.2) :
      Carries q (b :: next :: rest) tree

theorem HoldsOnly.member_eq {q : Query} {tree : Json} {id : String} {result : Entries Json}
    (h : HoldsOnly q tree id result) : member tree.membersD id = .obj result := by
  rw [member, h.result, Option.getD_some]

namespace LeafAt

variable {levels : List BucketAgg} {labels : Entries String} {tree : Json} {trail : Trail}
  {leaf : Leaf}

theorem getLast?_eq (h : LeafAt levels labels tree trail leaf) :
    levels.getLast? = some leaf.agg := by
  induction h with
  | last => rfl
  | nested _ _ _ ih => rwa [List.getLast?_cons_cons]
  | item _ _ _ _ _ ih => rwa [List.getLast?_cons_cons]
  | key _ _ _ _ _ ih => rwa [List.getLast?_cons_cons]

end LeafAt

def Leaf.under (step : Step) (x : Trail × Leaf) : Trail × Leaf := (step :: x.1, x.2)

/-- The leaves of a tree over some levels, each with its trail. -/
def leavesBelow : List BucketAgg → Entries String → Json → List (Trail × Leaf)
  | [], _, _ => []
  | [b], labels, tree =>
    match member tree.membersD b.id with
    | .obj result => [([], ⟨b, labels, result⟩)]
    | _ => []
  | b :: next :: rest, labels, tree =>
    match member tree.membersD b.id with
    | .obj result =>
      if b.kind = .nested then leavesBelow (next :: rest) labels (.obj result)
      else
        match member result "buckets" with
        | .arr items => items.zipIdx.flatMap fun (bucket, i) =>
          (leavesBelow (next :: rest) (Leaf.labelled labels b bucket) bucket).map
            (Leaf.under (.item i))
        | .obj buckets => (Entries.sorted buckets).flatMap fun (key, bucket) =>
          (leavesBelow (next :: rest) (labels.put Leaf.filterLabel key) bucket).map
            (Leaf.under (.key key))
        | _ => []
    | _ => []

section Equations

variable {b next : BucketAgg} {rest : List BucketAgg} {labels : Entries String}
  {tree : Json} {result : Entries Json} (hresult : member tree.membersD b.id = .obj result)
include hresult

theorem leavesBelow_last : leavesBelow [b] labels tree = [([], ⟨b, labels, result⟩)] := by
  rw [leavesBelow, hresult]

theorem leavesBelow_nested (hkind : b.kind = .nested) :
    leavesBelow (b :: next :: rest) labels tree =
      leavesBelow (next :: rest) labels (.obj result) := by
  rw [leavesBelow, hresult]
  exact if_pos hkind

theorem leavesBelow_array (hkind : b.kind ≠ .nested) {items : List Json}
    (hbuckets : member result "buckets" = .arr items) :
    leavesBelow (b :: next :: rest) labels tree =
      items.zipIdx.flatMap fun (bucket, i) =>
        (leavesBelow (next :: rest) (Leaf.labelled labels b bucket) bucket).map
          (Leaf.under (.item i)) := by
  rw [leavesBelow, hresult]
  simp only [if_neg hkind, hbuckets]

theorem leavesBelow_keyed (hkind : b.kind ≠ .nested) {buckets : Entries Json}
    (hbuckets : member result "buckets" = .obj buckets) :
    leavesBelow (b :: next :: rest) labels tree =
      (Entries.sorted buckets).flatMap fun (key, bucket) =>
        (leavesBelow (next :: rest) (labels.put Leaf.filterLabel key) bucket).map
          (Leaf.under (.key key)) := by
  rw [leavesBelow, hresult]
  simp only [if_neg hkind, hbuckets]

end Equations

theorem leavesBelow_of_isObject_eq_false {levels : List BucketAgg} {labels : Entries String}
    {tree : Json} (h : tree.isObject = false) : leavesBelow levels labels tree = [] := by
  have hmember : ∀ key, member tree.membersD key = .null := by
    intro key
    cases tree with
    | obj members => cases h
    | _ => rfl
  cases levels with
  | nil => rfl
  | cons b rest =>
    cases rest with
    | nil => rw [leavesBelow, hmember]
    | cons next rest => rw [leavesBelow, hmember]

theorem mem_under {step : Step} {leaves : List (Trail × Leaf)} {trail : Trail}
    {leaf : Leaf} : (trail, leaf) ∈ leaves.map (Leaf.under step) ↔
      ∃ rest, trail = step :: rest ∧ (rest, leaf) ∈ leaves := by
  constructor
  · intro h
    obtain ⟨⟨rest, l⟩, hmem, heq⟩ := List.mem_map.mp h
    cases heq
    exact ⟨rest, rfl, hmem⟩
  · rintro ⟨rest, rfl, hmem⟩
    exact List.mem_map.mpr ⟨_, hmem, rfl⟩

theorem leafAt_of_mem {levels : List BucketAgg} {labels : Entries String} {tree : Json}
    {trail : Trail} {leaf : Leaf} (h : (trail, leaf) ∈ leavesBelow levels labels tree) :
    LeafAt levels labels tree trail leaf := by
  fun_induction leavesBelow levels labels tree generalizing trail with
  | case1 | case3 | case7 | case8 => cases h
  | case2 b labels tree result hresult =>
    cases List.mem_singleton.mp h
    exact .last hresult
  | case4 b next rest labels tree result hresult hkind ih => exact .nested hkind hresult (ih h)
  | case5 b next rest labels tree result hresult hkind items hbuckets ih =>
    obtain ⟨⟨bucket, i⟩, hitem, h⟩ := List.mem_flatMap.mp h
    obtain ⟨below, rfl, hbelow⟩ := mem_under.mp h
    exact .item hkind hresult hbuckets (List.mk_mem_zipIdx_iff_getElem?.mp hitem) (ih bucket hbelow)
  | case6 b next rest labels tree result hresult hkind buckets hbuckets ih =>
    obtain ⟨⟨key, bucket⟩, hkey, h⟩ := List.mem_flatMap.mp h
    obtain ⟨below, rfl, hbelow⟩ := mem_under.mp h
    exact .key hkind hresult hbuckets (Entries.mem_sorted.mp hkey) (ih key bucket hbelow)

theorem LeafAt.mem {levels : List BucketAgg} {labels : Entries String} {tree : Json}
    {trail : Trail} {leaf : Leaf} (h : LeafAt levels labels tree trail leaf) :
    (trail, leaf) ∈ leavesBelow levels labels tree := by
  induction h with
  | last hresult =>
    rw [leavesBelow_last hresult]
    exact List.mem_singleton.mpr rfl
  | nested hkind hresult _ ih =>
    rw [leavesBelow_nested hresult hkind]
    exact ih
  | @item _ _ _ _ _ _ _ i bucket _ _ hkind hresult hbuckets hitem _ ih =>
    rw [leavesBelow_array hresult hkind hbuckets]
    refine List.mem_flatMap.mpr ⟨(bucket, i), List.mk_mem_zipIdx_iff_getElem?.mpr hitem, ?_⟩
    exact mem_under.mpr ⟨_, rfl, ih⟩
  | @key _ _ _ _ _ _ _ key bucket _ _ hkind hresult hbuckets hkey _ ih =>
    rw [leavesBelow_keyed hresult hkind hbuckets]
    refine List.mem_flatMap.mpr ⟨(key, bucket), Entries.mem_sorted.mpr hkey, ?_⟩
    exact mem_under.mpr ⟨_, rfl, ih⟩

theorem LeafAt.isObject {levels : List BucketAgg} {labels : Entries String} {tree : Json}
    {trail : Trail} {leaf : Leaf} (h : LeafAt levels labels tree trail leaf) :
    tree.isObject = true := by
  cases hobject : tree.isObject with
  | true => rfl
  | false =>
    have hmem := h.mem
    rw [leavesBelow_of_isObject_eq_false hobject] at hmem
    cases hmem

theorem pairwise_flatMap_under {α : Type} {xs : List α} {step : α → Step}
    {leaves : α → List (Trail × Leaf)}
    (hsteps : xs.Pairwise fun x y => (step x).Before (step y))
    (hleaves : ∀ x ∈ xs, (leaves x).Pairwise fun a b => a.1.Before b.1) :
    (xs.flatMap fun x => (leaves x).map (Leaf.under (step x))).Pairwise
      fun a b => a.1.Before b.1 := by
  rw [List.pairwise_flatMap]
  constructor
  · intro x hx
    rw [List.pairwise_map]
    exact (hleaves x hx).imp fun h => .cons h
  · refine hsteps.imp fun {x y} hxy a ha b hb => ?_
    obtain ⟨as, htrail, -⟩ := mem_under.mp ha
    obtain ⟨bs, hother, -⟩ := mem_under.mp hb
    rw [htrail, hother]
    exact .rel hxy

theorem Carries.pairwise {q : Query} {levels : List BucketAgg} {tree : Json}
    (h : Carries q levels tree) (labels : Entries String) :
    (leavesBelow levels labels tree).Pairwise fun a b => a.1.Before b.1 := by
  induction h generalizing labels with
  | last hholds =>
    rw [leavesBelow_last hholds.member_eq]
    exact List.pairwise_singleton _ _
  | nested hkind hholds _ ih =>
    rw [leavesBelow_nested hholds.member_eq hkind]
    exact ih labels
  | array hkind hholds hbuckets hbelow ih =>
    rw [leavesBelow_array hholds.member_eq hkind hbuckets]
    refine pairwise_flatMap_under (Traversal.pairwise_zipIdx _) fun ⟨bucket, i⟩ hitem => ?_
    by_cases hobject : bucket.isObject = true
    · exact ih bucket (List.fst_mem_of_mem_zipIdx hitem) hobject _
    · rw [leavesBelow_of_isObject_eq_false (by simpa using hobject)]
      exact .nil
  | keyed hkind hholds hbuckets hkeys hbelow ih =>
    rw [leavesBelow_keyed hholds.member_eq hkind hbuckets]
    refine pairwise_flatMap_under (Entries.pairwise_sorted hkeys) fun ⟨key, bucket⟩ hkey => ?_
    by_cases hobject : bucket.isObject = true
    · exact ih (key, bucket) (Entries.mem_sorted.mp hkey) hobject _
    · rw [leavesBelow_of_isObject_eq_false (by simpa using hobject)]
      exact .nil

/-- The leaves of a tree that carries levels stand in depth-first order. -/
theorem Carries.depthFirst {q : Query} {levels : List BucketAgg} {tree : Json}
    (h : Carries q levels tree) (labels : Entries String) :
    DepthFirst levels labels tree (leavesBelow levels labels tree) :=
  ⟨fun _ _ => ⟨leafAt_of_mem, LeafAt.mem⟩, h.pairwise labels⟩

end PanelSearch
