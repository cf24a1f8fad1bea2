import PanelSearch.Proofs.Request.References
import PanelSearch.Proofs.Response.Drawn
import PanelSearch.Proofs.Response.Innermost

/-! The labels on the way to a leaf. A bucket of an array adds its label under the field of its
aggregation, a bucket under a key adds the key under one word for all filters, and the dictionary of
a leaf is what these say in order. Where siblings have distinct labels, two ways part at some level
under one key, and the dictionaries differ there unless the key comes again on a way. -/

namespace PanelSearch

open Json (member)

/-- The label of an object that is a bucket. -/
def Json.label? (bucket : Json) : Option String := bucket.members?.bind Bucket.label?

/-- What the buckets on a trail add to the labels: the keys, each with the label if there is one. -/
def labelPath : List BucketAgg → Json → Trail → List (String × Option String)
  | b :: next :: rest, tree, trail =>
    if b.kind = .nested then labelPath (next :: rest) (member tree.membersD b.id) trail
    else
      match trail, member (member tree.membersD b.id).membersD "buckets" with
      | .item i :: trail, .arr items =>
        (b.field, (items[i]?.getD .null).label?) ::
          labelPath (next :: rest) (items[i]?.getD .null) trail
      | .key key :: trail, .obj buckets =>
        (Leaf.filterLabel, some key) :: labelPath (next :: rest) (member buckets key) trail
      | _, _ => []
  | _, _, _ => []

/-- The labels of a path, under their keys. -/
def labelsOf (path : List (String × Option String)) : Entries String :=
  path.filterMap fun (key, label) => label.map (key, ·)

/-- At each of some levels of a tree sibling buckets have distinct labels: the objects of an array
those of their keys, and the buckets of an object their keys themselves. -/
def SiblingsDistinct : List BucketAgg → Json → Prop
  | b :: next :: rest, tree =>
    if b.kind = .nested then SiblingsDistinct (next :: rest) (member tree.membersD b.id)
    else
      match member (member tree.membersD b.id).membersD "buckets" with
      | .arr items =>
        (items.filter Json.isObject).Pairwise (fun x y => x.label? ≠ y.label?) ∧
          ∀ bucket ∈ items, SiblingsDistinct (next :: rest) bucket
      | .obj buckets =>
        (Entries.keys buckets).Nodup ∧ ∀ e ∈ buckets, SiblingsDistinct (next :: rest) e.2
      | _ => True
  | _, _ => True

section Equations

variable {b next : BucketAgg} {rest : List BucketAgg} {tree : Json} {result : Entries Json}
  (hresult : member tree.membersD b.id = .obj result)
include hresult

theorem labelPath_nested (hkind : b.kind = .nested) (trail : Trail) :
    labelPath (b :: next :: rest) tree trail = labelPath (next :: rest) (.obj result) trail := by
  rw [← hresult]
  exact if_pos hkind

theorem labelPath_item (hkind : b.kind ≠ .nested) {items : List Json}
    (hbuckets : member result "buckets" = .arr items) {i : Nat} {bucket : Json}
    (hitem : items[i]? = some bucket) (trail : Trail) :
    labelPath (b :: next :: rest) tree (.item i :: trail) =
      (b.field, bucket.label?) :: labelPath (next :: rest) bucket trail := by
  have hmember : member (Json.obj result).membersD "buckets" = .arr items := hbuckets
  rw [← hresult] at hmember
  refine (if_neg hkind).trans ?_
  simp only [hmember, hitem, Option.getD_some]

theorem labelPath_key (hkind : b.kind ≠ .nested) {buckets : Entries Json}
    (hbuckets : member result "buckets" = .obj buckets) (key : String) (trail : Trail) :
    labelPath (b :: next :: rest) tree (.key key :: trail) =
      (Leaf.filterLabel, some key) :: labelPath (next :: rest) (member buckets key) trail := by
  have hmember : member (Json.obj result).membersD "buckets" = .obj buckets := hbuckets
  rw [← hresult] at hmember
  refine (if_neg hkind).trans ?_
  simp only [hmember]

theorem siblingsDistinct_nested (hkind : b.kind = .nested) :
    SiblingsDistinct (b :: next :: rest) tree ↔ SiblingsDistinct (next :: rest) (.obj result) := by
  rw [SiblingsDistinct, if_pos hkind, hresult]

theorem siblingsDistinct_array (hkind : b.kind ≠ .nested) {items : List Json}
    (hbuckets : member result "buckets" = .arr items) :
    SiblingsDistinct (b :: next :: rest) tree ↔
      (items.filter Json.isObject).Pairwise (fun x y => x.label? ≠ y.label?) ∧
        ∀ bucket ∈ items, SiblingsDistinct (next :: rest) bucket := by
  have hmember : member (Json.obj result).membersD "buckets" = .arr items := hbuckets
  rw [SiblingsDistinct, if_neg hkind, hresult, hmember]

theorem siblingsDistinct_keyed (hkind : b.kind ≠ .nested) {buckets : Entries Json}
    (hbuckets : member result "buckets" = .obj buckets) :
    SiblingsDistinct (b :: next :: rest) tree ↔
      (Entries.keys buckets).Nodup ∧ ∀ e ∈ buckets, SiblingsDistinct (next :: rest) e.2 := by
  have hmember : member (Json.obj result).membersD "buckets" = .obj buckets := hbuckets
  rw [SiblingsDistinct, if_neg hkind, hresult, hmember]

end Equations

namespace Leaf

theorem labelled_eq_putAll (labels : Entries String) (b : BucketAgg) (bucket : Json) :
    labelled labels b bucket = labels.putAll (labelsOf [(b.field, bucket.label?)]) := by
  unfold labelled
  rw [← Json.label?]
  cases bucket.label? <;> rfl

end Leaf

theorem Entries.member_of_mem {buckets : Entries Json} {key : String} {bucket : Json}
    (hkeys : (Entries.keys buckets).Nodup) (h : (key, bucket) ∈ buckets) :
    member buckets key = bucket := by
  rw [member, Entries.get?_of_mem hkeys h, Option.getD_some]

theorem putAll_labelsOf_cons (labels : Entries String) (e : String × Option String)
    (path : List (String × Option String)) :
    labels.putAll (labelsOf (e :: path)) =
      (labels.putAll (labelsOf [e])).putAll (labelsOf path) := by
  have happend : labelsOf (e :: path) = labelsOf [e] ++ labelsOf path :=
    List.filterMap_append (l := [e])
  rw [happend, Entries.putAll, List.foldl_append]
  rfl

/-- The labels of a leaf are those that the buckets on its trail add. -/
theorem LeafAt.labels_eq {levels : List BucketAgg} {labels : Entries String} {tree : Json}
    {trail : Trail} {leaf : Leaf} (h : LeafAt levels labels tree trail leaf)
    (hdistinct : SiblingsDistinct levels tree) :
    leaf.labels = labels.putAll (labelsOf (labelPath levels tree trail)) := by
  induction h with
  | last => rfl
  | nested hkind hresult _ ih =>
    rw [labelPath_nested hresult hkind]
    exact ih ((siblingsDistinct_nested hresult hkind).mp hdistinct)
  | item hkind hresult hbuckets hitem _ ih =>
    have hbelow := ((siblingsDistinct_array hresult hkind hbuckets).mp hdistinct).2
    rw [labelPath_item hresult hkind hbuckets hitem, putAll_labelsOf_cons,
      ← Leaf.labelled_eq_putAll]
    exact ih (hbelow _ (List.mem_of_getElem? hitem))
  | key hkind hresult hbuckets hkey _ ih =>
    obtain ⟨hkeys, hbelow⟩ := (siblingsDistinct_keyed hresult hkind hbuckets).mp hdistinct
    rw [labelPath_key hresult hkind hbuckets, putAll_labelsOf_cons,
      Entries.member_of_mem hkeys hkey]
    exact ih (hbelow _ hkey)

/-- Two paths part: at some level they have different labels under one key. -/
def Parts (p r : List (String × Option String)) : Prop :=
  ∃ common key a b after after', p = common ++ (key, a) :: after ∧
    r = common ++ (key, b) :: after' ∧ a ≠ b

theorem Parts.cons {p r : List (String × Option String)} (h : Parts p r)
    (e : String × Option String) : Parts (e :: p) (e :: r) := by
  obtain ⟨common, key, a, b, after, after', rfl, rfl, hne⟩ := h
  exact ⟨e :: common, key, a, b, after, after', rfl, rfl, hne⟩

theorem Parts.head {key : String} {a b : Option String} (hne : a ≠ b)
    (p r : List (String × Option String)) : Parts ((key, a) :: p) ((key, b) :: r) :=
  ⟨[], key, a, b, p, r, rfl, rfl, hne⟩

theorem label?_ne_of_getElem? {items : List Json}
    (h : (items.filter Json.isObject).Pairwise fun x y => x.label? ≠ y.label?) {i j : Nat}
    {x y : Json} (hx : items[i]? = some x) (hy : items[j]? = some y) (hxo : x.isObject = true)
    (hyo : y.isObject = true) (hne : i ≠ j) : x.label? ≠ y.label? := by
  obtain ⟨hi, rfl⟩ := List.getElem?_eq_some_iff.mp hx
  obtain ⟨hj, rfl⟩ := List.getElem?_eq_some_iff.mp hy
  have hpairs := List.pairwise_iff_getElem.mp (List.pairwise_filter.mp h)
  rcases Nat.lt_or_gt_of_ne hne with hlt | hlt
  · exact hpairs i j hi hj hlt hxo hyo
  · exact (hpairs j i hj hi hlt hyo hxo).symm

namespace LeafAt

section Inversion

variable {b next : BucketAgg} {rest : List BucketAgg} {labels : Entries String} {tree : Json}
  {result : Entries Json} {trail : Trail} {leaf : Leaf}
  (h : LeafAt (b :: next :: rest) labels tree trail leaf)
  (hresult : member tree.membersD b.id = .obj result)
include h hresult

theorem of_nested (hkind : b.kind = .nested) :
    LeafAt (next :: rest) labels (.obj result) trail leaf := by
  cases h with
  | nested _ hresult' hbelow =>
    rw [hresult] at hresult'
    cases hresult'
    exact hbelow
  | item hkind' | key hkind' => exact absurd hkind hkind'

theorem exists_item (hkind : b.kind ≠ .nested) {items : List Json}
    (hbuckets : member result "buckets" = .arr items) :
    ∃ i bucket below, trail = .item i :: below ∧ items[i]? = some bucket ∧
      LeafAt (next :: rest) (Leaf.labelled labels b bucket) bucket below leaf := by
  cases h with
  | nested hkind' => exact absurd hkind' hkind
  | item _ hresult' hbuckets' hitem hbelow =>
    rw [hresult] at hresult'
    cases hresult'
    rw [hbuckets] at hbuckets'
    cases hbuckets'
    exact ⟨_, _, _, rfl, hitem, hbelow⟩
  | key _ hresult' hbuckets' =>
    rw [hresult] at hresult'
    cases hresult'
    rw [hbuckets] at hbuckets'
    cases hbuckets'

theorem exists_key (hkind : b.kind ≠ .nested) {buckets : Entries Json}
    (hbuckets : member result "buckets" = .obj buckets) :
    ∃ key bucket below, trail = .key key :: below ∧ (key, bucket) ∈ buckets ∧
      LeafAt (next :: rest) (labels.put Leaf.filterLabel key) bucket below leaf := by
  cases h with
  | nested hkind' => exact absurd hkind' hkind
  | item _ hresult' hbuckets' =>
    rw [hresult] at hresult'
    cases hresult'
    rw [hbuckets] at hbuckets'
    cases hbuckets'
  | key _ hresult' hbuckets' hkey hbelow =>
    rw [hresult] at hresult'
    cases hresult'
    rw [hbuckets] at hbuckets'
    cases hbuckets'
    exact ⟨_, _, _, rfl, hkey, hbelow⟩

end Inversion

/-- The ways to two leaves part where their trails do. -/
theorem parts {levels : List BucketAgg} {labels labels' : Entries String} {tree : Json}
    {trail other : Trail} {leaf otherLeaf : Leaf} (h : LeafAt levels labels tree trail leaf)
    (hother : LeafAt levels labels' tree other otherLeaf) (hdistinct : SiblingsDistinct levels tree)
    (hne : trail ≠ other) : Parts (labelPath levels tree trail) (labelPath levels tree other) := by
  induction h generalizing labels' other with
  | last =>
    cases hother
    exact absurd rfl hne
  | nested hkind hresult _ ih =>
    rw [labelPath_nested hresult hkind, labelPath_nested hresult hkind]
    exact ih (hother.of_nested hresult hkind)
      ((siblingsDistinct_nested hresult hkind).mp hdistinct) hne
  | @item _ _ _ _ _ _ _ i _ _ _ hkind hresult hbuckets hitem hbelow ih =>
    obtain ⟨hlabels, hdistinct⟩ := (siblingsDistinct_array hresult hkind hbuckets).mp hdistinct
    obtain ⟨j, bucket', below', rfl, hitem', hbelow'⟩ := hother.exists_item hresult hkind hbuckets
    rw [labelPath_item hresult hkind hbuckets hitem, labelPath_item hresult hkind hbuckets hitem']
    by_cases hij : i = j
    · subst hij
      rw [hitem] at hitem'
      cases hitem'
      refine (ih hbelow' (hdistinct _ (List.mem_of_getElem? hitem)) ?_).cons _
      rintro rfl
      exact hne rfl
    · refine .head (label?_ne_of_getElem? hlabels hitem hitem' ?_ ?_ hij) _ _
      · exact hbelow.isObject
      · exact hbelow'.isObject
  | @key _ _ _ _ _ _ _ key _ _ _ hkind hresult hbuckets hkey hbelow ih =>
    obtain ⟨hkeys, hdistinct⟩ := (siblingsDistinct_keyed hresult hkind hbuckets).mp hdistinct
    obtain ⟨key', bucket', below', rfl, hkey', hbelow'⟩ := hother.exists_key hresult hkind hbuckets
    rw [labelPath_key hresult hkind hbuckets, labelPath_key hresult hkind hbuckets]
    by_cases hsame : key = key'
    · subst hsame
      have hbucket : member _ key = bucket' := Entries.member_of_mem hkeys hkey'
      rw [Entries.member_of_mem hkeys hkey] at hbucket ⊢
      subst hbucket
      refine (ih hbelow' (hdistinct _ hkey) ?_).cons _
      rintro rfl
      exact hne rfl
    · exact .head (fun heq => hsame (Option.some.inj heq)) _ _

end LeafAt

theorem mem_labelsOf {path : List (String × Option String)} {key label : String} :
    (key, label) ∈ labelsOf path ↔ (key, some label) ∈ path := by
  constructor
  · intro h
    obtain ⟨⟨key', label'⟩, hmem, heq⟩ := List.mem_filterMap.mp h
    obtain ⟨label'', rfl, heq⟩ := Option.map_eq_some_iff.mp heq
    cases heq
    exact hmem
  · exact fun h => List.mem_filterMap.mpr ⟨_, h, rfl⟩

theorem keys_labelsOf_sublist (path : List (String × Option String)) :
    (Entries.keys (labelsOf path)).Sublist (path.map (·.1)) := by
  induction path with
  | nil => exact .slnil
  | cons e path ih =>
    obtain ⟨key, label⟩ := e
    cases label with
    | none => exact ih.cons key
    | some label => exact ih.cons_cons key

/-- Where no key comes twice, the dictionary of a path says what the path does. -/
theorem get?_ofList_labelsOf {path : List (String × Option String)} (h : (path.map (·.1)).Nodup)
    {key : String} {label : Option String} (hmem : (key, label) ∈ path) :
    (Entries.ofList (labelsOf path)).get? key = label := by
  cases label with
  | some label =>
    have hkeys : (Entries.keys (labelsOf path)).Nodup := h.sublist (keys_labelsOf_sublist path)
    exact Entries.get?_ofList_of_mem hkeys (mem_labelsOf.mpr hmem)
  | none =>
    refine Entries.get?_of_not_mem_keys fun hkey => ?_
    obtain ⟨label, hlabel⟩ := Entries.mem_keys.mp (Entries.mem_keys_ofList.mp hkey)
    have hsame := List.inj_on_of_nodup_map h (mem_labelsOf.mp hlabel) hmem rfl
    cases hsame

theorem Parts.exists_get?_ne {p r : List (String × Option String)} (h : Parts p r)
    (hp : (p.map (·.1)).Nodup) (hr : (r.map (·.1)).Nodup) :
    ∃ key, (Entries.ofList (labelsOf p)).get? key ≠ (Entries.ofList (labelsOf r)).get? key := by
  obtain ⟨common, key, a, b, after, after', rfl, rfl, hne⟩ := h
  have hleft := get?_ofList_labelsOf hp (List.mem_append_right common List.mem_cons_self)
  have hright := get?_ofList_labelsOf hr (List.mem_append_right common List.mem_cons_self)
  exact ⟨key, by rwa [hleft, hright]⟩

/-- The labels of the column that a frame draws, its last one. -/
def Frame.labels (f : Frame) : Entries String := (f.columns.getLast?.map (·.labels)).getD []

namespace Collected

variable {q : Query}

theorem forall₂_labels_drawn (c : Collected) :
    List.Forall₂ (fun s f => f.labels = s.labels) c.series ((c.drawn q).map (·.2)) := by
  rw [← c.drawn_map_fst (q := q), List.forall₂_map_left_iff, List.forall₂_map_right_iff,
    List.forall₂_same]
  intro x hx
  obtain ⟨named, -, rfl⟩ := List.mem_map.mp hx
  rfl

/-- The labels of all frames for a leaf are those of the leaf. -/
theorem exists_groups {leaves : List Leaf} {c : Collected}
    (h : c.series = leaves.flatMap (Leaf.drawn q)) :
    ∃ groups : List (List Frame), (c.drawn q).map (·.2) = groups.flatten ∧
      List.Forall₂ (fun leaf group => group.length = (leaf.drawn q).length ∧
        ∀ f ∈ group, f.labels = leaf.labels) leaves groups := by
  have hlabels := c.forall₂_labels_drawn (q := q)
  rw [h] at hlabels
  obtain ⟨groups, hflatten, hgroups⟩ := Traversal.forall₂_flatMap hlabels
  refine ⟨groups, hflatten, hgroups.imp fun leaf group hgroup => ⟨hgroup.length_eq.symm, ?_⟩⟩
  intro f hf
  obtain ⟨s, hs, hlabels⟩ :=
    Traversal.exists_mem_of_forall₂ (R := fun (f : Frame) (s : Series) => f.labels = s.labels)
      hgroup.flip hf
  rw [hlabels]
  obtain ⟨m, -, hs⟩ := List.mem_flatMap.mp hs
  obtain ⟨l, -, rfl⟩ := List.mem_map.mp hs
  rfl

end Collected

/-- In a response whose tree carries all levels down to a date histogram there is no table, and the
series are those of its leaves in depth-first order. -/
theorem Collected.exists_depthFirst {q : Query} {response : Entries Json} {outer : List BucketAgg}
    {d : BucketAgg} {c : Collected} (hids : (q.buckets.map (·.id)).Nodup)
    (hlevels : q.buckets = outer ++ [d]) (hkind : d.kind = .dateHistogram)
    (htree : Carries q q.buckets (member response "aggregations"))
    (hc : ofResponse q response = .ok c) :
    ∃ leaves, DepthFirst q.buckets [] (member response "aggregations") leaves ∧ c.table = none ∧
      c.series = (leaves.map (·.2)).flatMap (Leaf.drawn q) := by
  have hwalk := Leaf.ofResponse_eq hids hlevels (by rw [hkind]; decide) htree
  have hdepthFirst := htree.depthFirst []
  have htimes : ∀ leaf ∈ Leaf.ofResponse q response, leaf.agg.kind = .dateHistogram := by
    rw [hwalk]
    intro leaf hleaf
    rw [hdepthFirst.agg_eq hlevels leaf hleaf, hkind]
  refine ⟨_, hdepthFirst, ?_, ?_⟩
  · have htable := addLeaves_of_foldlM hc
    rw [List.filter_eq_nil_iff.mpr fun leaf hleaf => by simpa using htimes leaf hleaf] at htable
    exact (Except.ok.inj htable).symm
  · rw [series_eq_flatMap hc, Leaf.overTime, ← hwalk,
      List.filter_eq_self.mpr fun leaf hleaf => by simpa using htimes leaf hleaf]

/-- What the buckets on a trail into a response add to the labels. -/
def Query.pathTo (q : Query) (response : Entries Json) (trail : Trail) :
    List (String × Option String) :=
  labelPath q.buckets (member response "aggregations") trail

/-- The frames of a response whose tree carries all levels down to a date histogram come in groups,
one for each leaf in depth-first order. Where sibling buckets have distinct labels, the labels of a
group are those of the path of its leaf, and other paths have other labels, unless a key comes twice
on one of them. -/
theorem labels_tell_paths_apart {q : Query} {response : Entries Json} {outer : List BucketAgg}
    {d : BucketAgg} {frames : List Frame} (hids : (q.buckets.map (·.id)).Nodup)
    (hlevels : q.buckets = outer ++ [d]) (hkind : d.kind = .dateHistogram)
    (htree : Carries q q.buckets (member response "aggregations"))
    (hdistinct : SiblingsDistinct q.buckets (member response "aggregations"))
    (hframes : aggregationFrames q response = .ok frames) :
    ∃ leaves groups, DepthFirst q.buckets [] (member response "aggregations") leaves ∧
      frames = groups.flatten ∧
      List.Forall₂ (fun x group => group.length = (x.2.drawn q).length ∧
        ∀ f ∈ group, f.labels = Entries.ofList (labelsOf (q.pathTo response x.1))) leaves groups ∧
      ∀ x ∈ leaves, ∀ y ∈ leaves, q.pathTo response x.1 ≠ q.pathTo response y.1 →
        ((q.pathTo response x.1).map (·.1)).Nodup → ((q.pathTo response y.1).map (·.1)).Nodup →
        ∃ key, (Entries.ofList (labelsOf (q.pathTo response x.1))).get? key ≠
          (Entries.ofList (labelsOf (q.pathTo response y.1))).get? key := by
  obtain ⟨c, hc, rfl⟩ := aggregationFrames_eq_ok_iff.mp hframes
  obtain ⟨leaves, hleaves, htable, hseries⟩ :=
    Collected.exists_depthFirst hids hlevels hkind htree hc
  obtain ⟨groups, hflatten, hgroups⟩ := Collected.exists_groups hseries
  have hat : ∀ x ∈ leaves, LeafAt q.buckets [] (member response "aggregations") x.1 x.2 :=
    fun x hx => (hleaves.mem_iff x.1 x.2).mp hx
  refine ⟨leaves, groups, hleaves, ?_, ?_, ?_⟩
  · rw [Collected.tableFrames, htable, hflatten]
    exact List.append_nil _
  · obtain ⟨hlength, hall⟩ := List.forall₂_iff_zip.mp (List.forall₂_map_left_iff.mp hgroups)
    refine List.forall₂_iff_zip.mpr ⟨hlength, fun {x group} hmem => ⟨(hall hmem).1, ?_⟩⟩
    intro f hf
    have hlabels := (hat x (List.of_mem_zip hmem).1).labels_eq hdistinct
    rw [(hall hmem).2 f hf, hlabels]
    rfl
  · intro x hx y hy hpath hxkeys hykeys
    have htrail : x.1 ≠ y.1 := fun heq => hpath (by rw [heq])
    exact ((hat x hx).parts (hat y hy) hdistinct htrail).exists_get?_ne hxkeys hykeys

/-- Counts over filters, over another level inside, and over time. -/
def countsWithin (inner : BucketAgg) : Query :=
  SearchRequest.overTime [⟨"7", .filters, "", []⟩, inner] [SearchRequest.bareMetric "1" .count ""]

def within (buckets : Json) : Json := .obj [("8", .obj [("buckets", buckets)])]

/-- Errors and other events with the same buckets inside. -/
def eventsWithin (buckets : Json) : Entries Json := [("aggregations", .obj [("7", .obj [
  ("buckets", .obj [("errors", within buckets), ("others", within buckets)])])])]

theorem eq_within {e : String × Json} {buckets : Json}
    (h : e ∈ [("errors", within buckets), ("others", within buckets)]) : e.2 = within buckets := by
  rcases List.mem_cons.mp h with rfl | h
  · rfl
  · cases List.mem_singleton.mp h
    rfl

theorem leavesBelow_eventsWithin (inner : BucketAgg) (buckets : Json) :
    leavesBelow (countsWithin inner).buckets [] (member (eventsWithin buckets) "aggregations") =
      ["errors", "others"].flatMap fun key =>
        (leavesBelow (countsWithin inner).buckets.tail [("filter", key)] (within buckets)).map
          (Leaf.under (.key key)) := by
  have hbuckets : member [("buckets",
      Json.obj [("errors", within buckets), ("others", within buckets)])] "buckets" =
        .obj [("errors", within buckets), ("others", within buckets)] := rfl
  have hle : Entries.keyLe "errors" "others" = true := by decide
  have hsorted : [("errors", within buckets), ("others", within buckets)].Pairwise
      fun x y => Entries.keyLe x.1 y.1 = true := List.pairwise_pair.mpr hle
  refine (leavesBelow_keyed rfl (by decide) hbuckets).trans ?_
  rw [Entries.sorted_of_pairwise hsorted]
  rfl

def timeCounts : Json :=
  .obj [("buckets", .arr [.obj [("key", .int 1000), ("doc_count", .int 1)]])]

def perService : Query := countsWithin ⟨"8", .terms, "service", []⟩

def serviceCounts : Json :=
  .arr [.obj [("key", .str "web"), ("2", timeCounts)], .obj [("key", .str "db"), ("2", timeCounts)]]

theorem carries_perService : Carries perService perService.buckets
    (member (eventsWithin serviceCounts) "aggregations") := by
  refine .keyed (by decide) ⟨by decide, rfl, by decide⟩ rfl (by decide) fun e he _ => ?_
  rw [eq_within he]
  refine .array (by decide) ⟨by decide, rfl, by decide⟩ rfl fun bucket hbucket _ => ?_
  rcases List.mem_cons.mp hbucket with rfl | hbucket
  · exact .last ⟨by decide, rfl, by decide⟩
  · cases List.mem_singleton.mp hbucket
    exact .last ⟨by decide, rfl, by decide⟩

theorem siblingsDistinct_perService : SiblingsDistinct perService.buckets
    (member (eventsWithin serviceCounts) "aggregations") := by
  refine (siblingsDistinct_keyed rfl (by decide) rfl).mpr ⟨by decide, fun e he => ?_⟩
  rw [eq_within he]
  exact (siblingsDistinct_array rfl (by decide) rfl).mpr ⟨by decide, fun _ _ => trivial⟩

def perServiceLeaf (filter service : String) : Leaf :=
  ⟨⟨"2", .dateHistogram, "ts", []⟩, [("filter", filter), ("service", service)], timeCounts.membersD⟩

theorem leavesBelow_perService :
    leavesBelow perService.buckets [] (member (eventsWithin serviceCounts) "aggregations") = [
      ([.key "errors", .item 0], perServiceLeaf "errors" "web"),
      ([.key "errors", .item 1], perServiceLeaf "errors" "db"),
      ([.key "others", .item 0], perServiceLeaf "others" "web"),
      ([.key "others", .item 1], perServiceLeaf "others" "db")] :=
  (leavesBelow_eventsWithin _ _).trans rfl

theorem perService_toldApart : ∃ leaves groups,
    DepthFirst perService.buckets [] (member (eventsWithin serviceCounts) "aggregations") leaves ∧
    aggregationFrames perService (eventsWithin serviceCounts) = .ok groups.flatten ∧
    List.Forall₂ (fun x group => group.length = (x.2.drawn perService).length ∧
      ∀ f ∈ group, f.labels = Entries.ofList
        (labelsOf (perService.pathTo (eventsWithin serviceCounts) x.1))) leaves groups ∧
    ∀ x ∈ leaves, ∀ y ∈ leaves, perService.pathTo (eventsWithin serviceCounts) x.1 ≠
        perService.pathTo (eventsWithin serviceCounts) y.1 →
      ∃ key, (Entries.ofList (labelsOf (perService.pathTo (eventsWithin serviceCounts) x.1))).get?
          key ≠
        (Entries.ofList (labelsOf (perService.pathTo (eventsWithin serviceCounts) y.1))).get?
          key := by
  have hids : (perService.buckets.map (·.id)).Nodup := by decide
  obtain ⟨outer, d, hlevels, hkind⟩ : ∃ outer d, perService.buckets = outer ++ [d] ∧
      d.kind = .dateHistogram := ⟨perService.buckets.take 2, _, rfl, rfl⟩
  obtain ⟨frames, hframes⟩ : ∃ frames,
      aggregationFrames perService (eventsWithin serviceCounts) = .ok frames := by
    rw [aggregationFrames, Collected.ofResponse,
      Leaf.ofResponse_eq hids hlevels (by rw [hkind]; decide) carries_perService,
      leavesBelow_perService]
    exact Traversal.exists_of_isOk (by decide +kernel)
  obtain ⟨leaves, groups, hleaves, hflatten, hgroups, hapart⟩ :=
    labels_tell_paths_apart hids hlevels hkind carries_perService siblingsDistinct_perService
      hframes
  refine ⟨leaves, groups, hleaves, hflatten ▸ hframes, hgroups, fun x hx y hy hne => ?_⟩
  have hkeys : ∀ x ∈ leavesBelow perService.buckets []
      (member (eventsWithin serviceCounts) "aggregations"),
      ((perService.pathTo (eventsWithin serviceCounts) x.1).map (·.1)).Nodup := by
    rw [leavesBelow_perService]
    decide
  have hmem : ∀ x ∈ leaves, x ∈ leavesBelow perService.buckets []
      (member (eventsWithin serviceCounts) "aggregations") :=
    fun x hx => ((hleaves.mem_iff x.1 x.2).mp hx).mem
  exact hapart x hx y hy hne (hkeys x (hmem x hx)) (hkeys y (hmem y hy))

/-- Events in two levels of filters. -/
def perFilter : Query := countsWithin ⟨"8", .filters, "", []⟩

def slowCounts : Json := .obj [("slow", .obj [("2", timeCounts)])]

theorem siblingsDistinct_perFilter : SiblingsDistinct perFilter.buckets
    (member (eventsWithin slowCounts) "aggregations") := by
  refine (siblingsDistinct_keyed rfl (by decide) rfl).mpr ⟨by decide, fun e he => ?_⟩
  rw [eq_within he]
  exact (siblingsDistinct_keyed rfl (by decide) rfl).mpr ⟨by decide, fun _ _ => trivial⟩

theorem carries_perFilter : Carries perFilter perFilter.buckets
    (member (eventsWithin slowCounts) "aggregations") := by
  refine .keyed (by decide) ⟨by decide, rfl, by decide⟩ rfl (by decide) fun e he _ => ?_
  rw [eq_within he]
  refine .keyed (by decide) ⟨by decide, rfl, by decide⟩ rfl (by decide) fun e he _ => ?_
  cases List.mem_singleton.mp he
  exact .last ⟨by decide, rfl, by decide⟩

def slowLeaf : Leaf :=
  ⟨⟨"2", .dateHistogram, "ts", []⟩, [("filter", "slow")], timeCounts.membersD⟩

theorem leavesBelow_perFilter :
    leavesBelow perFilter.buckets [] (member (eventsWithin slowCounts) "aggregations") =
      [([.key "errors", .key "slow"], slowLeaf), ([.key "others", .key "slow"], slowLeaf)] := by
  have hinner : ∀ labels, leavesBelow perFilter.buckets.tail labels (within slowCounts) =
      [([.key "slow"], ⟨slowLeaf.agg, Entries.put labels "filter" "slow", slowLeaf.result⟩)] := by
    intro labels
    refine (leavesBelow_keyed rfl (by decide) rfl).trans ?_
    rw [Entries.sorted_singleton]
    rfl
  refine (leavesBelow_eventsWithin _ _).trans ?_
  change (["errors", "others"].flatMap fun key =>
    (leavesBelow perFilter.buckets.tail [("filter", key)] (within slowCounts)).map
      (Leaf.under (.key key))) = _
  simp only [hinner]
  rfl

/-- Both levels of filters write their labels under one key, so what is left of a path is its last
label. -/
theorem perFilter_confused : (perFilter.buckets.map (·.id)).Nodup ∧
    Carries perFilter perFilter.buckets (member (eventsWithin slowCounts) "aggregations") ∧
    SiblingsDistinct perFilter.buckets (member (eventsWithin slowCounts) "aggregations") ∧
    (∃ trail other leaf,
      LeafAt perFilter.buckets [] (member (eventsWithin slowCounts) "aggregations") trail leaf ∧
      LeafAt perFilter.buckets [] (member (eventsWithin slowCounts) "aggregations") other leaf ∧
      perFilter.pathTo (eventsWithin slowCounts) trail =
        [("filter", some "errors"), ("filter", some "slow")] ∧
      perFilter.pathTo (eventsWithin slowCounts) other =
        [("filter", some "others"), ("filter", some "slow")]) ∧
    ∃ frames, aggregationFrames perFilter (eventsWithin slowCounts) = .ok frames ∧
      frames.map Frame.labels = [[("filter", "slow")], [("filter", "slow")]] := by
  have hids : (perFilter.buckets.map (·.id)).Nodup := by decide
  have hlevels : perFilter.buckets = perFilter.buckets.take 2 ++ [slowLeaf.agg] := rfl
  have hat : ∀ trail, (trail, slowLeaf) ∈ leavesBelow perFilter.buckets []
      (member (eventsWithin slowCounts) "aggregations") →
        LeafAt perFilter.buckets [] (member (eventsWithin slowCounts) "aggregations") trail
          slowLeaf :=
    fun _ => leafAt_of_mem
  rw [leavesBelow_perFilter] at hat
  have hlabels : (aggregationFrames perFilter (eventsWithin slowCounts)).toOption.map
      (·.map Frame.labels) = some [[("filter", "slow")], [("filter", "slow")]] := by
    rw [aggregationFrames, Collected.ofResponse,
      Leaf.ofResponse_eq hids hlevels (by decide) carries_perFilter, leavesBelow_perFilter]
    decide +kernel
  refine ⟨hids, carries_perFilter, siblingsDistinct_perFilter,
    ⟨_, _, slowLeaf, hat _ (.head _), hat _ (.tail _ (.head _)), rfl, rfl⟩, ?_⟩
  cases hframes : aggregationFrames perFilter (eventsWithin slowCounts) with
  | error f =>
    rw [hframes] at hlabels
    cases hlabels
  | ok frames =>
    rw [hframes] at hlabels
    exact ⟨frames, rfl, Option.some.inj hlabels⟩

end PanelSearch
