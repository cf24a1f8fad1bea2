import PanelSearch.Proofs.Response.Table

/-! Which innermost buckets have rows in the table of a response whose tree carries all levels of a
query down to an aggregation that is no date histogram: those in arrays have one each, and those
under keys have none. -/

namespace PanelSearch

open Json (member)
open Traversal

namespace Leaf

/-- The innermost buckets: the objects of an array, or those under keys in the order of the keys. -/
def innermost (leaf : Leaf) : List Bucket :=
  match member leaf.result "buckets" with
  | .obj buckets => (Entries.sorted buckets).filterMap (·.2.members?)
  | _ => leaf.buckets

/-- The rows that the innermost buckets should have. -/
def innermostRows (leaf : Leaf) : List Row := leaf.innermost.map (Row.mk leaf)

/-- No object stands under a key where the buckets are. -/
def NoneKeyed (leaf : Leaf) : Prop :=
  ∀ buckets, member leaf.result "buckets" = .obj buckets → ∀ e ∈ buckets, e.2.isObject = false

theorem innermost_of_obj {leaf : Leaf} {buckets : Entries Json}
    (h : member leaf.result "buckets" = .obj buckets) :
    leaf.innermost = (Entries.sorted buckets).filterMap (·.2.members?) := by
  rw [innermost, h]

theorem rows_of_obj {leaf : Leaf} {buckets : Entries Json}
    (h : member leaf.result "buckets" = .obj buckets) : leaf.rows = [] := by
  rw [rows, Leaf.buckets, h]
  rfl

theorem innermostRows_of_not_obj {leaf : Leaf}
    (h : ∀ buckets, member leaf.result "buckets" ≠ .obj buckets) :
    leaf.innermostRows = leaf.rows := by
  unfold innermostRows innermost rows
  split
  · next buckets hbuckets => exact absurd hbuckets (h buckets)
  · rfl

theorem innermostRows_eq_nil_iff {leaf : Leaf} {buckets : Entries Json}
    (h : member leaf.result "buckets" = .obj buckets) :
    leaf.innermostRows = [] ↔ ∀ e ∈ buckets, e.2.isObject = false := by
  rw [innermostRows, List.map_eq_nil_iff, innermost_of_obj h, List.filterMap_eq_nil_iff]
  constructor
  · intro hnone e he
    have hmembers := hnone e (Entries.mem_sorted.mpr he)
    cases hj : e.2 with
    | obj members =>
      rw [hj] at hmembers
      cases hmembers
    | _ => rfl
  · intro hnone e he
    have hobject := hnone e (Entries.mem_sorted.mp he)
    cases hj : e.2 with
    | obj members =>
      rw [hj] at hobject
      cases hobject
    | _ => rfl

/-- The table has a row for every innermost bucket of a leaf just when none is under a key. -/
theorem innermostRows_eq_rows_iff {leaf : Leaf} :
    leaf.innermostRows = leaf.rows ↔ leaf.NoneKeyed := by
  by_cases hobj : ∃ buckets, member leaf.result "buckets" = .obj buckets
  · obtain ⟨buckets, hbuckets⟩ := hobj
    rw [rows_of_obj hbuckets, innermostRows_eq_nil_iff hbuckets]
    constructor
    · intro h others hothers
      cases hbuckets.symm.trans hothers
      exact h
    · exact fun h => h buckets hbuckets
  · rw [not_exists] at hobj
    exact ⟨fun _ buckets hbuckets => absurd hbuckets (hobj buckets),
      fun _ => innermostRows_of_not_obj hobj⟩

theorem rows_sublist (leaf : Leaf) : leaf.rows.Sublist leaf.innermostRows := by
  by_cases hobj : ∃ buckets, member leaf.result "buckets" = .obj buckets
  · obtain ⟨buckets, hbuckets⟩ := hobj
    rw [rows_of_obj hbuckets]
    exact List.nil_sublist _
  · rw [not_exists] at hobj
    rw [innermostRows_of_not_obj hobj]

end Leaf

theorem sublist_flatMap {α β : Type} {f g : α → List β} (xs : List α)
    (h : ∀ x, (f x).Sublist (g x)) : (xs.flatMap f).Sublist (xs.flatMap g) := by
  induction xs with
  | nil => exact List.Sublist.refl _
  | cons x xs ih =>
    rw [List.flatMap_cons, List.flatMap_cons]
    exact (h x).append ih

/-- Where lists of sublists are not shorter as a whole, none of them is shorter. -/
theorem eq_of_length_flatMap_le {α β : Type} {f g : α → List β} {xs : List α}
    (h : ∀ x, (f x).Sublist (g x)) (hle : (xs.flatMap g).length ≤ (xs.flatMap f).length) :
    ∀ x ∈ xs, g x = f x := by
  induction xs with
  | nil => exact fun _ hx => nomatch hx
  | cons x xs ih =>
    have hfirst := (h x).length_le
    have hrest := (sublist_flatMap xs h).length_le
    rw [List.flatMap_cons, List.flatMap_cons, List.length_append, List.length_append] at hle
    rw [List.forall_mem_cons]
    exact ⟨((h x).eq_of_length_le (by omega)).symm, ih (by omega)⟩

namespace Row

theorem one_le_length_under {q : Query} {row : Row} {cells : Cells}
    (h : row.bucketCells q = .ok cells) : 1 ≤ (cells.under row.leaf.agg.field).length := by
  obtain ⟨key, -, h⟩ := bind_eq_ok_iff.mp h
  obtain ⟨values, -, h⟩ := bind_eq_ok_iff.mp h
  cases h
  rw [Cells.under_cons, if_pos rfl, List.length_append]
  exact Nat.le_add_right _ _

theorem length_under_knownLabels_le {columns more : List String} (h : columns ⊆ more) (row : Row)
    (name : String) :
    ((row.knownLabels columns).under name).length ≤ ((row.knownLabels more).under name).length := by
  have hsublist : (row.knownLabels columns).Sublist (row.knownLabels more) := by
    refine List.monotone_filter_right _ fun cell hcell => ?_
    exact decide_eq_true (h (of_decide_eq_true hcell))
  exact ((hsublist.filter _).map _).length_le

/-- Rows that are left out leave cells out: under the key of the buckets, one each at least. -/
theorem length_under_written {q : Query} {rows all : List Row} (hsublist : rows.Sublist all)
    {name : String} (hfield : ∀ row ∈ all, row.leaf.agg.field = name) {columns more : List String}
    (hcolumns : columns ⊆ more) {log logAll : List Cells} (hlog : written q columns rows = .ok log)
    (hlogAll : written q more all = .ok logAll) :
    (log.flatMap (Cells.under · name)).length + all.length ≤
      (logAll.flatMap (Cells.under · name)).length + rows.length := by
  induction hsublist generalizing columns more log logAll with
  | slnil =>
    cases hlog
    cases hlogAll
    exact Nat.le_refl _
  | cons row _ ih =>
    rw [List.forall_mem_cons] at hfield
    obtain ⟨cells, rest, hcells, hrest, rfl⟩ := written_cons_eq_ok_iff.mp hlogAll
    have hone := hfield.1 ▸ one_le_length_under hcells
    have hih := ih hfield.2 (List.Subset.trans hcolumns (List.subset_append_left _ _)) hlog hrest
    simp only [List.flatMap_cons, List.length_append, List.length_cons, Cells.under_append]
    omega
  | cons_cons row _ ih =>
    rw [List.forall_mem_cons] at hfield
    obtain ⟨cells, rest, hcells, hrest, rfl⟩ := written_cons_eq_ok_iff.mp hlog
    obtain ⟨cells', restAll, hcells', hrestAll, rfl⟩ := written_cons_eq_ok_iff.mp hlogAll
    cases hcells.symm.trans hcells'
    have hlabels := length_under_knownLabels_le hcolumns row name
    have hmore : columns ++ cells.names ⊆ more ++ cells.names :=
      List.append_subset.mpr ⟨List.Subset.trans hcolumns (List.subset_append_left _ _),
        List.subset_append_right _ _⟩
    have hih := ih hfield.2 hmore hrest hrestAll
    simp only [List.flatMap_cons, List.length_append, List.length_cons, Cells.under_append]
    omega

end Row

namespace Collected

variable {q : Query}

/-- Leaves that are no date histograms add up to their table. -/
theorem foldlM_add_eq_addLeaves {leaves : List Leaf}
    (hkind : ∀ leaf ∈ leaves, leaf.agg.kind ≠ .dateHistogram) (c : Collected) :
    leaves.foldlM (add q) c =
      (Table.addLeaves q c.table leaves).map fun t => { c with table := t } := by
  induction leaves generalizing c with
  | nil => rfl
  | cons leaf leaves ih =>
    rw [List.forall_mem_cons] at hkind
    rw [List.foldlM_cons, Table.addLeaves, List.foldlM_cons, add, if_neg hkind.1]
    cases Table.addLeaf q leaf c.table with
    | error f => rfl
    | ok t => exact ih hkind.2 { c with table := t }

theorem frames_of_table (q : Query) (t : Option Table) :
    frames q { table := t } = (t.map fun columns => ({ columns } : Frame)).toList := by
  cases t <;> rfl

theorem aggregationFrames_eq_table_iff {response : Entries Json} {t : Table}
    (hkind : ∀ leaf ∈ Leaf.ofResponse q response, leaf.agg.kind ≠ .dateHistogram) :
    aggregationFrames q response = .ok [{ columns := t }] ↔
      Table.addLeaves q none (Leaf.ofResponse q response) = .ok (some t) := by
  rw [aggregationFrames, Collected.ofResponse, foldlM_add_eq_addLeaves hkind]
  cases Table.addLeaves q none (Leaf.ofResponse q response) with
  | error f =>
    constructor
    · intro h
      cases h
    · intro h
      cases h
  | ok t' =>
    change Except.ok (frames q { table := t' }) = _ ↔ _
    rw [frames_of_table]
    cases t' with
    | none => simp
    | some t' => simp

end Collected

section Innermost

variable {q : Query} {leaves : List Leaf}

theorem Table.Holds.mem_names_of_ne_nil {rows : List Row} {labels : List String} {log : List Cells}
    {t : Table} {name : String} (h : t.Holds labels log)
    (hlog : Row.written q labels rows = .ok log) (hrows : rows ≠ [])
    (hfield : ∀ row ∈ rows, row.leaf.agg.field = name) : name ∈ t.names := by
  obtain ⟨row, rows, rfl⟩ := List.exists_cons_of_ne_nil hrows
  obtain ⟨cells, rest, hcells, -, rfl⟩ := Row.written_cons_eq_ok_iff.mp hlog
  rw [h.mem_names]
  refine .inr ⟨_, List.mem_cons_self, ?_⟩
  have hone := Row.one_le_length_under hcells
  rw [hfield row List.mem_cons_self, Cells.length_under, List.one_le_count_iff] at hone
  rw [Cells.names_append]
  exact List.mem_append_right _ hone

/-- The table of some leaves holds all their innermost buckets when none of these is under a key and
all can be read. How many rows it has, the column of the keys tells. -/
theorem Table.holds_innermostRows_iff {d : BucketAgg} (hagg : ∀ leaf ∈ leaves, leaf.agg = d)
    (hlabels : ∀ leaf ∈ leaves, (Entries.keys leaf.labels).Nodup)
    (hsome : leaves.flatMap Leaf.innermostRows ≠ []) :
    (∃ t log, Table.addLeaves q none leaves = .ok (some t) ∧
        Row.written q (Leaf.labelColumns leaves) (leaves.flatMap Leaf.innermostRows) = .ok log ∧
        t.Holds (Leaf.labelColumns leaves) log) ↔
      (∀ leaf ∈ leaves, leaf.NoneKeyed) ∧
        ∀ row ∈ leaves.flatMap Leaf.innermostRows, ∃ cells, row.bucketCells q = .ok cells := by
  have hsublist : (leaves.flatMap Leaf.rows).Sublist (leaves.flatMap Leaf.innermostRows) :=
    sublist_flatMap leaves Leaf.rows_sublist
  constructor
  · rintro ⟨t, logAll, ht, hlogAll, hall⟩
    obtain ⟨log, hlog, hholds⟩ := holds_addLeaves hlabels ht
    have hread := Row.written_isOk_iff.mp ⟨logAll, hlogAll⟩
    refine ⟨fun leaf hleaf => ?_, hread⟩
    have hfield : ∀ row ∈ leaves.flatMap Leaf.innermostRows, row.leaf.agg.field = d.field := by
      intro row hrow
      obtain ⟨leaf, hleaf, hrow⟩ := List.mem_flatMap.mp hrow
      obtain ⟨b, -, rfl⟩ := List.mem_map.mp hrow
      rw [hagg leaf hleaf]
    obtain ⟨c, hc, hname⟩ := List.mem_map.mp (hall.mem_names_of_ne_nil hlogAll hsome hfield)
    have hlength := Row.length_under_written hsublist hfield (List.Subset.refl _) hlog hlogAll
    rw [← hname, ← hholds.values c hc, ← hall.values c hc] at hlength
    rw [← Leaf.innermostRows_eq_rows_iff]
    exact eq_of_length_flatMap_le Leaf.rows_sublist (by omega) leaf hleaf
  · rintro ⟨hnone, hread⟩
    have heq : leaves.flatMap Leaf.innermostRows = leaves.flatMap Leaf.rows :=
      List.flatMap_congr fun leaf hleaf => Leaf.innermostRows_eq_rows_iff.mpr (hnone leaf hleaf)
    rw [heq] at hsome hread ⊢
    obtain ⟨t, ht⟩ := exists_addLeaves hsome hread
    obtain ⟨log, hlog, hholds⟩ := holds_addLeaves hlabels ht
    exact ⟨t, log, ht, hlog, hholds⟩

section Leaves

variable {levels : List BucketAgg} {tree : Json} {leaves : List (Trail × Leaf)}

/-- The leaves of a tree are results of the last aggregation. -/
theorem DepthFirst.agg_eq {outer : List BucketAgg} {d : BucketAgg}
    (h : DepthFirst levels [] tree leaves) (hlevels : levels = outer ++ [d]) :
    ∀ leaf ∈ leaves.map (·.2), leaf.agg = d := by
  intro leaf hleaf
  obtain ⟨⟨trail, leaf⟩, hmem, rfl⟩ := List.mem_map.mp hleaf
  have hlast := ((h.mem_iff trail leaf).mp hmem).getLast?_eq
  rw [hlevels, List.getLast?_concat] at hlast
  exact (Option.some.inj hlast).symm

theorem DepthFirst.innermostRows_ne_nil (h : DepthFirst levels [] tree leaves)
    (hsome : ∃ trail leaf, LeafAt levels [] tree trail leaf ∧ leaf.innermost ≠ []) :
    (leaves.map (·.2)).flatMap Leaf.innermostRows ≠ [] := by
  obtain ⟨trail, leaf, hat, hne⟩ := hsome
  have hmem : leaf ∈ leaves.map (·.2) :=
    List.mem_map.mpr ⟨_, (h.mem_iff trail leaf).mpr hat, rfl⟩
  intro hnil
  exact hne (List.map_eq_nil_iff.mp (List.flatMap_eq_nil_iff.mp hnil leaf hmem))

end Leaves

/-- In a response whose tree carries all levels of a query down to buckets that are no times, the
table has one row for each innermost bucket, in depth-first order, just when none of these buckets
stands under a key and the keys and values of all of them can be read. -/
theorem table_holds_innermost_iff {response : Entries Json} {outer : List BucketAgg} {d : BucketAgg}
    (hids : (q.buckets.map (·.id)).Nodup) (hlevels : q.buckets = outer ++ [d])
    (hnested : d.kind ≠ .nested) (hkind : d.kind ≠ .dateHistogram)
    (htree : Carries q q.buckets (member response "aggregations"))
    (hsome : ∃ trail leaf, LeafAt q.buckets [] (member response "aggregations") trail leaf ∧
      leaf.innermost ≠ []) :
    ∃ leaves, DepthFirst q.buckets [] (member response "aggregations") leaves ∧
      ((∃ (t : Table) (log : List Cells),
          aggregationFrames q response = .ok [{ columns := t }] ∧
          Row.written q (Leaf.labelColumns (leaves.map (·.2)))
            (leaves.flatMap (·.2.innermostRows)) = .ok log ∧
          t.Holds (Leaf.labelColumns (leaves.map (·.2))) log) ↔
        ∀ trail leaf, LeafAt q.buckets [] (member response "aggregations") trail leaf →
          leaf.NoneKeyed ∧ ∀ row ∈ leaf.innermostRows, ∃ cells, row.bucketCells q = .ok cells) := by
  have hwalk := Leaf.ofResponse_eq hids hlevels hnested htree
  have hleaves := htree.depthFirst []
  generalize hfound : leavesBelow q.buckets [] (member response "aggregations") = leaves
  rw [hfound] at hwalk hleaves
  have hagg := hleaves.agg_eq hlevels
  have hlabels : ∀ leaf ∈ leaves.map (·.2), (Entries.keys leaf.labels).Nodup := by
    intro leaf hleaf
    exact Leaf.nodup_keys_labels (hwalk ▸ hleaf)
  have hrows := hleaves.innermostRows_ne_nil hsome
  have hkinds : ∀ leaf ∈ Leaf.ofResponse q response, leaf.agg.kind ≠ .dateHistogram := by
    intro leaf hleaf
    rw [hagg leaf (hwalk ▸ hleaf)]
    exact hkind
  have htable := fun t : Table => Collected.aggregationFrames_eq_table_iff (t := t) hkinds
  refine ⟨leaves, hleaves, ?_⟩
  simp only [htable, hwalk, ← List.flatMap_map]
  rw [Table.holds_innermostRows_iff hagg hlabels hrows]
  simp only [← hleaves.mem_iff]
  constructor
  · rintro ⟨hnone, hread⟩ trail leaf hmem
    have hleaf : leaf ∈ leaves.map (·.2) := List.mem_map_of_mem hmem
    exact ⟨hnone leaf hleaf, fun row hrow => hread row (List.mem_flatMap.mpr ⟨leaf, hleaf, hrow⟩)⟩
  · intro h
    have hall : ∀ leaf ∈ leaves.map (·.2), leaf.NoneKeyed ∧
        ∀ row ∈ leaf.innermostRows, ∃ cells, row.bucketCells q = .ok cells := by
      intro leaf hleaf
      obtain ⟨⟨trail, leaf⟩, hmem, rfl⟩ := List.mem_map.mp hleaf
      exact h trail leaf hmem
    refine ⟨fun leaf hleaf => (hall leaf hleaf).1, fun row hrow => ?_⟩
    obtain ⟨leaf, hleaf, hrow⟩ := List.mem_flatMap.mp hrow
    exact (hall leaf hleaf).2 row hrow

end Innermost

/-- Counts of errors, which a labelled filter finds. -/
def errorCounts : Query where
  refId := "A"
  rawQuery := ""
  buckets := [{ id := "2", kind := .filters, field := "", settings := [("filters", .arr [
    .obj [("query", .str "level:error"), ("label", .str "errors")]])] }]
  metrics := [
    { id := "1", kind := .count, field := "", hide := false, source := "", inputs := [],
      settings := [], flags := [] }]
  aliasPattern := ""
  intervalMs := 0
  maxDataPoints := 0
  rangeFrom := 0
  rangeTo := 0

/-- The answer to a labelled filter, with the bucket under its label. -/
def errorsResponse : Entries Json := [("aggregations", .obj [("2", .obj [("buckets", .obj [
  ("errors", .obj [("doc_count", .int 5)])])])])]

theorem errorsResponse_lost : (errorCounts.buckets.map (·.id)).Nodup ∧
    (∃ d, errorCounts.buckets = [] ++ [d] ∧ d.kind = .filters) ∧
    Carries errorCounts errorCounts.buckets (member errorsResponse "aggregations") ∧
    (∃ trail leaf, LeafAt errorCounts.buckets [] (member errorsResponse "aggregations") trail leaf ∧
      leaf.innermost.length = 1) ∧
    aggregationFrames errorCounts errorsResponse = .ok [] := by
  have hids : (errorCounts.buckets.map (·.id)).Nodup := by decide
  have hlevels : ∃ d, errorCounts.buckets = [] ++ [d] ∧ d.kind = .filters := ⟨_, rfl, rfl⟩
  have htree : Carries errorCounts errorCounts.buckets (member errorsResponse "aggregations") :=
    .last ⟨by decide, rfl, by decide⟩
  refine ⟨hids, hlevels, htree, ⟨[], _, .last rfl, ?_⟩, ?_⟩
  · rw [Leaf.innermost_of_obj rfl, Entries.sorted_singleton]
    rfl
  · obtain ⟨d, hlevels, hkind⟩ := hlevels
    rw [aggregationFrames, Collected.ofResponse,
      Leaf.ofResponse_eq hids hlevels (by rw [hkind]; decide) htree]
    rfl

def serviceTerms : BucketAgg where
  id := "2"
  kind := .terms
  field := "service"
  settings := []

/-- Counts by service, inside a labelled filter. -/
def countsByService : Query where
  refId := "A"
  rawQuery := ""
  buckets := [
    { id := "3", kind := .filters, field := "", settings := [("filters", .arr [
      .obj [("query", .str "level:error"), ("label", .str "errors")]])] }, serviceTerms]
  metrics := [
    { id := "1", kind := .count, field := "", hide := false, source := "", inputs := [],
      settings := [], flags := [] }]
  aliasPattern := ""
  intervalMs := 0
  maxDataPoints := 0
  rangeFrom := 0
  rangeTo := 0

def serviceBuckets : List Bucket := [
  [("key", .str "api"), ("doc_count", .int 3)], [("key", .str "web"), ("doc_count", .int 2)]]

def servicesResponse : Entries Json := [("aggregations", .obj [("3", .obj [("buckets", .obj [
  ("errors", .obj [("2", .obj (histogramResult serviceBuckets))])])])])]

def servicesLeaf : Leaf := ⟨serviceTerms, [("filter", "errors")], histogramResult serviceBuckets⟩

theorem leafAt_servicesResponse {trail : Trail} {leaf : Leaf}
    (h : LeafAt countsByService.buckets [] (member servicesResponse "aggregations") trail leaf) :
    leaf = servicesLeaf := by
  cases h with
  | nested hkind => cases hkind
  | item _ hresult hbuckets =>
    cases hresult
    cases hbuckets
  | key _ hresult hbuckets hkey hbelow =>
    cases hresult
    cases hbuckets
    cases List.mem_singleton.mp hkey
    cases hbelow with
    | last hresult =>
      cases hresult
      rfl

theorem bucketCells_servicesLeaf {row : Row} (h : row ∈ servicesLeaf.innermostRows) :
    ∃ cells, row.bucketCells countsByService = .ok cells := by
  have hok : ∀ row ∈ servicesLeaf.innermostRows,
      (row.bucketCells countsByService).isOk = true := by decide +kernel
  have hrow := hok row h
  cases hcells : row.bucketCells countsByService with
  | error f =>
    rw [hcells] at hrow
    cases hrow
  | ok cells => exact ⟨cells, rfl⟩

/-- Under the keys of an outer level innermost buckets in an array have their rows. -/
theorem servicesResponse_rows : ∃ (leaves : List (Trail × Leaf)) (t : Table) (log : List Cells),
    aggregationFrames countsByService servicesResponse = .ok [{ columns := t }] ∧
      Row.written countsByService (Leaf.labelColumns (leaves.map (·.2)))
        (leaves.flatMap (·.2.innermostRows)) = .ok log ∧
      t.Holds (Leaf.labelColumns (leaves.map (·.2))) log := by
  have hlevels : countsByService.buckets = countsByService.buckets.take 1 ++ [serviceTerms] := rfl
  have htree : Carries countsByService countsByService.buckets
      (member servicesResponse "aggregations") := by
    refine .keyed (by decide) ⟨by decide, rfl, by decide⟩ rfl (by decide) fun e he _ => ?_
    cases List.mem_singleton.mp he
    exact .last ⟨by decide, rfl, by decide⟩
  have hsome : ∃ trail leaf, LeafAt countsByService.buckets []
      (member servicesResponse "aggregations") trail leaf ∧ leaf.innermost ≠ [] := by
    refine ⟨[.key "errors"], _, .key (by decide) rfl rfl (List.mem_singleton.mpr rfl) (.last rfl),
      ?_⟩
    exact List.cons_ne_nil _ _
  obtain ⟨leaves, -, hiff⟩ := table_holds_innermost_iff (by decide) hlevels (by decide) (by decide)
    htree hsome
  obtain ⟨t, log, hframes, hlog, hholds⟩ := hiff.mpr fun trail leaf hat => by
    rw [leafAt_servicesResponse hat]
    exact ⟨fun _ hkeyed => (nomatch hkeyed), fun _ hrow => bucketCells_servicesLeaf hrow⟩
  exact ⟨leaves, t, log, hframes, hlog, hholds⟩

end PanelSearch
