import Mathlib.Algebra.BigOperators.Group.List.Basic
import Mathlib.Algebra.GroupWithZero.Nat
import Mathlib.Data.List.Nodup
import PanelSearch.Proofs.Json.Basic
import PanelSearch.Proofs.Response.Rows
import PanelSearch.Proofs.Response.Walk

/-! The table of a response. Its rows are the buckets of the leaves that are no date histograms, in
walk order, and each of its columns holds what the rows write under its name. The columns are of one
length, with the values of one bucket in one row, just when every bucket writes one value into each
of them. -/

namespace PanelSearch

open Json (member)
open Traversal

namespace Leaf

/-- A leaf holds an array of buckets that is not empty. -/
def hasItems (leaf : Leaf) : Bool :=
  match member leaf.result "buckets" with
  | .arr (_ :: _) => true
  | _ => false

def rows (leaf : Leaf) : List Row := leaf.buckets.map (Row.mk leaf)

theorem rows_eq_nil {leaf : Leaf} (h : leaf.hasItems = false) : leaf.rows = [] := by
  unfold hasItems at h
  unfold rows buckets
  cases hbuckets : member leaf.result "buckets" with
  | arr items =>
    cases items with
    | nil => rfl
    | cons item items =>
      rw [hbuckets] at h
      cases h
  | _ => rfl

/-- The leaves of a response that have rows in its table. -/
def tabular (q : Query) (response : Entries Json) : List Leaf :=
  (ofResponse q response).filter fun leaf => decide (leaf.agg.kind ≠ .dateHistogram)

/-- The label columns of a table, which its first leaf with buckets makes. -/
def labelColumns (leaves : List Leaf) : List String :=
  ((leaves.find? hasItems).map fun leaf => Entries.keys leaf.labels).getD []

section Labels

variable {q : Query} {depth : Nat} {labels : Entries String}

/-- Every leaf in a list has distinct labels. -/
def LabelsDistinct (leaves : List Leaf) : Prop := ∀ leaf ∈ leaves, (Entries.keys leaf.labels).Nodup

theorem labelsDistinct_inKeyOrder {groups : Entries (List Leaf)}
    (h : ∀ group ∈ groups, LabelsDistinct group.2) : LabelsDistinct (inKeyOrder groups) := by
  intro leaf hleaf
  rw [inKeyOrder_eq] at hleaf
  obtain ⟨group, hgroup, hleaf⟩ := List.mem_flatMap.mp hleaf
  exact h group (Entries.mem_sorted.mp hgroup) leaf hleaf

theorem nodup_keys_labelled (h : (Entries.keys labels).Nodup) (agg : BucketAgg) (bucket : Json) :
    (Entries.keys (labelled labels agg bucket)).Nodup := by
  unfold labelled
  split
  · exact Entries.nodup_keys_put h _ _
  · exact h

/-- What holds of the leaves in a value in each of the places where the walk can meet it. -/
structure Walked (q : Query) (j : Json) : Prop where
  level : ∀ depth labels, (Entries.keys labels).Nodup → LabelsDistinct (ofLevel q depth labels j)
  result : ∀ depth labels id, (Entries.keys labels).Nodup →
    LabelsDistinct (ofResult q depth labels id j)
  buckets : ∀ depth labels agg, (Entries.keys labels).Nodup →
    LabelsDistinct (ofBuckets q depth labels agg j)

theorem walked_of_not_container {j : Json} (hitems : j.items? = none)
    (hmembers : j.members? = none) : Walked q j := by
  cases j with
  | arr items => cases hitems
  | obj members => cases hmembers
  | _ => constructor <;> simp [ofLevel, ofResult, ofBuckets, LabelsDistinct]

theorem Walked.arr {items : List Json} (h : ∀ j ∈ items, Walked q j) : Walked q (.arr items) where
  level := by simp [ofLevel, LabelsDistinct]
  result := by simp [ofResult, LabelsDistinct]
  buckets depth labels agg hlabels := by
    intro leaf hleaf
    rw [ofBuckets_arr] at hleaf
    obtain ⟨bucket, hbucket, hleaf⟩ := List.mem_flatMap.mp hleaf
    exact (h bucket hbucket).level _ _ (nodup_keys_labelled hlabels agg bucket) leaf hleaf

theorem Walked.obj {members : Entries Json} (h : ∀ m ∈ members, Walked q m.2) :
    Walked q (.obj members) := by
  have hmembers : ∀ depth labels, (Entries.keys labels).Nodup →
      LabelsDistinct (inKeyOrder (ofMembers q depth labels members)) := by
    intro depth labels hlabels
    refine labelsDistinct_inKeyOrder fun group hgroup => ?_
    rw [ofMembers_eq_map] at hgroup
    obtain ⟨m, hm, rfl⟩ := List.mem_map.mp hgroup
    exact (h m hm).result depth labels m.1 hlabels
  constructor
  · intro depth labels hlabels
    rw [ofLevel]
    exact hmembers depth labels hlabels
  · intro depth labels id hlabels
    rw [ofResult]
    split
    · intro leaf hleaf
      cases hleaf
    · next agg _ =>
      split
      · exact hmembers (depth + 1) labels hlabels
      · split
        · intro leaf hleaf
          rw [List.mem_singleton.mp hleaf]
          exact hlabels
        · rw [ofBucketsMember_eq]
          have hbuckets : Walked q (member members "buckets") :=
            Json.member_of_forall (walked_of_not_container rfl rfl) h "buckets"
          exact hbuckets.buckets depth labels agg hlabels
  · intro depth labels agg hlabels leaf hleaf
    rw [ofBuckets_obj] at hleaf
    obtain ⟨m, hm, hleaf⟩ := List.mem_flatMap.mp hleaf
    exact (h m (Entries.mem_sorted.mp hm)).level _ _ (Entries.nodup_keys_put hlabels _ _) leaf hleaf

theorem walked (q : Query) (j : Json) : Walked q j := by
  induction j using Json.inductionOn with
  | arr items ih => exact .arr ih
  | obj members ih => exact .obj ih
  | _ => exact walked_of_not_container rfl rfl

theorem nodup_keys_labels {response : Entries Json} {leaf : Leaf}
    (h : leaf ∈ ofResponse q response) : (Entries.keys leaf.labels).Nodup :=
  (walked q _).level 0 [] List.nodup_nil leaf h

end Labels

end Leaf

namespace Table

theorem addLeaf_some (q : Query) (leaf : Leaf) (t : Table) :
    addLeaf q leaf (some t) = (t.addRows q leaf.rows).map some := by
  unfold addLeaf Leaf.rows Leaf.buckets addRows
  cases member leaf.result "buckets" with
  | arr items =>
    cases items with
    | nil => rfl
    | cons item items =>
      rw [List.foldlM_map]
      rfl
  | _ => rfl

theorem addLeaf_none (q : Query) (leaf : Leaf) : addLeaf q leaf none =
    if leaf.hasItems then ((ofLabels leaf.labels).addRows q leaf.rows).map some else .ok none := by
  unfold addLeaf Leaf.hasItems Leaf.rows Leaf.buckets addRows
  cases member leaf.result "buckets" with
  | arr items =>
    cases items with
    | nil => rfl
    | cons item items =>
      rw [List.foldlM_map]
      rfl
  | _ => rfl

/-- The table, if any, after some leaves. -/
def addLeaves (q : Query) (t : Option Table) (leaves : List Leaf) : Except Fault (Option Table) :=
  leaves.foldlM (fun t leaf => addLeaf q leaf t) t

theorem addLeaves_some (q : Query) (leaves : List Leaf) (t : Table) :
    addLeaves q (some t) leaves = (t.addRows q (leaves.flatMap Leaf.rows)).map some := by
  induction leaves generalizing t with
  | nil => rfl
  | cons leaf leaves ih =>
    rw [addLeaves, List.foldlM_cons, addLeaf_some, List.flatMap_cons, addRows_append]
    cases t.addRows q leaf.rows with
    | error f => rfl
    | ok t => exact ih t

/-- The first leaf with buckets makes the table. -/
theorem addLeaves_none (q : Query) (leaves : List Leaf) : addLeaves q none leaves =
    match leaves.find? Leaf.hasItems with
    | some first => ((ofLabels first.labels).addRows q (leaves.flatMap Leaf.rows)).map some
    | none => .ok none := by
  induction leaves with
  | nil => rfl
  | cons leaf leaves ih =>
    rw [addLeaves, List.foldlM_cons, addLeaf_none, List.flatMap_cons]
    by_cases hitems : leaf.hasItems = true
    · rw [if_pos hitems, List.find?_cons_of_pos hitems]
      simp only [addRows_append]
      cases (ofLabels leaf.labels).addRows q leaf.rows with
      | error f => rfl
      | ok t => exact addLeaves_some q leaves t
    · rw [if_neg hitems, List.find?_cons_of_neg hitems, Leaf.rows_eq_nil (by simpa using hitems),
        List.nil_append]
      exact ih

theorem names_ofLabels (labels : Entries String) :
    (ofLabels labels).names = Entries.keys labels := by
  rw [names, ofLabels, List.map_map]
  rfl

theorem valuesUnder_ofLabels (labels : Entries String) (name : String) :
    (ofLabels labels).valuesUnder name = [] := by
  induction labels with
  | nil => rfl
  | cons e labels ih =>
    change valuesUnder ({ name := e.1, type := .string } :: ofLabels labels) name = []
    rw [valuesUnder_cons, ih, ite_self]

/-- A table holds some rows when its columns are those that the rows write and the first labels, and
the values of each column are what the rows write under its name, in order. -/
structure Holds (labels : List String) (log : List Cells) (t : Table) : Prop where
  distinct : t.names.Nodup
  mem_names : ∀ name, name ∈ t.names ↔ name ∈ labels ∨ ∃ cells ∈ log, name ∈ cells.names
  values : ∀ c ∈ t, c.values = log.flatMap (Cells.under · c.name)

theorem holds_of_addRows {q : Query} {labels : Entries String} {rows : List Row} {t : Table}
    (hlabels : (Entries.keys labels).Nodup) (h : (ofLabels labels).addRows q rows = .ok t) :
    ∃ log, Row.written q (Entries.keys labels) rows = .ok log ∧
      t.Holds (Entries.keys labels) log := by
  obtain ⟨log, hlog, hextends⟩ := extends_addRows h
  rw [names_ofLabels] at hlog
  have hdistinct : t.names.Nodup := hextends.distinct (by rwa [names_ofLabels])
  refine ⟨log, hlog, hdistinct, fun name => ?_, fun c hc => ?_⟩
  · rw [hextends.mem_names, names_ofLabels, Cells.mem_names]
    simp only [List.mem_flatten, Cells.mem_names]
    constructor
    · rintro (h | ⟨cell, cells, hcells, hcell⟩)
      · exact .inl h
      · exact .inr ⟨cells, hcells, cell, hcell⟩
    · rintro (h | ⟨cells, hcells, cell, hcell⟩)
      · exact .inl h
      · exact .inr ⟨cell, cells, hcells, hcell⟩
  · rw [values_eq_valuesUnder hdistinct hc, hextends.values, valuesUnder_ofLabels, List.nil_append,
      Cells.under_flatten]

theorem holds_addLeaves {q : Query} {leaves : List Leaf} {t : Table}
    (hlabels : ∀ leaf ∈ leaves, (Entries.keys leaf.labels).Nodup)
    (h : addLeaves q none leaves = .ok (some t)) :
    ∃ log, Row.written q (Leaf.labelColumns leaves) (leaves.flatMap Leaf.rows) = .ok log ∧
      t.Holds (Leaf.labelColumns leaves) log := by
  rw [addLeaves_none] at h
  unfold Leaf.labelColumns
  cases hfirst : leaves.find? Leaf.hasItems with
  | none =>
    rw [hfirst] at h
    cases h
  | some first =>
    rw [hfirst] at h
    obtain ⟨t', hrows, heq⟩ := map_eq_ok_iff.mp h
    cases heq
    exact holds_of_addRows (hlabels first (List.mem_of_find?_eq_some hfirst)) hrows

theorem exists_addLeaves {q : Query} {leaves : List Leaf} (hrows : leaves.flatMap Leaf.rows ≠ [])
    (h : ∀ row ∈ leaves.flatMap Leaf.rows, ∃ cells, row.bucketCells q = .ok cells) :
    ∃ t, addLeaves q none leaves = .ok (some t) := by
  rw [addLeaves_none]
  cases hfirst : leaves.find? Leaf.hasItems with
  | none =>
    rw [List.find?_eq_none] at hfirst
    refine absurd (List.flatMap_eq_nil_iff.mpr fun leaf hleaf => ?_) hrows
    exact Leaf.rows_eq_nil (by simpa using hfirst leaf hleaf)
  | some first =>
    obtain ⟨t, ht⟩ := exists_addRows h (ofLabels first.labels)
    exact ⟨t, map_eq_ok_iff.mpr ⟨t, ht, rfl⟩⟩

end Table

namespace Collected

variable {q : Query}

/-- The table depends on the leaves that are no date histograms. -/
theorem addLeaves_of_foldlM {leaves : List Leaf} {c after : Collected}
    (h : leaves.foldlM (add q) c = .ok after) :
    Table.addLeaves q c.table (leaves.filter fun leaf => decide (leaf.agg.kind ≠ .dateHistogram)) =
      .ok after.table := by
  induction leaves generalizing c with
  | nil =>
    cases h
    rfl
  | cons leaf leaves ih =>
    rw [List.foldlM_cons] at h
    obtain ⟨next, hadd, h⟩ := bind_eq_ok_iff.mp h
    have hrest := ih h
    rw [add] at hadd
    by_cases hkind : leaf.agg.kind = .dateHistogram
    · rw [if_pos hkind] at hadd
      obtain ⟨series, -, hadd⟩ := bind_eq_ok_iff.mp hadd
      cases hadd
      rw [List.filter_cons_of_neg (by simpa using hkind)]
      exact hrest
    · rw [if_neg hkind] at hadd
      obtain ⟨t, htable, hadd⟩ := bind_eq_ok_iff.mp hadd
      cases hadd
      rw [List.filter_cons_of_pos (by simpa using hkind), Table.addLeaves, List.foldlM_cons, htable]
      exact hrest

/-- The rows of the table of a response: the buckets of its leaves, in walk order. -/
def rows (q : Query) (response : Entries Json) : List Row :=
  (Leaf.tabular q response).flatMap Leaf.rows

/-- The table of a response holds the buckets of its leaves, one row for each. -/
theorem holds_table {response : Entries Json} {c : Collected} {t : Table}
    (h : ofResponse q response = .ok c) (ht : c.table = some t) :
    ∃ log, Row.written q (Leaf.labelColumns (Leaf.tabular q response)) (rows q response) = .ok log ∧
      t.Holds (Leaf.labelColumns (Leaf.tabular q response)) log := by
  have htable := addLeaves_of_foldlM h
  rw [ht] at htable
  refine Table.holds_addLeaves (fun leaf hleaf => ?_) htable
  exact Leaf.nodup_keys_labels (List.mem_of_mem_filter hleaf)

theorem frames_eq_concat {c : Collected} {t : Table} (ht : c.table = some t) :
    c.frames q = frames q { c with table := none } ++ [{ columns := t }] := by
  unfold frames
  rw [ht]

/-- What a function says of the table of a response, if there is one. -/
def tableAs {α : Type} (f : Table → α) (q : Query) (response : Entries Json) : Option α :=
  ((ofResponse q response).toOption.bind (·.table)).map f

theorem exists_table {α : Type} {f : Table → α} {response : Entries Json} {a : α}
    (h : tableAs f q response = some a) :
    ∃ c t, ofResponse q response = .ok c ∧ c.table = some t ∧ f t = a := by
  obtain ⟨t, htable, hf⟩ := Option.map_eq_some_iff.mp h
  obtain ⟨c, hc, ht⟩ := Option.bind_eq_some_iff.mp htable
  refine ⟨c, t, ?_, ht, hf⟩
  cases hcollected : ofResponse q response with
  | error f =>
    rw [hcollected] at hc
    cases hc
  | ok c' =>
    rw [hcollected] at hc
    cases hc
    rfl

end Collected

namespace Table

/-- Every column has one value for each row, and it comes from the bucket of that row. -/
structure IsRectangular (log : List Cells) (t : Table) : Prop where
  length : ∀ c ∈ t, c.values.length = log.length
  aligned : ∀ c ∈ t, ∀ (r : Nat) (cells : Cells) (value : Cell), log[r]? = some cells →
    c.values[r]? = some value → (c.name, value) ∈ cells

/-- Every row has one cell for each column, and no other. -/
def FillsAll (log : List Cells) (t : Table) : Prop := ∀ cells ∈ log, cells.names.Perm t.names

theorem length_flatMap_under (log : List Cells) (name : String) :
    (log.flatMap (Cells.under · name)).length =
      (log.map fun cells => cells.names.count name).sum := by
  rw [List.length_flatMap]
  exact congrArg List.sum (List.map_congr_left fun cells _ => cells.length_under name)

theorem eq_one_of_sum_eq_length {xs : List Nat} (hpos : ∀ x ∈ xs, 1 ≤ x)
    (hsum : xs.sum = xs.length) : ∀ x ∈ xs, x = 1 := by
  induction xs with
  | nil => exact fun _ h => nomatch h
  | cons x xs ih =>
    rw [List.forall_mem_cons] at hpos ⊢
    have hle : xs.length ≤ xs.sum := List.length_le_sum_of_one_le xs hpos.2
    rw [List.sum_cons, List.length_cons] at hsum
    exact ⟨by omega, ih hpos.2 (by omega)⟩

/-- Each row gives one cell to a column: the cells come in the order of the rows. -/
theorem forall₂_flatMap_under {log : List Cells} {name : String}
    (h : ∀ cells ∈ log, cells.names.count name = 1) :
    List.Forall₂ (fun cells value => (name, value) ∈ cells) log
      (log.flatMap (Cells.under · name)) := by
  induction log with
  | nil => exact .nil
  | cons cells log ih =>
    rw [List.forall_mem_cons] at h
    obtain ⟨value, hvalue⟩ := List.length_eq_one_iff.mp ((cells.length_under name).trans h.1)
    rw [List.flatMap_cons, hvalue]
    exact .cons (Cells.mem_under.mp (hvalue ▸ List.mem_singleton.mpr rfl)) (ih h.2)

theorem Holds.isRectangular_iff_fillsAll {labels : List String} {log : List Cells} {t : Table}
    (h : t.Holds labels log) : t.IsRectangular log ↔ t.FillsAll log := by
  constructor
  · intro hrect cells hcells
    refine List.perm_iff_count.mpr fun name => ?_
    by_cases hname : name ∈ t.names
    · rw [List.count_eq_one_of_mem h.distinct hname]
      obtain ⟨c, hc, rfl⟩ := List.mem_map.mp hname
      have hlength := hrect.length c hc
      have hvalues := h.values c hc
      have hpos : ∀ count ∈ log.map fun cells => cells.names.count c.name, 1 ≤ count := by
        intro count hcount
        obtain ⟨cells, hcells, rfl⟩ := List.mem_map.mp hcount
        obtain ⟨r, hr⟩ := List.mem_iff_getElem?.mp hcells
        have hlt : r < c.values.length := hlength ▸ (List.getElem?_eq_some_iff.mp hr).1
        have hmem := hrect.aligned c hc r cells _ hr (List.getElem?_eq_getElem hlt)
        exact List.one_le_count_iff.mpr (Cells.mem_names.mpr ⟨_, hmem⟩)
      refine eq_one_of_sum_eq_length hpos ?_ _ (List.mem_map_of_mem hcells)
      rw [← length_flatMap_under, ← hvalues, hlength, List.length_map]
    · rw [List.count_eq_zero_of_not_mem hname]
      exact List.count_eq_zero_of_not_mem fun hmem =>
        hname ((h.mem_names name).mpr (.inr ⟨cells, hcells, hmem⟩))
  · intro hfills
    have hrows : ∀ c ∈ t,
        List.Forall₂ (fun cells value => (c.name, value) ∈ cells) log c.values := by
      intro c hc
      rw [h.values c hc]
      refine forall₂_flatMap_under fun cells hcells => ?_
      rw [(hfills cells hcells).count_eq]
      exact List.count_eq_one_of_mem h.distinct (List.mem_map_of_mem hc)
    refine ⟨fun c hc => (hrows c hc).length_eq.symm, fun c hc r cells value hcells hvalue => ?_⟩
    obtain ⟨hr, rfl⟩ := List.getElem?_eq_some_iff.mp hcells
    obtain ⟨hr', rfl⟩ := List.getElem?_eq_some_iff.mp hvalue
    exact (hrows c hc).get hr hr'

end Table

/-- The columns of a table hold what the visited buckets write, and the table is rectangular just
when every one of these buckets writes one cell into each column. -/
theorem Collected.table_isRectangular_iff {q : Query} {response : Entries Json} {c : Collected}
    {t : Table} (hc : Collected.ofResponse q response = .ok c) (ht : c.table = some t) :
    (∃ series, aggregationFrames q response = .ok (series ++ [{ columns := t }])) ∧
    ∃ log, Row.written q (Leaf.labelColumns (Leaf.tabular q response)) (rows q response) = .ok log ∧
      log.length = (rows q response).length ∧
      (∀ column ∈ t, column.values = log.flatMap (Cells.under · column.name)) ∧
      (t.IsRectangular log ↔ t.FillsAll log) := by
  constructor
  · refine ⟨Collected.frames q { c with table := none }, ?_⟩
    rw [aggregationFrames, hc, ← frames_eq_concat ht]
    rfl
  · obtain ⟨log, hlog, hholds⟩ := holds_table hc ht
    exact ⟨log, hlog, Row.length_written hlog, hholds.values, hholds.isRectangular_iff_fillsAll⟩

/-- A query over services, for percentiles of their latency. -/
def latencyPercentiles : Query where
  refId := "A"
  rawQuery := ""
  buckets := [{ id := "2", kind := .terms, field := "service", settings := [] }]
  metrics := [
    { id := "1", kind := .percentiles, field := "latency", hide := false, source := "",
      inputs := [], settings := [], flags := [] }]
  aliasPattern := ""
  intervalMs := 0
  maxDataPoints := 0
  rangeFrom := 0
  rangeTo := 0

/-- Two services, of which the first has no percentiles. -/
def silentService : Entries Json := [("aggregations", .obj [("2", .obj [("buckets", .arr [
  .obj [("key", .str "api"), ("doc_count", .int 0)],
  .obj [("key", .str "web"), ("doc_count", .int 3),
    ("1", .obj [("values", .obj [("95.0", .int 120)])])]])])])]

theorem silentService_not_rectangular : ∃ c t,
    Collected.ofResponse latencyPercentiles silentService = .ok c ∧ c.table = some t ∧
      t.map (fun column => (column.name, column.values.length)) =
        [("service", 2), ("p95.0 latency", 1)] ∧
      (Collected.rows latencyPercentiles silentService).length = 2 ∧
      ∀ labels log, Row.written latencyPercentiles labels
        (Collected.rows latencyPercentiles silentService) = .ok log → ¬t.IsRectangular log := by
  have hrows : (Collected.rows latencyPercentiles silentService).length = 2 := by decide +kernel
  have hlengths : Collected.tableAs (·.map fun column => (column.name, column.values.length))
      latencyPercentiles silentService = some [("service", 2), ("p95.0 latency", 1)] := by
    decide +kernel
  obtain ⟨c, t, hc, ht, hlengths⟩ := Collected.exists_table hlengths
  refine ⟨c, t, hc, ht, hlengths, hrows, fun labels log hlog hrect => ?_⟩
  have hmem : ("p95.0 latency", 1) ∈ t.map fun column => (column.name, column.values.length) := by
    rw [hlengths]
    decide
  obtain ⟨column, hcolumn, heq⟩ := List.mem_map.mp hmem
  have hlength := hrect.length column hcolumn
  rw [Row.length_written hlog, hrows, (Prod.mk.inj heq).2] at hlength
  cases hlength

def bytesHistogram : BucketAgg where
  id := "2"
  kind := .histogram
  field := "bytes"
  settings := []

/-- Counts by service and size. -/
def countsBySize : Query where
  refId := "A"
  rawQuery := ""
  buckets := [
    { id := "3", kind := .terms, field := "service", settings := [] }, bytesHistogram]
  metrics := [
    { id := "1", kind := .count, field := "", hide := false, source := "", inputs := [],
      settings := [], flags := [] },
    { id := "5", kind := .max, field := "latency", hide := false, source := "", inputs := [],
      settings := [], flags := [] }]
  aliasPattern := ""
  intervalMs := 0
  maxDataPoints := 0
  rangeFrom := 0
  rangeTo := 0

/-- The result of a histogram with some buckets. -/
def histogramResult (buckets : List Bucket) : Entries Json := [("buckets", .arr (buckets.map .obj))]

def apiSizes : List Bucket := [
  [("key", .int 0), ("doc_count", .int 3), ("5", .obj [("value", .int 7)])],
  [("key", .int 512), ("doc_count", .int 1), ("5", .obj [("value", .int 9)])]]

/-- A bucket without the maximum. -/
def webSizes : List Bucket := [[("key", .int 0), ("doc_count", .int 2)]]

def sizesResponse : Entries Json := [("aggregations", .obj [("3", .obj [("buckets", .arr [
  .obj [("key", .str "api"), ("2", .obj (histogramResult apiSizes))],
  .obj [("key", .str "web"), ("2", .obj (histogramResult webSizes))]])])])]

def sizesLeaves : List Leaf := [
  ⟨bytesHistogram, [("service", "api")], histogramResult apiSizes⟩,
  ⟨bytesHistogram, [("service", "web")], histogramResult webSizes⟩]

theorem ofResponse_sizesResponse : Leaf.ofResponse countsBySize sizesResponse = sizesLeaves := by
  have htree : Carries countsBySize countsBySize.buckets (member sizesResponse "aggregations") := by
    refine .array (by decide) ⟨by decide, rfl, by decide⟩ rfl fun bucket hbucket _ => ?_
    rcases List.mem_cons.mp hbucket with rfl | hbucket
    · exact .last ⟨by decide, rfl, by decide⟩
    · cases List.mem_singleton.mp hbucket
      exact .last ⟨by decide, rfl, by decide⟩
  have hlevels : countsBySize.buckets = countsBySize.buckets.take 1 ++ [bytesHistogram] := rfl
  exact (Leaf.ofResponse_eq (by decide) hlevels (by decide) htree).trans rfl

theorem tabular_sizesResponse : Leaf.tabular countsBySize sizesResponse = sizesLeaves := by
  rw [Leaf.tabular, ofResponse_sizesResponse]
  rfl

/-- A bucket without a maximum has an empty cell for it, so the table is rectangular. -/
theorem sizesResponse_rectangular : ∃ c t log,
    Collected.ofResponse countsBySize sizesResponse = .ok c ∧ c.table = some t ∧
      Row.written countsBySize ["service"] (Collected.rows countsBySize sizesResponse) = .ok log ∧
      log.length = 3 ∧ t.IsRectangular log := by
  have hnames : Collected.tableAs Table.names countsBySize sizesResponse =
      some ["service", "bytes", "Count", "Max"] := by
    rw [Collected.tableAs, Collected.ofResponse, ofResponse_sizesResponse]
    decide +kernel
  have hwritten : (Row.written countsBySize ["service"]
      (sizesLeaves.flatMap Leaf.rows)).toOption.map (·.map Cells.names) =
        some (List.replicate 3 ["service", "bytes", "Count", "Max"]) := by
    decide +kernel
  obtain ⟨c, t, hc, ht, hnames⟩ := Collected.exists_table hnames
  obtain ⟨-, log, hlog, hlength, -, hiff⟩ := Collected.table_isRectangular_iff hc ht
  rw [tabular_sizesResponse] at hlog
  rw [Collected.rows, tabular_sizesResponse] at hlog hlength ⊢
  have hfills : t.FillsAll log := by
    intro cells hcells
    have hlog' : Row.written countsBySize ["service"] (sizesLeaves.flatMap Leaf.rows) =
        .ok log := hlog
    rw [hlog'] at hwritten
    have heq : log.map Cells.names = List.replicate 3 ["service", "bytes", "Count", "Max"] :=
      Option.some.inj hwritten
    have hrow : cells.names ∈ log.map Cells.names := List.mem_map_of_mem hcells
    rw [heq] at hrow
    rw [List.eq_of_mem_replicate hrow, hnames]
  exact ⟨c, t, log, hc, ht, hlog, hlength, hiff.mpr hfills⟩

end PanelSearch
