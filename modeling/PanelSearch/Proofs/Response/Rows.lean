import PanelSearch.Proofs.KeyOrder
import PanelSearch.Proofs.Response.Lines
import PanelSearch.Response.Aggregations

/-! The rows of a table: what each bucket writes, under which names, and what the columns of the
table hold after all rows are written. Labels go into columns that exist already; the key of a
bucket and the values of its metrics make the columns they need. -/

namespace PanelSearch

open Json (member)
open Traversal

/-- A row of a table: a bucket of a leaf. -/
structure Row where
  leaf : Leaf
  bucket : Bucket

/-- Cells under the names of the columns that they are for. -/
abbrev Cells := List (String × Cell)

namespace Cells

def names (cells : Cells) : List String := cells.map (·.1)

/-- The cells under one name, in order. -/
def under (cells : Cells) (name : String) : List Cell := (cells.filter (·.1 == name)).map (·.2)

theorem under_append (cells more : Cells) (name : String) :
    (cells ++ more).under name = cells.under name ++ more.under name := by
  simp [under]

theorem under_cons (cell : String × Cell) (cells : Cells) (name : String) :
    under (cell :: cells) name = (if name = cell.1 then [cell.2] else []) ++ cells.under name := by
  by_cases h : name = cell.1
  · simp [under, h]
  · simp [under, h, Ne.symm h]

theorem names_append (cells more : Cells) : (cells ++ more).names = cells.names ++ more.names :=
  List.map_append

theorem mem_names {cells : Cells} {name : String} :
    name ∈ cells.names ↔ ∃ cell, (name, cell) ∈ cells := by
  simp [names]

theorem mem_under {cells : Cells} {name : String} {cell : Cell} :
    cell ∈ cells.under name ↔ (name, cell) ∈ cells := by
  simp [under]

theorem length_under (cells : Cells) (name : String) :
    (cells.under name).length = cells.names.count name := by
  rw [under, names, List.length_map, List.count, List.countP_map, ← List.countP_eq_length_filter]
  rfl

theorem under_flatten (log : List Cells) (name : String) :
    under log.flatten name = log.flatMap (under · name) := by
  induction log with
  | nil => rfl
  | cons cells log ih => rw [List.flatten_cons, under_append, ih, List.flatMap_cons]

end Cells

namespace Row

def labelCells (row : Row) : Cells := row.leaf.labels.map fun e => (e.1, .value (.str e.2))

/-- What the bucket of a row holds: its key, and the values of the visible metrics. -/
def bucketCells (q : Query) (row : Row) : Except Fault Cells := do
  let key ← Table.keyCell row.bucket
  let values ← q.visible.mapM (Table.metricCells q row.bucket)
  return (row.leaf.agg.field, key.2) ::
    values.flatten.map fun (name, value) => (name, .ofNumber value)

/-- The labels of a row that have columns. -/
def knownLabels (columns : List String) (row : Row) : Cells :=
  row.labelCells.filter fun cell => decide (cell.1 ∈ columns)

/-- The cells that rows write, one list for each row, into a table that has columns of some names. A
label without a column is not written, and what a bucket holds makes its columns. -/
def written (q : Query) : List String → List Row → Except Fault (List Cells)
  | _, [] => .ok []
  | columns, row :: rows => do
    let cells ← row.bucketCells q
    let rest ← written q (columns ++ cells.names) rows
    return (row.knownLabels columns ++ cells) :: rest

theorem mem_of_mem_knownLabels {columns : List String} {row : Row} {name : String}
    (h : name ∈ (row.knownLabels columns).names) : name ∈ columns := by
  obtain ⟨cell, hcell⟩ := Cells.mem_names.mp h
  exact of_decide_eq_true (List.mem_filter.mp hcell).2

theorem written_cons_eq_ok_iff {q : Query} {columns : List String} {row : Row} {rows : List Row}
    {log : List Cells} : written q columns (row :: rows) = .ok log ↔ ∃ cells rest,
      row.bucketCells q = .ok cells ∧ written q (columns ++ cells.names) rows = .ok rest ∧
      log = (row.knownLabels columns ++ cells) :: rest := by
  rw [written, bind_eq_ok_iff]
  constructor
  · rintro ⟨cells, hcells, h⟩
    obtain ⟨rest, hrest, h⟩ := bind_eq_ok_iff.mp h
    cases h
    exact ⟨cells, rest, hcells, hrest, rfl⟩
  · rintro ⟨cells, rest, hcells, hrest, rfl⟩
    exact ⟨cells, hcells, bind_eq_ok_iff.mpr ⟨rest, hrest, rfl⟩⟩

theorem knownLabels_congr {columns others : List String}
    (h : ∀ name, name ∈ columns ↔ name ∈ others) (row : Row) :
    row.knownLabels columns = row.knownLabels others := by
  unfold knownLabels
  refine List.filter_congr fun cell _ => ?_
  rw [decide_eq_decide]
  exact h cell.1

/-- Only which columns there are counts, not their order. -/
theorem written_congr {q : Query} {columns others : List String}
    (h : ∀ name, name ∈ columns ↔ name ∈ others) (rows : List Row) :
    written q columns rows = written q others rows := by
  induction rows generalizing columns others with
  | nil => rfl
  | cons row rows ih =>
    rw [written, written, knownLabels_congr h row]
    refine bind_congr fun cells => ?_
    have hmore : ∀ name, name ∈ columns ++ cells.names ↔ name ∈ others ++ cells.names := by
      intro name
      rw [List.mem_append, List.mem_append, h name]
    rw [ih hmore]

theorem length_written {q : Query} {columns : List String} {rows : List Row} {log : List Cells}
    (h : written q columns rows = .ok log) : log.length = rows.length := by
  induction rows generalizing columns log with
  | nil =>
    cases h
    rfl
  | cons row rows ih =>
    obtain ⟨cells, rest, -, hrest, rfl⟩ := written_cons_eq_ok_iff.mp h
    rw [List.length_cons, List.length_cons, ih hrest]

/-- Rows can be written when the keys and values of all their buckets can be read. -/
theorem written_isOk_iff {q : Query} {columns : List String} {rows : List Row} :
    (∃ log, written q columns rows = .ok log) ↔
      ∀ row ∈ rows, ∃ cells, row.bucketCells q = .ok cells := by
  induction rows generalizing columns with
  | nil => simp [written]
  | cons row rows ih =>
    rw [List.forall_mem_cons]
    constructor
    · rintro ⟨log, h⟩
      obtain ⟨cells, rest, hcells, hrest, -⟩ := written_cons_eq_ok_iff.mp h
      exact ⟨⟨cells, hcells⟩, ih.mp ⟨rest, hrest⟩⟩
    · rintro ⟨⟨cells, hcells⟩, h⟩
      obtain ⟨rest, hrest⟩ : ∃ rest, written q (columns ++ cells.names) rows = .ok rest :=
        ih.mpr h
      exact ⟨_, written_cons_eq_ok_iff.mpr ⟨cells, rest, hcells, hrest, rfl⟩⟩

end Row

namespace Table

def names (t : Table) : List String := t.map (·.name)

/-- The values of the first column of a name, none without such a column. -/
def valuesUnder (t : Table) (name : String) : List Cell :=
  ((t.find? (·.name == name)).map (·.values)).getD []

/-- A table after some cells are written at the ends of their columns. -/
structure Extends (t : Table) (cells : Cells) (after : Table) : Prop where
  values : ∀ name, after.valuesUnder name = t.valuesUnder name ++ cells.under name
  mem_names : ∀ name, name ∈ after.names ↔ name ∈ t.names ∨ name ∈ cells.names
  distinct : t.names.Nodup → after.names.Nodup

theorem valuesUnder_cons (c : Column) (t : Table) (name : String) :
    valuesUnder (c :: t) name = if c.name = name then c.values else t.valuesUnder name := by
  by_cases h : c.name = name <;> simp [valuesUnder, h]

theorem names_cons (c : Column) (t : Table) : names (c :: t) = c.name :: t.names := rfl

theorem values_eq_valuesUnder {t : Table} (hnames : t.names.Nodup) {c : Column} (hc : c ∈ t) :
    c.values = t.valuesUnder c.name := by
  induction t with
  | nil => cases hc
  | cons first t ih =>
    rw [names_cons, List.nodup_cons] at hnames
    rw [valuesUnder_cons]
    rcases List.mem_cons.mp hc with rfl | hc
    · rw [if_pos rfl]
    · have hne : first.name ≠ c.name := fun heq => hnames.1 (heq ▸ List.mem_map_of_mem hc)
      rw [if_neg hne, ih hnames.2 hc]

namespace Extends

theorem refl (t : Table) : Extends t [] t where
  values name := by simp [Cells.under]
  mem_names name := by simp [Cells.names]
  distinct h := h

theorem trans {t after last : Table} {cells more : Cells} (h : Extends t cells after)
    (hmore : Extends after more last) : Extends t (cells ++ more) last where
  values name := by rw [hmore.values, h.values, Cells.under_append, List.append_assoc]
  mem_names name := by
    rw [hmore.mem_names, h.mem_names, Cells.names_append, List.mem_append, or_assoc]
  distinct hnames := hmore.distinct (h.distinct hnames)

end Extends

theorem names_push (name : String) (type : ColumnType) (config : Option ColumnConfig) (cell : Cell)
    (t : Table) : (push name type config cell t).names =
      if name ∈ t.names then t.names else t.names ++ [name] := by
  induction t with
  | nil => rfl
  | cons c t ih =>
    rw [push]
    by_cases hc : c.name = name
    · rw [if_pos hc]
      exact (if_pos (hc ▸ List.mem_cons_self)).symm
    · rw [if_neg hc, names_cons, names_cons, ih]
      by_cases hmem : name ∈ names t
      · rw [if_pos hmem, if_pos (List.mem_cons_of_mem _ hmem)]
      · have hnot : name ∉ c.name :: names t := by simp [hmem, Ne.symm hc]
        rw [if_neg hmem, if_neg hnot, List.cons_append]

theorem valuesUnder_push (name : String) (type : ColumnType) (config : Option ColumnConfig)
    (cell : Cell) (t : Table) (other : String) : (push name type config cell t).valuesUnder other =
      t.valuesUnder other ++ if other = name then [cell] else [] := by
  induction t with
  | nil =>
    rw [push, valuesUnder_cons]
    by_cases h : other = name
    · rw [if_pos h.symm, if_pos h]
      rfl
    · rw [if_neg (Ne.symm h), if_neg h, List.append_nil]
  | cons c t ih =>
    rw [push]
    by_cases hc : c.name = name
    · rw [if_pos hc, valuesUnder_cons, valuesUnder_cons]
      by_cases ho : c.name = other
      · rw [if_pos ho, if_pos ho, if_pos (ho.symm.trans hc)]
      · rw [if_neg ho, if_neg ho, if_neg fun heq => ho (hc.trans heq.symm), List.append_nil]
    · rw [if_neg hc, valuesUnder_cons, valuesUnder_cons, ih]
      by_cases ho : c.name = other
      · rw [if_pos ho, if_pos ho, if_neg fun heq => hc (ho.trans heq), List.append_nil]
      · rw [if_neg ho, if_neg ho]

theorem extends_push (name : String) (type : ColumnType) (config : Option ColumnConfig)
    (cell : Cell) (t : Table) : Extends t [(name, cell)] (push name type config cell t) where
  values other := by rw [valuesUnder_push, Cells.under_cons]; simp [Cells.under]
  mem_names other := by
    rw [names_push]
    by_cases hmem : name ∈ t.names
    · rw [if_pos hmem]
      simp only [Cells.names, List.map_cons, List.map_nil, List.mem_singleton]
      exact ⟨.inl, fun h => h.elim id fun heq => heq ▸ hmem⟩
    · rw [if_neg hmem, List.mem_append]
      rfl
  distinct hnames := by
    rw [names_push]
    by_cases hmem : name ∈ t.names
    · rwa [if_pos hmem]
    · rw [if_neg hmem]
      exact List.nodup_append.mpr ⟨hnames, by simp, fun a ha b hb heq =>
        hmem (List.mem_singleton.mp hb ▸ heq ▸ ha)⟩

/-- Into a column that exists a cell is written as into any; another cell is dropped. -/
theorem pushExisting_eq (name : String) (type : ColumnType) (config : Option ColumnConfig)
    (cell : Cell) (t : Table) : pushExisting name cell t =
      if name ∈ t.names then push name type config cell t else t := by
  induction t with
  | nil => rfl
  | cons c t ih =>
    rw [pushExisting, push]
    by_cases hc : c.name = name
    · rw [if_pos hc, if_pos hc]
      exact (if_pos (hc ▸ List.mem_cons_self)).symm
    · rw [if_neg hc, if_neg hc, ih, names_cons]
      by_cases hmem : name ∈ names t
      · rw [if_pos hmem, if_pos (List.mem_cons_of_mem _ hmem)]
      · have hnot : name ∉ c.name :: names t := by simp [hmem, Ne.symm hc]
        rw [if_neg hmem, if_neg hnot]

theorem names_pushExisting (name : String) (cell : Cell) (t : Table) :
    (pushExisting name cell t).names = t.names := by
  rw [pushExisting_eq name .string none]
  by_cases hmem : name ∈ t.names
  · rw [if_pos hmem, names_push, if_pos hmem]
  · rw [if_neg hmem]

theorem extends_foldl_pushExisting (labels : Entries String) (t : Table) :
    Extends t ((labels.map fun e => (e.1, Cell.value (.str e.2))).filter
        fun cell => decide (cell.1 ∈ t.names))
      (labels.foldl (fun t (name, label) => t.pushExisting name (.value (.str label))) t) := by
  induction labels generalizing t with
  | nil => exact .refl t
  | cons e labels ih =>
    obtain ⟨name, label⟩ := e
    simp only [List.foldl_cons, List.map_cons]
    have hrest := ih (t.pushExisting name (.value (.str label)))
    rw [names_pushExisting, pushExisting_eq name .string none] at hrest
    rw [pushExisting_eq name .string none]
    by_cases hmem : name ∈ t.names
    · rw [if_pos hmem] at hrest ⊢
      rw [List.filter_cons_of_pos (by simpa using hmem)]
      exact (extends_push name .string none (.value (.str label)) t).trans hrest
    · rw [if_neg hmem] at hrest ⊢
      rw [List.filter_cons_of_neg (by simpa using hmem)]
      exact hrest

theorem extends_foldl_pushNumber (values : List (String × Option Double)) (t : Table) :
    Extends t (values.map fun (name, value) => (name, .ofNumber value))
      (values.foldl (fun t (name, value) => t.pushNumber name value) t) := by
  induction values generalizing t with
  | nil => exact .refl t
  | cons e values ih => exact (extends_push e.1 .number none (.ofNumber e.2) t).trans (ih _)

theorem extends_addRow {q : Query} {row : Row} {t after : Table}
    (h : addRow q row.leaf t row.bucket = .ok after) : ∃ cells,
      row.bucketCells q = .ok cells ∧ Extends t (row.knownLabels t.names ++ cells) after := by
  obtain ⟨⟨type, cell⟩, hkey, h⟩ := bind_eq_ok_iff.mp h
  obtain ⟨values, hvalues, h⟩ := bind_eq_ok_iff.mp h
  cases h
  refine ⟨_, bind_eq_ok_iff.mpr ⟨_, hkey, bind_eq_ok_iff.mpr ⟨values, hvalues, rfl⟩⟩, ?_⟩
  refine (extends_foldl_pushExisting row.leaf.labels t).trans ?_
  exact (extends_push _ type _ cell _).trans (extends_foldl_pushNumber values.flatten _)

theorem exists_addRow {q : Query} {row : Row} {cells : Cells} (h : row.bucketCells q = .ok cells)
    (t : Table) : ∃ after, addRow q row.leaf t row.bucket = .ok after := by
  obtain ⟨key, hkey, h⟩ := bind_eq_ok_iff.mp h
  obtain ⟨values, hvalues, h⟩ := bind_eq_ok_iff.mp h
  exact ⟨_, bind_eq_ok_iff.mpr ⟨key, hkey, bind_eq_ok_iff.mpr ⟨values, hvalues, rfl⟩⟩⟩

/-- The table with some rows added, one after the other. -/
def addRows (q : Query) (t : Table) (rows : List Row) : Except Fault Table :=
  rows.foldlM (fun t row => t.addRow q row.leaf row.bucket) t

theorem addRows_append (q : Query) (t : Table) (rows more : List Row) :
    t.addRows q (rows ++ more) = (t.addRows q rows).bind (addRows q · more) :=
  List.foldlM_append

/-- A table with rows added holds what they write. -/
theorem extends_addRows {q : Query} {rows : List Row} {t after : Table}
    (h : t.addRows q rows = .ok after) : ∃ log,
      Row.written q t.names rows = .ok log ∧ Extends t log.flatten after := by
  induction rows generalizing t with
  | nil =>
    cases h
    exact ⟨[], rfl, .refl _⟩
  | cons row rows ih =>
    rw [addRows, List.foldlM_cons] at h
    obtain ⟨next, hrow, h⟩ := bind_eq_ok_iff.mp h
    obtain ⟨cells, hcells, hnext⟩ := extends_addRow hrow
    obtain ⟨log, hlog, hafter⟩ := ih h
    refine ⟨_, Row.written_cons_eq_ok_iff.mpr ⟨cells, log, hcells, ?_, rfl⟩, hnext.trans hafter⟩
    rw [← hlog]
    refine Row.written_congr (fun name => ?_) rows
    rw [hnext.mem_names, Cells.names_append, List.mem_append, List.mem_append]
    refine or_congr_right' fun hnot => ?_
    exact (or_iff_right fun hlabel => hnot (Row.mem_of_mem_knownLabels hlabel)).symm

theorem exists_addRows {q : Query} {rows : List Row}
    (h : ∀ row ∈ rows, ∃ cells, row.bucketCells q = .ok cells) (t : Table) :
    ∃ after, t.addRows q rows = .ok after := by
  induction rows generalizing t with
  | nil => exact ⟨t, rfl⟩
  | cons row rows ih =>
    rw [List.forall_mem_cons] at h
    obtain ⟨cells, hcells⟩ := h.1
    obtain ⟨next, hnext⟩ := exists_addRow hcells t
    obtain ⟨after, hafter⟩ := ih h.2 next
    refine ⟨after, ?_⟩
    rw [addRows, List.foldlM_cons]
    exact bind_eq_ok_iff.mpr ⟨next, hnext, hafter⟩

end Table

end PanelSearch
