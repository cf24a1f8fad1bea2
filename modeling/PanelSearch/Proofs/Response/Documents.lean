import PanelSearch.Highlight.Grammar
import PanelSearch.Proofs.Highlight.Trees
import PanelSearch.Proofs.KeyOrder
import PanelSearch.Proofs.Response.Lines
import PanelSearch.Proofs.Response.Times

/-! The frames of documents. A frame has a row for each object among the hits, a column for the time
field and one for every key that some document has, and each column is typed by the first value it
is given. -/

namespace PanelSearch

open Traversal
open Json (member)

namespace TimeFormat

/-- A layout names no directive twice. -/
def Compiles (format : String) : Prop :=
  ∀ layout items, ofName format = .layout layout → Layout.items? layout = some items →
    (Layout.directives items).Nodup

end TimeFormat

/-- The type of a column whose first value this is. -/
def Json.columnType : Json → ColumnType
  | bool _ => .boolean
  | int _ | double _ => .number
  | str _ => .string
  | _ => .json

namespace Document

variable {known : ConfiguredFields}

theorem exists_time? (h : TimeFormat.Compiles known.timeFormat) (doc : Document) (hit : Hit) :
    ∃ t, time? known doc hit = .ok t := by
  cases htime : time? known doc hit with
  | ok t => exact ⟨t, rfl⟩
  | error f =>
    obtain ⟨-, -, layout, hname, items, hitems, htwice⟩ := time?_eq_error_iff.mp htime
    exact absurd (h layout items hname hitems) htwice

/-! ### Columns -/

/-- The type of a column by its values: that of the first one that is not null. -/
inductive TypedBy : List Json → ColumnType → Prop
  | nulls {values : List Json} (nulls : ∀ v ∈ values, v = .null) : TypedBy values .json
  | first {before after : List Json} {v : Json} (nulls : ∀ u ∈ before, u = .null)
    (given : v ≠ .null) : TypedBy (before ++ v :: after) v.columnType

/-- A cell shows a value in a column: a number as a double, and what is not of the type of the
column as null. In a column of JSON every value stays as it is. -/
inductive Shows : ColumnType → Json → Cell → Prop
  | bool (b : Bool) : Shows .boolean (.bool b) (.value (.bool b))
  | int {n : Int} {d : Double} (h : Double.ofInt? n = some d) :
    Shows .number (.int n) (.value (.double d))
  | double (d : Double) : Shows .number (.double d) (.value (.double d))
  | str (s : String) : Shows .string (.str s) (.value (.str s))
  | json (v : Json) : Shows .json v (.value v)
  | other {type : ColumnType} {v : Json} (typed : type ≠ .json) (other : v.columnType ≠ type) :
    Shows type v .null

theorem isNull_iff {v : Json} : v.isNull = true ↔ v = .null := by
  cases v <;> simp [Json.isNull]

theorem typedBy_typeOf (values : List Json) : TypedBy values (typeOf values) := by
  cases hfind : values.find? (!·.isNull) with
  | none =>
    have htype : typeOf values = .json := by rw [typeOf, hfind]
    rw [htype]
    refine .nulls fun v hv => isNull_iff.mp ?_
    simpa using List.find?_eq_none.mp hfind v hv
  | some v =>
    have htype : typeOf values = v.columnType := by
      rw [typeOf, hfind]
      cases v <;> rfl
    obtain ⟨hgiven, before, after, rfl, hbefore⟩ := List.find?_eq_some_iff_append.mp hfind
    rw [htype]
    refine .first (fun u hu => isNull_iff.mp ?_) fun hnull => ?_
    · simpa using hbefore u hu
    · simp [isNull_iff.mpr hnull] at hgiven

theorem typeOf_ne_time (values : List Json) : typeOf values ≠ .time := by
  unfold typeOf
  split <;> simp

theorem exists_shows {type : ColumnType} {v : Json} (htype : type ≠ .time) (hfits : v.Fits) :
    ∃ cell, cellOf type v = .ok cell ∧ Shows type v cell := by
  cases type with
  | time => exact absurd rfl htype
  | json => exact ⟨_, rfl, .json v⟩
  | boolean =>
    cases v with
    | bool b => exact ⟨_, rfl, .bool b⟩
    | _ => exact ⟨_, rfl, .other (by simp) (by simp [Json.columnType])⟩
  | string =>
    cases v with
    | str s => exact ⟨_, rfl, .str s⟩
    | _ => exact ⟨_, rfl, .other (by simp) (by simp [Json.columnType])⟩
  | number =>
    cases v with
    | int n =>
      obtain ⟨d, hd⟩ := Json.fits_int_iff.mp hfits
      exact ⟨_, by rw [cellOf, hd], .int hd⟩
    | double d => exact ⟨_, rfl, .double d⟩
    | _ => exact ⟨_, rfl, .other (by simp) (by simp [Json.columnType])⟩

def IsTimeName (known : ConfiguredFields) (name : String) : Prop :=
  known.timeField ≠ "" ∧ name = known.timeField

/-- A column of rows: the times of the documents under the time field, and the values of the
documents under any other name. -/
inductive IsColumn (known : ConfiguredFields) (rows : List Row) (c : Column) : Prop
  | times (named : IsTimeName known c.name) (type : c.type = .time)
    (cells : List.Forall₂ (fun row cell => ∃ t, time? known row.1 row.2 = .ok t ∧
      cell = (t.map Cell.time).getD .null) rows c.values) : IsColumn known rows c
  | values (named : ¬IsTimeName known c.name)
    (type : TypedBy (rows.map fun row => member row.1 c.name) c.type)
    (cells : List.Forall₂ (fun row cell => Shows c.type (member row.1 c.name) cell) rows
      c.values) : IsColumn known rows c

theorem IsColumn.length_eq {rows : List Row} {c : Column} (h : IsColumn known rows c) :
    c.values.length = rows.length := by
  cases h with
  | times _ _ cells => exact cells.length_eq.symm
  | values _ _ cells => exact cells.length_eq.symm

theorem IsColumn.withConfig {rows : List Row} {c : Column} (h : IsColumn known rows c)
    (config : Option ColumnConfig) : IsColumn known rows { c with config } := by
  cases h with
  | times named type cells => exact .times named type cells
  | values named type cells => exact .values named type cells

/-- No document holds an integer beyond the doubles. -/
def RowsFit (rows : List Row) : Prop := ∀ row ∈ rows, ∀ e ∈ row.1, e.2.Fits

instance (rows : List Row) : Decidable (RowsFit rows) :=
  inferInstanceAs (Decidable (∀ row ∈ rows, ∀ e ∈ row.1, e.2.Fits))

theorem fits_member {doc : Document} (h : ∀ e ∈ doc, e.2.Fits) (name : String) :
    (member doc name).Fits := by
  unfold member
  cases hget : doc.get? name with
  | none => exact trivial
  | some v => exact h _ (Entries.mem_of_get? hget)

theorem exists_typedColumn {rows : List Row} {name : String} (hfits : RowsFit rows)
    (hname : ¬IsTimeName known name) :
    ∃ c, typedColumn name (rows.map fun row => member row.1 name) = .ok c ∧ c.name = name ∧
      IsColumn known rows c := by
  have htyped := typedBy_typeOf (rows.map fun row => member row.1 name)
  have hstep : ∀ v ∈ rows.map (fun row => member row.1 name), ∃ cell,
      cellOf (typeOf (rows.map fun row => member row.1 name)) v = .ok cell ∧
        Shows (typeOf (rows.map fun row => member row.1 name)) v cell := by
    intro v hv
    obtain ⟨row, hrow, rfl⟩ := List.mem_map.mp hv
    exact exists_shows (typeOf_ne_time _) (fits_member (hfits row hrow) name)
  obtain ⟨cells, hcells, hshows⟩ := exists_mapM hstep
  exact ⟨_, bind_eq_ok_iff.mpr ⟨cells, hcells, rfl⟩, rfl,
    .values hname htyped (List.forall₂_map_left_iff.mp hshows)⟩

theorem exists_timeColumn (rows : List Row) (hformat : TimeFormat.Compiles known.timeFormat)
    (hname : known.timeField ≠ "") :
    ∃ c, timeColumn known rows = .ok c ∧ c.name = known.timeField ∧ IsColumn known rows c := by
  obtain ⟨times, htimes⟩ := mapM_isOk_iff.mpr fun (row : Row) (_ : row ∈ rows) =>
    exists_time? hformat row.1 row.2
  have hcells := mapM_eq_ok_iff.mp htimes
  refine ⟨_, bind_eq_ok_iff.mpr ⟨times, htimes, rfl⟩, rfl, .times ⟨hname, rfl⟩ rfl ?_⟩
  exact List.forall₂_map_right_iff.mpr (hcells.imp fun row t ht => ⟨t, ht, rfl⟩)

theorem exists_columns {rows : List Row} (hformat : TimeFormat.Compiles known.timeFormat)
    (hfits : RowsFit rows) (names : List String) :
    ∃ cs, columns known rows names = .ok cs ∧
      List.Forall₂ (fun name c => c.name = name ∧ IsColumn known rows c) names cs := by
  refine exists_mapM fun name _ => ?_
  by_cases hname : IsTimeName known name
  · obtain ⟨c, hc, hnamed, hcolumn⟩ := exists_timeColumn rows hformat hname.1
    refine ⟨{ c with config := some { filterable := some true } }, ?_,
      hnamed.trans hname.2.symm, hcolumn.withConfig _⟩
    rw [IsTimeName] at hname
    rw [if_pos hname, hc]
    rfl
  · obtain ⟨c, hc, hnamed, hcolumn⟩ := exists_typedColumn hfits hname
    refine ⟨{ c with config := some { filterable := some true } }, ?_, hnamed,
      hcolumn.withConfig _⟩
    rw [IsTimeName] at hname
    rw [if_neg hname, hc]
    rfl

/-! ### Names -/

/-- Some document has the key. -/
def HasKey (rows : List Row) (name : String) : Prop := ∃ row ∈ rows, name ∈ Entries.keys row.1

instance (rows : List Row) (name : String) : Decidable (HasKey rows name) :=
  inferInstanceAs (Decidable (∃ row ∈ rows, name ∈ Entries.keys row.1))

def timeNames (known : ConfiguredFields) : List String :=
  if known.timeField = "" then [] else [known.timeField]

/-- The names that come first: the time field, and the leading names that some document has. -/
def firstNames (known : ConfiguredFields) (rows : List Row) (leading : List String) :
    List String :=
  timeNames known ++ leading.filter fun name => name ∉ timeNames known ∧ HasKey rows name

theorem mem_fieldNames {docs : List Document} {name : String} :
    name ∈ fieldNames docs ↔ ∃ doc ∈ docs, name ∈ Entries.keys doc := by
  rw [fieldNames, List.mem_mergeSort, List.mem_eraseDups, List.mem_flatMap]

theorem pairwise_fieldNames (docs : List Document) :
    (fieldNames docs).Pairwise Entries.KeyLt := by
  have hdistinct : (fieldNames docs).Nodup :=
    (List.mergeSort_perm _ _).nodup_iff.mpr (nodup_eraseDups _)
  exact (Entries.pairwise_mergeSort_keyLe _).imp₂ (fun _ _ hle hne => ⟨hle, hne⟩) hdistinct

section Order

variable {rows : List Row} {leading : List String}

theorem columnNames_eq (hrows : rows ≠ []) :
    columnNames (rows.map (·.1)) known.timeField leading = firstNames known rows leading ++
      (fieldNames (rows.map (·.1))).filter fun name => name ∉ firstNames known rows leading := by
  have hgiven : (rows.map (·.1)).isEmpty = false := by simpa using hrows
  have htime : (if known.timeField ≠ "" ∧ !(rows.map (·.1)).isEmpty then [known.timeField]
      else []) = timeNames known := by
    by_cases hname : known.timeField = "" <;> simp [timeNames, hname, hgiven]
  have hseen : ∀ name, (fieldNames (rows.map (·.1))).contains name = decide (HasKey rows name) := by
    intro name
    rw [List.contains_eq_mem, decide_eq_decide, mem_fieldNames]
    simp [HasKey]
  have hleading : leading.filter (fun name => (fieldNames (rows.map (·.1))).contains name &&
      !(timeNames known).contains name) =
      leading.filter fun name => name ∉ timeNames known ∧ HasKey rows name := by
    refine List.filter_congr fun name _ => ?_
    rw [hseen, List.contains_eq_mem, Bool.decide_and, decide_not, Bool.and_comm]
  unfold columnNames
  dsimp only
  rw [htime, hleading, ← firstNames]
  simp only [List.contains_eq_mem, decide_not]

theorem columnNames_nil : columnNames (([] : List Row).map (·.1)) known.timeField leading = [] := by
  simp [columnNames, fieldNames]

theorem nodup_firstNames (hleading : leading.Nodup) : (firstNames known rows leading).Nodup := by
  have htime : (timeNames known).Nodup := by
    unfold timeNames
    split <;> simp
  rw [firstNames, List.nodup_append]
  refine ⟨htime, hleading.filter _, fun a ha b hb hab => ?_⟩
  have hout : b ∉ timeNames known := (of_decide_eq_true (List.mem_filter.mp hb).2).1
  exact hout (hab ▸ ha)

variable (known leading) in
theorem order_columnNames (hrows : rows ≠ []) :
    ∃ rest, columnNames (rows.map (·.1)) known.timeField leading =
        firstNames known rows leading ++ rest ∧
      rest.Pairwise Entries.KeyLt ∧
      ∀ name, name ∈ rest ↔ HasKey rows name ∧ name ∉ firstNames known rows leading := by
  refine ⟨_, columnNames_eq hrows, (pairwise_fieldNames _).filter _, fun name => ?_⟩
  rw [List.mem_filter, mem_fieldNames, decide_eq_true_eq]
  simp [HasKey]

theorem nodup_columnNames (hleading : leading.Nodup) :
    (columnNames (rows.map (·.1)) known.timeField leading).Nodup := by
  by_cases hrows : rows = []
  · subst hrows
    rw [columnNames_nil]
    exact List.nodup_nil
  · obtain ⟨rest, hnames, hordered, hrest⟩ := order_columnNames known leading hrows
    rw [hnames, List.nodup_append]
    refine ⟨nodup_firstNames hleading, hordered.imp And.right, fun a ha b hb hab => ?_⟩
    exact ((hrest b).mp hb).2 (hab ▸ ha)

end Order

/-! ### Frames -/

/-- Columns with a value for each row, under distinct names: the first names, and then all other
keys of the documents in their order. Without rows there are no columns. -/
structure Tabulates (known : ConfiguredFields) (rows : List Row) (leading : List String)
    (cs : List Column) : Prop where
  distinct : (cs.map (·.name)).Nodup
  aligned : ∀ c ∈ cs, c.values.length = rows.length
  columns : ∀ c ∈ cs, IsColumn known rows c
  order : rows ≠ [] → ∃ rest, cs.map (·.name) = firstNames known rows leading ++ rest ∧
    rest.Pairwise Entries.KeyLt ∧
    ∀ name, name ∈ rest ↔ HasKey rows name ∧ name ∉ firstNames known rows leading
  empty : rows = [] → cs = []

theorem exists_tabulates {rows : List Row} {leading : List String}
    (hformat : TimeFormat.Compiles known.timeFormat) (hfits : RowsFit rows)
    (hleading : leading.Nodup) :
    ∃ cs, columns known rows (columnNames (rows.map (·.1)) known.timeField leading) = .ok cs ∧
      Tabulates known rows leading cs := by
  obtain ⟨cs, hcs, hall⟩ := exists_columns hformat hfits
    (columnNames (rows.map (·.1)) known.timeField leading)
  have hnames : cs.map (·.name) = columnNames (rows.map (·.1)) known.timeField leading := by
    have hnamed := List.forall₂_map_right_iff.mpr (hall.imp fun _ _ hc => hc.1.symm)
    rw [List.forall₂_eq_eq_eq] at hnamed
    exact hnamed.symm
  have hcolumn : ∀ c ∈ cs, IsColumn known rows c := fun c hc => by
    obtain ⟨name, -, -, hc⟩ := exists_mem_of_forall₂ hall.flip hc
    exact hc
  refine ⟨cs, hcs, ?_, fun c hc => (hcolumn c hc).length_eq, hcolumn, ?_, ?_⟩
  · rw [hnames]
    exact nodup_columnNames hleading
  · rw [hnames]
    exact order_columnNames known leading
  · rintro rfl
    rw [columnNames_nil] at hnames
    exact List.map_eq_nil_iff.mp hnames

/-- The rows of raw documents: one for each object among the hits. -/
def rawRows (items : List Json) : List Row :=
  (items.filterMap Json.members?).map fun hit => (hit.document, hit)

def logRows (known : ConfiguredFields) (items : List Json) : List Row :=
  (items.filterMap Json.members?).map fun hit => (ofLogHit known hit, hit)

def HasHits (response : Entries Json) (items : List Json) : Prop :=
  (member response "hits").path ["hits"] = .arr items

theorem ofResponse_of_hasHits {response : Entries Json} {items : List Json}
    (h : HasHits response items) :
    Hit.ofResponse response = .ok (items.filterMap Json.members?) := by
  rw [Hit.ofResponse, h]
  cases items <;> rfl

/-- Raw documents and log lines come in a frame that tabulates them; for log lines the message
leads. -/
theorem frames_tabulate {response : Entries Json} {items : List Json}
    (hitems : HasHits response items) (hformat : TimeFormat.Compiles known.timeFormat) :
    (RowsFit (rawRows items) → ∃ frame, rawDataFrame known response = .ok frame ∧
      Tabulates known (rawRows items) [] frame.columns) ∧
    ∀ (highlight : Highlighter) q words, highlight q.rawQuery = .ok words →
      RowsFit (logRows known items) →
      ∃ frame, logsFrame highlight q known response = .ok frame ∧
        Tabulates known (logRows known items) [lineName] frame.columns := by
  have hhits := ofResponse_of_hasHits hitems
  constructor
  · intro hfits
    obtain ⟨cs, hcs, htabulates⟩ := exists_tabulates hformat hfits List.nodup_nil
    refine ⟨{ columns := cs }, ?_, htabulates⟩
    exact bind_eq_ok_iff.mpr ⟨_, hhits, bind_eq_ok_iff.mpr ⟨cs, hcs, rfl⟩⟩
  · intro highlight q words hwords hfits
    have hleading : [lineName].Nodup := by simp
    obtain ⟨cs, hcs, htabulates⟩ := exists_tabulates hformat hfits hleading
    exact ⟨{ columns := cs, about := some _ }, bind_eq_ok_iff.mpr ⟨_, hhits,
      bind_eq_ok_iff.mpr ⟨cs, hcs, bind_eq_ok_iff.mpr ⟨words, hwords, rfl⟩⟩⟩, htabulates⟩

/-- Log lines with a time by the day and a message under another name. -/
def datedFields : ConfiguredFields where
  timeField := "day"
  timeFormat := "%Y-%m-%d"
  messageField := "message"

theorem compiles_datedFields : TimeFormat.Compiles datedFields.timeFormat := by
  intro layout items hlayout hitems
  have hname : TimeFormat.ofName datedFields.timeFormat = .layout "%Y-%m-%d" := by decide +kernel
  rw [hname] at hlayout
  cases hlayout
  have hplain : Layout.items? "%Y-%m-%d" = some [.directive .year, .literal '-',
      .directive .month, .literal '-', .directive .day] := by decide +kernel
  rw [hplain] at hitems
  cases hitems
  decide

/-- Two hits without a key in common, of which only the first has a time, and a stray number between
them. -/
def sparseHits : List Json := [
  .obj [("_source", .obj [("day", .str "2024-02-29"), ("message", .str "up")])],
  .int 5,
  .obj [("_source", .obj [("http", .obj [("size", .int 3)])]), ("sort", .arr [.str "2024-03-01"])]]

def hitsResponse (items : List Json) : Entries Json := [("hits", .obj [("hits", .arr items)])]

def upLines : Query where
  refId := "A"
  rawQuery := "message:up"
  buckets := []
  metrics := [
    { id := "1", kind := .logs, field := "", hide := false, source := "", inputs := [],
      settings := [], flags := [] }]
  aliasPattern := ""
  intervalMs := 0
  maxDataPoints := 0
  rangeFrom := 0
  rangeTo := 0

/-- The words of the query by the grammar. -/
def wordsByGrammar : Highlighter := Highlight.words .standard Highlight.grammar

theorem sparseHits_tabulated :
    HasHits (hitsResponse sparseHits) sparseHits ∧
      TimeFormat.Compiles datedFields.timeFormat ∧ RowsFit (rawRows sparseHits) ∧
      RowsFit (logRows datedFields sparseHits) ∧
      ∃ raw logs, rawDataFrame datedFields (hitsResponse sparseHits) = .ok raw ∧
        Tabulates datedFields (rawRows sparseHits) [] raw.columns ∧
        (∀ c ∈ raw.columns, c.values.length = 2) ∧
        logsFrame wordsByGrammar upLines datedFields (hitsResponse sparseHits) = .ok logs ∧
        Tabulates datedFields (logRows datedFields sparseHits) [lineName] logs.columns ∧
        firstNames datedFields (logRows datedFields sparseHits) [lineName] = ["day", "line"] := by
  have hitems : HasHits (hitsResponse sparseHits) sparseHits := rfl
  have hraw : RowsFit (rawRows sparseHits) := by decide +kernel
  have hlogs : RowsFit (logRows datedFields sparseHits) := by decide +kernel
  have htree : Highlight.grammar upLines.rawQuery = .ok (.other [.word "up".toList]) := rfl
  have hwords : wordsByGrammar upLines.rawQuery = .ok ["up"] :=
    (Highlight.words_of_tree rfl htree).trans rfl
  obtain ⟨hrawFrame, hlogsFrame⟩ := frames_tabulate hitems compiles_datedFields
  obtain ⟨raw, hrawOk, hrawColumns⟩ := hrawFrame hraw
  obtain ⟨logs, hlogsOk, hlogsColumns⟩ := hlogsFrame wordsByGrammar upLines _ hwords hlogs
  exact ⟨hitems, compiles_datedFields, hraw, hlogs, raw, logs, hrawOk, hrawColumns,
    hrawColumns.aligned, hlogsOk, hlogsColumns, by decide +kernel⟩

/-- Where no hit is an object there is not even a column for the time field. -/
theorem strayHits_timeless : ¬∀ (known : ConfiguredFields) (response : Entries Json)
    (items : List Json) (frame : Frame), HasHits response items →
      TimeFormat.Compiles known.timeFormat → RowsFit (rawRows items) → items ≠ [] →
      known.timeField ≠ "" → rawDataFrame known response = .ok frame →
      (frame.columns.map (·.name)).head? = some known.timeField := by
  intro h
  have hcolumns : (rawDataFrame datedFields (hitsResponse [.int 5])).toOption.map
      (·.columns.map (·.name)) = some [] := by decide +kernel
  cases hframe : rawDataFrame datedFields (hitsResponse [.int 5]) with
  | error f =>
    rw [hframe] at hcolumns
    cases hcolumns
  | ok frame =>
    rw [hframe] at hcolumns
    have hnames : frame.columns.map (·.name) = [] := Option.some.inj hcolumns
    have hhead := h datedFields (hitsResponse [.int 5]) [.int 5] frame rfl compiles_datedFields
      (by decide +kernel) (by simp) (by decide) hframe
    rw [hnames] at hhead
    cases hhead

end Document

end PanelSearch
