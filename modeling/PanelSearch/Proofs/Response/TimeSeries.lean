import PanelSearch.Proofs.Response.Lines
import PanelSearch.Proofs.Response.Walk
import PanelSearch.Response.Aggregations

/-! The frames of a response whose tree carries all levels of a query down to a date histogram: one
group for each leaf in depth-first order, and in it one frame for each line of a visible metric. -/

namespace PanelSearch

open Json (member)

namespace Line

/-- A point shows a bucket: the milliseconds of its key, and its value for the line. -/
def Shows (l : Line) (b : Bucket) (p : Point) : Prop :=
  (∃ ms, (member b "key").millis? = some ms ∧ p.1.micros = ms * 1000) ∧
    ∃ j, l.value b = some j ∧ p.2 = j.number?

theorem micros_of_ofNanos? {ms : Int} {t : Instant}
    (h : Instant.ofNanos? (ms * 1000000) = some t) : t.micros = ms * 1000 := by
  have hmicros := Instant.ofNanos?_eq_some_iff.mp h
  omega

/-- A line has one point for each bucket with a value, where the buckets tell their instants. -/
theorem shows_points (l : Line) {buckets : List Bucket}
    (htimes : ∀ b ∈ buckets, b.time?.isSome = true) :
    List.Forall₂ l.Shows (buckets.filter fun b => (l.value b).isSome) (l.points buckets) := by
  induction buckets with
  | nil => exact .nil
  | cons b buckets ih =>
    obtain ⟨t, ht⟩ := Option.isSome_iff_exists.mp (htimes b List.mem_cons_self)
    have hrest := ih fun c hc => htimes c (List.mem_cons_of_mem _ hc)
    cases hvalue : l.value b with
    | none =>
      rw [List.filter_cons_of_neg (by simp [hvalue]), points,
        List.filterMap_cons_none (by simp [hvalue])]
      exact hrest
    | some j =>
      obtain ⟨ms, hms, hinstant⟩ := Option.bind_eq_some_iff.mp ht
      rw [List.filter_cons_of_pos (by simp [hvalue]), points,
        List.filterMap_cons_some (b := (t, j.number?)) (by simp [hvalue, ht])]
      exact .cons ⟨⟨ms, hms, micros_of_ofNanos? hinstant⟩, j, hvalue, rfl⟩ hrest

end Line

namespace Series

theorem namedFrom_map_fst (q : Query) (kinds : Nat) (owners : Entries String)
    (series : List Series) : (namedFrom q kinds owners series).map (·.1) = series := by
  induction series generalizing owners with
  | nil => rfl
  | cons s rest ih =>
    cases howner : Entries.get? owners (s.displayName q kinds) with
    | some owner => simp only [namedFrom, howner, List.map_cons, ih]
    | none => simp only [namedFrom, howner, List.map_cons, ih]

/-- Naming neither drops nor moves a series. -/
theorem named_map_fst (q : Query) (series : List Series) :
    (named q series).map (·.1) = series :=
  namedFrom_map_fst q _ [] series

end Series

namespace Collected

theorem foldlM_add_eq {q : Query} {leaves : List Leaf}
    (hkind : ∀ leaf ∈ leaves, leaf.agg.kind = .dateHistogram)
    (hreads : ∀ leaf ∈ leaves, leaf.Reads q) (c : Collected) :
    leaves.foldlM (add q) c =
      .ok { c with series := c.series ++ leaves.flatMap (Leaf.series q) } := by
  induction leaves generalizing c with
  | nil => simp [pure, Except.pure]
  | cons leaf leaves ih =>
    have hadd : add q c leaf = .ok { c with series := c.series ++ leaf.series q } := by
      rw [add, if_pos (hkind leaf List.mem_cons_self),
        Series.ofLeaf_eq (hreads leaf List.mem_cons_self)]
      rfl
    rw [List.foldlM_cons, hadd]
    change leaves.foldlM (add q) _ = _
    rw [ih (fun l hl => hkind l (List.mem_cons_of_mem _ hl))
      fun l hl => hreads l (List.mem_cons_of_mem _ hl)]
    simp

end Collected

/-- The cell that shows the value of a point, if it has one. -/
def Point.cell (p : Point) : Cell :=
  match p.2 with
  | some d => .value (.double d)
  | none => .value .null

theorem Point.ofNumber_eq_cell (p : Point) : Cell.ofNumber p.2 = p.cell := by
  obtain ⟨t, _ | d⟩ := p <;> rfl

/-- A frame draws a series: it has a column of times and one of values with a row for each point in
order, the labels of the series at the values, and some display name. -/
def Frame.Draws (s : Series) (f : Frame) : Prop :=
  ∃ displayName : String, f =
    { name := ""
      columns := [
        { name := "Time", type := .time, values := s.points.map fun p => .time p.1
          labels := [], config := none },
        { name := "Value", type := .number, values := s.points.map Point.cell
          labels := s.labels
          config := some { filterable := none, displayName := some displayName } }]
      about := none }

theorem Frame.draws_ofSeries (s : Series) (displayName : String) :
    Frame.Draws s (Frame.ofSeries s.points s.labels displayName) := by
  refine ⟨displayName, ?_⟩
  simp only [Frame.ofSeries, Point.ofNumber_eq_cell]
  rfl

/-- The series of a tree that carries all levels down to a date histogram are those of its leaves,
in depth-first order. -/
theorem Collected.ofResponse_eq {q : Query} {response : Entries Json} {outer : List BucketAgg}
    {d : BucketAgg} (hids : q.DistinctIds) (hlevels : q.buckets = outer ++ [d])
    (hkind : d.kind = .dateHistogram)
    (htree : Carries q q.buckets (member response "aggregations"))
    (hreads : ∀ trail leaf, LeafAt q.buckets [] (member response "aggregations") trail leaf →
      leaf.Reads q) :
    ∃ leaves, DepthFirst q.buckets [] (member response "aggregations") leaves ∧
      Collected.ofResponse q response =
        .ok { series := leaves.flatMap fun x => x.2.series q } := by
  have hlast : ∀ b, q.buckets.getLast? = some b → b = d := by
    intro b hb
    rw [hlevels, List.getLast?_concat] at hb
    exact (Option.some.inj hb).symm
  have hwalk := Leaf.ofResponse_eq hids.buckets hlevels (by rw [hkind]; decide) htree
  have hdepthFirst := htree.depthFirst []
  refine ⟨_, hdepthFirst, ?_⟩
  have hleaf : ∀ leaf ∈ Leaf.ofResponse q response,
      ∃ trail, LeafAt q.buckets [] (member response "aggregations") trail leaf := by
    intro leaf hmem
    rw [hwalk] at hmem
    obtain ⟨⟨trail, l⟩, hl, rfl⟩ := List.mem_map.mp hmem
    exact ⟨trail, leafAt_of_mem hl⟩
  rw [Collected.ofResponse, Collected.foldlM_add_eq]
  · rw [hwalk, List.flatMap_map]
    rfl
  · intro leaf hmem
    obtain ⟨trail, hat⟩ := hleaf leaf hmem
    rw [hlast leaf.agg hat.getLast?_eq]
    exact hkind
  · intro leaf hmem
    obtain ⟨trail, hat⟩ := hleaf leaf hmem
    exact hreads trail leaf hat

end PanelSearch
