import PanelSearch.Response.Table
import PanelSearch.Setting

/-! The frames of an aggregation response: a frame for each time series, and one table for all
leaves that are no date histograms. -/

namespace PanelSearch

/-- What the leaves of a response add up to. -/
structure Collected where
  series : List Series := []
  table : Option Table := none

namespace Collected

def add (q : Query) (c : Collected) (leaf : Leaf) : Except Fault Collected :=
  if leaf.agg.kind = .dateHistogram then do
    return { c with series := c.series ++ (← Series.ofLeaf q leaf) }
  else do
    return { c with table := ← Table.addLeaf q leaf c.table }

def ofResponse (q : Query) (response : Entries Json) : Except Fault Collected :=
  (Leaf.ofResponse q response).foldlM (add q) {}

end Collected

/-- The number of points that a query drops at either end of its series. -/
def Query.trimEdges (q : Query) : Nat :=
  match q.buckets.find? (·.kind == .dateHistogram) with
  | some b => (Setting.integer (Json.member b.settings "trimEdges") 0 true).toNat
  | none => 0

def Collected.frames (q : Query) (c : Collected) : List Frame :=
  let series := (Series.named q c.series).map fun (s, name) =>
    let s := s.trimmed q.trimEdges
    Frame.ofSeries s.points s.labels name
  match c.table with
  | some columns => series ++ [{ columns }]
  | none => series

def aggregationFrames (q : Query) (response : Entries Json) : Except Fault (List Frame) := do
  return (← Collected.ofResponse q response).frames q

end PanelSearch
