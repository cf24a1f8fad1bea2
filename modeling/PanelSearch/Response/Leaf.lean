import PanelSearch.Response.Bucket

/-! The bucket tree of a response, level by level down to the results of the innermost bucket
aggregation. Each of these leaves is reached under the labels of the buckets above it, and the
leaves come in depth-first order: arrays in their order, objects in the order of their keys. -/

namespace PanelSearch

/-- The result of the innermost bucket aggregation below one path of buckets. -/
structure Leaf where
  agg : BucketAgg
  labels : Entries String
  result : Entries Json

namespace Leaf

def filterLabel : String := "filter"

/-- The labels below a bucket of an array. A bucket without a label adds none. -/
def labelled (labels : Entries String) (agg : BucketAgg) (bucket : Json) : Entries String :=
  match bucket.members?.bind Bucket.label? with
  | some label => labels.put agg.field label
  | none => labels

/-- Lists of leaves under keys, one after the other in the order of the keys. -/
def inKeyOrder (groups : List (String × List Leaf)) : List Leaf :=
  (groups.mergeSort fun a b => Entries.keyLe a.1 b.1).flatMap (·.2)

mutual

/-- The leaves in an object that holds the results of one level, at a depth. -/
def ofLevel (q : Query) (depth : Nat) (labels : Entries String) : Json → List Leaf
  | .obj members => inKeyOrder (ofMembers q depth labels members)
  | _ => []

def ofMembers (q : Query) (depth : Nat) (labels : Entries String) :
    List (String × Json) → List (String × List Leaf)
  | [] => []
  | (id, result) :: rest => (id, ofResult q depth labels id result) :: ofMembers q depth labels rest

/-- The leaves in the result of one aggregation. What is no bucket aggregation of the query, or no
object, has none. A nested result holds the next level itself. -/
def ofResult (q : Query) (depth : Nat) (labels : Entries String) (id : String) :
    Json → List Leaf
  | .obj members =>
    match q.findBucket? id with
    | none => []
    | some agg =>
      if agg.kind = .nested then inKeyOrder (ofMembers q (depth + 1) labels members)
      else if depth + 1 = q.buckets.length then [⟨agg, labels, members⟩]
      else ofBucketsMember q depth labels agg members
  | _ => []

def ofBucketsMember (q : Query) (depth : Nat) (labels : Entries String) (agg : BucketAgg) :
    List (String × Json) → List Leaf
  | [] => []
  | (key, value) :: rest =>
    if key = "buckets" then ofBuckets q depth labels agg value
    else ofBucketsMember q depth labels agg rest

/-- The leaves in buckets: an array of them, or an object that holds them under their labels. -/
def ofBuckets (q : Query) (depth : Nat) (labels : Entries String) (agg : BucketAgg) :
    Json → List Leaf
  | .arr buckets => ofArray q depth labels agg buckets
  | .obj buckets => inKeyOrder (ofKeyed q depth labels buckets)
  | _ => []

def ofArray (q : Query) (depth : Nat) (labels : Entries String) (agg : BucketAgg) :
    List Json → List Leaf
  | [] => []
  | bucket :: rest =>
    ofLevel q (depth + 1) (labelled labels agg bucket) bucket ++ ofArray q depth labels agg rest

def ofKeyed (q : Query) (depth : Nat) (labels : Entries String) :
    List (String × Json) → List (String × List Leaf)
  | [] => []
  | (key, bucket) :: rest =>
    (key, ofLevel q (depth + 1) (labels.put filterLabel key) bucket) :: ofKeyed q depth labels rest

end

def ofResponse (q : Query) (response : Entries Json) : List Leaf :=
  ofLevel q 0 [] (Json.member response "aggregations")

end Leaf

end PanelSearch
