import PanelSearch.Duration
import PanelSearch.Json.Writer
import PanelSearch.Request.Basic
import PanelSearch.Text.Replace

/-! Batches of searches as lines of JSON: for each search a header line and a body line, in which
the placeholders for the interval are filled in. -/

namespace PanelSearch.Batch

/-- One search of a batch. -/
structure Entry where
  header : Json
  body : Json
  intervalMs : Int

def Entry.ofRequest (r : SearchRequest) : Except Fault Entry := do
  let body ← r.body
  return {
    header := .obj [("ignore_unavailable", .bool true), ("index", .arr (r.index.map .str))]
    body
    intervalMs := r.intervalMs }

/-- The entries of requests, in order. -/
def ofRequests (rs : List SearchRequest) : Except Fault (List Entry) := rs.mapM Entry.ofRequest

def millisPlaceholder : List Char := "$__interval_ms".toList

/-- The placeholder for the interval as a duration. It begins the other one. -/
def durationPlaceholder : List Char := "$__interval".toList

/-- A text with the placeholders filled in, the longer one first. -/
def fill (intervalMs : Int) (cs : List Char) : List Char :=
  Text.replaceAll durationPlaceholder (Duration.text intervalMs)
    (Text.replaceAll millisPlaceholder (intText intervalMs) cs)

def Entry.headerLine (e : Entry) : List Char := e.header.render .compact

/-- The line of a body. Placeholders are filled in wherever they stand in it. -/
def Entry.bodyLine (e : Entry) : List Char := fill e.intervalMs (e.body.render .compact)

def text (entries : List Entry) : List Char :=
  entries.flatMap fun e => e.headerLine ++ '\n' :: e.bodyLine ++ ['\n']

/-- The number of shards that are searched at a time when the settings do not say. -/
def defaultShardRequests : Int := 5

/-- The parameter of a batch that bounds the shards searched at a time. -/
def shardParameter (shardRequests : Int) : String :=
  let n := if shardRequests ≤ 0 then defaultShardRequests else shardRequests
  "max_concurrent_shard_requests=" ++ String.ofList (intText n)

end PanelSearch.Batch
