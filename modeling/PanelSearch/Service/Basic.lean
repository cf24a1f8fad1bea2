import PanelSearch.Datasource
import PanelSearch.Highlight.Grammar
import PanelSearch.Highlight.Words
import PanelSearch.Index.Timestamp
import PanelSearch.Service.Exchange
import PanelSearch.Service.Tally

/-! The service of one datasource as a state: what it knows and counts, what the search engine will
answer, and which calls have been made. -/

namespace PanelSearch

/-- The state of the service. -/
structure Service where
  datasource : Datasource
  tally : Tally := {}
  /-- What becomes of the next calls, in order. -/
  outcomes : List Outcome := []
  /-- The calls made, in order. -/
  sent : List Call := []
  limits : Limits := .standard
  /-- What parses the free-text queries whose words are highlighted. -/
  parse : Highlight.Parser := Highlight.grammar

/-- A batch that the search engine refused. -/
structure Rejection where
  status : Int
  responseBody : Json
  parameter : String
  bodies : List Json

def Rejection.text (r : Rejection) : String :=
  (Json.obj [("status", .int r.status), ("message", .str "Error on multisearch"),
    ("response_body", r.responseBody), ("query_param", .str r.parameter),
    ("request_body", .arr r.bodies)]).compact

/-- Why the service gives no result. -/
inductive ServiceError where
  | noQueries
  | invalid (reason : InvalidQuery)
  | fault (f : Fault)
  | metadata (e : MetadataError)
  | rejected (r : Rejection)
  | transport (f : TransportFailure)
  /-- A path that calls are not passed on to. -/
  | forbidden (path : String)

/-- A query that is refused, as an error of the service. -/
def ServiceError.ofQueryError : QueryError → ServiceError
  | .invalid reason => .invalid reason
  | .fault f => .fault f

def noQueriesMessage : String := "query contains no queries"

def forbiddenMessage (path : String) : String := "invalid resource URL: " ++ path

namespace Service

/-- What becomes of a call, and the state after it. -/
def call (s : Service) (c : Call) : Outcome × Service :=
  match s.outcomes with
  | [] => (.silence, { s with sent := s.sent ++ [c] })
  | outcome :: outcomes => (outcome, { s with outcomes, sent := s.sent ++ [c] })

@[simp] theorem sent_call (s : Service) (c : Call) : (s.call c).2.sent = s.sent ++ [c] := by
  unfold call
  split <;> rfl

@[simp] theorem datasource_call (s : Service) (c : Call) :
    (s.call c).2.datasource = s.datasource := by
  unfold call
  split <;> rfl

@[simp] theorem limits_call (s : Service) (c : Call) : (s.call c).2.limits = s.limits := by
  unfold call
  split <;> rfl

@[simp] theorem parse_call (s : Service) (c : Call) : (s.call c).2.parse = s.parse := by
  unfold call
  split <;> rfl

@[simp] theorem tally_call (s : Service) (c : Call) : (s.call c).2.tally = s.tally := by
  unfold call
  split <;> rfl

/-- The words that a log panel highlights. -/
def highlight (s : Service) : String → Except Fault (List String) :=
  Highlight.words s.limits s.parse

def countBatch (s : Service) (isAnswered : Bool) (size : Nat) : Service :=
  { s with tally := s.tally.countBatch isAnswered size }

def countErrors (s : Service) (kind : ErrorKind) (count : Nat) : Service :=
  { s with tally := s.tally.countErrors kind count }

/-- The state in which the search engine is to answer anew, and no call has been made yet. -/
def renewed (s : Service) (outcomes : List Outcome) : Service := { s with outcomes, sent := [] }

end Service

end PanelSearch
