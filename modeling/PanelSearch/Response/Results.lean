import PanelSearch.Response.Aggregations
import PanelSearch.Response.Documents

/-! The results of a batch: the response at the position of a query becomes its frames or its
error, under its RefID. -/

namespace PanelSearch

open Json (member)

namespace QueryResult

def reasonText? : Json → Option String
  | .str s => if s.isEmpty then none else some s
  | _ => none

def reasonIn? (members : Entries Json) : Option String := reasonText? (member members "reason")

def rootReason? (error : Entries Json) : Option String :=
  match member error "root_cause" with
  | .arr (.obj cause :: _) => reasonIn? cause
  | _ => none

def unknownReason : String := "Unknown elasticsearch error response"

/-- The best reason of an error: a text as it is, or that of its root cause, its own, or that of
what caused it. -/
def reason : Json → String
  | .str s => s
  | .obj error =>
    let caused := (member error "caused_by").members?.bind reasonIn?
    (((rootReason? error).or (reasonIn? error)).or caused).getD unknownReason
  | _ => unknownReason

def ofError (response : Entries Json) : QueryResult :=
  let status := match member response "status" with
    | .int n => n
    | _ => 500
  failed (reason (member response "error")) status

def isError (response : Entries Json) : Bool :=
  !(member response "error").isNull ||
    match member response "status" with
    | .int n => 400 ≤ n
    | _ => false

variable (highlight : Document.Highlighter) (known : ConfiguredFields)

def framesOf (q : Query) (response : Entries Json) : Except Fault (List Frame) :=
  match q.shape with
  | .logs => (Document.logsFrame highlight q known response).map ([·])
  | .rawData => (Document.rawDataFrame known response).map ([·])
  | .rawDocument => (Document.rawDocumentFrame q.refId response).map ([·])
  | .aggregation => aggregationFrames q response

def missing : QueryResult := failed "missing response for query" 500

def ofResponse (q : Query) (response : Option Json) : Except Fault QueryResult :=
  match response with
  | some (.obj members) =>
    if isError members then .ok (ofError members)
    else do return { frames := ← framesOf highlight known q members }
  | _ => .ok missing

/-- Results with those of more queries, where `responses` are the responses to them. -/
def ofResponses (results : Entries QueryResult) :
    List Query → List Json → Except Fault (Entries QueryResult)
  | [], _ => .ok results
  | q :: qs, responses => do
    let result ← ofResponse highlight known q responses.head?
    ofResponses (Entries.put results q.refId result) qs responses.tail

/-- The results of queries by a list of responses: a RefID that is used again keeps the later
result. -/
def ofBatch (qs : List Query) (responses : List Json) : Except Fault (Entries QueryResult) :=
  ofResponses highlight known [] qs responses

/-- The results of queries by whatever stands where the responses should. A text counts as so many
missing responses, and an object has nothing at positions. -/
def ofReply (qs : List Query) (reply : Json) : Except Fault (Entries QueryResult) :=
  match qs, reply with
  | [], _ => .ok []
  | qs, .arr responses => ofBatch highlight known qs responses
  | qs, .str _ => ofBatch highlight known qs []
  | qs, .obj [] => ofBatch highlight known qs []
  | _, .obj _ => .error .missingKey
  | _, _ => .error .notAList

end QueryResult

end PanelSearch
