import PanelSearch.Query.Reader
import PanelSearch.Service.Basic

/-! Batches of searches on their way to the search engine. -/

namespace PanelSearch

def batchPath : String := "_elastic/_msearch"

/-- The responses in the body of a reply: none when it does not speak of any. -/
def Reply.responses (limits : Limits) (r : Reply) : Except Fault Json :=
  match r.json limits with
  | .ok (.obj members) => .ok ((Entries.get? members "responses").getD (.arr []))
  | .ok _ => .error .notAnObject
  | .error .malformed => .error .notJson
  | .error .badEncoding => .error .badEncoding
  | .error .tooLong => .error .tooLong
  | .error .tooDeep => .error .tooDeep

namespace Service

def batchParameter (s : Service) : String := Batch.shardParameter s.datasource.shardRequests

def batchCall (s : Service) (entries : List Batch.Entry) : Call :=
  .batch (s.datasource.base ++ "/" ++ batchPath ++ "?" ++ s.batchParameter)
    (String.ofList (Batch.text entries))

/-- The responses to searches, in one batch. Every batch that is sent is counted. -/
def search (s : Service) (requests : List SearchRequest) : Except ServiceError Json × Service :=
  match Batch.ofRequests requests with
  | .error f => (.error (.fault f), s)
  | .ok entries =>
    match s.call (s.batchCall entries) with
    | (.failed f, s) => (.error (.transport f), s.countBatch false requests.length)
    | (.reply r, s) =>
      if 400 ≤ r.status then
        match r.jsonOrText s.limits with
        | .ok responseBody =>
          let rejection := ⟨r.status, responseBody, s.batchParameter, entries.map (·.body)⟩
          (.error (.rejected rejection), s.countBatch false requests.length)
        | .error f => (.error (.fault f), s.countBatch false requests.length)
      else
        match r.responses s.limits with
        | .ok responses => (.ok responses, s.countBatch true requests.length)
        | .error f => (.error (.fault f), s.countBatch true requests.length)

/-- The responses to queries as they are, for the time field that is configured. -/
def searchQueries (s : Service) (rangeFrom rangeTo : Int) (raws : List Json) :
    Except ServiceError Json × Service :=
  match Query.readAll rangeFrom rangeTo raws >>= SearchRequest.ofQueries s.datasource.target with
  | .error e => (.error (.ofQueryError e), s)
  | .ok requests => s.search requests

end Service

end PanelSearch
