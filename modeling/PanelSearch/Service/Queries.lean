import PanelSearch.Response.Results
import PanelSearch.Service.Discovery
import PanelSearch.Service.Search

/-! The queries of a panel from end to end: read, built for the time field of the index, searched in
one batch, and answered under their RefIDs. What goes wrong on the way becomes the result of every
query. -/

namespace PanelSearch

def failedRefId : Json → Except Fault String
  | .obj members => .ok (((Entries.get? members "refId").map Json.label).getD "")
  | _ => .error .notAnObject

def errorCount (results : Entries QueryResult) : Nat :=
  (results.filter fun r => r.2.error.isSome).length

namespace Service

def failAll (s : Service) (refIds : List String) (kind : ErrorKind) (status : Int)
    (message : String) : Except ServiceError (Entries QueryResult) × Service :=
  (.ok (Entries.ofList (refIds.map (·, QueryResult.failed message status))),
    s.countErrors kind refIds.length)

/-- The results of queries when their batch stops at an error. Only what has no wording of its own
is passed on. -/
def failWith (s : Service) (refIds : List String) (unreachable : String) (e : ServiceError) :
    Except ServiceError (Entries QueryResult) × Service :=
  match e with
  | .invalid reason => s.failAll refIds .validation 400 reason.message
  | .metadata e => s.failAll refIds .metadata e.status e.text
  | .rejected r => s.failAll refIds .engine r.status r.text
  | .transport f => s.failAll refIds .engine 502 (unreachable ++ ": " ++ f.message)
  | e => (.error e, s)

/-- The results of queries by the responses to them. Those that are errors are counted. -/
def answered (s : Service) (qs : List Query) (responses : Json) :
    Except ServiceError (Entries QueryResult) × Service :=
  match QueryResult.ofReply s.highlight s.datasource.fields qs responses with
  | .error f => (.error (.fault f), s)
  | .ok results => (.ok results, s.countErrors .response (errorCount results))

/-- The results of queries that are read, when the time field is known as far as it can be. -/
def searchAll (s : Service) (refIds : List String) (qs : List Query) :
    Except ServiceError (Entries QueryResult) × Service :=
  let unreachable := "error while querying quickwit"
  match SearchRequest.ofQueries s.datasource.target qs with
  | .error e => s.failWith refIds unreachable (.ofQueryError e)
  | .ok requests =>
    match s.search requests with
    | (.error e, s) => s.failWith refIds unreachable e
    | (.ok responses, s) => s.answered qs responses

/-- The results of the queries of a panel, under their RefIDs. -/
def queryAll (s : Service) (rangeFrom rangeTo : Int) (raws : List Json) :
    Except ServiceError (Entries QueryResult) × Service :=
  if raws.isEmpty then (.error .noQueries, s)
  else
    match raws.mapM failedRefId with
    | .error f => (.error (.fault f), s)
    | .ok refIds =>
      match Query.readAll rangeFrom rangeTo raws with
      | .error e => s.failWith refIds "" (.ofQueryError e)
      | .ok qs =>
        match s.ensureTimestamp with
        | (.error e, s) => s.failWith refIds "timestamp discovery failed" e
        | (.ok (), s) => s.searchAll refIds qs

end Service

end PanelSearch
