import PanelSearch.Frame.Written
import PanelSearch.Service.Queries
import PanelSearch.Service.Resource
import PanelSearch.Service.TimeBound
import PanelSearch.Web.Request

/-! The routes of the service: which requests it takes, and how it answers them. -/

namespace PanelSearch

open Json (member)

/-- The body of an answer. -/
inductive Content where
  | json (j : Json)
  /-- A body of the search engine, with its media type. -/
  | relayed (mediaType : String) (body : List UInt8)
  /-- The counts, in the form in which they are collected. -/
  | counts
  /-- What the web server writes of its own. -/
  | unspecified

/-- An answer of the service. -/
structure Answer where
  status : Int
  content : Content

namespace Answer

def ok (j : Json) : Answer := ⟨200, .json j⟩

def detail (status : Int) (text : String) : Answer := ⟨status, .json (.obj [("detail", .str text)])⟩

def unspecified (status : Int) : Answer := ⟨status, .unspecified⟩

def crashed : Answer := unspecified 500

end Answer

/-- A place that the service answers at. -/
inductive Route where
  | health
  | queries
  | resource (path : String)
  | timestamp
  | settings
  | counts
  deriving DecidableEq, Repr

namespace Route

def fixed : List (String × Route) := [
  ("/health", health), ("/api/ds/query", queries), ("/api/timestamp-infos", timestamp),
  ("/api/config", settings), ("/metrics", counts)]

def resourceBase : List Char := "/api/resources/".toList

def withoutBreak (path : List Char) : List Char :=
  if path.getLast? = some '\n' then path.dropLast else path

/-- The place of exactly this path, where a line break at the end does not count. No place has a
line break within its path. -/
def at? (path : List Char) : Option Route :=
  let path := withoutBreak path
  if path.contains '\n' then none
  else
    match Entries.get? fixed (String.ofList path) with
    | some route => some route
    | none =>
      if resourceBase.isPrefixOf path then
        some (resource (String.ofList (path.drop resourceBase.length)))
      else none

/-- A path with a slash at its end, or without those it has. -/
def otherSpelling (path : List Char) : List Char :=
  if path.getLast? = some '/' then Text.trimEnd (· == '/') path else path ++ ['/']

/-- The place of a path. What is no place leads to the place that differs in a slash at the end. -/
def ofPath? (path : String) : Option Route :=
  match at? path.toList with
  | some route => some route
  | none => at? (otherSpelling path.toList)

def methods : Route → List String
  | queries => ["POST"]
  | resource _ => ["GET", "POST"]
  | _ => ["GET"]

end Route

/-- The queries and time bounds in the body of a request. -/
structure QueryBody where
  queries : List Json
  lower : Json
  upper : Json

def memberOr (members : Entries Json) (key other : String) : Json :=
  (members.get? key).getD (member members other)

/-- The body of a request for queries: nothing when it does not have the form. -/
def QueryBody.ofJson? : Json → Option QueryBody
  | .obj members => do
    let queries ←
      match member members "queries" with
      | .null => some []
      | .arr items => if items.all Json.isObject then some items else none
      | _ => none
    return {
      queries
      lower := memberOr members "from" "time_from"
      upper := memberOr members "to" "time_to" }
  | _ => none

def TimeBoundError.answer : TimeBoundError → Answer
  | refused name value => .detail 400 (refusedBoundMessage name value)
  | fault _ => .crashed

/-- The written form of results, under their RefIDs. -/
def resultsJson (results : Entries QueryResult) : Json := .obj (results.mapValues QueryResult.json)

namespace Service

def answerQueries (s : Service) (b : QueryBody) : Answer × Service :=
  if b.queries.isEmpty then (.detail 400 noQueriesMessage, s)
  else
    match timeBound s.limits "from" b.lower with
    | .error e => (e.answer, s)
    | .ok rangeFrom =>
      match timeBound s.limits "to" b.upper with
      | .error e => (e.answer, s)
      | .ok rangeTo =>
        match s.queryAll rangeFrom rangeTo b.queries with
        | (.ok results, s) => (.ok (.obj [("results", resultsJson results)]), s)
        | (.error _, s) => (.crashed, s)

/-- The answer to a request for queries: its body must be declared to be JSON. -/
def answerQueryBody (s : Service) (request : WebRequest) : Answer × Service :=
  if request.body.isEmpty || !request.declaresJson then (.unspecified 422, s)
  else
    match Json.ofBytes (.lenient s.limits) request.body with
    | .error .malformed => (.unspecified 422, s)
    | .error _ => (.detail 400 "There was an error parsing the body", s)
    | .ok j =>
      match QueryBody.ofJson? j with
      | none => (.unspecified 422, s)
      | some b => s.answerQueries b

/-- The answer by the reply to a call that was passed on: only success is passed back, and there is
no reply from what is no address. -/
def answerOfReply (url : String) (r : Reply) : Answer :=
  match Address.ofText? url.toList with
  | none => .crashed
  | some address =>
    let url := String.ofList address.text
    if r.isSuccess then ⟨r.status, .relayed (r.mediaType.getD "application/json") r.body⟩
    else if r.status = 404 then .detail 404 ("Upstream resource not found: " ++ url)
    else .detail 502 ("Upstream error " ++ String.ofList (intText r.status) ++ ": " ++ url)

def answerResource (s : Service) (request : WebRequest) (path : String) : Answer × Service :=
  let body :=
    if request.method = "POST" then some (String.ofList (Text.Utf8.decode request.body)) else none
  let base := s.datasource.url
  match s.relay base ⟨request.method, path, body, some request.parameters⟩ with
  | (.ok r, s) => (answerOfReply (Resource.url base path) r, s)
  | (.error (.forbidden path), s) => (.detail 400 (forbiddenMessage path), s)
  | (.error _, s) => (.crashed, s)

def answerTimestamp (s : Service) : Answer × Service :=
  match s.timestampField s.datasource.url s.datasource.index with
  | (.ok t, s) => (.ok t.json, s)
  | (.error (.metadata e), s) => (.detail e.status e.message, s)
  | (.error _, s) => (.crashed, s)

def healthJson : Json :=
  .obj [("status", .str "ok"), ("message", .str "plugin is running")]

def answerAt (s : Service) (request : WebRequest) : Route → Answer × Service
  | .health => (.ok healthJson, s)
  | .queries => s.answerQueryBody request
  | .resource path => s.answerResource request path
  | .timestamp => s.answerTimestamp
  | .settings => (.ok s.datasource.json, s)
  | .counts => (⟨200, .counts⟩, s)

/-- The answer to a request for no place: without its body when only the head is asked for. -/
def answerNowhere (request : WebRequest) : Answer :=
  if request.method = "HEAD" then ⟨404, .relayed "application/json" []⟩
  else .detail 404 "Not Found"

def answer (s : Service) (request : WebRequest) : Answer × Service :=
  match Route.ofPath? request.path with
  | none => (answerNowhere request, s)
  | some route =>
    if route.methods.contains request.method then s.answerAt request route
    else (.unspecified 405, s)

end Service

end PanelSearch
