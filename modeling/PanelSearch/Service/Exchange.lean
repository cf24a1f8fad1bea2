import PanelSearch.Fault
import PanelSearch.Json.Bytes

/-! What goes to the search engine and what comes back. -/

namespace PanelSearch

/-- A call to the search engine. -/
inductive Call where
  /-- The metadata of an index, or of all indexes that match a pattern. -/
  | metadata (url : String) (pattern : Option String)
  /-- A batch of searches. -/
  | batch (url body : String)
  /-- A call that is passed on, with its parameters if it has any. -/
  | relay (method url : String) (body : Option String) (parameters : Option (Entries String))
  deriving DecidableEq, Repr

/-- A reply of the search engine. -/
structure Reply where
  status : Int := 200
  mediaType : Option String := none
  body : List UInt8
  deriving DecidableEq, Repr

/-- A call that got no reply: the kind of failure and what was reported of it. -/
structure TransportFailure where
  kind : String
  message : String
  deriving DecidableEq, Repr

/-- What becomes of a call. -/
inductive Outcome where
  | reply (r : Reply)
  | failed (f : TransportFailure)
  deriving DecidableEq, Repr

def Outcome.silence : Outcome := failed ⟨"ConnectError", "no reply"⟩

namespace Reply

def text (r : Reply) : String := String.ofList (Text.Utf8.decode r.body)

def json (limits : Limits) (r : Reply) : Except Json.ReadError Json :=
  Json.ofBytes (.lenient limits) r.body

/-- The body as JSON, or as a text when it is none or has a number that is not read. -/
def jsonOrText (limits : Limits) (r : Reply) : Except Fault Json :=
  match r.json limits with
  | .ok j => .ok j
  | .error .tooDeep => .error .tooDeep
  | .error _ => .ok (.str r.text)

def isSuccess (r : Reply) : Bool := 200 ≤ r.status && r.status < 300

end Reply

end PanelSearch
