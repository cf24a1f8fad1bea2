import PanelSearch.Service.Search

/-! Calls that are passed on to the search engine: its version, the metadata of its indexes, and
batches. -/

namespace PanelSearch

def occursIn (part : List Char) : List Char → Bool
  | [] => part.isEmpty
  | c :: rest => part.isPrefixOf (c :: rest) || occursIn part rest

namespace Resource

def isAllowed (path : String) : Bool :=
  path.isEmpty || occursIn "indexes/".toList path.toList || path == batchPath

def url (base path : String) : String :=
  let base := Datasource.baseOf base
  if path.isEmpty then base
  else base ++ "/" ++ String.ofList (path.toList.dropWhile (· = '/'))

end Resource

/-- A call to pass on. -/
structure RelayedCall where
  method : String
  path : String
  body : Option String := none
  parameters : Option (Entries String) := none

namespace Service

/-- The reply to a call that is passed on to an address. An empty body is none. -/
def relay (s : Service) (base : String) (c : RelayedCall) : Except ServiceError Reply × Service :=
  if Resource.isAllowed c.path then
    let body := c.body.filter fun body => !body.isEmpty
    match s.call (.relay c.method (Resource.url base c.path) body c.parameters) with
    | (.failed f, s) => (.error (.transport f), s)
    | (.reply r, s) => (.ok r, s)
  else (.error (.forbidden c.path), s)

end Service

end PanelSearch
