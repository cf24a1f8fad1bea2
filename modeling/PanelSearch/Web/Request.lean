import PanelSearch.Entries
import PanelSearch.Web.Address

/-! Requests to the service: how an address that a client asks for is taken apart. This is the outer
layer of the service, which begins at the parts of a request. -/

namespace PanelSearch

open Text

/-- A request to the service. -/
structure WebRequest where
  method : String
  path : String
  parameters : Entries String := []
  body : List UInt8 := []
  /-- The body is declared to be JSON. -/
  declaresJson : Bool := false
  deriving DecidableEq, Repr

namespace WebRequest

/-- A text in a query: plus signs stand for blanks. -/
def queryText (cs : List Char) : String :=
  String.ofList (unescaped (cs.map fun c => if c = '+' then ' ' else c))

/-- The parameters in a query. Of equal names the last one counts, and a name without a value has
an empty one. -/
def parametersOf (query : List Char) : Entries String :=
  .ofList <| ((splitAt '&' query).filter (!·.isEmpty)).map fun pair =>
    let (name, value) := Address.cut '=' pair
    (queryText name, queryText (value.getD []))

/-- The path in an address, as it stands under the address of the service: slashes at the front of
one that is not complete count once. -/
def pathOf (target : Address) : List Char :=
  if target.isAbsolute then if target.path.isEmpty then ['/'] else target.path
  else
    let path := Address.withoutDots ('/' :: target.path.dropWhile (· = '/'))
    if path.isEmpty then ['/'] else path

/-- The request for an address, which may be given without scheme and host. Escapes in its path are
read twice, once by the client and once by the service. Parameters that are given apart take the
place of those in the address. There is no request for what is no address. It stands for what the
libraries on both sides of a connection do. -/
def ofTarget? (method : String) (target : String) (parameters : Option (Entries String))
    (body : List UInt8) (declaresJson : Bool) : Option WebRequest := do
  let address ← Address.ofText? target.toList
  return {
    method := method.toUpper
    path := String.ofList (unescaped (unescaped (pathOf address)))
    parameters := parameters.getD (parametersOf (address.query.getD []))
    body, declaresJson }

end WebRequest

end PanelSearch
