import PanelSearch.Entries
import PanelSearch.Number.Double

/-! JSON values as the dashboard and the search engine send them: integers of any size apart from
doubles, and objects whose members keep their order. -/

namespace PanelSearch

/-- A JSON value. -/
inductive Json where
  | null
  | bool (b : Bool)
  | int (n : Int)
  | double (d : Double)
  | str (s : String)
  | arr (items : List Json)
  | obj (members : List (String × Json))
  deriving Inhabited

namespace Json

/-- The value of a member: null when the object has no such member. -/
def member (members : Entries Json) (key : String) : Json := (members.get? key).getD .null

def members? : Json → Option (Entries Json)
  | obj members => some members
  | _ => none

/-- The members of an object, none for any other value. -/
def membersD (j : Json) : Entries Json := j.members?.getD []

def items? : Json → Option (List Json)
  | arr items => some items
  | _ => none

def str? : Json → Option String
  | str s => some s
  | _ => none

def isNull : Json → Bool
  | null => true
  | _ => false

def isBool : Json → Bool
  | bool _ => true
  | _ => false

/-- The value is an integer or a double; a boolean is no number. -/
def isNumber : Json → Bool
  | int _ | double _ => true
  | _ => false

def isObject : Json → Bool
  | obj _ => true
  | _ => false

/-- The value counts as given: it is not null, false, a zero, or an empty text, array or object. -/
def isGiven : Json → Bool
  | null => false
  | bool b => b
  | int n => n != 0
  | double d => !d.isZero
  | str s => !s.isEmpty
  | arr items => !items.isEmpty
  | obj members => !members.isEmpty

/-- What a list of things may be spelled as: an array holds its items, a text its characters and an
object its keys. No other value can be gone through. -/
def elements? : Json → Option (List Json)
  | arr items => some items
  | str s => some (s.toList.map fun c => str (String.ofList [c]))
  | obj members => some (members.map fun m => str m.1)
  | _ => none

/-- The member at the end of a path of keys: null when an object on the way lacks the next key, or
no object stands where one is needed. -/
def path (j : Json) : List String → Json
  | [] => j
  | key :: rest =>
    match j with
    | obj members => (member members key).path rest
    | _ => null

end Json

end PanelSearch
