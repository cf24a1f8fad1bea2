import PanelSearch.Number.Numeral
import PanelSearch.Number.Text
import PanelSearch.Text.Percent
import PanelSearch.Text.Replace

/-! Web addresses: a scheme, a host with its port, a path, a query and a fragment, in the form that
addresses are compared and shown in. They belong to the outer layer, where they stand for what the
library for web requests makes of an address. -/

namespace PanelSearch

open Text

/-- An address as the library for web requests has it. A part that is not given is empty; a query
and a fragment can be given and empty. -/
structure Address where
  scheme : List Char
  /-- What stands before the host and an at sign. -/
  user : List Char
  host : List Char
  /-- The port, where it is not the one of the scheme. -/
  port : Option Int
  path : List Char
  query : Option (List Char)
  fragment : Option (List Char)
  deriving DecidableEq, Repr

namespace Address

/-! ### Characters -/

def isPrintableAscii (c : Char) : Bool := 0x20 ≤ c.toNat && c.toNat < 0x7F

/-- Printable characters of ASCII may stay, but for those of a list. -/
def allBut (marks : List Char) (c : Char) : Bool := isPrintableAscii c && !marks.contains c

def staysInFragment : Char → Bool := allBut [' ', '"', '<', '>', '\x60']

def staysInQuery : Char → Bool := allBut [' ', '"', '#', '<', '>']

def staysInPath : Char → Bool := allBut [' ', '"', '#', '<', '>', '?', '\x60', '\x7b', '\x7d']

def staysInUser : Char → Bool :=
  allBut [' ', '"', '#', '<', '>', '?', '\x60', '\x7b', '\x7d', '/', ';', '=', '@', '[', '\\', ']',
    '^', '|']

def staysInHost : Char → Bool := allBut [' ', '#', '/', ':', '<', '>', '?', '@', '[', ']', '^']

/-! ### Parts -/

/-- A character of a scheme, behind its first one. -/
def inScheme (c : Char) : Bool := c.isAlphanum || c = '+' || c = '.' || c = '-'

/-- The scheme at the front, and what follows its colon. A colon at the very front ends an empty
scheme. -/
def splitScheme (cs : List Char) : List Char × List Char :=
  let run :=
    match cs with
    | c :: _ => if c.isAlpha then cs.takeWhile inScheme else []
    | [] => []
  match cs.drop run.length with
  | ':' :: rest => (run, rest)
  | _ => ([], cs)

/-- What stands between two slashes at the front and the path, and what follows it. -/
def splitAuthority (cs : List Char) : List Char × List Char :=
  match cs with
  | '/' :: '/' :: rest =>
    let ends (c : Char) : Bool := c = '/' || c = '?' || c = '#'
    (rest.takeWhile (!ends ·), rest.dropWhile (!ends ·))
  | cs => ([], cs)

/-- What stands before a mark, and what follows the mark if it is there. -/
def cut (mark : Char) (cs : List Char) : List Char × Option (List Char) :=
  match cs.dropWhile (· != mark) with
  | _ :: rest => (cs.takeWhile (· != mark), some rest)
  | [] => (cs, none)

/-- What stands before the last of a mark, and what follows it. Without the mark nothing stands
before it. -/
def cutLast (mark : Char) (cs : List Char) : List Char × List Char :=
  let tail := (cs.reverse.takeWhile (· != mark)).reverse
  (cs.take (cs.length - tail.length - 1), tail)

/-- The host at the front, and what follows it. Between brackets it may hold colons. -/
def splitHost (cs : List Char) : List Char × List Char :=
  let plain := cs.takeWhile fun c => c != ':' && c != '@'
  let size :=
    match cs with
    | '[' :: _ => if cs.contains ']' then cs.length - (cutLast ']' cs).2.length else plain.length
    | _ => plain.length
  (cs.take size, cs.drop size)

/-- Groups of digits with single characters between them, as many as are still to come. `begun`
tells that a digit of the present group has been read. -/
def isGrouped : Nat → Bool → List Char → Bool
  | marks, begun, [] => marks == 0 && begun
  | 0, _, c :: rest => c.isDigit && isGrouped 0 true rest
  | marks + 1, begun, c :: rest =>
    (c.isDigit && isGrouped (marks + 1) true rest) || (begun && isGrouped marks false rest)

def isOctet (cs : List Char) : Bool :=
  !cs.isEmpty && cs.length ≤ 3 && cs.all Char.isDigit && (cs.head? != some '0' || cs.length == 1) &&
    Numeral.ofDigits (cs.filterMap decimalDigit?) ≤ 255

/-- The form of a host: four groups of digits are an address of version 4 and brackets hold one of
version 6; another host is a name in ASCII, in lower case. -/
def hostForm? (cs : List Char) : Option (List Char) :=
  if isGrouped 3 false cs then
    let groups := splitAt '.' cs
    if groups.length = 4 ∧ groups.all isOctet then some cs else none
  else if cs.head? = some '[' ∧ cs.getLast? = some ']' then
    let inner := cs.drop 1 |>.dropLast
    let fits (c : Char) : Bool := (hexValue? c).isSome || c = ':' || c = '.'
    if inner.all fits ∧ 2 ≤ inner.count ':' then some inner else none
  else if cs.all (·.toNat < 0x80) then
    some (percentEncoded staysInHost (cs.map Char.toLower))
  else none

def schemePorts : List (String × Int) :=
  [("ftp", 21), ("http", 80), ("https", 443), ("ws", 80), ("wss", 443)]

/-- The port behind a host: none when nothing is given, or what the scheme stands for. -/
def portForm? (scheme text : List Char) : Option (Option Int) :=
  let digits := if text.head? = some ':' then text.drop 1 else text
  if digits.isEmpty then some none
  else (Numeral.int? digits).map fun port =>
    if schemePorts.contains (String.ofList scheme, port) then none else some port

/-- A step of a path after those before it, the last one first: a single dot stays where it is, and
two dots lead back. -/
def addStep (steps : List (List Char)) (step : List Char) : List (List Char) :=
  if step = ['.'] then steps
  else if step = ['.', '.'] then if steps = [[]] then steps else steps.drop 1
  else step :: steps

def withoutDots (path : List Char) : List Char :=
  ['/'].intercalate ((splitAt '/' path).foldl addStep []).reverse

/-! ### Reading and writing -/

def maxLength : Nat := 65536

/-- A host, a user or a port is given. -/
def hasAuthority (a : Address) : Bool := !a.user.isEmpty || !a.host.isEmpty || a.port.isSome

/-- The address is complete, with a scheme and a host. -/
def isAbsolute (a : Address) : Bool := !a.scheme.isEmpty && !a.host.isEmpty

/-- The address with its path in the form of a complete address, or of one without a scheme and a
host, where the path may not look as if it had them. -/
def withPath? (a : Address) : Option Address :=
  if a.hasAuthority || !a.scheme.isEmpty then
    some { a with path := percentEncoded staysInPath (withoutDots a.path) }
  else if ['/', '/'].isPrefixOf a.path || a.path.head? = some ':' then none
  else some { a with path := percentEncoded staysInPath a.path }

/-- The address of a text. It holds no control characters of ASCII. -/
def ofText? (text : List Char) : Option Address :=
  if maxLength < text.length || text.any fun c => c.toNat < 0x80 && !isPrintableAscii c then none
  else do
    let (scheme, rest) := splitScheme text
    let (authority, rest) := splitAuthority rest
    let (rest, fragment) := cut '#' rest
    let (path, query) := cut '?' rest
    let (user, rest) := cutLast '@' authority
    let (host, rest) := splitHost rest
    let host ← hostForm? host
    let port ← portForm? scheme rest
    withPath? {
      scheme := scheme.map Char.toLower
      user := percentEncoded staysInUser user
      host, port, path
      query := query.map (percentEncoded staysInQuery)
      fragment := fragment.map (percentEncoded staysInFragment) }

/-- The user, the host and the port. -/
def authority (a : Address) : List Char :=
  (if a.user.isEmpty then [] else a.user ++ ['@']) ++
    (if a.host.contains ':' then '[' :: a.host ++ [']'] else a.host) ++
    (a.port.map fun port => ':' :: intText port).getD []

def text (a : Address) : List Char :=
  (if a.scheme.isEmpty then [] else a.scheme ++ [':']) ++
    (if a.authority.isEmpty then [] else '/' :: '/' :: a.authority) ++ a.path ++
    (a.query.map ('?' :: ·)).getD [] ++ (a.fragment.map ('#' :: ·)).getD []

end Address

end PanelSearch
