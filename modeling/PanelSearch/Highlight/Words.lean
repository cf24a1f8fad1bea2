import PanelSearch.Highlight.Tree

/-! The words of a query that a log panel highlights: those of its syntax tree, or, for a text that
is no query, those between its blanks and quotes. -/

namespace PanelSearch.Highlight

open Text

/-- A text in double quotes at the front, quotes included. -/
def quotedRun? : List Char → Option (List Char)
  | '"' :: rest =>
    let body := rest.takeWhile (· != '"')
    if body.length < rest.length then some ('"' :: body ++ ['"']) else none
  | _ => none

/-- A text in double quotes at the front, with a field and its colon before it or not. -/
def fieldRun? (cs : List Char) : Option (List Char) :=
  let front := cs.takeWhile fun c => !isBlank c && c != '"'
  if 2 ≤ front.length ∧ front.getLast? = some ':' then
    (quotedRun? (cs.drop front.length)).map (front ++ ·)
  else quotedRun? cs

/-- The run at the front of a text that begins with no blank: a quoted text, or everything up to
the next blank. -/
def run (cs : List Char) : List Char := (fieldRun? cs).getD (cs.takeWhile (!isBlank ·))

/-- The runs of a text, of at most `fuel` of them. -/
def runsFrom : Nat → List Char → List (List Char)
  | 0, _ => []
  | fuel + 1, cs =>
    match cs.dropWhile isBlank with
    | [] => []
    | c :: rest =>
      let front := run (c :: rest)
      front :: runsFrom fuel ((c :: rest).drop front.length)

/-- The runs of a text: each has at least one character. -/
def runs (text : List Char) : List (List Char) := runsFrom text.length text

def operators : List (List Char) := ["AND", "OR", "NOT", "&&", "||"].map String.toList

def isParen (c : Char) : Bool := c = '(' || c = ')'

def isSign (c : Char) : Bool := c = '+' || c = '-' || c = '!'

/-- The word of a run: without parentheses around it, signs and a field in front of it, and quotes
around it or wildcards behind it. -/
def wordOfRun (cs : List Char) : List Char :=
  let cs := (trim isParen cs).dropWhile isSign
  let cs :=
    if cs.head? ≠ some '"' ∧ ':' ∈ cs then trim isParen ((cs.dropWhile (· != ':')).drop 1) else cs
  clean cs (cs.head? = some '"')

def runWords (text : List Char) : List (List Char) :=
  (((runs text).filter (!operators.contains ·)).map wordOfRun).filter (!·.isEmpty)

/-- The words of a text, each once. -/
def words (limits : Limits) (parse : Parser) (text : String) : Except Fault (List String) :=
  if isAllBlank text then .ok []
  else
    match parse text with
    | .ok tree => do
      let found ← collect limits 0 tree
      return found.eraseDups.map String.ofList
    | .error .notAQuery => .ok ((runWords text.toList).eraseDups.map String.ofList)
    | .error (.fault f) => .error f

end PanelSearch.Highlight
