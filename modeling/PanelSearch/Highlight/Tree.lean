import PanelSearch.Fault
import PanelSearch.Limits
import PanelSearch.Text.Blank

/-! Syntax trees of free-text queries, and the words in them. How a text becomes a tree is left to a
parser, which may refuse it. -/

namespace PanelSearch.Highlight

open Text

/-- A node of a syntax tree. Words and phrases have the text that they were read from. -/
inductive Tree where
  | word (text : List Char)
  | phrase (text : List Char)
  | regex (text : List Char)
  | range (ends : List Tree)
  /-- A node of any other kind, and its children. -/
  | other (parts : List Tree)

/-- Why a text has no tree: it is no query, or the parser fails at it. -/
inductive Refusal where
  | notAQuery
  | fault (f : Fault)
  deriving DecidableEq, Repr

abbrev Parser := String → Except Refusal Tree

def isWildcard (c : Char) : Bool := c = '*' || c = '?'

/-- A text as a word: without the quotes around it, or without the wildcards behind it. -/
def clean (text : List Char) (quoted : Bool) : List Char :=
  if quoted then trim (· == '"') text else trimEnd isWildcard text

/-- The word of a text, unless that is empty. -/
def wordIn (text : List Char) (quoted : Bool) : List (List Char) :=
  [clean text quoted].filter (!·.isEmpty)

mutual

/-- The words of a tree that stands in `depth` others, in order. Ranges and regular expressions have
none. -/
def collect (limits : Limits) (depth : Nat) (tree : Tree) : Except Fault (List (List Char)) :=
  if !Limits.allows limits.maxDepth (depth + 1) then .error .tooDeep
  else
    match tree with
    | .word text => .ok (wordIn text false)
    | .phrase text => .ok (wordIn text true)
    | .regex _ | .range _ => .ok []
    | .other parts => collectAll limits (depth + 1) parts

def collectAll (limits : Limits) (depth : Nat) : List Tree → Except Fault (List (List Char))
  | [] => .ok []
  | tree :: rest => do
    let words ← collect limits depth tree
    return words ++ (← collectAll limits depth rest)

end

end PanelSearch.Highlight
