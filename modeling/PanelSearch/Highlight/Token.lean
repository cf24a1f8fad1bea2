import PanelSearch.Text.Blank
import PanelSearch.Text.Digit

/-! The tokens of a free-text query. -/

namespace PanelSearch.Highlight

open Text

/-- A token. Terms and phrases are the text they were read from. -/
inductive Token where
  | term (text : List Char)
  | phrase (text : List Char)
  | regex
  | and
  | or
  | not
  | to
  | plus
  | minus
  | colon
  | openParen
  | closeParen
  | openRange
  | closeRange
  /-- A comparison sign. -/
  | compare
  /-- A tilde with its degree. -/
  | approx (degree : List Char)
  /-- A caret with its degree. -/
  | boost (degree : List Char)
  /-- No token starts here; nothing behind it is read. -/
  | bad
  deriving DecidableEq, Repr

/-- A character that stands for itself at the beginning of a term. -/
def beginsTerm (c : Char) : Bool :=
  !isBlank c && !":^~()\x7b\x7d[]/\"'+-\\<>".toList.contains c

def continuesTerm (c : Char) : Bool :=
  !isBlank c && !":^\\~()\x7b\x7d[]".toList.contains c

/-- The characters read so far, backwards, end with an hour: a `T` and two digits. -/
def endsWithHour : List Char → Bool
  | b :: a :: 'T' :: _ => isDecimalDigit a && isDecimalDigit b
  | _ => false

/-- The rest of a term: characters that continue it, escaped characters, and minutes and seconds
behind an hour. `before` is what is read already, backwards; `minutes` says that it ends with the
minutes of a time. -/
def termTail (before : List Char) (minutes : Bool) : List Char → List Char
  | '\\' :: c :: rest =>
    if c = '\n' then [] else '\\' :: c :: termTail (c :: '\\' :: before) false rest
  | ':' :: a :: b :: rest =>
    let hour := endsWithHour before
    if (hour || minutes) && isDecimalDigit a && isDecimalDigit b then
      ':' :: a :: b :: termTail (b :: a :: ':' :: before) hour rest
    else []
  | c :: rest => if continuesTerm c then c :: termTail (c :: before) false rest else []
  | [] => []

def term? : List Char → Option (List Char)
  | '\\' :: c :: rest =>
    if c = '\n' then none else some ('\\' :: c :: termTail [c, '\\'] false rest)
  | c :: rest => if beginsTerm c then some (c :: termTail [c] false rest) else none
  | [] => none

/-- A text up to its closing mark, which is not escaped. -/
def delimited? (mark : Char) : List Char → Option (List Char)
  | '\\' :: c :: rest =>
    if c = '\n' then none else (delimited? mark rest).map fun text => '\\' :: c :: text
  | c :: rest =>
    if c = mark then some [c]
    else if c = '\\' then none
    else (delimited? mark rest).map (c :: ·)
  | [] => none

/-- The token that a term is: four of them are operators. -/
def ofTerm (text : List Char) : Token :=
  if text = "AND".toList then .and
  else if text = "OR".toList then .or
  else if text = "NOT".toList then .not
  else if text = "TO".toList then .to
  else .term text

def degree (cs : List Char) : List Char := cs.takeWhile fun c => c = '.' || ('0' ≤ c && c ≤ '9')

/-- The token at the front of a text that begins with no blank and no term, and its length. -/
def mark (c : Char) (rest : List Char) : Token × Nat :=
  let equals := if rest.head? = some '=' then 2 else 1
  match c with
  | '+' => (.plus, 1)
  | '-' => (.minus, 1)
  | ':' => (.colon, 1)
  | '(' => (.openParen, 1)
  | ')' => (.closeParen, 1)
  | '[' | '{' => (.openRange, 1)
  | ']' | '}' => (.closeRange, 1)
  | '>' | '<' => (.compare, equals)
  | '"' =>
    match delimited? '"' rest with
    | some text => (.phrase ('"' :: text), text.length + 1)
    | none => (.bad, 0)
  | '/' =>
    match delimited? '/' rest with
    | some text => (.regex, text.length + 1)
    | none => (.bad, 0)
  | '~' => (.approx (degree rest), (degree rest).length + 1)
  | '^' => (.boost (degree rest), (degree rest).length + 1)
  | _ => (.bad, 0)

/-- The token at the front of a text, its length, and the text itself, if it is more than blanks. -/
def front? (cs : List Char) : Option (Token × Nat × List Char) :=
  match cs.dropWhile isBlank with
  | [] => none
  | c :: rest =>
    match term? (c :: rest) with
    | some text => some (ofTerm text, text.length, c :: rest)
    | none => let (token, length) := mark c rest; some (token, length, c :: rest)

/-- The tokens of a text, of at most `fuel` of them. -/
def tokensFrom : Nat → List Char → List Token
  | 0, _ => []
  | fuel + 1, cs =>
    match front? cs with
    | none => []
    | some (.bad, _, _) => [.bad]
    | some (token, length, cs) => token :: tokensFrom fuel (cs.drop length)

/-- The tokens of a text: each has at least one character. -/
def tokens (text : List Char) : List Token := tokensFrom text.length text

end PanelSearch.Highlight
