import PanelSearch.Highlight.Token
import PanelSearch.Highlight.Tree

/-! A parser for free-text queries, which reads one token at a time with one more in sight. Items
follow one another with or without an operator between them; an item is a word, a phrase, a
comparison, a range, a regular expression or a query in parentheses, with signs, negations and
fields in front and degrees behind. Its trees are flat: they have the words and phrases of a query
in their order, and not what these stand in. -/

namespace PanelSearch.Highlight

/-- What has been read, and what may come next. -/
inductive Phase where
  /-- An item must begin. -/
  | item
  /-- A field has been read, and its colon comes. -/
  | field
  /-- An item is complete. -/
  | done
  /-- An item is complete, and a degree of the word may follow. -/
  | word
  /-- An item is complete, and a degree of the phrase may follow. -/
  | phrase
  /-- A comparison needs what it compares with. -/
  | comparand
  /-- A range needs its lower end, which may have a sign that has been read or not. -/
  | lower (sign : Bool)
  /-- A range needs its middle. -/
  | middle
  /-- A range needs its upper end. -/
  | upper (sign : Bool)
  /-- A range needs its closing bracket. -/
  | close
  deriving DecidableEq, Repr

/-- A phase, and the number of parentheses that are open. -/
structure State where
  phase : Phase
  depth : Nat
  deriving DecidableEq, Repr

def State.isFinal (s : State) : Bool :=
  s.depth == 0 && (s.phase == .done || s.phase == .word || s.phase == .phrase)

/-- A degree that is absent, or a decimal with at most one point. -/
def isDecimalDegree (degree : List Char) : Bool :=
  degree.isEmpty || (degree.count '.' ≤ 1 && degree.any (· != '.'))

/-- A degree that is absent, or an integer that is not too long. -/
def isIntegerDegree (degree : List Char) : Bool :=
  degree.all (· != '.') && Limits.allows Limits.standard.maxDigits degree.length

def mayFollowDegree : Option Token → Bool
  | some (.approx _) | some .colon | some .closeRange | some .bad => false
  | _ => true

/-- A degree is judged only when the token behind it is one that may stand there. -/
def judge (fits : Bool) (fault : Fault) (next : Option Token) (s : State) : Except Refusal State :=
  if !mayFollowDegree next then .error .notAQuery
  else if fits then .ok s
  else .error (.fault fault)

def beginItem (s : State) (t : Token) (next : Option Token) : Except Refusal State :=
  match t with
  | .plus | .minus | .not => .ok { s with phase := .item }
  | .openParen => .ok ⟨.item, s.depth + 1⟩
  | .term _ => .ok { s with phase := if next = some .colon then .field else .word }
  | .phrase _ => .ok { s with phase := .phrase }
  | .regex | .to => .ok { s with phase := .done }
  | .openRange => .ok { s with phase := .lower false }
  | .compare => .ok { s with phase := .comparand }
  | _ => .error .notAQuery

def continueItem (s : State) (t : Token) (next : Option Token) : Except Refusal State :=
  match t with
  | .and | .or => .ok { s with phase := .item }
  | .boost degree => judge (isDecimalDegree degree) .wordDegree next { s with phase := .done }
  | .closeParen =>
    match s.depth with
    | 0 => .error .notAQuery
    | depth + 1 => .ok ⟨.done, depth⟩
  | t => beginItem s t next

def rangeEnd (s : State) (sign : Bool) (signed ended : Phase) (t : Token) : Except Refusal State :=
  match t with
  | .minus => if sign then .error .notAQuery else .ok { s with phase := signed }
  | .term _ | .phrase _ => .ok { s with phase := ended }
  | _ => .error .notAQuery

/-- The state behind one more token; `next` is the token after it. -/
def step (s : State) (t : Token) (next : Option Token) : Except Refusal State :=
  match s.phase with
  | .item => beginItem s t next
  | .field => if t = .colon then .ok { s with phase := .item } else .error .notAQuery
  | .done => continueItem s t next
  | .word =>
    match t with
    | .approx degree => judge (isDecimalDegree degree) .wordDegree next { s with phase := .done }
    | t => continueItem s t next
  | .phrase =>
    match t with
    | .approx degree => judge (isIntegerDegree degree) .phraseDegree next { s with phase := .done }
    | t => continueItem s t next
  | .comparand =>
    match t with
    | .term _ | .phrase _ => .ok { s with phase := .done }
    | _ => .error .notAQuery
  | .lower sign => rangeEnd s sign (.lower true) .middle t
  | .middle => if t = .to then .ok { s with phase := .upper false } else .error .notAQuery
  | .upper sign => rangeEnd s sign (.upper true) .close t
  | .close => if t = .closeRange then .ok { s with phase := .done } else .error .notAQuery

/-- The leaf that a token is: not a field, and not the end of a range. -/
def leafOf? (s : State) (t : Token) (next : Option Token) : Option Tree :=
  match s.phase with
  | .field | .lower _ | .middle | .upper _ | .close => none
  | _ =>
    match t with
    | .term text => if s.phase ≠ .comparand ∧ next = some .colon then none else some (.word text)
    | .phrase text => some (.phrase text)
    | .to => some (.word ['T', 'O'])
    | _ => none

/-- The words and phrases of tokens from a state on. -/
def leavesFrom (s : State) : List Token → Except Refusal (List Tree)
  | [] => if s.isFinal then .ok [] else .error .notAQuery
  | t :: rest => do
    let next ← step s t rest.head?
    let leaves ← leavesFrom next rest
    return (leafOf? s t rest.head?).toList ++ leaves

def grammar : Parser := fun text => (leavesFrom ⟨.item, 0⟩ (tokens text.toList)).map .other

end PanelSearch.Highlight
