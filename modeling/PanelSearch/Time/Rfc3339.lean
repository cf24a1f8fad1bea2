import PanelSearch.Number.Numeral
import PanelSearch.Time.Instant

/-! RFC 3339 texts: a date, a clock with any number of fraction digits, and an offset. -/

namespace PanelSearch.Rfc3339

open Text

/-- The text of epoch nanoseconds in UTC. The year is not padded, and a fraction ends in no zero. -/
def text (ns : Int) : String :=
  let t := DateTime.ofNanos ns
  String.ofList <|
    intText t.date.year ++ '-' :: padded 2 t.date.month ++ '-' :: padded 2 t.date.day ++
      'T' :: padded 2 t.hour ++ ':' :: padded 2 t.minute ++ ':' :: padded 2 t.second ++
      (if t.nano = 0 then [] else '.' :: trimEnd (· == '0') (padded 9 t.nano)) ++ ['Z']

def field? (width : Nat) (cs : List Char) : Option (Nat × List Char) :=
  let ds := cs.take width
  if ds.length = width ∧ ds.all fun c => '0' ≤ c && c ≤ '9' then
    some (Numeral.ofDigits (ds.map (·.toNat - 0x30)), cs.drop width)
  else none

def mark? (marks : List Char) : List Char → Option (List Char)
  | c :: rest => if c ∈ marks then some rest else none
  | [] => none

/-- The fraction at the front in nanoseconds, of digits of any script: the first nine of them
count. A point without digits is no fraction. -/
def fraction : List Char → Nat × List Char
  | '.' :: rest =>
    let ds := rest.takeWhile isDecimalDigit
    if ds.isEmpty then (0, '.' :: rest)
    else
      let values := (ds.take 9).filterMap decimalDigit?
      (Numeral.ofDigits (values ++ List.replicate (9 - values.length) 0), rest.drop ds.length)
  | cs => (0, cs)

def pair? (a b : Char) : Option Int := do
  let a ← decimalDigit? a
  let b ← decimalDigit? b
  return 10 * a + b

/-- The whole text is an offset: its seconds. Nothing bounds the hours and the minutes. -/
def offset? : List Char → Option Int
  | [c] => if c = 'Z' ∨ c = 'z' then some 0 else none
  | sign :: a :: b :: rest => do
    let hours ← pair? a b
    let minutes ←
      match rest with
      | [':', c, d] => pair? c d
      | [c, d] => pair? c d
      | _ => none
    let seconds := hours * 3600 + minutes * 60
    if sign = '+' then some seconds else if sign = '-' then some (-seconds) else none
  | _ => none

def nanos? (s : String) : Option Int := do
  let (year, cs) ← field? 4 (strip s.toList)
  let (month, cs) ← field? 2 (← mark? ['-'] cs)
  let (day, cs) ← field? 2 (← mark? ['-'] cs)
  let (hour, cs) ← field? 2 (← mark? ['T', 't', ' '] cs)
  let (minute, cs) ← field? 2 (← mark? [':'] cs)
  let (second, cs) ← field? 2 (← mark? [':'] cs)
  let (nano, cs) := fraction cs
  let offset ← offset? cs
  let t : DateTime := ⟨⟨year, month, day⟩, hour, minute, second, nano⟩
  if t.isValid then some (t.nanos - offset * nanosPerSecond) else none

end PanelSearch.Rfc3339
