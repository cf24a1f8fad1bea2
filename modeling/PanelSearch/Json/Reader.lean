import PanelSearch.Json.Basic
import PanelSearch.Limits
import PanelSearch.Number.Numeral
import PanelSearch.Text.Hex
import PanelSearch.Text.Utf8

/-! Reading JSON text: the usual grammar, and the words `NaN`, `Infinity` and `-Infinity` for the
doubles without digits. -/

namespace PanelSearch.Json

open Text

/-- Why a text is not read. -/
inductive ReadError where
  | malformed
  /-- The bytes spell no text. -/
  | badEncoding
  /-- An integer has too many digits. -/
  | tooLong
  /-- Arrays and objects stand too deep in each other. -/
  | tooDeep
  deriving DecidableEq, Repr

/-- What becomes of half of a surrogate pair in a text. -/
inductive Halves where
  /-- It is no JSON. -/
  | refused
  /-- It reads as the replacement character. -/
  | replaced
  /-- It is JSON, but the text around it is none. -/
  | noText
  deriving DecidableEq, Repr

/-- What a reader takes, where readers differ. -/
structure Reading where
  halves : Halves
  /-- What makes the reader give up. -/
  limits : Limits := .unlimited
  /-- The most characters of a number before its point and its exponent: a longer one is no JSON. -/
  maxWhole : Option Nat := none
  /-- The most arrays and objects that stand in each other, empty ones not counted: with more of
  them it is no JSON. -/
  maxNesting : Option Nat := none

namespace Reading

/-- Half of a surrogate pair reads as the replacement character. -/
def lenient (limits : Limits) : Reading := { halves := .replaced, limits }

/-- A text with half of a surrogate pair is no text. -/
def guarded (limits : Limits) : Reading := { halves := .noText, limits }

/-- Halves of surrogate pairs, long numbers and deep nesting are refused. It stands for the library
that checks the form of what it reads, with the bounds that this has. -/
def strict : Reading := { halves := .refused, maxWhole := some 4300, maxNesting := some 200 }

/-- The value of the characters between quotes, which are a text when they hold no half: `false`
stands in the place of what is no text. -/
def text (reading : Reading) (s : String) (whole : Bool) : Json :=
  if whole || reading.halves != .noText then str s else bool false

end Reading

/-- The character that stands for half of a surrogate pair among characters to read. JSON holds no
control characters but blanks, so that it stands for nothing else. -/
def halfMark : Char := '\x01'

/-- A character that stands for no half: where it is the mark of one, it becomes another control
character, which is read no better. -/
def unmarked (c : Char) : Char := if c = halfMark then '\x02' else c

def isSpace (c : Char) : Bool := c = ' ' || c = '\t' || c = '\n' || c = '\r'

def unit? : List Char → Option (Nat × List Char)
  | a :: b :: c :: d :: rest => do
    let a ← hexValue? a
    let b ← hexValue? b
    let c ← hexValue? c
    let d ← hexValue? d
    return (((a * 16 + b) * 16 + c) * 16 + d, rest)
  | _ => none

/-- The character that a unit starts, and what follows it: a low unit may complete a high one, and
without it a unit is a half, which is no character. -/
def character (unit : Nat) (rest : List Char) : Option Char × List Char :=
  if 0xD800 ≤ unit ∧ unit < 0xDC00 then
    match rest with
    | '\\' :: 'u' :: more =>
      match unit? more with
      | some (low, more) =>
        if 0xDC00 ≤ low ∧ low < 0xE000 then
          (some (.ofNat (0x10000 + (unit - 0xD800) * 0x400 + (low - 0xDC00))), more)
        else (none, rest)
      | none => (none, rest)
    | _ => (none, rest)
  else if 0xDC00 ≤ unit ∧ unit < 0xE000 then (none, rest)
  else (some (.ofNat unit), rest)

/-- The character after a backslash, nothing for a half, and what follows it. -/
def escaped? : List Char → Option (Option Char × List Char)
  | '"' :: rest => some (some '"', rest)
  | '\\' :: rest => some (some '\\', rest)
  | '/' :: rest => some (some '/', rest)
  | 'b' :: rest => some (some '\x08', rest)
  | 'f' :: rest => some (some '\x0c', rest)
  | 'n' :: rest => some (some '\n', rest)
  | 'r' :: rest => some (some '\r', rest)
  | 't' :: rest => some (some '\t', rest)
  | 'u' :: rest => do
    let (unit, rest) ← unit? rest
    return character unit rest
  | _ => none

/-- The character at the front of what stands between quotes, nothing for a half, and what follows
it. -/
def front? : List Char → Option (Option Char × List Char)
  | '\\' :: rest => escaped? rest
  | c :: rest =>
    if c = halfMark then some (none, rest)
    else if c.toNat < 0x20 then none
    else some (some c, rest)
  | [] => none

/-- The characters from behind an opening quote: those before, the last one first, with whether
they hold no half, and what follows the closing quote. `fuel` bounds the characters read. -/
def stringBody (reading : Reading) :
    Nat → List Char → Bool → List Char → Option (String × Bool × List Char)
  | 0, _, _, _ => none
  | _, done, whole, '"' :: rest => some (String.ofList done.reverse, whole, rest)
  | fuel + 1, done, whole, cs => do
    let (c, rest) ← front? cs
    match c with
    | some c => stringBody reading fuel (c :: done) whole rest
    | none =>
      if reading.halves = .refused then none
      else stringBody reading fuel (Utf8.replacement :: done) false rest

def isPlainDigit (c : Char) : Bool := '0' ≤ c && c ≤ '9'

def plainNat (ds : List Char) : Nat := Numeral.ofDigits (ds.map (·.toNat - 0x30))

/-- The fraction digits at the front: a point with at least one digit. -/
def fractionDigits : List Char → List Char × List Char
  | '.' :: rest =>
    let ds := rest.takeWhile isPlainDigit
    if ds.isEmpty then ([], '.' :: rest) else (ds, rest.dropWhile isPlainDigit)
  | cs => ([], cs)

/-- The exponent at the front: a mark, an optional sign, and at least one digit. -/
def exponentPart : List Char → Option Int × List Char
  | [] => (none, [])
  | c :: rest =>
    if c = 'e' ∨ c = 'E' then
      let (negative, body) := Numeral.sign rest
      let ds := body.takeWhile isPlainDigit
      if ds.isEmpty then (none, c :: rest)
      else
        let n : Int := plainNat ds
        (some (if negative then -n else n), body.dropWhile isPlainDigit)
    else (none, c :: rest)

/-- A number at the front. Without a fraction and an exponent it is an integer. -/
def number (reading : Reading) (negative : Bool) (cs : List Char) :
    Except ReadError (Json × List Char) :=
  let run := cs.takeWhile isPlainDigit
  match run with
  | [] => .error .malformed
  | first :: _ =>
    let whole := if first = '0' then ['0'] else run
    let (fraction, rest) := fractionDigits (cs.drop whole.length)
    let (exponent, rest) := exponentPart rest
    if !Limits.allows reading.maxWhole (whole.length + if negative then 1 else 0) then
      .error .malformed
    else if fraction.isEmpty && exponent.isNone then
      let n : Int := plainNat whole
      if Limits.allows reading.limits.maxDigits whole.length then
        .ok (int (if negative then -n else n), rest)
      else .error .tooLong
    else
      let d := Double.ofDecimal negative (plainNat (whole ++ fraction))
        (exponent.getD 0 - fraction.length)
      .ok (double d, rest)

def after? : List Char → List Char → Option (List Char)
  | [], cs => some cs
  | w :: word, c :: cs => if w = c then after? word cs else none
  | _ :: _, [] => none

def words : List (String × Json) := [
  ("null", null), ("true", bool true), ("false", bool false), ("NaN", double .nan),
  ("Infinity", double (.infinite false)), ("-Infinity", double (.infinite true))]

def scalar (reading : Reading) (cs : List Char) : Except ReadError (Json × List Char) :=
  match words.findSome? fun (word, j) => (after? word.toList cs).map (j, ·) with
  | some result => .ok result
  | none =>
    match cs with
    | '-' :: rest => number reading true rest
    | cs => number reading false cs

mutual

/-- A value at the front, blanks before it included. `depth` counts the arrays and objects that it
stands in, and `fuel` bounds the nesting and the members. The reader may go one level deeper only
where its limits allow that. -/
def value (reading : Reading) (depth : Nat) :
    Nat → List Char → Except ReadError (Json × List Char)
  | 0, _ => .error .malformed
  | fuel + 1, cs =>
    match cs.dropWhile isSpace with
    | '"' :: rest =>
      match stringBody reading (rest.length + 1) [] true rest with
      | some (s, whole, rest) => .ok (reading.text s whole, rest)
      | none => .error .malformed
    | '[' :: rest =>
      if !Limits.allows reading.limits.maxDepth (depth + 1) then .error .tooDeep
      else
        match rest.dropWhile isSpace with
        | ']' :: rest => .ok (arr [], rest)
        | _ => do
          let (items, rest) ← itemList reading (depth + 1) fuel rest
          return (arr items, rest)
    | '{' :: rest =>
      if !Limits.allows reading.limits.maxDepth (depth + 1) then .error .tooDeep
      else
        match rest.dropWhile isSpace with
        | '}' :: rest => .ok (obj [], rest)
        | _ => do
          let (members, rest) ← memberList reading (depth + 1) fuel rest
          return (obj (Entries.ofList members), rest)
    | cs => scalar reading cs

/-- One or more items, up to the closing bracket. -/
def itemList (reading : Reading) (depth : Nat) :
    Nat → List Char → Except ReadError (List Json × List Char)
  | 0, _ => .error .malformed
  | fuel + 1, cs =>
    if !Limits.allows reading.maxNesting depth then .error .malformed
    else do
      let (item, rest) ← value reading depth fuel cs
      match rest.dropWhile isSpace with
      | ']' :: rest => return ([item], rest)
      | ',' :: rest =>
        let (items, rest) ← itemList reading depth fuel rest
        return (item :: items, rest)
      | _ => .error .malformed

/-- One or more members, up to the closing brace. -/
def memberList (reading : Reading) (depth : Nat) :
    Nat → List Char → Except ReadError (List (String × Json) × List Char)
  | 0, _ => .error .malformed
  | fuel + 1, cs =>
    if !Limits.allows reading.maxNesting depth then .error .malformed
    else
      match cs.dropWhile isSpace with
      | '"' :: rest =>
        match stringBody reading (rest.length + 1) [] true rest with
        | none => .error .malformed
        | some (key, _, rest) =>
          match rest.dropWhile isSpace with
          | ':' :: rest => do
            let (item, rest) ← value reading depth fuel rest
            match rest.dropWhile isSpace with
            | '}' :: rest => return ([(key, item)], rest)
            | ',' :: rest =>
              let (members, rest) ← memberList reading depth fuel rest
              return ((key, item) :: members, rest)
            | _ => .error .malformed
          | _ => .error .malformed
      | _ => .error .malformed

end

/-- Characters that hold one value, with blanks around it. -/
def ofChars (reading : Reading) (cs : List Char) : Except ReadError Json := do
  let (j, rest) ← value reading 0 (2 * cs.length + 2) cs
  if rest.all isSpace then return j else .error .malformed

/-- A text that holds one value, with blanks around it. -/
def read (reading : Reading) (text : String) : Except ReadError Json :=
  ofChars reading (text.toList.map unmarked)

end PanelSearch.Json
