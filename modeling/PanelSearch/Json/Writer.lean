import PanelSearch.Json.Basic
import PanelSearch.Number.Text
import PanelSearch.Text.Hex

/-! The written form of JSON values: keys in their order, numbers exact, and in ASCII but for
interchange, where only control characters are escaped. -/

namespace PanelSearch.Json

open Text

/-- What stands between items and after keys, and whether all other characters than those of ASCII
are escaped. -/
structure Style where
  item : List Char
  key : List Char
  ascii : Bool := true

def Style.compact : Style := ⟨[','], [':'], true⟩

def Style.loose : Style := ⟨[',', ' '], [':', ' '], true⟩

/-- No blanks, and characters as they are. -/
def Style.interchange : Style := ⟨[','], [':'], false⟩

def unitEscape (n : Nat) : List Char := '\\' :: 'u' :: hexText 4 n

/-- One character inside quotes: the short escapes, other printable ASCII as it is, and everything
else by its UTF-16 units. -/
def escape (c : Char) : List Char :=
  let n := c.toNat
  if c = '"' then ['\\', '"']
  else if c = '\\' then ['\\', '\\']
  else if n = 0x08 then ['\\', 'b']
  else if n = 0x0C then ['\\', 'f']
  else if c = '\n' then ['\\', 'n']
  else if c = '\r' then ['\\', 'r']
  else if c = '\t' then ['\\', 't']
  else if 0x20 ≤ n ∧ n < 0x7F then [c]
  else if n < 0x10000 then unitEscape n
  else
    let m := n - 0x10000
    unitEscape (0xD800 + m / 0x400) ++ unitEscape (0xDC00 + m % 0x400)

def Style.character (style : Style) (c : Char) : List Char :=
  if !style.ascii && 0x7F ≤ c.toNat then [c] else escape c

def quote (style : Style) (s : String) : List Char :=
  '"' :: s.toList.flatMap style.character ++ ['"']

mutual

def render (style : Style) : Json → List Char
  | null => ['n', 'u', 'l', 'l']
  | bool true => ['t', 'r', 'u', 'e']
  | bool false => ['f', 'a', 'l', 's', 'e']
  | int n => intText n
  | double d => d.text .encoded
  | str s => quote style s
  | arr items => '[' :: style.item.intercalate (renderItems style items) ++ [']']
  | obj members => '{' :: style.item.intercalate (renderMembers style members) ++ ['}']

def renderItems (style : Style) : List Json → List (List Char)
  | [] => []
  | j :: rest => render style j :: renderItems style rest

def renderMembers (style : Style) : List (String × Json) → List (List Char)
  | [] => []
  | (k, j) :: rest =>
    (quote style k ++ style.key ++ render style j) :: renderMembers style rest

end

def compact (j : Json) : String := String.ofList (render .compact j)

mutual

def isFinite : Json → Bool
  | double d => d.isFinite
  | arr items => areFinite items
  | obj members => membersFinite members
  | _ => true

def areFinite : List Json → Bool
  | [] => true
  | j :: rest => isFinite j && areFinite rest

def membersFinite : List (String × Json) → Bool
  | [] => true
  | (_, j) :: rest => isFinite j && membersFinite rest

end

/-- The text of a value for interchange, where every double must have digits. -/
def interchange? (j : Json) : Option String :=
  if j.isFinite then some (String.ofList (j.render .interchange)) else none

end PanelSearch.Json
