/-! Characters from bytes in UTF-8: a strict reading, and one in which every bad sequence stands for
a replacement character. -/

namespace PanelSearch.Text.Utf8

/-- A character of which the first bytes are read: their bits, how many bytes it still needs, and
the bounds of the next one. -/
structure Begun where
  bits : Nat
  needed : Nat
  low : Nat
  high : Nat

/-- What a byte is at the start of a character. -/
inductive Lead where
  | whole (c : Char)
  | begun (b : Begun)
  | bad

/-- The role of a byte at the start of a character. The bounds of the second byte keep out longer
spellings than needed, surrogates and numbers that are no characters. -/
def lead (byte : Nat) : Lead :=
  if byte < 0x80 then .whole (.ofNat byte)
  else if 0xC2 ≤ byte ∧ byte ≤ 0xDF then .begun ⟨byte - 0xC0, 1, 0x80, 0xBF⟩
  else if byte = 0xE0 then .begun ⟨0, 2, 0xA0, 0xBF⟩
  else if byte = 0xED then .begun ⟨0xD, 2, 0x80, 0x9F⟩
  else if 0xE1 ≤ byte ∧ byte ≤ 0xEF then .begun ⟨byte - 0xE0, 2, 0x80, 0xBF⟩
  else if byte = 0xF0 then .begun ⟨0, 3, 0x90, 0xBF⟩
  else if 0xF1 ≤ byte ∧ byte ≤ 0xF3 then .begun ⟨byte - 0xF0, 3, 0x80, 0xBF⟩
  else if byte = 0xF4 then .begun ⟨4, 3, 0x80, 0x8F⟩
  else .bad

/-- What a byte at the start of a character gives at once, and what it begins. -/
def start (byte : Nat) : List (Option Char) × Option Begun :=
  match lead byte with
  | .whole c => ([some c], none)
  | .begun b => ([], some b)
  | .bad => ([none], none)

/-- What a byte gives, and what is begun after it. A byte that does not go on with the character
begun ends it as a bad sequence, and starts anew. -/
def step (begun : Option Begun) (byte : Nat) : List (Option Char) × Option Begun :=
  match begun with
  | none => start byte
  | some b =>
    if b.low ≤ byte ∧ byte ≤ b.high then
      let bits := b.bits * 0x40 + (byte - 0x80)
      if b.needed ≤ 1 then ([some (.ofNat bits)], none)
      else ([], some ⟨bits, b.needed - 1, 0x80, 0xBF⟩)
    else
      let (given, begun) := start byte
      (none :: given, begun)

/-- The characters of bytes, with nothing in place of each bad sequence. -/
def scan : Option Begun → List UInt8 → List (Option Char)
  | none, [] => []
  | some _, [] => [none]
  | begun, byte :: rest =>
    let (given, begun) := step begun byte.toNat
    given ++ scan begun rest

def decode? (bytes : List UInt8) : Option (List Char) := (scan none bytes).mapM id

def replacement : Char := .ofNat 0xFFFD

def decode (bytes : List UInt8) : List Char := (scan none bytes).map (·.getD replacement)

end PanelSearch.Text.Utf8
