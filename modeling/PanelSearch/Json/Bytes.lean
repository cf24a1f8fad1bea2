import PanelSearch.Json.Reader

/-! JSON from bytes: the encoding shows in a byte order mark, or in where zeros stand among the
first bytes, for JSON text starts with ASCII characters. -/

namespace PanelSearch.Json

open Text

/-- An encoding of text in bytes. -/
inductive Encoding where
  | utf8
  | utf16 (bigEndian : Bool)
  | utf32 (bigEndian : Bool)
  deriving DecidableEq, Repr

def unmarkedEncoding : List UInt8 → Encoding
  | a :: b :: c :: d :: _ =>
    if a = 0 then if b = 0 then .utf32 true else .utf16 true
    else if b = 0 then if c = 0 ∧ d = 0 then .utf32 false else .utf16 false
    else .utf8
  | [a, b] =>
    if a = 0 then .utf16 true
    else if b = 0 then .utf16 false
    else .utf8
  | _ => .utf8

/-- The encoding of JSON bytes, and the bytes behind their mark. -/
def encodingOf (bytes : List UInt8) : Encoding × List UInt8 :=
  match bytes with
  | 0x00 :: 0x00 :: 0xFE :: 0xFF :: rest => (.utf32 true, rest)
  | 0xFF :: 0xFE :: 0x00 :: 0x00 :: rest => (.utf32 false, rest)
  | 0xFE :: 0xFF :: rest => (.utf16 true, rest)
  | 0xFF :: 0xFE :: rest => (.utf16 false, rest)
  | 0xEF :: 0xBB :: 0xBF :: rest => (.utf8, rest)
  | bytes => (unmarkedEncoding bytes, bytes)

def pairs? (bigEndian : Bool) : List UInt8 → Option (List Nat)
  | [] => some []
  | [_] => none
  | a :: b :: rest => do
    let (high, low) := if bigEndian then (a, b) else (b, a)
    return (high.toNat * 0x100 + low.toNat) :: (← pairs? bigEndian rest)

/-- The characters of UTF-16 units; `half` stands for half of a surrogate pair. -/
def ofUnits (half : Char) : List Nat → List Char
  | [] => []
  | [unit] => [if 0xD800 ≤ unit ∧ unit < 0xE000 then half else .ofNat unit]
  | unit :: low :: rest =>
    if 0xD800 ≤ unit ∧ unit < 0xDC00 ∧ 0xDC00 ≤ low ∧ low < 0xE000 then
      .ofNat (0x10000 + (unit - 0xD800) * 0x400 + (low - 0xDC00)) :: ofUnits half rest
    else if 0xD800 ≤ unit ∧ unit < 0xE000 then half :: ofUnits half (low :: rest)
    else .ofNat unit :: ofUnits half (low :: rest)

/-- The characters that groups of four bytes spell; `half` stands for half of a surrogate pair. -/
def quads? (half : Char) (bigEndian : Bool) : List UInt8 → Option (List Char)
  | [] => some []
  | a :: b :: c :: d :: rest => do
    let (a, b, c, d) := if bigEndian then (a, b, c, d) else (d, c, b, a)
    let n := ((a.toNat * 0x100 + b.toNat) * 0x100 + c.toNat) * 0x100 + d.toNat
    let more ← quads? half bigEndian rest
    if 0x110000 ≤ n then none
    else if 0xD800 ≤ n ∧ n < 0xE000 then return half :: more
    else return .ofNat n :: more
  | _ => none

/-- Bytes in UTF-8, with the bytes of `half` in place of three bytes that spell half of a surrogate
pair. The first of the three starts a character wherever it stands. -/
def spellHalves (half : Char) : List UInt8 → List UInt8
  | a :: b :: c :: rest =>
    if a = 0xED ∧ 0xA0 ≤ b ∧ b ≤ 0xBF ∧ 0x80 ≤ c ∧ c ≤ 0xBF then
      (String.ofList [half]).toUTF8.toList ++ spellHalves half rest
    else a :: spellHalves half (b :: c :: rest)
  | bytes => bytes

/-- The text of bytes in an encoding; `half` stands for half of a surrogate pair. -/
def Encoding.decode? (half : Char) (encoding : Encoding) (bytes : List UInt8) :
    Option (List Char) :=
  match encoding with
  | utf8 => Utf8.decode? (spellHalves half bytes)
  | utf16 bigEndian => (pairs? bigEndian bytes).map (ofUnits half)
  | utf32 bigEndian => quads? half bigEndian bytes

/-- The value of JSON bytes. They hold a half where two ways of spelling halves differ. -/
def ofBytes (reading : Reading) (bytes : List UInt8) : Except ReadError Json :=
  let (encoding, bytes) := encodingOf bytes
  match encoding.decode? Utf8.replacement bytes, encoding.decode? halfMark bytes with
  | some plain, some marked =>
    ofChars reading (plain.zipWith (fun p m => if p = m then unmarked m else m) marked)
  | _, _ => .error .badEncoding

/-- The value of JSON bytes in UTF-8, by the strict reading. -/
def ofUtf8? (bytes : List UInt8) : Option Json := do
  let cs ← Utf8.decode? bytes
  (read .strict (String.ofList cs)).toOption

end PanelSearch.Json
