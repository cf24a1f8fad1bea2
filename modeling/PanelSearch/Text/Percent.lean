import PanelSearch.Text.Hex
import PanelSearch.Text.Utf8

/-! Percent escapes: characters that an address does not hold as they are, written byte by byte in
UTF-8, each byte as two hexadecimal digits behind a percent sign. -/

namespace PanelSearch.Text

def percentByte (b : UInt8) : List Char := '%' :: (hexText 2 b.toNat).map Char.toUpper

/-- A character as it is when it may stay, by its escapes otherwise. -/
def percentChar (stays : Char → Bool) (c : Char) : List Char :=
  if stays c then [c] else (String.ofList [c]).toUTF8.toList.flatMap percentByte

def percentEncoded (stays : Char → Bool) (cs : List Char) : List Char :=
  cs.flatMap (percentChar stays)

/-- The bytes of ASCII characters, with one byte for each escape. A percent sign without two
hexadecimal digits is a character like any other. -/
def escapedBytes : List Char → List UInt8
  | '%' :: a :: b :: rest =>
    match hexValue? a, hexValue? b with
    | some high, some low => .ofNat (16 * high + low) :: escapedBytes rest
    | _, _ => .ofNat 0x25 :: escapedBytes (a :: b :: rest)
  | c :: rest => .ofNat c.toNat :: escapedBytes rest
  | [] => []

/-- A text without its escapes, behind a run of ASCII characters, the last one first. The bytes of
every run of ASCII characters are read as UTF-8. -/
def unescapedAfter (run : List Char) : List Char → List Char
  | [] => Utf8.decode (escapedBytes run.reverse)
  | c :: rest =>
    if c.toNat < 0x80 then unescapedAfter (c :: run) rest
    else Utf8.decode (escapedBytes run.reverse) ++ c :: unescapedAfter [] rest

def unescaped (cs : List Char) : List Char := unescapedAfter [] cs

end PanelSearch.Text
