import PanelSearch.Json.Writer
import PanelSearch.Text.Printable

/-! Texts in quotes as messages show them: single quotes unless only double ones need no escape,
and escapes for what does not print. -/

namespace PanelSearch.Text

/-- The quote around a text: double when the text holds single quotes and no double ones. -/
def quoteMark (cs : List Char) : Char := if '\'' ∈ cs ∧ '"' ∉ cs then '"' else '\''

def shown (mark c : Char) : List Char :=
  let n := c.toNat
  if c = mark ∨ c = '\\' then ['\\', c]
  else if c = '\n' then ['\\', 'n']
  else if c = '\r' then ['\\', 'r']
  else if c = '\t' then ['\\', 't']
  else if isPrintable c then [c]
  else if n < 0x100 then '\\' :: 'x' :: hexText 2 n
  else if n < 0x10000 then '\\' :: 'u' :: hexText 4 n
  else '\\' :: 'U' :: hexText 8 n

def quoted (s : String) : List Char :=
  let cs := s.toList
  let mark := quoteMark cs
  mark :: cs.flatMap (shown mark) ++ [mark]

end PanelSearch.Text
