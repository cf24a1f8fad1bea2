/-! Replacing and splitting by a fixed text, from left to right. -/

namespace PanelSearch.Text

/-- The text behind the next `skip` characters, with every occurrence of `pattern` replaced. -/
def replaceFrom (pattern value : List Char) : Nat → List Char → List Char
  | _, [] => []
  | skip + 1, _ :: rest => replaceFrom pattern value skip rest
  | 0, c :: rest =>
    if pattern.isPrefixOf (c :: rest) then
      value ++ replaceFrom pattern value (pattern.length - 1) rest
    else c :: replaceFrom pattern value 0 rest

/-- The text with every occurrence of a pattern replaced, found from left to right without overlap.
The pattern is not empty. -/
def replaceAll (pattern value cs : List Char) : List Char := replaceFrom pattern value 0 cs

theorem replaceFrom_eq_drop (pattern value cs : List Char) (skip : Nat) :
    replaceFrom pattern value skip cs = replaceAll pattern value (cs.drop skip) := by
  induction cs generalizing skip with
  | nil => cases skip <;> simp [replaceFrom, replaceAll]
  | cons c cs ih =>
    cases skip with
    | zero => rfl
    | succ skip => simpa [replaceFrom] using ih skip

/-- The parts of a text between the occurrences of a character. -/
def splitAt (mark : Char) : List Char → List (List Char)
  | [] => [[]]
  | c :: rest =>
    if c = mark then [] :: splitAt mark rest
    else
      match splitAt mark rest with
      | part :: parts => (c :: part) :: parts
      | [] => [[c]]

end PanelSearch.Text
