/-! The ways in which work stops at a value that has the wrong shape or size, without a message of
its own. -/

namespace PanelSearch

/-- What is wrong with a value. -/
inductive Fault where
  /-- A value that cannot be gone through stands where a list is expected. -/
  | notAList
  /-- A value without members stands where an object is expected. -/
  | notAnObject
  /-- An array or an object is looked up as a key. -/
  | unusableKey
  /-- A key is looked up that must be there and is not. -/
  | missingKey
  /-- A number is too large for its place, or an instant lies outside the calendar. -/
  | beyondRange
  /-- A double that is no number, or a text that is no numeral, stands where a number is needed. -/
  | notANumber
  /-- The degree behind a word of a query is no decimal. -/
  | wordDegree
  /-- The degree behind a phrase of a query is no integer. -/
  | phraseDegree
  /-- A time layout holds the same directive twice. -/
  | repeatedDirective
  /-- A node of no kind has no body. -/
  | abstractNode
  /-- There is nothing to remove. -/
  | nothingToDrop
  /-- A body that must be JSON is not. -/
  | notJson
  /-- Bytes that must be text are not. -/
  | badEncoding
  /-- An index mapping is not of the right form. -/
  | badMapping
  /-- An integer has too many digits. -/
  | tooLong
  /-- Values stand too deep in each other. -/
  | tooDeep
  deriving DecidableEq, Repr

end PanelSearch
