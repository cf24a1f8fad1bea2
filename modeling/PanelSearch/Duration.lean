import PanelSearch.Number.Text
import PanelSearch.Text.Blank

/-! Intervals as dashboards write them: milliseconds below a second, and from there on hours,
minutes and seconds with a fraction. -/

namespace PanelSearch.Duration

/-- Seconds with the milliseconds as a fraction that ends in no zero. -/
def secondsText (seconds millis : Nat) : List Char :=
  natText seconds ++
    (if millis = 0 then [] else '.' :: Text.trimEnd (· == '0') (padded 3 millis)) ++ ['s']

/-- The text of a positive number of milliseconds. Minutes are written behind hours even when they
are zero. -/
def magnitudeText (ms : Nat) : List Char :=
  if ms < 1000 then natText ms ++ ['m', 's']
  else
    let hours := ms / 3600000
    let minutes := ms % 3600000 / 60000
    let seconds := secondsText (ms % 60000 / 1000) (ms % 1000)
    if hours ≠ 0 then natText hours ++ 'h' :: natText minutes ++ 'm' :: seconds
    else if minutes ≠ 0 then natText minutes ++ 'm' :: seconds
    else seconds

def text (ms : Int) : List Char :=
  if ms = 0 then ['0', 's']
  else if ms < 0 then '-' :: magnitudeText ms.natAbs
  else magnitudeText ms.natAbs

end PanelSearch.Duration
