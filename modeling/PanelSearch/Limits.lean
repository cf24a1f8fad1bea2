/-! What limits the reading and the showing of values: an integer of too many digits is neither read
nor shown, and work on values that stand too deep in each other is given up. -/

namespace PanelSearch

/-- The limits of a running service. There may be none. -/
structure Limits where
  /-- The most digits of an integer. -/
  maxDigits : Option Nat := some 4300
  /-- The most levels of what stands in each other, such as arrays and objects. -/
  maxDepth : Option Nat := some 1000
  deriving DecidableEq, Repr

namespace Limits

def standard : Limits := {}

def unlimited : Limits := { maxDigits := none, maxDepth := none }

/-- There is no limit, or it is kept. -/
def allows (limit : Option Nat) (count : Nat) : Bool := limit.all (count ≤ ·)

theorem allows_iff {limit : Option Nat} {count : Nat} :
    allows limit count = true ↔ ∀ most ∈ limit, count ≤ most := by
  cases limit <;> simp [allows]

end Limits

end PanelSearch
