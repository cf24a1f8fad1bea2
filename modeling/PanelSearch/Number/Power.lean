/-! The powers that doubles and decimals are counted in. -/

namespace PanelSearch

abbrev twoPow (n : Nat) : Nat := Nat.pow 2 n

abbrev tenPow (n : Nat) : Nat := Nat.pow 10 n

end PanelSearch
