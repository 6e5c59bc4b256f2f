/-! Switches wired to a pin each. A pin is pulled up and a closed switch shorts it
to ground; a pin that cannot be read, or is not there, counts as open. -/

namespace TwinStick

inductive PinLevel where
  | low
  | high
  | unreadable
deriving DecidableEq

structure PinMatrix (rows cols : Nat) where
  levels : Vector (Vector PinLevel cols) rows

namespace PinMatrix

def closed (m : PinMatrix rows cols) (row col : Nat) : Bool :=
  match m.levels[row]? with
  | none => false
  | some levels => levels[col]? == some .low

end PinMatrix

end TwinStick
