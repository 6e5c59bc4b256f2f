/-! Time as a 32-bit count of milliseconds that wraps after some fifty days.
Only differences of two readings mean anything, so every decision about time
goes through `elapsed`. -/

namespace TwinStick

/-- Milliseconds from one reading of the counter to a later one. -/
def elapsed (since now : UInt32) : UInt32 := now - since

/-- A gate that opens at most once per period. It opens at its first poll, and
counts the next period from the poll at which it opened. -/
structure Cadence where
  period : UInt32
  last : Option UInt32 := none
deriving DecidableEq

namespace Cadence

def due (c : Cadence) (now : UInt32) : Bool :=
  match c.last with
  | none => true
  | some last => c.period ≤ elapsed last now

/-- Whether the gate opens now, and the gate afterwards. -/
def poll (c : Cadence) (now : UInt32) : Bool × Cadence :=
  if c.due now then (true, { c with last := some now }) else (false, c)

/-- Changing the period keeps the time of the last opening. -/
def withPeriod (c : Cadence) (period : UInt32) : Cadence := { c with period }

end Cadence

end TwinStick
