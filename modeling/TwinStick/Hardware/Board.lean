import TwinStick.Hardware.Adc
import TwinStick.Hardware.Panel

/-! What the device reads from: the uptime counter, the switches of the matrix,
the converter, the mode switches and the touch panel. -/

namespace TwinStick

structure Board where
  /-- The uptime counter in milliseconds. -/
  now : UInt32 := 0
  /-- The switches of the matrix that are closed, by row and column. -/
  closed : Nat → Nat → Bool := fun _ _ => false
  adc : Adc := {}
  /-- The level of each stick's mode switch, low while it is held. -/
  switches : PerStick Bool := .both true
  panel : Panel := .fitted {}

end TwinStick
