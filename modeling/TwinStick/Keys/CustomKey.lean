/-! The keycodes that are commands. They fill a block of eight in the range that
the framework leaves to the device. -/

namespace TwinStick

inductive CustomKey where
  /-- Switches to a profile slot, counted from zero. -/
  | profile (slot : UInt8)
  | stick1Mode
  | stick2Mode
  | touchCalibrate
  | comboToggle
deriving DecidableEq

inductive KeyDisposition where
  | consumed
  | passThrough
deriving DecidableEq

namespace CustomKey

def base : UInt16 := 0x7E40

def count : UInt16 := 8

def ofKeycode? (code : UInt16) : Option CustomKey :=
  if code < base then none
  else
    match (code - base).toNat with
    | 0 => some (.profile 0)
    | 1 => some (.profile 1)
    | 2 => some (.profile 2)
    | 3 => some (.profile 3)
    | 4 => some .stick1Mode
    | 5 => some .stick2Mode
    | 6 => some .touchCalibrate
    | 7 => some .comboToggle
    | _ => none

/-- A slot past the last one has the keycode of the last one. -/
def keycode : CustomKey → UInt16
  | profile slot => base + (min slot 3).toUInt16
  | stick1Mode => base + 4
  | stick2Mode => base + 5
  | touchCalibrate => base + 6
  | comboToggle => base + 7

end CustomKey

end TwinStick
