import TwinStick.Hardware.Event

/-! The touch panel. A board without one behaves as if its panel never answered. -/

namespace TwinStick

inductive TouchError where
  /-- Nothing answered after the reset. -/
  | notPresent
  | bus
deriving DecidableEq

/-- The answers of a touch controller. -/
structure TouchChip where
  probe : Except TouchError Unit := .ok ()
  pending : Bool := false
  touching : Bool := false
  calibrates : Bool := true

inductive Panel where
  | detached
  | fitted (chip : TouchChip)

namespace Panel

def resetPulseMs : UInt32 := 10

def settleMs : UInt32 := 50

/-- Pulses the reset line, waits for the panel to settle and asks whether it is
there. -/
def powerUp : Panel → Except TouchError Unit × List Event
  | detached => (.error .notPresent, [.delay resetPulseMs, .delay settleMs])
  | fitted chip =>
    (chip.probe,
      [.panelReset true, .delay resetPulseMs, .panelReset false, .delay settleMs, .panelProbe])

def pending : Panel → Bool
  | detached => false
  | fitted chip => chip.pending

def touching : Panel → Bool
  | detached => false
  | fitted chip => chip.touching

def handle : Panel → Panel × List Event
  | detached => (detached, [])
  | fitted chip => (fitted { chip with pending := false }, [.panelHandle])

/-- Whether the calibration succeeded. -/
def calibrate : Panel → Bool × List Event
  | detached => (false, [])
  | fitted chip => (chip.calibrates, [.panelCalibrate])

end Panel

end TwinStick
