import TwinStick.Profile.ProfileName
import TwinStick.Stick.Basic

/-! The lines of the diagnostic console. -/

namespace TwinStick

/-- Something worth telling whoever debugs the device. -/
inductive Notice where
  | touchInitFailed
  | touchCalibrationFailed
  | calibrated
  | profile (number : UInt8) (name : ProfileName)
  | profileReset (number : UInt8)
  | stickMode (stick : Stick) (mode : StickMode)
  | layer (n : UInt8)
  | touchscreen (on : Bool)
  | combos (on : Bool)
  | debug (on : Bool)
  | factoryReset
  | emergencyReset
deriving DecidableEq

namespace Notice

def onOff (on : Bool) : String := if on then "ON" else "OFF"

def text : Notice → String
  | touchInitFailed => "Touchscreen init failed"
  | touchCalibrationFailed => "Touch calibration failed"
  | calibrated => "Calibration complete"
  | profile number name => "Profile " ++ toString number.toNat ++ ": " ++ name.text
  | profileReset number => "Profile " ++ toString number.toNat ++ " reset"
  | stickMode stick mode => "Joystick " ++ toString stick.number ++ " " ++ mode.name
  | layer n => "Layer " ++ toString n.toNat
  | touchscreen on => "Touchscreen " ++ onOff on
  | combos on => "Combos " ++ onOff on
  | debug on => "Debug mode " ++ onOff on
  | factoryReset => "Factory reset"
  | emergencyReset => "Emergency reset"

/-- The line on the console, which says who speaks. -/
def line (n : Notice) : String := "KIBOARD: " ++ n.text

/-- How many bytes a line may have. -/
def lineLength : Nat := 64

end Notice

end TwinStick
