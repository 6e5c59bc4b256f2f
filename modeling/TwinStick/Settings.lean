import TwinStick.Stick.Sampler

/-! The settings in force: what the user has chosen for the sticks and the rest
of the device, wherever it came from. -/

namespace TwinStick

structure StickSettings where
  mode : StickMode := .analog
  centre : Pair UInt16 := .both Signal.midpoint
  deadzone : UInt16 := Signal.defaultDeadzone
  /-- Eighths by which a deflection is scaled. -/
  sensitivity : UInt8 := Signal.unity
  invert : Pair Bool := .both false
deriving DecidableEq

structure DeviceSettings where
  sticks : PerStick StickSettings := .both {}
  touchEnabled : Bool := true
  combosEnabled : Bool := true
  profile : UInt8 := 0
  debug : Bool := false
  debounceMs : UInt16 := 5
  stickPollMs : UInt16 := 10
  touchPollMs : UInt16 := 10
  defaultLayer : UInt8 := 0
deriving DecidableEq

namespace DeviceSettings

def withMode (s : DeviceSettings) (stick : Stick) (mode : StickMode) : DeviceSettings :=
  { s with sticks := s.sticks.set stick { s.sticks.get stick with mode } }

def withCentre (s : DeviceSettings) (stick : Stick) (centre : Pair UInt16) : DeviceSettings :=
  { s with sticks := s.sticks.set stick { s.sticks.get stick with centre } }

end DeviceSettings

end TwinStick
