import TwinStick.Codec
import TwinStick.Settings

/-! The word of settings that are restored at every boot. It has no checksum: any
32 bits are a word. Its first field is in the lowest bits. -/

namespace TwinStick

structure QuickWord where
  active : UInt8 := 0
  analog : PerStick Bool := .both true
  touchEnabled : Bool := true
  combosEnabled : Bool := true
  sensitivity : PerStick UInt8 := .both Signal.unity
  deadzone : PerStick UInt8 := .both 50
  reserved : UInt8 := 0
deriving DecidableEq

namespace QuickWord

/-- The fields from the highest bits down: two reserved bits, the dead zones, the
sensitivities, the toggles, and the active profile. -/
abbrev Layout :=
  UInt8 × UInt8 × UInt8 × UInt8 × UInt8 × Bool × Bool × Bool × Bool × UInt8

def fields (q : QuickWord) : Layout :=
  (q.reserved, q.deadzone.two, q.deadzone.one, q.sensitivity.two, q.sensitivity.one,
    q.combosEnabled, q.touchEnabled, q.analog.two, q.analog.one, q.active)

def ofFields : Layout → QuickWord
  | (reserved, deadzone2, deadzone1, sensitivity2, sensitivity1, combosEnabled, touchEnabled,
      analog2, analog1, active) =>
    { active
      analog := ⟨analog1, analog2⟩
      touchEnabled
      combosEnabled
      sensitivity := ⟨sensitivity1, sensitivity2⟩
      deadzone := ⟨deadzone1, deadzone2⟩
      reserved }

def codec : Codec QuickWord :=
  .via ofFields fields <|
    .prod (.uint8 2) <| .prod (.uint8 8) <| .prod (.uint8 8) <| .prod (.uint8 4) <|
      .prod (.uint8 4) <| .prod .bool <| .prod .bool <| .prod .bool <| .prod .bool <| .uint8 2

def raw (q : QuickWord) : UInt32 := .ofBitVec (codec.encode q)

/-- Takes over the settings in force, narrowed to the widths of the word. -/
def capture (q : QuickWord) (s : DeviceSettings) : QuickWord :=
  { active := s.profile &&& 3
    analog := s.sticks.map (·.mode.isAnalog)
    touchEnabled := s.touchEnabled
    combosEnabled := s.combosEnabled
    sensitivity := s.sticks.map fun stick => min stick.sensitivity Signal.maxSensitivity
    deadzone := s.sticks.map fun stick => (min stick.deadzone 255).toUInt8
    reserved := q.reserved }

def applyStick (q : QuickWord) (stick : Stick) (s : StickSettings) : StickSettings :=
  { s with
    mode := .ofAnalog (q.analog.get stick)
    sensitivity := q.sensitivity.get stick
    deadzone := (q.deadzone.get stick).toUInt16 }

def apply (q : QuickWord) (s : DeviceSettings) : DeviceSettings :=
  { s with
    sticks := ⟨q.applyStick .one s.sticks.one, q.applyStick .two s.sticks.two⟩
    touchEnabled := q.touchEnabled
    combosEnabled := q.combosEnabled
    profile := q.active }

end QuickWord

end TwinStick
