import TwinStick.Checksum
import TwinStick.Codec
import TwinStick.Settings
import TwinStick.Keys.Combo
import TwinStick.Profile.ManagerRecord
import TwinStick.Profile.ProfileName

/-! A profile: a named set of settings in a slot, some of which the device carries
along without using them. Its last two bytes are the checksum of the others. -/

namespace TwinStick

structure StickProfile where
  analog : Bool
  invert : Pair Bool := .both false
  reserved : UInt8 := 0
  centre : Pair UInt16 := .both Signal.midpoint
  deadzone : UInt16 := Signal.defaultDeadzone
  sensitivity : UInt8 := Signal.unity
deriving DecidableEq

namespace StickProfile

/-- The fields in the order in which they are packed, as in every part of a
profile. -/
abbrev Layout :=
  Bool × Bool × Bool × UInt8 × UInt16 × UInt16 × UInt16 × UInt8

def fields (p : StickProfile) : Layout :=
  (p.analog, p.invert.x, p.invert.y, p.reserved, p.centre.x, p.centre.y, p.deadzone,
    p.sensitivity)

def ofFields : Layout → StickProfile
  | (analog, invertX, invertY, reserved, centreX, centreY, deadzone, sensitivity) =>
    { analog
      invert := ⟨invertX, invertY⟩
      reserved
      centre := ⟨centreX, centreY⟩
      deadzone
      sensitivity }

def codec : Codec StickProfile :=
  .via ofFields fields <|
    .prod .bool <| .prod .bool <| .prod .bool <| .prod (.uint8 5) <| .prod .uint16 <|
      .prod .uint16 <| .prod .uint16 <| .uint8 8

def settings (p : StickProfile) : StickSettings where
  mode := .ofAnalog p.analog
  centre := p.centre
  deadzone := p.deadzone
  sensitivity := min p.sensitivity Signal.maxSensitivity
  invert := p.invert

def capture (p : StickProfile) (s : StickSettings) : StickProfile where
  analog := s.mode.isAnalog
  invert := s.invert
  reserved := p.reserved
  centre := s.centre
  deadzone := s.deadzone
  sensitivity := s.sensitivity

end StickProfile

structure ComboProfile where
  enabled : Bool := true
  strict : Bool := false
  reserved : UInt8 := 0
  timeoutMs : UInt16 := Combo.defaultTermMs
  /-- One bit for each combo. -/
  mask : UInt16 := Combo.allMask
deriving DecidableEq

abbrev ComboProfile.Layout :=
  Bool × Bool × UInt8 × UInt16 × UInt16

def ComboProfile.fields (p : ComboProfile) : ComboProfile.Layout :=
  (p.enabled, p.strict, p.reserved, p.timeoutMs, p.mask)

def ComboProfile.ofFields : ComboProfile.Layout → ComboProfile
  | (enabled, strict, reserved, timeoutMs, mask) => { enabled, strict, reserved, timeoutMs, mask }

def ComboProfile.codec : Codec ComboProfile :=
  .via ofFields fields <| .prod .bool <| .prod .bool <| .prod (.uint8 6) <|
    .prod .uint16 .uint16

structure TouchProfile where
  enabled : Bool := true
  haptic : Bool := false
  reserved : UInt8 := 0
  sensitivity : UInt8 := 5
  points : Vector (Pair UInt16) 4 := .replicate 4 (.both 0)
deriving DecidableEq

abbrev TouchProfile.Layout :=
  Bool × Bool × UInt8 × UInt8 × Vector (Pair UInt16) 4

def TouchProfile.fields (p : TouchProfile) : TouchProfile.Layout :=
  (p.enabled, p.haptic, p.reserved, p.sensitivity, p.points)

def TouchProfile.ofFields : TouchProfile.Layout → TouchProfile
  | (enabled, haptic, reserved, sensitivity, points) =>
    { enabled, haptic, reserved, sensitivity, points }

def TouchProfile.codec : Codec TouchProfile :=
  .via ofFields fields <| .prod .bool <| .prod .bool <| .prod (.uint8 6) <|
    .prod (.uint8 8) <|
    .vector (.via (fun (x, y) => ⟨x, y⟩) (fun p => (p.x, p.y)) <| .prod .uint16 .uint16) 4

structure LayerProfile where
  defaultLayer : UInt8 := 0
  lock : Bool := false
  reserved : UInt8 := 0
  quick : Vector UInt8 4 := .replicate 4 0
deriving DecidableEq

abbrev LayerProfile.Layout :=
  UInt8 × Bool × UInt8 × Vector UInt8 4

def LayerProfile.fields (p : LayerProfile) : LayerProfile.Layout :=
  (p.defaultLayer, p.lock, p.reserved, p.quick)

def LayerProfile.ofFields : LayerProfile.Layout → LayerProfile
  | (defaultLayer, lock, reserved, quick) => { defaultLayer, lock, reserved, quick }

def LayerProfile.codec : Codec LayerProfile :=
  .via ofFields fields <| .prod (.uint8 8) <| .prod .bool <| .prod (.uint8 7) <|
    .vector (.uint8 8) 4

structure TimingProfile where
  debounceMs : UInt16 := 5
  stickPollMs : UInt16 := 10
  touchPollMs : UInt16 := 10
deriving DecidableEq

abbrev TimingProfile.Layout :=
  UInt16 × UInt16 × UInt16

def TimingProfile.fields (p : TimingProfile) : TimingProfile.Layout :=
  (p.debounceMs, p.stickPollMs, p.touchPollMs)

def TimingProfile.ofFields : TimingProfile.Layout → TimingProfile
  | (debounceMs, stickPollMs, touchPollMs) => { debounceMs, stickPollMs, touchPollMs }

def TimingProfile.codec : Codec TimingProfile :=
  .via ofFields fields <| .prod .uint16 <| .prod .uint16 .uint16

structure FeatureProfile where
  autoSave : Bool := true
  quickSwitch : Bool := true
  resetProtection : Bool := false
  reserved : UInt8 := 0
deriving DecidableEq

abbrev FeatureProfile.Layout :=
  Bool × Bool × Bool × UInt8

def FeatureProfile.fields (p : FeatureProfile) : FeatureProfile.Layout :=
  (p.autoSave, p.quickSwitch, p.resetProtection, p.reserved)

def FeatureProfile.ofFields : FeatureProfile.Layout → FeatureProfile
  | (autoSave, quickSwitch, resetProtection, reserved) =>
    { autoSave, quickSwitch, resetProtection, reserved }

def FeatureProfile.codec : Codec FeatureProfile :=
  .via ofFields fields <| .prod .bool <| .prod .bool <| .prod .bool <| .uint8 5

structure ProfileRecord where
  name : ProfileName
  enabled : Bool := true
  reserved : UInt8 := 0
  sticks : PerStick StickProfile
  combo : ComboProfile := {}
  touch : TouchProfile := {}
  layer : LayerProfile := {}
  timing : TimingProfile := {}
  features : FeatureProfile := {}
  checksum : UInt16 := 0
deriving DecidableEq

namespace ProfileRecord

abbrev Layout :=
  ProfileName × Bool × UInt8 × StickProfile × StickProfile × ComboProfile × TouchProfile ×
    LayerProfile × TimingProfile × FeatureProfile × UInt16

def fields (r : ProfileRecord) : Layout :=
  (r.name, r.enabled, r.reserved, r.sticks.one, r.sticks.two, r.combo, r.touch, r.layer,
    r.timing, r.features, r.checksum)

def ofFields : Layout → ProfileRecord
  | (name, enabled, reserved, stick1, stick2, combo, touch, layer, timing, features, checksum) =>
    { name, enabled, reserved, sticks := ⟨stick1, stick2⟩, combo, touch, layer, timing, features,
      checksum }

def codec : Codec ProfileRecord :=
  .via ofFields fields <|
    .prod ProfileName.codec <| .prod .bool <| .prod (.uint8 7) <| .prod StickProfile.codec <|
      .prod StickProfile.codec <| .prod ComboProfile.codec <| .prod TouchProfile.codec <|
      .prod LayerProfile.codec <| .prod TimingProfile.codec <|
      .prod FeatureProfile.codec .uint16

def bodyChecksum (r : ProfileRecord) : UInt16 :=
  TwinStick.checksum ((codec.pack r).take (codec.size - 2))

def sealed (r : ProfileRecord) : ProfileRecord := { r with checksum := r.bodyChecksum }

def isIntact (r : ProfileRecord) : Bool := r.bodyChecksum == r.checksum

def withName (r : ProfileRecord) (text : String) : ProfileRecord :=
  { r with name := .ofString text }

/-- The built-in profile of a slot. A number past the last slot has that of the
first. -/
def template : Nat → ProfileRecord
  | 1 => sealed {
      name := .ofString "Productivity"
      sticks := ⟨{ analog := false }, { analog := false }⟩ }
  | 2 => sealed {
      name := .ofString "Minimal"
      sticks := ⟨{ analog := true }, { analog := false }⟩
      touch := { enabled := false } }
  | 3 => sealed {
      name := .ofString "Advanced"
      sticks := ⟨{ analog := false }, { analog := true }⟩
      combo := { strict := true }
      touch := { haptic := true }
      layer := { quick := #v[1, 2, 3, 0] }
      features := { resetProtection := true } }
  | _ => sealed {
      name := .ofString "Gaming"
      sticks := ⟨{ analog := true }, { analog := true }⟩
      combo := { timeoutMs := 150 } }

/-- Puts everything the profile controls in force. Which profile is current, and
whether the device is being debugged, is not its business. -/
def apply (r : ProfileRecord) (s : DeviceSettings) : DeviceSettings :=
  { s with
    sticks := r.sticks.map StickProfile.settings
    touchEnabled := r.touch.enabled
    combosEnabled := r.combo.enabled
    debounceMs := r.timing.debounceMs
    stickPollMs := r.timing.stickPollMs
    touchPollMs := r.timing.touchPollMs
    defaultLayer := r.layer.defaultLayer }

def applyStickExtended (p : StickProfile) (s : StickSettings) : StickSettings :=
  { s with centre := p.centre, invert := p.invert, deadzone := p.deadzone }

/-- Puts in force what the quick word has no room for: it lacks centres,
inversions, the layer and the timing, and holds the dead zones only narrowed. -/
def applyExtended (r : ProfileRecord) (s : DeviceSettings) : DeviceSettings :=
  { s with
    sticks := ⟨applyStickExtended r.sticks.one s.sticks.one,
      applyStickExtended r.sticks.two s.sticks.two⟩
    debounceMs := r.timing.debounceMs
    stickPollMs := r.timing.stickPollMs
    touchPollMs := r.timing.touchPollMs
    defaultLayer := r.layer.defaultLayer }

/-- Takes over the settings in force and seals the record. -/
def capture (r : ProfileRecord) (s : DeviceSettings) : ProfileRecord :=
  sealed { r with
    sticks := ⟨r.sticks.one.capture s.sticks.one, r.sticks.two.capture s.sticks.two⟩
    combo := { r.combo with enabled := s.combosEnabled }
    touch := { r.touch with enabled := s.touchEnabled }
    layer := { r.layer with defaultLayer := s.defaultLayer }
    timing := {
      debounceMs := s.debounceMs
      stickPollMs := s.stickPollMs
      touchPollMs := s.touchPollMs } }

end ProfileRecord

end TwinStick
