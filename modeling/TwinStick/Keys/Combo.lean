import TwinStick.Stick.Basic

/-! The combos: chords of keys that are commands. The framework detects them and
reports each by its number. -/

namespace TwinStick

structure KeyPosition where
  row : Nat
  col : Nat
deriving DecidableEq

inductive ComboAction where
  | switchProfile (id : UInt8)
  | toggleStickMode (stick : Stick)
  | calibrate
  | resetSettings
  | moveToLayer (layer : UInt8)
  | emergencyReset
  | toggleTouchscreen
  | toggleDebug
  | factoryReset
deriving DecidableEq

inductive Combo where
  | profile1
  | profile2
  | profile3
  | profile4
  | stick1Toggle
  | stick2Toggle
  | calibrate
  | resetSettings
  | layer1
  | layer2
  | layer3
  | emergencyReset
  | touchToggle
  | debugMode
  | factoryReset
deriving DecidableEq

namespace Combo

def all : List Combo :=
  [profile1, profile2, profile3, profile4, stick1Toggle, stick2Toggle, calibrate, resetSettings,
    layer1, layer2, layer3, emergencyReset, touchToggle, debugMode, factoryReset]

def ofIndex? (n : Nat) : Option Combo := all[n]?

def index : Combo → Nat
  | profile1 => 0
  | profile2 => 1
  | profile3 => 2
  | profile4 => 3
  | stick1Toggle => 4
  | stick2Toggle => 5
  | calibrate => 6
  | resetSettings => 7
  | layer1 => 8
  | layer2 => 9
  | layer3 => 10
  | emergencyReset => 11
  | touchToggle => 12
  | debugMode => 13
  | factoryReset => 14

theorem ofIndex?_index (c : Combo) : ofIndex? c.index = some c := by cases c <;> rfl

def bit (c : Combo) : UInt16 := 1 <<< UInt16.ofNat c.index

def allMask : UInt16 := 0x7FFF

/-- The name by which the combo is known to the configuration tool. -/
def name : Combo → String
  | profile1 => "Profile1"
  | profile2 => "Profile2"
  | profile3 => "Profile3"
  | profile4 => "Profile4"
  | stick1Toggle => "Joystick1Toggle"
  | stick2Toggle => "Joystick2Toggle"
  | calibrate => "Calibrate"
  | resetSettings => "ResetSettings"
  | layer1 => "Layer1"
  | layer2 => "Layer2"
  | layer3 => "Layer3"
  | emergencyReset => "EmergencyReset"
  | touchToggle => "TouchToggle"
  | debugMode => "DebugMode"
  | factoryReset => "FactoryReset"

def keys : Combo → List KeyPosition
  | profile1 => [⟨0, 0⟩, ⟨1, 0⟩]
  | profile2 => [⟨0, 1⟩, ⟨1, 1⟩]
  | profile3 => [⟨0, 2⟩, ⟨1, 2⟩]
  | profile4 => [⟨0, 3⟩, ⟨1, 3⟩]
  | stick1Toggle => [⟨0, 0⟩, ⟨0, 1⟩]
  | stick2Toggle => [⟨0, 2⟩, ⟨0, 3⟩]
  | calibrate => [⟨1, 0⟩, ⟨1, 1⟩, ⟨1, 2⟩]
  | resetSettings => [⟨0, 0⟩, ⟨0, 1⟩, ⟨0, 2⟩]
  | layer1 => [⟨0, 0⟩, ⟨1, 1⟩]
  | layer2 => [⟨0, 1⟩, ⟨1, 2⟩]
  | layer3 => [⟨0, 2⟩, ⟨1, 3⟩]
  | emergencyReset => [⟨0, 0⟩, ⟨0, 3⟩, ⟨1, 0⟩, ⟨1, 3⟩]
  | touchToggle => [⟨1, 0⟩, ⟨1, 2⟩]
  | debugMode => [⟨0, 1⟩, ⟨0, 2⟩, ⟨1, 1⟩, ⟨1, 2⟩]
  | factoryReset => [⟨0, 0⟩, ⟨0, 1⟩, ⟨0, 2⟩, ⟨0, 3⟩]

/-- The term of a chord that does no harm. -/
def defaultTermMs : UInt16 := 200

/-- How long the detector waits for the whole chord. What destroys settings has
to be deliberate. -/
def termMs : Combo → UInt16
  | emergencyReset | factoryReset => 500
  | calibrate | debugMode => 300
  | _ => defaultTermMs

def mustTap : Combo → Bool
  | profile1 | profile2 | profile3 | profile4 | stick1Toggle | stick2Toggle | touchToggle => true
  | _ => false

def mustHold : Combo → Bool
  | emergencyReset | factoryReset => true
  | _ => false

def action : Combo → ComboAction
  | profile1 => .switchProfile 0
  | profile2 => .switchProfile 1
  | profile3 => .switchProfile 2
  | profile4 => .switchProfile 3
  | stick1Toggle => .toggleStickMode .one
  | stick2Toggle => .toggleStickMode .two
  | calibrate => .calibrate
  | resetSettings => .resetSettings
  | layer1 => .moveToLayer 1
  | layer2 => .moveToLayer 2
  | layer3 => .moveToLayer 3
  | emergencyReset => .emergencyReset
  | touchToggle => .toggleTouchscreen
  | debugMode => .toggleDebug
  | factoryReset => .factoryReset

end Combo

end TwinStick
