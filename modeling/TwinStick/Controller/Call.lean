import TwinStick.Controller.Tick
import TwinStick.Store.Call
import TwinStick.Tracker.Call

/-! The operations of the controller as values, so that a whole session can be
written down as a list. -/

namespace TwinStick

inductive ControllerCall where
  | init
  | tick
  | combo (index : Nat) (pressed : Bool)
  | key (code : UInt16) (pressed : Bool)
  | switchProfile (id : UInt8)
  | toggleStickMode (stick : Stick) (now : UInt32)
  | calibrate (now : UInt32)
  | toggleTouchscreen (now : UInt32)
  | toggleCombos (now : UInt32)
  | toggleDebug
  | resetCurrent
  | factoryReset (now : UInt32)
  | emergencyReset (now : UInt32)
  | updateSettings (edit : DeviceSettings → DeviceSettings)
  /-- A call on the store behind the controller's back. What it would put in force
  is not. -/
  | store (call : StoreCall)
  /-- A call on the tracker behind the controller's back. Its answer goes to whoever made it. -/
  | tracker (call : TrackerCall)

inductive Reply where
  | none
  | flag (value : Bool)
  | key (disposition : KeyDisposition)
deriving DecidableEq

namespace ControllerCall

def perform : ControllerCall → Routine Controller Reply
  | init => do
    Controller.init
    return .none
  | tick => do
    Controller.tick
    return .none
  | combo index pressed => do
    Controller.processCombo index pressed
    return .none
  | key code pressed => return .key (← Controller.processKey code pressed)
  | switchProfile id => return .flag (← Controller.switchProfile id)
  | toggleStickMode stick now => do
    Controller.toggleStickMode stick now
    return .none
  | calibrate now => do
    Controller.calibrate now
    return .none
  | toggleTouchscreen now => do
    Controller.toggleTouchscreen now
    return .none
  | toggleCombos now => do
    Controller.toggleCombos now
    return .none
  | toggleDebug => do
    Controller.toggleDebug
    return .none
  | resetCurrent => do
    Controller.resetCurrent
    return .none
  | factoryReset now => do
    Controller.factoryReset now
    return .none
  | emergencyReset now => do
    Controller.emergencyReset now
    return .none
  | updateSettings edit => do
    Controller.updateSettings edit
    return .none
  | store call => do
    let live := (← get).live
    match (← Controller.onStore (call.perform live)).2 with
    | some b => return .flag b
    | Option.none => return .none
  | tracker call => do
    let (_, asked) ← (← get).tracker.perform call
    modify ({ · with tracker := asked })
    return .none

end ControllerCall

end TwinStick
