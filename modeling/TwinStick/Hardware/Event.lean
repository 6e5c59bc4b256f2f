import TwinStick.Stick.Report

/-! Everything the device does to the world around it, as values. -/

namespace TwinStick

inductive HostEvent where
  | keyDown (key : StickKey)
  | keyUp (key : StickKey)
  | axes (report : AxisReport)
  | combos (enabled : Bool)
  | layer (n : UInt8)
  | defaultLayer (n : UInt8)
  | line (text : String)
deriving DecidableEq

inductive Event where
  | host (event : HostEvent)
  | write (offset : UInt32) (bytes : List UInt8)
  | writeFailed (offset : UInt32) (length : Nat)
  | delay (ms : UInt32)
  | panelReset (asserted : Bool)
  | panelProbe
  | panelHandle
  | panelCalibrate
  /-- The converter was asked for a channel. -/
  | conversion (channel : Channel)
deriving DecidableEq

namespace Event

def host? : Event → Option HostEvent
  | host e => some e
  | _ => none

end Event

end TwinStick
