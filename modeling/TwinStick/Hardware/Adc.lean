import TwinStick.Routine
import TwinStick.Stick.Signal

/-! The converter behind the sticks. Each channel delivers the readings of a
script of its own, one per conversion. -/

namespace TwinStick

structure AnalogInput where
  script : Nat → UInt16
  taken : Nat := 0

namespace AnalogInput

def constant (reading : UInt16) : AnalogInput := ⟨fun _ => reading, 0⟩

/-- The readings of a queue in turn; the last one stays. -/
def ofQueue (first : UInt16) (rest : List UInt16) : AnalogInput :=
  ⟨fun n => ((first :: rest)[n]?).getD ((first :: rest).getLast (by simp)), 0⟩

/-- The reading that the next conversion delivers. -/
def reading (i : AnalogInput) : UInt16 := i.script i.taken

def advance (i : AnalogInput) : AnalogInput := { i with taken := i.taken + 1 }

end AnalogInput

structure Adc where
  inputs : PerStick (Pair AnalogInput) := .both (.both (.constant Signal.midpoint))
  /-- The width of a reading. -/
  bits : UInt8 := Signal.axisBits

namespace Adc

def input (a : Adc) (c : Channel) : AnalogInput :=
  match c.axis with
  | .x => (a.inputs.get c.stick).x
  | .y => (a.inputs.get c.stick).y

def advance (a : Adc) (c : Channel) : Adc :=
  let p := a.inputs.get c.stick
  { a with inputs := a.inputs.set c.stick <| match c.axis with
      | .x => { p with x := p.x.advance }
      | .y => { p with y := p.y.advance } }

/-- Takes one reading of a channel, rescaled to the width of an axis. -/
def read (c : Channel) : Routine Adc UInt16 := do
  let a ← get
  set (a.advance c)
  Routine.emit [.conversion c]
  Signal.normalize a.bits (a.input c).reading

def readStick (s : Stick) : Routine Adc (Pair UInt16) := do
  let x ← read ⟨s, .x⟩
  let y ← read ⟨s, .y⟩
  return ⟨x, y⟩

end Adc

end TwinStick
