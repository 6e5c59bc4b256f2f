import TwinStick.Uptime
import TwinStick.Hardware.Adc

/-! Samples of the sticks. A sampler keeps for each stick its centre, its dead
zone and the last processed sample, and takes new ones at a fixed rate. -/

namespace TwinStick

structure StickSample where
  position : Pair Int16 := .zero
  previous : Pair Int16 := .zero
  directions : Directions := {}
  previousDirections : Directions := {}
  lastMovement : UInt32 := 0
  inDeadzone : Bool := false
deriving DecidableEq

namespace StickSample

def isPushed (s : StickSample) (d : Direction) : Bool := s.directions.has d

def justPushed (s : StickSample) (d : Direction) : Bool :=
  s.directions.has d && !s.previousDirections.has d

def justReleased (s : StickSample) (d : Direction) : Bool :=
  !s.directions.has d && s.previousDirections.has d

end StickSample

structure SamplerConfig where
  interval : UInt32 := 10
  smoothing : Bool := true
  /-- The reciprocal weight of a new sample in the moving average. -/
  factor : UInt8 := 4
  threshold : Int16 := Signal.defaultThreshold
deriving DecidableEq

namespace SamplerConfig

def smooth (c : SamplerConfig) (current previous : Pair Int16) : Pair Int16 :=
  if c.smoothing then
    ⟨Signal.smooth current.x previous.x c.factor, Signal.smooth current.y previous.y c.factor⟩
  else current

end SamplerConfig

/-- The sample that follows when a stick is seen at a deflection. -/
def StickSample.next (s : StickSample) (config : SamplerConfig) (deadzone : UInt16)
    (deflection : Pair Int16) (now : UInt32) : Except Fault StickSample := do
  let (position, inDeadzone) := Signal.flatten deadzone (config.smooth deflection s.position)
  let directions ← Directions.ofPosition config.threshold position
  return {
    position
    previous := s.position
    directions
    previousDirections := s.directions
    lastMovement := if position = s.position then s.lastMovement else now
    inDeadzone }

structure Sampler where
  samples : PerStick StickSample := .both {}
  centres : PerStick (Pair UInt16) := .both (.both Signal.midpoint)
  deadzones : PerStick UInt16 := .both Signal.defaultDeadzone
  config : SamplerConfig
  cadence : Cadence
deriving DecidableEq

namespace Sampler

def ofConfig (config : SamplerConfig) : Sampler := { config, cadence := ⟨config.interval, none⟩ }

def withConfig (s : Sampler) (config : SamplerConfig) : Sampler :=
  { s with config, cadence := s.cadence.withPeriod config.interval }

def withCentre (s : Sampler) (stick : Stick) (centre : Pair UInt16) : Sampler :=
  { s with centres := s.centres.set stick centre }

def withDeadzone (s : Sampler) (stick : Stick) (deadzone : UInt16) : Sampler :=
  { s with deadzones := s.deadzones.set stick deadzone }

/-- Takes in one pair of readings of a stick. -/
def observe (s : Sampler) (stick : Stick) (readings : Pair UInt16) (now : UInt32) :
    Except Fault Sampler := do
  let centre := s.centres.get stick
  let deflection := ⟨Signal.centred readings.x centre.x, Signal.centred readings.y centre.y⟩
  let sample ← (s.samples.get stick).next s.config (s.deadzones.get stick) deflection now
  return { s with samples := s.samples.set stick sample }

def sample (s : Sampler) (stick : Stick) (now : UInt32) : Routine Adc Sampler := do
  let readings ← Adc.readStick stick
  s.observe stick readings now

/-- Samples both sticks if an interval has passed; the flag says whether it did. -/
def tick (s : Sampler) (now : UInt32) : Routine Adc (Bool × Sampler) := do
  let (due, cadence) := s.cadence.poll now
  if due then
    let s ← { s with cadence }.sample .one now
    let s ← s.sample .two now
    return (true, s)
  else return (false, s)

/-- The sum of so many readings of a stick, added to a given one. -/
def sum (stick : Stick) : Nat → Pair UInt32 → Routine Adc (Pair UInt32)
  | 0, total => return total
  | n + 1, total => do
    let x ← Adc.read ⟨stick, .x⟩
    let sumX ← (Checked.addUInt32 total.x x.toUInt32 : Except Fault UInt32)
    let y ← Adc.read ⟨stick, .y⟩
    let sumY ← (Checked.addUInt32 total.y y.toUInt32 : Except Fault UInt32)
    sum stick n ⟨sumX, sumY⟩

/-- Averages so many readings, at least one, and takes the mean as the centre of
the stick. What was known about the stick's position is forgotten. -/
def calibrate (s : Sampler) (stick : Stick) (count : UInt16) :
    Routine Adc (Pair UInt16 × Sampler) := do
  let count := max count 1
  let total ← sum stick count.toNat (.both 0)
  let centre := total.map fun t => (t / count.toUInt32).toUInt16
  return (centre, { s.withCentre stick centre with samples := s.samples.set stick {} })

end Sampler

end TwinStick
