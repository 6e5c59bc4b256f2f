import TwinStick.Controller.Command

/-! One pass of the housekeeping: the matrix, the sticks, the tracked inputs, the
mode switches, the panel and the unsaved settings, each at its own rate. -/

namespace TwinStick

namespace Controller

def processStick (stick : Stick) : Routine Controller Unit := do
  let c ← get
  let (axes, engine, keys) := (c.engines.get stick).process (c.sampler.samples.get stick)
  set { c with
    engines := c.engines.set stick engine
    report := c.report.set stick axes }
  tell keys

def sampleSticks (now : UInt32) : Routine Controller Bool := do
  let (sampled, sampler) ← onAdc ((← get).sampler.tick now)
  modify ({ · with sampler })
  return sampled

/-- Reports all axes after every sample. -/
def tickSticks (now : UInt32) : Routine Controller Bool := do
  let sampled ← sampleSticks now
  if sampled then
    processStick .one
    processStick .two
    tell [.axes (← get).report]
  return sampled

def tickMatrix (now : UInt32) : Routine Controller Bool := do
  let c ← get
  let (scanned, matrix) := c.matrix.scan c.board.closed now
  set { c with matrix }
  return scanned

def snapshot (c : Controller) : InputSnapshot where
  matrix := c.matrix
  sampler := c.sampler
  touching := c.touchReady && c.board.panel.touching

/-- Looks at a mode switch. Its going low toggles the mode of the stick. -/
def pollModeSwitch (stick : Stick) (now : UInt32) : Routine Controller Unit := do
  let c ← get
  let level := c.board.switches.get stick
  set { c with switchLevels := c.switchLevels.set stick level }
  if c.switchLevels.get stick && !level then toggleStickMode stick now

def tickSwitches (now : UInt32) : Routine Controller Unit := do
  let c ← get
  let (due, switchCadence) := c.switchCadence.poll now
  set { c with switchCadence }
  if due then
    pollModeSwitch .one now
    pollModeSwitch .two now

def tickPanel (now : UInt32) : Routine Controller Unit := do
  let c ← get
  if c.touchActive then
    let (due, touchCadence) := c.touchCadence.poll now
    set { c with touchCadence }
    if due && c.board.panel.pending then
      let (panel, events) := c.board.panel.handle
      modify fun c => { c with board := { c.board with panel } }
      Routine.emit events

def tick : Routine Controller Unit := do
  let now := (← get).board.now
  let scanned ← tickMatrix now
  let sampled ← tickSticks now
  if scanned || sampled then
    modify fun c => { c with tracker := c.tracker.updateAll c.snapshot now }
  tickSwitches now
  tickPanel now
  onStore (Store.task (← get).live now)

def advance (step : UInt32) : Routine Controller Unit :=
  modify fun c => { c with board := { c.board with now := c.board.now + step } }

/-- Lets the clock go on by a step and ticks, as often as given, and lists what was
seen at which time. -/
def tickFor (step : UInt32) (c : Controller) :
    Nat → Except Fault (Controller × List (UInt32 × Event))
  | 0 => return (c, [])
  | n + 1 => do
    let d ← (do advance step; tick : Routine Controller Unit).run c
    let (last, seen) ← tickFor step d.state n
    return (last, d.events.map (d.state.board.now, ·) ++ seen)

/-- Lets the clock go on by a step and ticks, until the clock has reached a time
and no more often than given. -/
def tickUntil (limit step : UInt32) : Nat → Routine Controller Unit
  | 0 => return
  | n + 1 => do
    if (← get).board.now < limit then
      advance step
      tick
      tickUntil limit step n

end Controller

end TwinStick
