import TwinStick.Controller.Notice
import TwinStick.Hardware.Board
import TwinStick.Keys.Scanner
import TwinStick.Store.Edit
import TwinStick.Stick.Engine
import TwinStick.Tracker

/-! The controller owns the settings in force and every component of the device.
The components keep copies of the settings that concern them, and `sync` brings
all of those up to date. -/

namespace TwinStick

structure Controller where
  board : Board
  store : Store
  live : DeviceSettings := {}
  matrix : KeyMatrix := .ofConfig {}
  sampler : Sampler := .ofConfig {}
  tracker : Tracker := .ofConfig {}
  engines : PerStick Engine := ⟨{ stick := .one }, { stick := .two }⟩
  report : AxisReport := .zero
  switchCadence : Cadence := ⟨50, none⟩
  /-- The levels of the mode switches at the last look. -/
  switchLevels : PerStick Bool := .both true
  touchCadence : Cadence := ⟨10, none⟩
  /-- The panel has answered after its last reset. -/
  touchReady : Bool := false

namespace Controller

def ofBoard (board : Board) (flash : Flash) (base : UInt32) : Controller :=
  { board, store := .ofFlash flash base }

def onStore (r : Routine Store α) : Routine Controller α :=
  r.onPart (·.store) fun store c => { c with store }

def onAdc (r : Routine Adc α) : Routine Controller α :=
  r.onPart (·.board.adc) fun adc c => { c with board := { c.board with adc } }

def tell (events : List HostEvent) : Routine Controller Unit :=
  Routine.emit (events.map .host)

/-- A line on the console, but only while the device is being debugged. A line that is too long is
dropped. -/
def notify (n : Notice) : Routine Controller Unit := do
  if (← get).live.debug then
    if n.line.utf8ByteSize ≤ Notice.lineLength then tell [.line n.line]

def modifyLive (f : DeviceSettings → DeviceSettings) : Routine Controller Unit :=
  modify fun c => { c with live := f c.live }

def onEngine (stick : Stick) (f : Engine → Engine × List HostEvent) :
    Routine Controller Unit := do
  let c ← get
  let (engine, keys) := f (c.engines.get stick)
  set { c with engines := c.engines.set stick engine }
  tell keys

def syncStick (stick : Stick) : Routine Controller Unit := do
  modify fun c =>
    let s := c.live.sticks.get stick
    { c with
      sampler := (c.sampler.withCentre stick s.centre).withDeadzone stick s.deadzone }
  let s := (← get).live.sticks.get stick
  onEngine stick (·.applySettings s)

def sync : Routine Controller Unit := do
  modify fun c =>
    let scanner := { c.matrix.config with debounce := c.live.debounceMs.toUInt32 }
    let sampler := { c.sampler.config with interval := c.live.stickPollMs.toUInt32 }
    { c with
      matrix := c.matrix.withConfig scanner
      tracker := c.tracker.withConfig scanner
      sampler := c.sampler.withConfig sampler
      touchCadence := c.touchCadence.withPeriod c.live.touchPollMs.toUInt32 }
  syncStick .one
  syncStick .two
  let live := (← get).live
  tell [.combos live.combosEnabled, .defaultLayer live.defaultLayer]

/-- The panel is wanted and answers. -/
def touchActive (c : Controller) : Bool := c.live.touchEnabled && c.touchReady

def startTouchscreen : Routine Controller Unit := do
  let (answer, events) := (← get).board.panel.powerUp
  Routine.emit events
  match answer with
  | .ok () => modify ({ · with touchReady := true })
  | .error _ => do
    modify ({ · with touchReady := false })
    notify .touchInitFailed

/-- The inputs that are tracked from the start: every key of the matrix and the
deflection of both sticks. -/
def defaultInputs : List (InputKind × UInt8) :=
  (List.range (matrixRows * matrixCols)).map (fun i => (.button, UInt8.ofNat i)) ++
    Stick.all.map fun s => (.stickDeflection, UInt8.ofNat s.index)

/-- Brings the device up: loads the configuration, starts the panel if it is
wanted, and tracks the default inputs. -/
def init : Routine Controller Unit := do
  let c ← get
  let live ← onStore (Store.init c.live c.board.now)
  modify ({ · with live })
  if live.touchEnabled then startTouchscreen
  sync
  modify fun c =>
    { c with
      tracker := defaultInputs.foldl (fun t (kind, id) => (t.track kind id).2) c.tracker.clear }

end Controller

end TwinStick
