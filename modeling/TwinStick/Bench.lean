import TwinStick.Controller.Call

/-! A controller on a bench, where everything it does to its surroundings is
written down. -/

namespace TwinStick

structure BenchLog where
  host : Array HostEvent := #[]
  delays : Array UInt32 := #[]
  /-- The levels given to the panel's reset line. -/
  resets : Array Bool := #[]
  probes : Nat := 0
  handled : Nat := 0
  calibrations : Nat := 0
  /-- Writes to flash that succeeded, those of no bytes included. -/
  writes : Nat := 0

namespace BenchLog

def note (l : BenchLog) : Event → BenchLog
  | .host e => { l with host := l.host.push e }
  | .write .. => { l with writes := l.writes + 1 }
  | .delay ms => { l with delays := l.delays.push ms }
  | .panelReset asserted => { l with resets := l.resets.push asserted }
  | .panelProbe => { l with probes := l.probes + 1 }
  | .panelHandle => { l with handled := l.handled + 1 }
  | .panelCalibrate => { l with calibrations := l.calibrations + 1 }
  | .writeFailed .. | .conversion _ => l

def noteAll (l : BenchLog) (events : List Event) : BenchLog := events.foldl note l

def lines (l : BenchLog) : List String :=
  l.host.toList.filterMap fun
    | .line text => some text
    | _ => none

def keyEvents (l : BenchLog) : List HostEvent :=
  l.host.toList.filter fun
    | .keyDown _ | .keyUp _ => true
    | _ => false

def lastAxes (l : BenchLog) : Option AxisReport :=
  l.host.toList.reverse.findSome? fun
    | .axes report => some report
    | _ => none

/-- The events that came after so many; all of them, if there are not that many
any more. -/
def since (l : BenchLog) (count : Nat) : List HostEvent :=
  if l.host.size < count then l.host.toList else l.host.toList.drop count

end BenchLog

structure Bench where
  controller : Controller
  log : BenchLog := {}

namespace Bench

/-- A controller that has not been brought up, on erased flash. -/
def erased (size : Nat) (base : UInt32) : Bench :=
  { controller := .ofBoard {} (.erased size) base }

def perform (b : Bench) (r : Routine Controller α) : Except Fault (α × Bench) := do
  let d ← r.run b.controller
  return (d.value, { controller := d.state, log := b.log.noteAll d.events })

def clear (b : Bench) : Bench := { b with log := { b.log with host := #[] } }

/-- A power cycle: of all that went on only the flash remembers, and the count of
writes to it goes on. -/
def reboot (b : Bench) : Except Fault Bench := do
  let store := b.controller.store
  let b := {
    controller := .ofBoard {} store.flash store.base
    log := { writes := b.log.writes } }
  return (← perform b Controller.init).2

def read (offset : UInt32) (length : Nat) :
    Routine Controller (Except FlashError (List UInt8)) :=
  Controller.onStore (Store.onFlash (Flash.read offset length))

def write (offset : UInt32) (bytes : List UInt8) : Routine Controller (Except FlashError Unit) :=
  Controller.onStore (Store.onFlash (Flash.write offset bytes))

end Bench

end TwinStick
