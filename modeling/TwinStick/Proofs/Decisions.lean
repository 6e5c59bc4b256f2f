import TwinStick.Proofs.Effects

/-! What a pass of the housekeeping decides to do. Each of its parts is written once more, with
what it did as its value; what it does to the device is the same. -/

namespace TwinStick

open Routine

namespace Store

/-- The task, with whether it saved. -/
def taskTold (live : DeviceSettings) (now : UInt32) : Routine Store Bool := do
  let s ← get
  if s.dirty then
    if ← s.autoSaves then
      if quietMs ≤ elapsed s.lastChange now then
        let _ ← saveCurrent live now
        return true
  return false

theorem task_eq_told (live : DeviceSettings) (now : UInt32) :
    task live now = taskTold live now >>= fun _ => pure () := by
  rw [task, taskTold, bind_assoc]
  refine congrArg _ (funext fun s => ?_)
  split
  · rw [bind_assoc]
    refine congrArg _ (funext fun wanted => ?_)
    split
    · split
      · rw [bind_assoc]
        exact congrArg _ (funext fun _ => (pure_bind _ _).symm)
      · exact (pure_bind _ _).symm
    · exact (pure_bind _ _).symm
  · exact (pure_bind _ _).symm

end Store

namespace Controller

/-- The look at the mode switches, with whether it was time for it. -/
def tickSwitchesTold (now : UInt32) : Routine Controller Bool := do
  let c ← get
  let (due, switchCadence) := c.switchCadence.poll now
  set { c with switchCadence }
  if due then
    pollModeSwitch .one now
    pollModeSwitch .two now
  return due

/-- The look at the panel, with whether it was served. -/
def tickPanelTold (now : UInt32) : Routine Controller Bool := do
  let c ← get
  if c.touchActive then
    let (due, touchCadence) := c.touchCadence.poll now
    set { c with touchCadence }
    if due && c.board.panel.pending then
      let (panel, events) := c.board.panel.handle
      modify fun c => { c with board := { c.board with panel } }
      Routine.emit events
      return true
  return false

/-- What a pass of the housekeeping did of all that it does from time to time. -/
structure Decisions where
  swept : Bool
  sampled : Bool
  polled : Bool
  served : Bool
  saved : Bool
deriving DecidableEq

/-- The pass of the housekeeping, with what it did. -/
def tickTold : Routine Controller Decisions := do
  let now := (← get).board.now
  let swept ← tickMatrix now
  let sampled ← tickSticks now
  if swept || sampled then
    modify fun c => { c with tracker := c.tracker.updateAll c.snapshot now }
  let polled ← tickSwitchesTold now
  let served ← tickPanelTold now
  let saved ← onStore (Store.taskTold (← get).live now)
  return { swept, sampled, polled, served, saved }

variable (now : UInt32)

theorem tickSwitches_eq_told : tickSwitches now = tickSwitchesTold now >>= fun _ => pure () := by
  rw [tickSwitches, tickSwitchesTold, bind_assoc]
  refine congrArg _ (funext fun c => ?_)
  dsimp only
  rw [bind_assoc]
  refine congrArg _ (funext fun _ => ?_)
  split
  · simp only [bind_assoc, pure_bind, bind_pure_unit]
  · simp only [pure_bind]

theorem tickPanel_eq_told : tickPanel now = tickPanelTold now >>= fun _ => pure () := by
  rw [tickPanel, tickPanelTold, bind_assoc]
  refine congrArg _ (funext fun c => ?_)
  split
  · dsimp only
    rw [bind_assoc]
    refine congrArg _ (funext fun _ => ?_)
    split
    · simp only [bind_assoc, pure_bind, bind_pure_unit]
    · simp only [pure_bind]
  · simp only [pure_bind]

theorem onStore_task_eq_told (live : DeviceSettings) :
    onStore (Store.task live now) = onStore (Store.taskTold live now) >>= fun _ => pure () := by
  rw [Store.task_eq_told]
  refine funext fun c => ?_
  change Except.map _ ((Store.taskTold live now >>= fun _ => pure ()).run c.store) =
    (onStore (Store.taskTold live now) >>= fun _ => pure ()).run c
  rw [run_bind_pure, run_bind_pure, run_onStore]
  cases (Store.taskTold live now).run c.store <;> rfl

theorem tick_eq_told : tick = tickTold >>= fun _ => pure () := by
  simp only [tick, tickTold, tickSwitches_eq_told, tickPanel_eq_told, onStore_task_eq_told,
    bind_assoc, pure_bind]
  refine congrArg _ (funext fun c => congrArg _ (funext fun swept => ?_))
  refine congrArg _ (funext fun sampled => ?_)
  split <;> simp only [bind_assoc, pure_bind]

end Controller

namespace ControllerCall

/-- What the call answers and, if it is a pass of the housekeeping, what that did. -/
def told : ControllerCall → Routine Controller (Reply × Option Controller.Decisions)
  | tick => do return (.none, some (← Controller.tickTold))
  | call => do return (← call.perform, none)

theorem perform_eq_told (call : ControllerCall) :
    call.perform = call.told >>= fun answer => pure answer.1 := by
  cases call with
  | tick => simp only [perform, told, Controller.tick_eq_told, bind_assoc, pure_bind]
  | _ => simp only [told, bind_assoc, pure_bind, bind_pure]

end ControllerCall

end TwinStick
