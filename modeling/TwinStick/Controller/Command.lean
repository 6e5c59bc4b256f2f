import TwinStick.Controller.Basic
import TwinStick.Keys.CustomKey

/-! The commands: what combos, custom keys, mode switches and callers can make the
device do. A command changes the settings in force, brings the components up to
date, and sees to it that the change is saved. -/

namespace TwinStick

namespace Controller

def switchProfile (id : UInt8) : Routine Controller Bool := do
  let (switched, live) ← onStore (Store.switchProfile id (← get).live)
  if !switched then return false
  modify ({ · with live })
  sync
  let record ← (← get).store.activeRecord
  let number ← (Checked.addUInt8 id 1 : Except Fault UInt8)
  notify (.profile number record.name)
  return true

def saveNow (now : UInt32) : Routine Controller Unit := do
  let _ ← onStore (Store.saveCurrent (← get).live now)

def markDirty (now : UInt32) : Routine Controller Unit :=
  modify fun c => { c with store := c.store.markDirty now }

def toggleStickMode (stick : Stick) (now : UInt32) : Routine Controller Unit := do
  onEngine stick Engine.toggleMode
  let mode := ((← get).engines.get stick).mode
  modifyLive (·.withMode stick mode)
  saveNow now
  notify (.stickMode stick mode)

def calibrateTouchscreen : Routine Controller Unit := do
  let c ← get
  if c.touchActive then
    let (calibrated, events) := c.board.panel.calibrate
    Routine.emit events
    if !calibrated then notify .touchCalibrationFailed

/-- How many readings make up a centre. -/
def calibrationSamples : UInt16 := 16

def calibrateStick (stick : Stick) : Routine Controller Unit := do
  let (centre, sampler) ← onAdc ((← get).sampler.calibrate stick calibrationSamples)
  modify ({ · with sampler })
  modifyLive (·.withCentre stick centre)

def calibrate (now : UInt32) : Routine Controller Unit := do
  calibrateTouchscreen
  calibrateStick .one
  calibrateStick .two
  saveNow now
  notify .calibrated

def toggleTouchscreen (now : UInt32) : Routine Controller Unit := do
  modifyLive fun s => { s with touchEnabled := !s.touchEnabled }
  let c ← get
  if c.live.touchEnabled && !c.touchReady then startTouchscreen
  markDirty now
  notify (.touchscreen (← get).live.touchEnabled)

def toggleCombos (now : UInt32) : Routine Controller Unit := do
  modifyLive fun s => { s with combosEnabled := !s.combosEnabled }
  let on := (← get).live.combosEnabled
  tell [.combos on]
  markDirty now
  notify (.combos on)

/-- Both the first and the last line of a debugging session are printed. -/
def toggleDebug : Routine Controller Unit := do
  if (← get).live.debug then
    notify (.debug false)
    modifyLive ({ · with debug := false })
  else
    modifyLive ({ · with debug := true })
    notify (.debug true)

def resetCurrent : Routine Controller Unit := do
  let (_, live) ← onStore (Store.resetCurrent (← get).live)
  modify ({ · with live })
  sync
  let number ← (Checked.addUInt8 (← get).live.profile 1 : Except Fault UInt8)
  notify (.profileReset number)

def factoryReset (now : UInt32) : Routine Controller Unit := do
  notify .factoryReset
  let live ← onStore (Store.factoryReset now)
  modify ({ · with live })
  sync

def emergencyReset (now : UInt32) : Routine Controller Unit := do
  notify .emergencyReset
  let live ← onStore (Store.emergencyReset now)
  modify ({ · with live })
  sync

/-- Edits the settings in force and has them saved after a quiet while. -/
def updateSettings (f : DeviceSettings → DeviceSettings) : Routine Controller Unit := do
  modifyLive f
  sync
  markDirty (← get).board.now

/-- The number of layers of the keymap. -/
def maxLayers : UInt8 := 8

def moveToLayer (layer : UInt8) : Routine Controller Unit := do
  if layer < maxLayers then
    tell [.layer layer]
    notify (.layer layer)

def perform (action : ComboAction) (now : UInt32) : Routine Controller Unit :=
  match action with
  | .switchProfile id => do
    let _ ← switchProfile id
  | .toggleStickMode stick => toggleStickMode stick now
  | .calibrate => calibrate now
  | .resetSettings => resetCurrent
  | .moveToLayer layer => moveToLayer layer
  | .emergencyReset => emergencyReset now
  | .toggleTouchscreen => toggleTouchscreen now
  | .toggleDebug => toggleDebug
  | .factoryReset => factoryReset now

/-- A combo is pressed or released. It acts when it is pressed, if combos are on
and the active profile has it enabled. -/
def processCombo (index : Nat) (pressed : Bool) : Routine Controller Unit := do
  if pressed then
    match Combo.ofIndex? index with
    | none => return
    | some combo =>
      let c ← get
      if c.live.combosEnabled then
        if ← c.store.isComboEnabled combo then
          perform combo.action c.board.now

/-- A key is pressed or released. Custom keys act when they are pressed and are
never passed on. -/
def processKey (code : UInt16) (pressed : Bool) : Routine Controller KeyDisposition := do
  match CustomKey.ofKeycode? code with
  | none => return .passThrough
  | some key =>
    if pressed then
      let now := (← get).board.now
      match key with
      | .profile slot => do
        let _ ← switchProfile slot
      | .stick1Mode => toggleStickMode .one now
      | .stick2Mode => toggleStickMode .two now
      | .touchCalibrate => calibrateTouchscreen
      | .comboToggle => toggleCombos now
    return .consumed

end Controller

end TwinStick
