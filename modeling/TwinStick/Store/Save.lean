import TwinStick.Store.Boot

/-! Carrying the settings in force to flash: saving them, now or after a quiet
while, and switching between profiles. -/

namespace TwinStick

namespace Store

/-- How long it has to be quiet before unsaved settings are saved. -/
def quietMs : UInt32 := 5000

/-- Saves the settings in force to the quick word and the active profile. If a
write fails they stay unsaved, and the next attempt waits for another quiet
while. -/
def saveCurrent (live : DeviceSettings) (now : UInt32) : Routine Store Bool := do
  let slot ← (← get).records.activeSlot
  modifyRecords fun r =>
    let r := r.modifyManager ({ · with lastSave := now })
    { r.withProfile slot ((r.profile slot).capture live) with
      quick := { r.quick.capture live with active := r.manager.active } }
  let saved ← commit [.quick, .manager, .profile slot]
  modify fun s => if saved then { s with dirty := false } else s.markDirty now
  return saved

/-- Both the manager and the active profile have a say in saving unasked. -/
def autoSaves (s : Store) : Except Fault Bool := do
  if s.records.manager.autoSave then
    let profile ← s.activeRecord
    return profile.features.autoSave
  else return false

/-- Saves unsaved settings if that is wanted and it has been quiet for long
enough. -/
def task (live : DeviceSettings) (now : UInt32) : Routine Store Unit := do
  let s ← get
  if s.dirty then
    if ← s.autoSaves then
      if quietMs ≤ elapsed s.lastChange now then
        let _ ← saveCurrent live now

/-- Makes a slot the active one and puts its profile in force; unsaved settings
are saved to the profile that is left. Refused for a number that is no slot, and
while switching is turned off. A failed write does not stop the switch. -/
def switchProfile (id : UInt8) (live : DeviceSettings) :
    Routine Store (Bool × DeviceSettings) := do
  match Records.slot? id with
  | none => return (false, live)
  | some slot =>
    if !(← get).records.manager.switching then return (false, live)
    if (← get).dirty then
      let _ ← saveCurrent live (← get).lastChange
    let profile := (← get).records.profile slot
    let live := { profile.apply live with profile := id }
    modifyRecords fun r =>
      { r.modifyManager ({ · with active := id }) with quick := r.quick.capture live }
    let _ ← commit [.quick, .manager]
    return (true, live)

end Store

end TwinStick
