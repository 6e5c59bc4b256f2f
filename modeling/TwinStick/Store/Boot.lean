import TwinStick.Store.Basic

/-! Bringing the store up. A region whose manager record is valid is loaded, and
each damaged profile in it is replaced by its template; any other region, and one
that cannot be read or repaired, is replaced by the built-in contents. -/

namespace TwinStick

namespace Store

/-- Takes over the profiles of the given slots. Each damaged one is replaced by
its template, in flash too. Stops at the first failure. -/
def loadProfiles : List (Fin maxProfiles) → Routine Store Bool
  | [] => return true
  | slot :: rest => do
    match ← fetch (.profile slot) ProfileRecord.codec with
    | .error _ => return false
    | .ok profile =>
      if profile.isIntact then
        modifyRecords (·.withProfile slot profile)
        loadProfiles rest
      else
        modifyRecords (·.withProfile slot (.template slot))
        if ← commit [.profile slot] then loadProfiles rest else return false

def load : Routine Store Bool := do
  match ← fetch .manager ManagerRecord.codec with
  | .error _ => return false
  | .ok manager =>
    if !manager.isValid then return false
    match ← fetch .quick QuickWord.codec with
    | .error _ => return false
    | .ok quick =>
      modifyRecords ({ · with quick, manager })
      loadProfiles (List.finRange maxProfiles)

/-- Replaces the whole region by the built-in contents. If they cannot be written,
the copies hold them nevertheless. -/
def restoreDefaults (now : UInt32) : Routine Store Unit := do
  modifyRecords fun _ => Records.default.modifyManager ({ · with lastSave := now })
  let _ ← commit Part.all

/-- The settings that the quick word and the active profile make up together. -/
def bootSettings (s : Store) (live : DeviceSettings) : Except Fault DeviceSettings := do
  let profile ← s.activeRecord
  return profile.applyExtended (s.records.quick.apply live)

/-- Loads or replaces the region and returns the settings that result from it. If
the manager record forbids loading, the first profile is put in force without a
word to the flash. -/
def init (live : DeviceSettings) (now : UInt32) : Routine Store DeviceSettings := do
  if !(← load) then restoreDefaults now
  modifyRecords fun r => { r with quick := { r.quick with active := r.manager.active } }
  let s ← get
  let live ←
    if s.records.manager.autoLoad then
      s.bootSettings live
    else do
      let live := { (s.records.profile 0).apply live with profile := 0 }
      modifyRecords fun r =>
        { r.modifyManager ({ · with active := 0 }) with quick := r.quick.capture live }
      pure live
  modify ({ · with dirty := false, lastChange := now })
  return live

def factoryReset (now : UInt32) : Routine Store DeviceSettings := do
  restoreDefaults now
  modify ({ · with dirty := false, lastChange := now })
  (← get).bootSettings {}

/-- The reset for emergencies leaves no less behind than the factory reset. -/
def emergencyReset (now : UInt32) : Routine Store DeviceSettings := factoryReset now

def verify : Routine Store Bool := do
  match ← fetch .manager ManagerRecord.codec with
  | .error _ => return false
  | .ok manager =>
    if manager.isIntact then profiles (List.finRange maxProfiles) else return false
where
  profiles : List (Fin maxProfiles) → Routine Store Bool
    | [] => return true
    | slot :: rest => do
      match ← fetch (.profile slot) ProfileRecord.codec with
      | .error _ => return false
      | .ok profile => if profile.isIntact then profiles rest else return false

end Store

end TwinStick
