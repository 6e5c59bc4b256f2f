import TwinStick.Store.Edit

/-! The operations of the store as values, so that a whole session can be written
down as a list. Each goes with the settings in force before it. -/

namespace TwinStick

inductive StoreCall where
  | init (now : UInt32)
  | switchProfile (id : UInt8)
  | save (now : UInt32)
  | markDirty (now : UInt32)
  | task (now : UInt32)
  | factoryReset (now : UInt32)
  | emergencyReset (now : UInt32)
  | resetProfile (id : UInt8)
  | resetCurrent
  | rename (id : UInt8) (text : String)
  | copyProfile (source target : UInt8)
  | enableCombo (combo : Combo)
  | disableCombo (combo : Combo)
  | setAutoSave (on : Bool)
  | setAutoLoad (on : Bool)
  | setSwitching (on : Bool)
  | importProfile (id : UInt8) (bytes : List UInt8)
  | saveProfile (id : UInt8)
  | saveAll
  | verify
  /-- An edit of a copy that is neither sealed nor written. -/
  | editProfile (id : UInt8) (edit : ProfileRecord → ProfileRecord)

namespace StoreCall

/-- Performs the operation. The result holds the settings in force after it, and
the answer if the operation has one. -/
def perform (live : DeviceSettings) : StoreCall → Routine Store (DeviceSettings × Option Bool)
  | init now => return (← Store.init live now, none)
  | switchProfile id => do
    let (switched, live) ← Store.switchProfile id live
    return (live, some switched)
  | save now => return (live, some (← Store.saveCurrent live now))
  | markDirty now => do
    modify (·.markDirty now)
    return (live, none)
  | task now => do
    Store.task live now
    return (live, none)
  | factoryReset now => return (← Store.factoryReset now, none)
  | emergencyReset now => return (← Store.emergencyReset now, none)
  | resetProfile id => return (live, some (← Store.resetProfile id))
  | resetCurrent => do
    let (reset, live) ← Store.resetCurrent live
    return (live, some reset)
  | rename id text => return (live, some (← Store.rename id text))
  | copyProfile source target => return (live, some (← Store.copyProfile source target))
  | enableCombo combo => return (live, some (← Store.enableCombo combo))
  | disableCombo combo => return (live, some (← Store.disableCombo combo))
  | setAutoSave on => return (live, some (← Store.setAutoSave on))
  | setAutoLoad on => return (live, some (← Store.setAutoLoad on))
  | setSwitching on => return (live, some (← Store.setSwitching on))
  | importProfile id bytes => return (live, some (← Store.importProfile id bytes))
  | saveProfile id => return (live, some (← Store.saveProfile id))
  | saveAll => return (live, some (← Store.saveAll))
  | verify => return (live, some (← Store.verify))
  | editProfile id edit => do
    match (← get).editProfile? id edit with
    | none => return (live, some false)
    | some s => do
      set s
      return (live, some true)

end StoreCall

end TwinStick
