import TwinStick.Store.Save

/-! Changes to single records: resetting, renaming, copying, importing and
exporting profiles, enabling combos, and the switches of the manager record. -/

namespace TwinStick

namespace Store

def putProfile (slot : Fin maxProfiles) (p : ProfileRecord) : Routine Store Bool := do
  modifyRecords (·.withProfile slot p)
  commit [.profile slot]

/-- Does something to the slot of a number; a number that is no slot is refused. -/
def withSlot (id : UInt8) (f : Fin maxProfiles → Routine Store Bool) : Routine Store Bool :=
  match Records.slot? id with
  | none => return false
  | some slot => f slot

/-- Puts a slot back to its template. The settings in force stay. -/
def resetProfile (id : UInt8) : Routine Store Bool :=
  withSlot id fun slot => putProfile slot (.template slot)

/-- Puts the active slot back to its template and in force. The quick word is
written only after the profile. -/
def resetCurrent (live : DeviceSettings) : Routine Store (Bool × DeviceSettings) := do
  let slot ← (← get).records.activeSlot
  let reset ← putProfile slot (.template slot)
  let live := ((← get).records.profile slot).apply live
  modifyRecords fun r => { r with quick := r.quick.capture live }
  modify ({ · with dirty := false })
  if reset then
    return (← commit [.quick], live)
  else return (false, live)

def saveProfile (id : UInt8) : Routine Store Bool :=
  withSlot id fun slot => do putProfile slot ((← get).records.profile slot).sealed

def rename (id : UInt8) (text : String) : Routine Store Bool :=
  withSlot id fun slot => do
    putProfile slot (((← get).records.profile slot).withName text).sealed

/-- Copies one profile over another, which keeps its name. -/
def copyProfile (source target : UInt8) : Routine Store Bool :=
  withSlot source fun source =>
    withSlot target fun target => do
      if source = target then return true
      let r := (← get).records
      putProfile target { r.profile source with name := (r.profile target).name }.sealed

def changeMask (f : UInt16 → UInt16) : Routine Store Bool := do
  let slot ← (← get).records.activeSlot
  let p := (← get).records.profile slot
  putProfile slot { p with combo := { p.combo with mask := f p.combo.mask } }.sealed

def enableCombo (combo : Combo) : Routine Store Bool := changeMask (· ||| combo.bit)

def disableCombo (combo : Combo) : Routine Store Bool := changeMask (· &&& ~~~combo.bit)

def changeManager (f : ManagerRecord → ManagerRecord) : Routine Store Bool := do
  modifyRecords (·.modifyManager f)
  commit [.manager]

def setAutoSave (on : Bool) : Routine Store Bool := changeManager ({ · with autoSave := on })

def setAutoLoad (on : Bool) : Routine Store Bool := changeManager ({ · with autoLoad := on })

def setSwitching (on : Bool) : Routine Store Bool := changeManager ({ · with switching := on })

/-- The packed copy of a profile, with its checksum. -/
def exportProfile (s : Store) (id : UInt8) : Option (List UInt8) :=
  (s.profile? id).map ProfileRecord.codec.pack

/-- Replaces a profile by a packed one, which has to be undamaged. -/
def importProfile (id : UInt8) (bytes : List UInt8) : Routine Store Bool :=
  withSlot id fun slot =>
    match ProfileRecord.codec.unpack bytes with
    | .error _ => return false
    | .ok p => if p.isIntact then putProfile slot p else return false

def saveAll : Routine Store Bool := do
  modifyRecords fun r =>
    { r.modifyManager id with profiles := r.profiles.map ProfileRecord.sealed }
  commit Part.all

end Store

end TwinStick
