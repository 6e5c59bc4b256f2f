import TwinStick.Hardware.Flash
import TwinStick.Store.Region

/-! The profile store: the configuration region in flash together with a copy of
its records. Operations change the copy first and then write the records that
changed, one by one, until one of the writes fails. -/

namespace TwinStick

inductive StoreError where
  | storage (cause : FlashError)
  | packing
deriving DecidableEq

def StoreError.ofPack (_ : PackError) : StoreError := packing

structure Store where
  flash : Flash
  base : UInt32
  records : Records := .default
  /-- There are settings in force that were not saved. -/
  dirty : Bool := false
  /-- When the last such settings came about. -/
  lastChange : UInt32 := 0

namespace Store

def ofFlash (flash : Flash) (base : UInt32) : Store := { flash, base }

def active (s : Store) : UInt8 := s.records.manager.active

def activeRecord (s : Store) : Except Fault ProfileRecord := do
  let slot ← s.records.activeSlot
  return s.records.profile slot

def profile? (s : Store) (id : UInt8) : Option ProfileRecord :=
  (Records.slot? id).map s.records.profile

def name? (s : Store) (id : UInt8) : Option String := (s.profile? id).map (·.name.text)

def isComboEnabled (s : Store) (combo : Combo) : Except Fault Bool := do
  let profile ← s.activeRecord
  return profile.combo.mask &&& combo.bit != 0

/-- Settings in force have changed and are to be saved once it has been quiet for
a while. -/
def markDirty (s : Store) (now : UInt32) : Store := { s with dirty := true, lastChange := now }

/-- Edits the copy of a record in place, neither sealing nor writing it. -/
def editProfile? (s : Store) (id : UInt8) (f : ProfileRecord → ProfileRecord) : Option Store :=
  (Records.slot? id).map fun slot =>
    { s with records := s.records.withProfile slot (f (s.records.profile slot)) }

def modifyRecords (f : Records → Records) : Routine Store Unit :=
  modify fun s => { s with records := f s.records }

def onFlash (r : Routine Flash α) : Routine Store α :=
  r.onPart (·.flash) fun flash s => { s with flash }

/-- The address of a record. Past the last address there is none. -/
def address (s : Store) (part : Part) : Except Fault UInt32 :=
  Checked.addUInt32 s.base (UInt32.ofNat part.offset)

def fetch (part : Part) (codec : Codec α) : Routine Store (Except StoreError α) := do
  let address ← (← get).address part
  match ← onFlash (Flash.read address codec.size) with
  | .error e => return .error (.storage e)
  | .ok bytes => return (codec.unpack bytes).mapError .ofPack

def persist (part : Part) : Routine Store (Except StoreError Unit) := do
  let s ← get
  let address ← s.address part
  let result ← onFlash (Flash.write address (s.records.image part))
  return result.mapError .storage

/-- Writes records in turn until one fails; whether all were written. -/
def commit : List Part → Routine Store Bool
  | [] => return true
  | part :: rest => do
    match ← persist part with
    | .ok () => commit rest
    | .error _ => return false

end Store

end TwinStick
