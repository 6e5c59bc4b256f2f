import TwinStick.Checksum
import TwinStick.Codec

/-! The record about the profiles as a whole: which one is active, and what the
device may do on its own. Its last two bytes are the checksum of the others. -/

namespace TwinStick

abbrev maxProfiles : Nat := 4

instance : @NeZero Nat Zero.ofOfNat0 maxProfiles := ⟨Nat.succ_ne_zero 3⟩

/-- The layout of the persisted records. Any change of a layout needs a new
number, or old bytes would be read by new rules. -/
def layoutVersion : UInt16 := 1

structure ManagerRecord where
  active : UInt8
  count : UInt8
  autoLoad : Bool
  switching : Bool
  autoSave : Bool
  reserved : UInt8
  lastSave : UInt32
  version : UInt16
  checksum : UInt16
deriving DecidableEq

namespace ManagerRecord

/-- The fields in the order in which they are packed. -/
abbrev Layout :=
  UInt8 × UInt8 × Bool × Bool × Bool × UInt8 × UInt32 × UInt16 × UInt16

def fields (m : ManagerRecord) : Layout :=
  (m.active, m.count, m.autoLoad, m.switching, m.autoSave, m.reserved, m.lastSave, m.version,
    m.checksum)

def ofFields : Layout → ManagerRecord
  | (active, count, autoLoad, switching, autoSave, reserved, lastSave, version, checksum) =>
    { active, count, autoLoad, switching, autoSave, reserved, lastSave, version, checksum }

def codec : Codec ManagerRecord :=
  .via ofFields fields <|
    .prod (.uint8 8) <| .prod (.uint8 8) <| .prod .bool <| .prod .bool <| .prod .bool <|
      .prod (.uint8 5) <| .prod .uint32 <| .prod .uint16 .uint16

def bodyChecksum (m : ManagerRecord) : UInt16 :=
  TwinStick.checksum ((codec.pack m).take (codec.size - 2))

def sealed (m : ManagerRecord) : ManagerRecord := { m with checksum := m.bodyChecksum }

def isIntact (m : ManagerRecord) : Bool := m.bodyChecksum == m.checksum

def default : ManagerRecord :=
  sealed {
    active := 0
    count := UInt8.ofNat maxProfiles
    autoLoad := true
    switching := true
    autoSave := true
    reserved := 0
    lastSave := 0
    version := layoutVersion
    checksum := 0 }

/-- A record that may be loaded: it names a slot, has the current layout and is
undamaged. -/
def isValid (m : ManagerRecord) : Bool :=
  m.active.toNat < maxProfiles && m.version == layoutVersion && m.isIntact

end ManagerRecord

end TwinStick
