import TwinStick.Profile.QuickWord
import TwinStick.Profile.ProfileRecord

/-! The region of flash that holds the configuration: the quick word, the manager
record and the profiles, back to back. -/

namespace TwinStick

inductive Part where
  | quick
  | manager
  | profile (slot : Fin maxProfiles)
deriving DecidableEq

namespace Part

def length : Part → Nat
  | quick => QuickWord.codec.size
  | manager => ManagerRecord.codec.size
  | profile _ => ProfileRecord.codec.size

/-- Where a record starts, counted from the start of the region. -/
def offset : Part → Nat
  | quick => 0
  | manager => QuickWord.codec.size
  | profile slot =>
    QuickWord.codec.size + ManagerRecord.codec.size + slot * ProfileRecord.codec.size

def profiles : List Part := (List.finRange maxProfiles).map profile

/-- The records in the order in which they lie. -/
def all : List Part := quick :: manager :: profiles

end Part

def regionLength : Nat :=
  QuickWord.codec.size + ManagerRecord.codec.size + maxProfiles * ProfileRecord.codec.size

structure Records where
  quick : QuickWord
  manager : ManagerRecord
  profiles : Vector ProfileRecord maxProfiles
deriving DecidableEq

namespace Records

def default : Records where
  quick := {}
  manager := .default
  profiles := .ofFn fun slot => .template slot

def profile (r : Records) (slot : Fin maxProfiles) : ProfileRecord := r.profiles[slot]

def image (r : Records) : Part → List UInt8
  | .quick => QuickWord.codec.pack r.quick
  | .manager => ManagerRecord.codec.pack r.manager
  | .profile slot => ProfileRecord.codec.pack (r.profile slot)

def bytes (r : Records) : List UInt8 := Part.all.flatMap r.image

/-- The slot of the given number. A number that is none stops the device. -/
def slot (id : UInt8) : Except Fault (Fin maxProfiles) :=
  if h : id.toNat < maxProfiles then .ok ⟨id.toNat, h⟩
  else .error (.indexOutOfBounds maxProfiles id.toNat)

def slot? (id : UInt8) : Option (Fin maxProfiles) :=
  if h : id.toNat < maxProfiles then some ⟨id.toNat, h⟩ else none

def activeSlot (r : Records) : Except Fault (Fin maxProfiles) := slot r.manager.active

def withProfile (r : Records) (slot : Fin maxProfiles) (p : ProfileRecord) : Records :=
  { r with profiles := r.profiles.set slot p }

@[simp] theorem profile_withProfile_self (r : Records) (slot : Fin maxProfiles)
    (p : ProfileRecord) : (r.withProfile slot p).profile slot = p := by
  simp [withProfile, profile]

theorem profile_withProfile_of_ne (r : Records) {slot other : Fin maxProfiles} (p : ProfileRecord)
    (h : other ≠ slot) : (r.withProfile slot p).profile other = r.profile other := by
  have h : slot.val ≠ other.val := fun e => h (Fin.ext e.symm)
  simp [withProfile, profile, h]

def modifyManager (r : Records) (f : ManagerRecord → ManagerRecord) : Records :=
  { r with manager := (f r.manager).sealed }

@[simp] theorem length_image (r : Records) (p : Part) : (r.image p).length = p.length := by
  cases p <;> simp [image, Part.length]

end Records

theorem regionLength_eq : regionLength = 299 := rfl

end TwinStick
