import TwinStick.Proofs.StoresSideBySide

/-! The records under a clock that is ahead. All are the same but for the manager record, which
holds the time of the last save and a checksum over it: once it was saved that time is ahead as
well, in the copy and, once it was written, in memory. -/

namespace TwinStick

open Routine

variable {k base : UInt32} {old : UInt32 → Prop}

namespace ManagerRecord

/-- A record and how it is under a clock that is ahead. Only one that still has an old time, from
before the clock was started, has the same. -/
inductive Later (k : UInt32) (old : UInt32 → Prop) : ManagerRecord → ManagerRecord → Prop
  | unsaved (m : ManagerRecord) (h : old m.lastSave) : Later k old m m
  | saved (m : ManagerRecord) (h : m.isIntact = true) : Later k old m (m.savedAt (m.lastSave + k))

theorem sealed_withChecksum (m : ManagerRecord) (checksum : UInt16) :
    { m with checksum }.sealed = m.sealed := by
  have hbody : { m with checksum }.bodyChecksum = m.bodyChecksum :=
    congrArg TwinStick.checksum ((sameHead m checksum).take_pack codec_whole)
  rw [sealed, sealed, hbody]

theorem savedAt_sealed (m : ManagerRecord) (time : UInt32) :
    m.sealed.savedAt time = m.savedAt time :=
  sealed_withChecksum { m with lastSave := time } m.bodyChecksum

theorem lastSave_savedAt (m : ManagerRecord) (time : UInt32) :
    (m.savedAt time).lastSave = time := rfl

theorem isIntact_savedAt (m : ManagerRecord) (time : UInt32) :
    (m.savedAt time).isIntact = true := isIntact_sealed _

theorem savedAt_savedAt (m : ManagerRecord) (time time' : UInt32) :
    (m.savedAt time).savedAt time' = m.savedAt time' :=
  savedAt_sealed { m with lastSave := time } time'

theorem reread_sealed (m : ManagerRecord) : codec.reread m.sealed = (codec.reread m).sealed := by
  have hbody : (codec.reread m).bodyChecksum = m.bodyChecksum := by
    rw [bodyChecksum, Codec.pack_reread codec_lawful, bodyChecksum]
  rw [sealed, sealed, hbody, reread_codec, reread_codec]

section

variable {m m' : ManagerRecord} {f : ManagerRecord → ManagerRecord}

theorem Timeless.lastSave (hf : Timeless f) (m : ManagerRecord) :
    (f m).lastSave = m.lastSave := by
  have hsame : f m = { f m with lastSave := m.lastSave, checksum := m.checksum } := hf m _ _
  rw [hsame]

theorem Timeless.sealed_savedAt (hf : Timeless f) (m : ManagerRecord) (time : UInt32) :
    (f (m.savedAt time)).sealed = (f m).savedAt time := by
  let checksum := { m with lastSave := time }.bodyChecksum
  have hsaved : f (m.savedAt time) = { f m with lastSave := time, checksum } := hf m time checksum
  rw [hsaved]
  exact sealed_withChecksum { f m with lastSave := time } checksum

theorem Later.active (h : Later k old m m') : m'.active = m.active := by cases h <;> rfl

theorem Later.autoLoad (h : Later k old m m') : m'.autoLoad = m.autoLoad := by cases h <;> rfl

theorem Later.switching (h : Later k old m m') : m'.switching = m.switching := by cases h <;> rfl

theorem Later.autoSave (h : Later k old m m') : m'.autoSave = m.autoSave := by cases h <;> rfl

theorem Later.isIntact (h : Later k old m m') : m'.isIntact = m.isIntact := by
  cases h with
  | unsaved => rfl
  | saved hm => rw [hm, isIntact_savedAt]

theorem Later.isValid (h : Later k old m m') : m'.isValid = m.isValid := by
  have hversion : m'.version = m.version := by cases h <;> rfl
  rw [ManagerRecord.isValid, ManagerRecord.isValid, h.isIntact, h.active, hversion]

/-- What was saved meanwhile was saved at a time that is ahead. -/
theorem Later.lastSave (h : Later k old m m') (hnew : ¬ old m.lastSave) :
    m'.lastSave = m.lastSave + k := by
  cases h with
  | unsaved hold => exact absurd hold hnew
  | saved => rfl

theorem later_savedAt (m : ManagerRecord) (now : UInt32) :
    Later k old (m.savedAt now) (m.savedAt (now + k)) := by
  have hsaved : Later k old (m.savedAt now) _ := .saved _ (isIntact_savedAt m now)
  rwa [lastSave_savedAt, savedAt_savedAt] at hsaved

theorem Later.change (h : Later k old m m') (hf : Timeless f) :
    Later k old (f m).sealed (f m').sealed := by
  cases h with
  | unsaved ho => exact .unsaved _ ((hf.lastSave m).symm ▸ ho)
  | saved hm =>
    -- to be sealed anew hides that the checksum before it was over another time
    have htime : (f m).sealed.lastSave = m.lastSave := hf.lastSave m
    rw [hf.sealed_savedAt, ← savedAt_sealed, ← htime]
    exact .saved _ (isIntact_sealed _)

theorem Later.save (h : Later k old m m') (now : UInt32) :
    Later k old (m.savedAt now) (m'.savedAt (now + k)) := by
  cases h with
  | unsaved => exact later_savedAt m now
  | saved hm =>
    rw [savedAt_savedAt]
    exact later_savedAt m now

theorem Later.reread (h : Later k old m m') : Later k old (codec.reread m) (codec.reread m') := by
  cases h with
  | unsaved ho =>
    refine .unsaved _ ?_
    rwa [reread_codec]
  | saved hm =>
    have hlater : codec.reread (m.savedAt (m.lastSave + k)) =
        (codec.reread m).savedAt ((codec.reread m).lastSave + k) := by
      rw [savedAt, reread_sealed, reread_codec, savedAt, reread_codec]
    rw [hlater]
    exact .saved _ ((isIntact_reread m).trans hm)

end

end ManagerRecord

theorem ManagerRecord.length_image (m : ManagerRecord) :
    (codec.pack m).length = Part.manager.length := Codec.length_pack _ m

/-- Events under either clock. The bytes of a saved manager record are all that differs. -/
inductive Event.Later (k : UInt32) (old : UInt32 → Prop) : Event → Event → Prop
  | same (e : Event) : Later k old e e
  | saved {m m' : ManagerRecord} (h : m.Later k old m') (offset : UInt32) :
    Later k old (.write offset (ManagerRecord.codec.pack m))
      (.write offset (ManagerRecord.codec.pack m'))

/-- The packed manager record under either clock. -/
inductive ManagerRecord.LaterBytes (k : UInt32) (old : UInt32 → Prop) :
    List UInt8 → List UInt8 → Prop
  | same (bytes : List UInt8) (h : old (codec.read bytes).lastSave) : LaterBytes k old bytes bytes
  | saved {m m' : ManagerRecord} (h : m.Later k old m') :
    LaterBytes k old (codec.pack m) (codec.pack m')

namespace Flash

/-- Where the manager record lies. -/
def managerOffset (base : UInt32) : Nat := base.toNat + Part.manager.offset

/-- Memory under either clock, with the manager record of the region at a base. -/
structure Later (k base : UInt32) (old : UInt32 → Prop) (f f' : Flash) : Prop where
  reads : f'.reads = f.reads
  writes : f'.writes = f.writes
  capacity : f'.capacity = f.capacity
  others : ∀ i, i < managerOffset base ∨ managerOffset base + Part.manager.length ≤ i →
    f'.bytes[i]? = f.bytes[i]?
  manager : ManagerRecord.LaterBytes k old (f.slice (managerOffset base) Part.manager.length)
    (f'.slice (managerOffset base) Part.manager.length)

/-- The time in the manager record, as the bytes in its place have it. -/
def lastSave (f : Flash) (base : UInt32) : UInt32 :=
  (ManagerRecord.codec.read (f.slice (managerOffset base) Part.manager.length)).lastSave

theorem later_self {f : Flash} (h : old (f.lastSave base)) : Later k base old f f :=
  ⟨rfl, rfl, rfl, fun _ _ => rfl, .same _ h⟩

/-- A part of memory that the manager record has no share in. -/
def Apart (base offset : UInt32) (length : Nat) : Prop :=
  offset.toNat + length ≤ managerOffset base ∨
    managerOffset base + Part.manager.length ≤ offset.toNat

variable {f f' : Flash} {offset : UInt32} {length : Nat}

theorem Later.slice (h : Later k base old f f') (ha : Apart base offset length) :
    f'.slice offset.toNat length = f.slice offset.toNat length := by
  refine List.ext_getElem? fun i => ?_
  rw [Flash.slice, Flash.slice, List.getElem?_take, List.getElem?_take]
  split
  · rw [List.getElem?_drop, List.getElem?_drop]
    refine h.others _ ?_
    unfold Apart at ha
    omega
  · rfl

theorem getElem?_overwrite_within {f : Flash} {offset i : Nat} {bytes : List UInt8}
    (h : offset + bytes.length ≤ f.capacity) (hi : offset ≤ i ∧ i < offset + bytes.length) :
    (f.overwrite offset bytes).bytes[i]? = bytes[i - offset]? := by
  rw [capacity] at h
  have hl : (f.bytes.take offset).length = offset := by
    rw [List.length_take]
    omega
  have hlt : i < (f.bytes.take offset ++ bytes).length := by
    rw [List.length_append, hl]
    exact hi.2
  rw [overwrite, List.getElem?_append_left hlt, List.getElem?_append_right (by omega), hl]

theorem Later.overwrite (h : Later k base old f f') {offset : UInt32} {bytes : List UInt8}
    (hroom : offset.toNat + bytes.length ≤ f.capacity) (ha : Apart base offset bytes.length) :
    Later k base old (f.overwrite offset.toNat bytes) (f'.overwrite offset.toNat bytes) := by
  have hroom' : offset.toNat + bytes.length ≤ f'.capacity := h.capacity ▸ hroom
  refine ⟨h.reads, h.writes, ?_, fun i hi => ?_, ?_⟩
  · rw [capacity_overwrite hroom, capacity_overwrite hroom', h.capacity]
  · by_cases hin : offset.toNat ≤ i ∧ i < offset.toNat + bytes.length
    · rw [getElem?_overwrite_within hroom hin, getElem?_overwrite_within hroom' hin]
    · rw [getElem?_overwrite hroom (by omega), getElem?_overwrite hroom' (by omega)]
      exact h.others i hi
  · have hd := ha.symm
    rw [slice_overwrite_of_disjoint hroom hd, slice_overwrite_of_disjoint hroom' hd]
    exact h.manager

theorem Later.overwrite_manager (h : Later k base old f f') {m m' : ManagerRecord}
    (hm : m.Later k old m') (hroom : managerOffset base + Part.manager.length ≤ f.capacity) :
    Later k base old (f.overwrite (managerOffset base) (ManagerRecord.codec.pack m))
      (f'.overwrite (managerOffset base) (ManagerRecord.codec.pack m')) := by
  have hfits : managerOffset base + (ManagerRecord.codec.pack m).length ≤ f.capacity := by
    rwa [ManagerRecord.length_image]
  have hfits' : managerOffset base + (ManagerRecord.codec.pack m').length ≤ f'.capacity := by
    rwa [ManagerRecord.length_image, h.capacity]
  refine ⟨h.reads, h.writes, ?_, fun i hi => ?_, ?_⟩
  · rw [capacity_overwrite hfits, capacity_overwrite hfits', h.capacity]
  · rw [getElem?_overwrite hfits (by rwa [ManagerRecord.length_image]),
      getElem?_overwrite hfits' (by rwa [ManagerRecord.length_image])]
    exact h.others i hi
  · have hs := slice_overwrite_self hfits
    have hs' := slice_overwrite_self hfits'
    rw [ManagerRecord.length_image] at hs hs'
    rw [hs, hs']
    exact .saved hm

theorem Later.askReads (h : Later k base old f f') (reads : Gate) :
    Later k base old { f with reads } { f' with reads } :=
  ⟨rfl, h.writes, h.capacity, h.others, h.manager⟩

theorem Later.askWrites (h : Later k base old f f') (writes : Gate) :
    Later k base old { f with writes } { f' with writes } :=
  ⟨h.reads, rfl, h.capacity, h.others, h.manager⟩

section

variable (offset length)

theorem paired_read_apart (ha : Apart base offset length) :
    Paired (Event.Later k old) (Later k base old) (Alike Eq) (read offset length)
      (read offset length) :=
  paired_read (fun _ _ h => ⟨h.capacity, h.reads⟩) (fun _ _ reads h => h.askReads reads)
    fun _ _ h _ => (h.slice ha).symm

theorem paired_read_manager (ho : offset.toNat = managerOffset base) :
    Paired (Event.Later k old) (Later k base old) (Alike (ManagerRecord.LaterBytes k old))
      (read offset Part.manager.length) (read offset Part.manager.length) :=
  paired_read (fun _ _ h => ⟨h.capacity, h.reads⟩) (fun _ _ reads h => h.askReads reads)
    fun _ _ h _ => by
      rw [ho]
      exact h.manager

end

theorem paired_write_later {bytes bytes' : List UInt8} (hlength : bytes'.length = bytes.length)
    (hevent : Event.Later k old (.write offset bytes) (.write offset bytes'))
    (hwrite : ∀ f f', Later k base old f f' → offset.toNat + bytes.length ≤ f.capacity →
      Later k base old (f.overwrite offset.toNat bytes) (f'.overwrite offset.toNat bytes')) :
    Paired (Event.Later k old) (Later k base old) Eq
      (write offset bytes) (write offset bytes') :=
  paired_write .same hlength hevent (fun _ _ h => ⟨h.capacity, h.writes⟩)
    (fun _ _ writes h => h.askWrites writes) hwrite

theorem paired_write_manager {m m' : ManagerRecord} (hm : m.Later k old m')
    (ho : offset.toNat = managerOffset base) :
    Paired (Event.Later k old) (Later k base old) Eq
      (write offset (ManagerRecord.codec.pack m)) (write offset (ManagerRecord.codec.pack m')) := by
  refine paired_write_later (m'.length_image.trans m.length_image.symm) (.saved hm offset) ?_
  intro f f' h hroom
  rw [ManagerRecord.length_image, ho] at hroom
  rw [ho]
  exact h.overwrite_manager hm hroom

end Flash

theorem Part.apart_of_ne {p : Part} (hp : p ≠ .manager) {a : UInt32}
    (ha : a.toNat = base.toNat + p.offset) : Flash.Apart base a p.length := by
  have hd := Part.disjoint_of_ne hp.symm
  unfold Flash.Apart Flash.managerOffset
  omega

structure Records.Later (k : UInt32) (old : UInt32 → Prop) (r r' : Records) : Prop where
  quick : r'.quick = r.quick
  manager : r.manager.Later k old r'.manager
  profiles : r'.profiles = r.profiles

namespace Records

theorem later_self {r : Records} (h : old r.manager.lastSave) : r.Later k old r :=
  ⟨rfl, .unsaved _ h, rfl⟩

variable {r r' : Records}

theorem Later.profile (h : r.Later k old r') : r'.profile = r.profile := by
  funext slot
  rw [Records.profile, Records.profile, h.profiles]

end Records

end TwinStick
