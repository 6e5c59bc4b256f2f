import TwinStick.Proofs.LaterInputs
import TwinStick.Proofs.LaterRecords

/-! The store under a clock that is ahead. Whether it saves depends on how long ago a change was
marked, so every call goes the same way and leaves the same records behind, but for the times. -/

namespace TwinStick

open Routine

variable {k base : UInt32} {old : UInt32 → Prop}

namespace Store

/-- A store at a base and how it is under a clock that is ahead. Until a change is marked no time
of one is known. -/
structure Later (k base : UInt32) (old : UInt32 → Prop) (s s' : Store) : Prop where
  base_eq : s.base = base
  base_eq' : s'.base = base
  flash : s.flash.Later k base old s'.flash
  records : s.records.Later k old s'.records
  dirty : s'.dirty = s.dirty
  lastChange : s'.lastChange = s.lastChange + k ∨
    s.dirty = false ∧ s.lastChange = 0 ∧ s'.lastChange = 0

section

variable {s s' : Store} (h : Later k base old s s')

include h

theorem Later.markDirty (now : UInt32) :
    Later k base old (s.markDirty now) (s'.markDirty (now + k)) :=
  { h with dirty := rfl, lastChange := .inl rfl }

theorem Later.activeRecord : s'.activeRecord = s.activeRecord := by
  rw [Store.activeRecord, Store.activeRecord, Records.activeSlot, Records.activeSlot,
    h.records.manager.active, h.records.profile]

theorem Later.isComboEnabled (combo : Combo) :
    s'.isComboEnabled combo = s.isComboEnabled combo := by
  rw [Store.isComboEnabled, Store.isComboEnabled, h.activeRecord]

end

end Store

namespace StoreComparison

/-- Stores are compared across clocks. -/
abbrev later (k base : UInt32) (old : UInt32 → Prop) : StoreComparison where
  base := base
  stores := Store.Later k base old
  flashes := Flash.Later k base old
  events := Event.Later k old
  bytes
    | .manager => ManagerRecord.LaterBytes k old
    | _ => Eq
  managers := ManagerRecord.Later k old
  times now now' := now' = now + k

theorem match_later_iff {r r' : Records} :
    r.Match (later k base old) r' ↔ r.Later k old r' := by
  constructor
  · exact fun h => ⟨h.quick.symm, h.manager, Vector.ext fun i hi => (h.profile ⟨i, hi⟩).symm⟩
  · exact fun h => ⟨h.quick.symm, h.manager, fun slot => (congrFun h.profile slot).symm⟩

theorem consistent_later : (later k base old).Consistent where
  settings_self _ := rfl
  numbered hs _ := by rw [hs]
  quick_self _ := rfl
  aimed hq _ := by rw [hq]
  noted hq _ _ hs := by rw [hq, hs]
  recalled hq _ _ hs := by rw [hq, hs]
  active hm := hm.active
  autoLoad hm := hm.autoLoad
  switching hm := hm.switching
  autoSave hm := hm.autoSave
  isIntact hm := hm.isIntact
  isValid hm := hm.isValid
  changed hm _ hf := hm.change hf
  stamped m now _ hn := by
    rw [hn]
    exact ManagerRecord.later_savedAt m now
  saved hm now _ hn := by
    rw [hn]
    exact hm.save now
  profile_self _ := rfl
  sealed hp := by rw [hp]
  renamed hp _ := by rw [hp]
  namedAs hp ho := by rw [hp, ho]
  masked hp _ := by rw [hp]
  features hp := by rw [hp]
  captured hp _ _ hs := by rw [hp, hs]
  applied hp _ _ hs := by rw [hp, hs]
  extended hp _ _ hs := by rw [hp, hs]

/-- Only the manager record is written with other bytes. -/
theorem write_later {p : Part} {r r' : Records} (hr : r.Later k old r') {a : UInt32}
    (ha : a.toNat = base.toNat + p.offset) :
    Paired (Event.Later k old) (Flash.Later k base old) Eq (Flash.write a (r.image p))
      (Flash.write a (r'.image p)) := by
  by_cases hp : p = .manager
  · subst hp
    exact Flash.paired_write_manager hr.manager ha
  · have himage : r'.image p = r.image p := by
      cases p with
      | quick => rw [Records.image, Records.image, hr.quick]
      | manager => exact absurd rfl hp
      | profile slot => rw [Records.image, Records.image, hr.profile]
    rw [himage]
    refine Flash.paired_write_later rfl (.same _) fun f f' hf hroom => hf.overwrite hroom ?_
    rw [Records.length_image]
    exact Part.apart_of_ne hp ha

/-- Only the manager record is read with other bytes. -/
theorem read_later (p : Part) {a : UInt32} (ha : a.toNat = base.toNat + p.offset) :
    Paired (Event.Later k old) (Flash.Later k base old) (Alike ((later k base old).bytes p))
      (Flash.read a p.length) (Flash.read a p.length) := by
  have hothers (hp : p ≠ .manager) : Paired (Event.Later k old) (Flash.Later k base old)
      (Alike Eq) (Flash.read a p.length) (Flash.read a p.length) :=
    Flash.paired_read_apart a p.length (Part.apart_of_ne hp ha)
  cases p with
  | manager => exact Flash.paired_read_manager a ha
  | quick | profile slot => exact hothers (by simp)

theorem unpack_later {bytes bytes' : List UInt8} (h : ManagerRecord.LaterBytes k old bytes bytes') :
    Alike (ManagerRecord.Later k old) (ManagerRecord.codec.unpack bytes)
      (ManagerRecord.codec.unpack bytes') := by
  cases h with
  | same bytes ho =>
    unfold Codec.unpack
    split
    · exact .ok (.unsaved _ ho)
    · exact .fault _
  | saved hm =>
    rw [Codec.unpack_eq (Codec.length_pack _ _), Codec.unpack_eq (Codec.length_pack _ _),
      Codec.read_pack ManagerRecord.codec_whole, Codec.read_pack ManagerRecord.codec_whole]
    exact .ok hm.reread

theorem lawful_later : (later k base old).Lawful where
  toConsistent := consistent_later
  base_eq h := ⟨h.base_eq, h.base_eq'⟩
  flash h := h.flash
  records h := match_later_iff.mpr h.records
  dirty h := h.dirty
  lastChange h hd := h.lastChange.resolve_right fun hl => nomatch hl.1.symm.trans hd
  setFlash h _ _ hf := { h with flash := hf }
  setRecords h _ _ hr := { h with records := match_later_iff.mp hr }
  markDirty h now _ hn := by
    rw [hn]
    exact h.markDirty now
  clean h := { h with dirty := rfl, lastChange := h.lastChange.imp_right fun hl => ⟨rfl, hl.2⟩ }
  settle h _ _ hn := { h with dirty := rfl, lastChange := .inl hn }
  elapsed hs hn := by rw [hs, hn, elapsed_later]
  read p _ ha := read_later p ha
  write hr _ _ _ ha := write_later (match_later_iff.mp hr) ha
  quick hb := .of_eq (fun _ => rfl) (congrArg _ hb.symm)
  manager hb := unpack_later hb
  profile hb := .of_eq (fun _ => ⟨rfl, rfl⟩) (congrArg _ hb.symm)

end StoreComparison

namespace StoreCall

/-- The call at a time that is ahead. -/
def delayed (k : UInt32) : StoreCall → StoreCall
  | init now => init (now + k)
  | save now => save (now + k)
  | markDirty now => markDirty (now + k)
  | task now => task (now + k)
  | factoryReset now => factoryReset (now + k)
  | emergencyReset now => emergencyReset (now + k)
  | call => call

theorem calls_delayed (call : StoreCall) :
    (StoreComparison.later k base old).Calls call (call.delayed k) := by
  cases call with
  | init now => exact .init rfl
  | save now => exact .save rfl
  | markDirty now => exact .markDirty rfl
  | task now => exact .task rfl
  | factoryReset now => exact .factoryReset rfl
  | emergencyReset now => exact .emergencyReset rfl
  | editProfile id edit => exact .editProfile id fun _ _ hp => congrArg edit hp
  | _ => exact .same _ id

end StoreCall

end TwinStick
