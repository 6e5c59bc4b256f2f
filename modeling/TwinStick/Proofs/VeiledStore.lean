import TwinStick.Proofs.VeiledRecords

/-! The store behind a veil. Whatever is asked of it, with settings that are the same behind the
veil, it reads and writes at the same places and answers the same, and what it makes of its
records and of the settings is the same behind the veil again. -/

namespace TwinStick

open Routine

variable {v : Veil} {base : UInt32}

namespace Store

structure Veiled (v : Veil) (base : UInt32) (s s' : Store) : Prop where
  base_eq : s.base = base
  base_eq' : s'.base = base
  flash : s.flash.Veiled v base s'.flash
  records : s.records.Veiled v s'.records
  dirty : s'.dirty = s.dirty
  lastChange : s'.lastChange = s.lastChange

section

variable {s s' : Store}

theorem veiled_self (s : Store) : s.Veiled v s.base s :=
  ⟨rfl, rfl, s.flash.veiled_self, s.records.veiled_self, rfl, rfl⟩

theorem Veiled.eq_of_bare (h : s.Veiled v base s') (hb : v.Bare) : s' = s := by
  have hbase := h.base_eq'.trans h.base_eq.symm
  have hflash := h.flash.bare hb
  have hrecords := h.records.eq_of_bare hb
  have hdirty := h.dirty
  have hlast := h.lastChange
  cases s
  cases s'
  simp_all

theorem Veiled.markDirty (h : s.Veiled v base s') (now : UInt32) :
    (s.markDirty now).Veiled v base (s'.markDirty now) :=
  { h with dirty := rfl, lastChange := rfl }

end

end Store

namespace StoreComparison

/-- Stores are compared behind a veil. -/
abbrev veiled (v : Veil) (base : UInt32) : StoreComparison where
  base := base
  stores := Store.Veiled v base
  flashes := Flash.Veiled v base
  events := Event.Veiled v
  bytes p bytes bytes' := bytes.length = p.length ∧ p.Veiled v bytes bytes'
  quicks := QuickWord.Veiled v
  profiles := ProfileRecord.Veiled v
  settings := DeviceSettings.Veiled v

theorem match_veiled_iff {r r' : Records} : r.Match (veiled v base) r' ↔ r.Veiled v r' := by
  constructor
  · exact fun h => ⟨h.quick, h.manager.symm, h.profile⟩
  · exact fun h => ⟨h.quick, h.manager.symm, h.profile⟩

theorem consistent_veiled : (veiled v base).Consistent where
  settings_self := DeviceSettings.veiled_self
  numbered hs _ := { hs with profile := rfl }
  quick_self := QuickWord.veiled_self
  aimed hq _ := { hq with active := rfl }
  noted hq _ _ hs := hq.capture hs
  recalled hq _ _ hs := hq.apply hs
  active hm := by rw [hm]
  autoLoad hm := by rw [hm]
  switching hm := by rw [hm]
  autoSave hm := by rw [hm]
  isIntact hm := by rw [hm]
  isValid hm := by rw [hm]
  changed hm _ _ := by rw [hm]
  stamped m _ _ hn := by rw [hn]
  saved hm _ _ hn := by rw [hm, hn]
  profile_self := ProfileRecord.veiled_self
  sealed hp := hp.sealed
  renamed hp text := hp.withName text
  namedAs hp ho := { hp with name := ho.name }
  masked hp _ := { hp with combo := by rw [hp.combo] }
  features hp := by rw [hp.features]
  captured hp _ _ hs := hp.capture hs
  applied hp _ _ hs := hp.apply hs
  extended hp _ _ hs := hp.applyExtended hs

/-- Bytes that tell the same of a part are read as records that are the same. -/
theorem unpack_veiled {p : Part} {bytes bytes' : List UInt8}
    (h : (veiled v base).bytes p bytes bytes') {codec : Codec α} (hl : codec.size = p.length)
    {V : α → α → Prop} (hV : V (codec.read bytes) (codec.read bytes')) :
    Alike V (codec.unpack bytes) (codec.unpack bytes') := by
  obtain ⟨hlength, hp⟩ := h
  rw [Codec.unpack_eq (hlength.trans hl.symm),
    Codec.unpack_eq ((hp.length.trans hlength).trans hl.symm)]
  exact .ok hV

theorem lawful_veiled : (veiled v base).Lawful where
  toConsistent := consistent_veiled
  base_eq h := ⟨h.base_eq, h.base_eq'⟩
  flash h := h.flash
  records h := match_veiled_iff.mpr h.records
  dirty h := h.dirty
  lastChange h _ := h.lastChange.symm
  setFlash h _ _ hf := { h with flash := hf }
  setRecords h _ _ hr := { h with records := match_veiled_iff.mp hr }
  markDirty h now _ hn := by
    rw [← hn]
    exact h.markDirty now
  clean h := { h with dirty := rfl }
  settle h _ _ hn := { h with dirty := rfl, lastChange := hn.symm }
  elapsed hs hn := by rw [hs, hn]
  read _ _ ha := Flash.paired_read_part ha
  write {p r _} hr hready hready' _ ha :=
    Flash.paired_write_part ha ((match_veiled_iff.mp hr).image p hready hready') (r.length_image p)
  quick hb := unpack_veiled hb rfl hb.2.record
  manager hb := unpack_veiled hb rfl (congrArg _ hb.2.record.symm)
  profile hb := unpack_veiled hb rfl hb.2.record

end StoreComparison

theorem Store.Veiled.isComboEnabled {s s' : Store} (h : s.Veiled v base s') (combo : Combo) :
    s'.isComboEnabled combo = s.isComboEnabled combo := by
  have henabled : Alike Eq (s.activeRecord.map fun p => p.combo.mask &&& combo.bit != 0)
      (s'.activeRecord.map fun p => p.combo.mask &&& combo.bit != 0) :=
    (StoreComparison.lawful_veiled.activeRecord h).map fun _ _ hp => by rw [hp.combo]
  exact henabled.eq.symm

namespace StoreCall

/-- The same call, but for edits of a profile that are the same behind the veil. -/
inductive Veiled (v : Veil) : StoreCall → StoreCall → Prop
  | same (call : StoreCall) (h : ∀ id edit, call ≠ editProfile id edit) : Veiled v call call
  | editProfile (id : UInt8) {edit edit' : ProfileRecord → ProfileRecord}
    (h : ∀ p p', p.Veiled v p' → (edit p).Veiled v (edit' p')) :
    Veiled v (editProfile id edit) (editProfile id edit')

theorem calls_of_veiled {call call' : StoreCall} (h : call.Veiled v call') :
    (StoreComparison.veiled v base).Calls call call' := by
  cases h with
  | editProfile id hedit => exact .editProfile id hedit
  | same call hcall =>
    cases call with
    | init now => exact .init rfl
    | save now => exact .save rfl
    | markDirty now => exact .markDirty rfl
    | task now => exact .task rfl
    | factoryReset now => exact .factoryReset rfl
    | emergencyReset now => exact .emergencyReset rfl
    | editProfile id edit => exact absurd rfl (hcall id edit)
    | _ => exact .same _ id

end StoreCall

end TwinStick
