import TwinStick.Proofs.Decisions
import TwinStick.Proofs.Orderly
import TwinStick.Proofs.PairedRuns

/-! Two stores side by side. However their records and what lies in memory are compared, each
operation is gone through once: as long as what it reads, changes and writes is the same on both,
it answers the same and leaves the same behind. -/

namespace TwinStick

open Routine

namespace ManagerRecord

/-- The record saved at a time. -/
def savedAt (m : ManagerRecord) (time : UInt32) : ManagerRecord :=
  { m with lastSave := time }.sealed

/-- A change that has nothing to do with the time of saving. -/
def Timeless (f : ManagerRecord → ManagerRecord) : Prop :=
  ∀ m lastSave checksum, f { m with lastSave, checksum } = { f m with lastSave, checksum }

end ManagerRecord

/-- What of two stores is compared, with their regions at a base, and when it counts as the
same. -/
structure StoreComparison where
  base : UInt32
  stores : Store → Store → Prop
  flashes : Flash → Flash → Prop
  events : Event → Event → Prop
  bytes : Part → List UInt8 → List UInt8 → Prop
  quicks : QuickWord → QuickWord → Prop := Eq
  managers : ManagerRecord → ManagerRecord → Prop := Eq
  profiles : ProfileRecord → ProfileRecord → Prop := Eq
  settings : DeviceSettings → DeviceSettings → Prop := Eq
  times : UInt32 → UInt32 → Prop := Eq

namespace Records

/-- Of the parts named, the profiles are intact. -/
def Ready (r : Records) (parts : List Part) : Prop :=
  ∀ slot, .profile slot ∈ parts → (r.profile slot).isIntact = true

/-- The same, record by record. -/
structure Match (C : StoreComparison) (r r' : Records) : Prop where
  quick : C.quicks r.quick r'.quick
  manager : C.managers r.manager r'.manager
  profile (slot : Fin maxProfiles) : C.profiles (r.profile slot) (r'.profile slot)

theorem Match.withProfile {C : StoreComparison} {r r' : Records} (h : r.Match C r')
    (slot : Fin maxProfiles) {p p' : ProfileRecord} (hp : C.profiles p p') :
    (r.withProfile slot p).Match C (r'.withProfile slot p') := by
  refine ⟨h.quick, h.manager, fun other => ?_⟩
  by_cases ho : other = slot
  · subst ho
    rw [profile_withProfile_self, profile_withProfile_self]
    exact hp
  · rw [profile_withProfile_of_ne r p ho, profile_withProfile_of_ne r' p' ho]
    exact h.profile other

end Records

namespace StoreComparison

/-- What is made of the same settings and the same records is the same. -/
structure Consistent (C : StoreComparison) : Prop where
  settings_self (s : DeviceSettings) : C.settings s s
  numbered {s s' : DeviceSettings} (hs : C.settings s s') (id : UInt8) :
    C.settings { s with profile := id } { s' with profile := id }
  quick_self (q : QuickWord) : C.quicks q q
  aimed {q q' : QuickWord} (hq : C.quicks q q') (id : UInt8) :
    C.quicks { q with active := id } { q' with active := id }
  noted {q q' : QuickWord} (hq : C.quicks q q') {s s' : DeviceSettings} (hs : C.settings s s') :
    C.quicks (q.capture s) (q'.capture s')
  recalled {q q' : QuickWord} (hq : C.quicks q q') {s s' : DeviceSettings}
    (hs : C.settings s s') : C.settings (q.apply s) (q'.apply s')
  active {m m' : ManagerRecord} (hm : C.managers m m') : m'.active = m.active
  autoLoad {m m' : ManagerRecord} (hm : C.managers m m') : m'.autoLoad = m.autoLoad
  switching {m m' : ManagerRecord} (hm : C.managers m m') : m'.switching = m.switching
  autoSave {m m' : ManagerRecord} (hm : C.managers m m') : m'.autoSave = m.autoSave
  isIntact {m m' : ManagerRecord} (hm : C.managers m m') : m'.isIntact = m.isIntact
  isValid {m m' : ManagerRecord} (hm : C.managers m m') : m'.isValid = m.isValid
  changed {m m' : ManagerRecord} (hm : C.managers m m') {f : ManagerRecord → ManagerRecord}
    (hf : ManagerRecord.Timeless f) : C.managers (f m).sealed (f m').sealed
  stamped (m : ManagerRecord) {now now' : UInt32} (hn : C.times now now') :
    C.managers (m.savedAt now) (m.savedAt now')
  saved {m m' : ManagerRecord} (hm : C.managers m m') {now now' : UInt32}
    (hn : C.times now now') : C.managers (m.savedAt now) (m'.savedAt now')
  profile_self (p : ProfileRecord) : C.profiles p p
  sealed {p p' : ProfileRecord} (hp : C.profiles p p') : C.profiles p.sealed p'.sealed
  renamed {p p' : ProfileRecord} (hp : C.profiles p p') (text : String) :
    C.profiles (p.withName text) (p'.withName text)
  namedAs {p p' other other' : ProfileRecord} (hp : C.profiles p p')
    (ho : C.profiles other other') :
    C.profiles { p with name := other.name } { p' with name := other'.name }
  masked {p p' : ProfileRecord} (hp : C.profiles p p') (f : UInt16 → UInt16) :
    C.profiles { p with combo := { p.combo with mask := f p.combo.mask } }
      { p' with combo := { p'.combo with mask := f p'.combo.mask } }
  features {p p' : ProfileRecord} (hp : C.profiles p p') :
    p'.features.autoSave = p.features.autoSave
  captured {p p' : ProfileRecord} (hp : C.profiles p p') {s s' : DeviceSettings}
    (hs : C.settings s s') : C.profiles (p.capture s) (p'.capture s')
  applied {p p' : ProfileRecord} (hp : C.profiles p p') {s s' : DeviceSettings}
    (hs : C.settings s s') : C.settings (p.apply s) (p'.apply s')
  extended {p p' : ProfileRecord} (hp : C.profiles p p') {s s' : DeviceSettings}
    (hs : C.settings s s') : C.settings (p.applyExtended s) (p'.applyExtended s')

namespace Consistent

variable {C : StoreComparison} (hC : C.Consistent) {r r' : Records} (h : r.Match C r')

include hC h

theorem activeSlot : r'.activeSlot = r.activeSlot := by
  rw [Records.activeSlot, Records.activeSlot, hC.active h.manager]

theorem modifyManager {f : ManagerRecord → ManagerRecord} (hf : ManagerRecord.Timeless f) :
    (r.modifyManager f).Match C (r'.modifyManager f) :=
  { h with manager := hC.changed h.manager hf }

variable {live live' : DeviceSettings} (hl : C.settings live live')

include hl

theorem savedRecords (slot : Fin maxProfiles) {now now' : UInt32} (hn : C.times now now') :
    (r.saved slot live now).Match C (r'.saved slot live' now') := by
  have hmanager : (r.modifyManager ({ · with lastSave := now })).Match C
      (r'.modifyManager ({ · with lastSave := now' })) :=
    { h with manager := hC.saved h.manager hn }
  have hquick : C.quicks { r.quick.capture live with active := r.manager.active }
      { r'.quick.capture live' with active := r'.manager.active } := by
    rw [hC.active h.manager]
    exact hC.aimed (hC.noted h.quick hl) _
  exact { hmanager.withProfile slot (hC.captured (h.profile slot) hl) with quick := hquick }

theorem switched (id : UInt8) : (r.switched id live).Match C (r'.switched id live') := by
  have hmanager : (r.modifyManager ({ · with active := id })).Match C
      (r'.modifyManager ({ · with active := id })) := hC.modifyManager h fun _ _ _ => rfl
  exact { hmanager with quick := hC.noted h.quick hl }

end Consistent

/-- Stores that hold these records. -/
structure Bearing (C : StoreComparison) (r r' : Records) (s s' : Store) : Prop where
  stores : C.stores s s'
  records : s.records = r
  records' : s'.records = r'

/-- What keeps stores the same. No profile is written that is not intact. -/
structure Lawful (C : StoreComparison) : Prop extends C.Consistent where
  base_eq {s s' : Store} (h : C.stores s s') : s.base = C.base ∧ s'.base = C.base
  flash {s s' : Store} (h : C.stores s s') : C.flashes s.flash s'.flash
  records {s s' : Store} (h : C.stores s s') : s.records.Match C s'.records
  dirty {s s' : Store} (h : C.stores s s') : s'.dirty = s.dirty
  lastChange {s s' : Store} (h : C.stores s s') (hd : s.dirty = true) :
    C.times s.lastChange s'.lastChange
  setFlash {s s' : Store} (h : C.stores s s') {f f' : Flash} (hf : C.flashes f f') :
    C.stores { s with flash := f } { s' with flash := f' }
  setRecords {s s' : Store} (h : C.stores s s') {r r' : Records} (hr : r.Match C r') :
    C.stores { s with records := r } { s' with records := r' }
  markDirty {s s' : Store} (h : C.stores s s') {now now' : UInt32} (hn : C.times now now') :
    C.stores (s.markDirty now) (s'.markDirty now')
  clean {s s' : Store} (h : C.stores s s') :
    C.stores { s with dirty := false } { s' with dirty := false }
  settle {s s' : Store} (h : C.stores s s') {now now' : UInt32} (hn : C.times now now') :
    C.stores { s with dirty := false, lastChange := now }
      { s' with dirty := false, lastChange := now' }
  elapsed {since since' now now' : UInt32} (hs : C.times since since') (hn : C.times now now') :
    elapsed since' now' = elapsed since now
  read (p : Part) {a : UInt32} (ha : a.toNat = C.base.toNat + p.offset) :
    Paired C.events C.flashes (Alike (C.bytes p)) (Flash.read a p.length) (Flash.read a p.length)
  write {p : Part} {r r' : Records} (hr : r.Match C r') (hready : r.Ready [p])
    (hready' : r'.Ready [p]) {a : UInt32} (ha : a.toNat = C.base.toNat + p.offset) :
    Paired C.events C.flashes Eq (Flash.write a (r.image p)) (Flash.write a (r'.image p))
  quick {bytes bytes' : List UInt8} (hb : C.bytes .quick bytes bytes') :
    Alike C.quicks (QuickWord.codec.unpack bytes) (QuickWord.codec.unpack bytes')
  manager {bytes bytes' : List UInt8} (hb : C.bytes .manager bytes bytes') :
    Alike C.managers (ManagerRecord.codec.unpack bytes) (ManagerRecord.codec.unpack bytes')
  profile {slot : Fin maxProfiles} {bytes bytes' : List UInt8}
    (hb : C.bytes (.profile slot) bytes bytes') :
    Alike (fun p p' => C.profiles p p' ∧ p'.isIntact = p.isIntact)
      (ProfileRecord.codec.unpack bytes) (ProfileRecord.codec.unpack bytes')

/-- From stores that are the same the two do the same. -/
abbrev Go (C : StoreComparison) (V : α → β → Prop) (r : Routine Store α) (r' : Routine Store β) :
    Prop :=
  Paired C.events C.stores V r r'

theorem go_withSlot {C : StoreComparison} (id : UInt8) {f : Fin maxProfiles → Routine Store Bool}
    (hf : ∀ slot, C.Go Eq (f slot) (f slot)) :
    C.Go Eq (Store.withSlot id f) (Store.withSlot id f) := by
  unfold Store.withSlot
  cases Records.slot? id with
  | none => exact paired_pure rfl
  | some slot => exact hf slot

namespace Lawful

variable {C : StoreComparison} (hC : C.Lawful)

include hC

section

variable {s s' : Store} (h : C.stores s s')

include h

theorem activeSlot : s'.records.activeSlot = s.records.activeSlot :=
  hC.toConsistent.activeSlot (hC.records h)

theorem activeRecord : Alike C.profiles s.activeRecord s'.activeRecord := by
  rw [Store.activeRecord, Store.activeRecord, hC.activeSlot h]
  cases s.records.activeSlot with
  | error e => exact .fault e
  | ok slot => exact .ok ((hC.records h).profile slot)

theorem bootSettings {live live' : DeviceSettings} (hl : C.settings live live') :
    Alike C.settings (s.bootSettings live) (s'.bootSettings live') :=
  (hC.activeRecord h).map fun _ _ hp => hC.extended hp (hC.recalled (hC.records h).quick hl)

theorem autoSaves : s'.autoSaves = s.autoSaves := by
  have hfeature : Alike Eq (s.activeRecord.map (·.features.autoSave))
      (s'.activeRecord.map (·.features.autoSave)) :=
    (hC.activeRecord h).map fun _ _ hp => (hC.features hp).symm
  rw [Store.autoSaves, Store.autoSaves, hC.autoSave (hC.records h).manager]
  split
  · exact hfeature.eq.symm
  · rfl

theorem target (id : UInt8) : s'.target id = s.target id := by
  rw [Store.target, Store.target, hC.switching (hC.records h).manager]

end

theorem modifyRecords {f f' : Records → Records}
    (h : ∀ r r', r.Match C r' → (f r).Match C (f' r')) :
    C.Go Eq (Store.modifyRecords f) (Store.modifyRecords f') :=
  paired_modify fun _ _ hs => hC.setRecords hs (h _ _ (hC.records hs))

theorem onFlash {V : α → β → Prop} {r : Routine Flash α} {r' : Routine Flash β}
    (h : Paired C.events C.flashes V r r') : C.Go V (Store.onFlash r) (Store.onFlash r') :=
  paired_onPart h (fun _ _ hs => hC.flash hs) fun _ _ _ _ hs hf => hC.setFlash hs hf

theorem fetch (p : Part) {codec : Codec α} (hl : codec.size = p.length) {V : α → α → Prop}
    (hV : ∀ bytes bytes', C.bytes p bytes bytes' →
      Alike V (codec.unpack bytes) (codec.unpack bytes')) :
    C.Go (Alike V) (Store.fetch p codec) (Store.fetch p codec) := by
  refine .get_bind fun s s' h => ?_
  obtain ⟨hbase, hbase'⟩ := hC.base_eq h
  refine Store.paired_address_bind hbase hbase' p fun a ha => ?_
  rw [hl]
  refine (hC.onFlash (hC.read p ha)).bind fun found found' hfound => ?_
  cases hfound with
  | fault e => exact paired_pure (.fault _)
  | ok hbytes => exact paired_pure ((hV _ _ hbytes).mapError _)

theorem fetchQuick : C.Go (Alike C.quicks) (Store.fetch .quick QuickWord.codec)
    (Store.fetch .quick QuickWord.codec) :=
  hC.fetch .quick rfl fun _ _ => hC.quick

theorem fetchManager : C.Go (Alike C.managers) (Store.fetch .manager ManagerRecord.codec)
    (Store.fetch .manager ManagerRecord.codec) :=
  hC.fetch .manager rfl fun _ _ => hC.manager

theorem fetchProfile (slot : Fin maxProfiles) :
    C.Go (Alike fun p p' => C.profiles p p' ∧ p'.isIntact = p.isIntact)
      (Store.fetch (.profile slot) ProfileRecord.codec)
      (Store.fetch (.profile slot) ProfileRecord.codec) :=
  hC.fetch (.profile slot) rfl fun _ _ => hC.profile

section Commit

variable {r r' : Records}

theorem persist (hr : r.Match C r') {p : Part} (hready : r.Ready [p]) (hready' : r'.Ready [p]) :
    Paired C.events (C.Bearing r r') Eq (Store.persist p) (Store.persist p) := by
  refine .get_bind fun s s' h => ?_
  obtain ⟨hbase, hbase'⟩ := hC.base_eq h.stores
  refine Store.paired_address_bind hbase hbase' p fun a ha => ?_
  rw [h.records, h.records']
  refine Paired.bind_eq ?_ fun _ => paired_pure rfl
  exact paired_onPart (hC.write hr hready hready' ha) (fun _ _ hs => hC.flash hs.stores)
    fun _ _ _ _ hs hf => { hs with stores := hC.setFlash hs.stores hf }

theorem commitBearing (hr : r.Match C r') {parts : List Part} (hready : r.Ready parts)
    (hready' : r'.Ready parts) :
    Paired C.events (C.Bearing r r') Eq (Store.commit parts) (Store.commit parts) := by
  induction parts with
  | nil => exact paired_pure rfl
  | cons p rest ih =>
    have hfirst : ∀ {r : Records}, r.Ready (p :: rest) → r.Ready [p] := fun h slot hslot =>
      h slot (List.mem_cons.mpr (.inl (List.mem_singleton.mp hslot)))
    have hrest : ∀ {r : Records}, r.Ready (p :: rest) → r.Ready rest := fun h slot hslot =>
      h slot (List.mem_cons_of_mem _ hslot)
    refine (hC.persist hr (hfirst hready) (hfirst hready')).bind_eq fun result => ?_
    cases result with
    | ok u => exact ih (hrest hready) (hrest hready')
    | error e => exact paired_pure rfl

/-- A change of the records is carried to memory, if the profiles to be written are intact. -/
theorem change {f f' : Records → Records} {parts : List Part}
    (h : ∀ r r', r.Match C r' → (f r).Match C (f' r')) (hready : ∀ r, (f r).Ready parts)
    (hready' : ∀ r, (f' r).Ready parts) :
    C.Go Eq (Store.modifyRecords f >>= fun _ => Store.commit parts)
      (Store.modifyRecords f' >>= fun _ => Store.commit parts) := by
  intro s s' hs
  rw [Store.modifyRecords, Store.modifyRecords, run_bind_of_silent (run_modify _ _),
    run_bind_of_silent (run_modify _ _)]
  have hchanged := h _ _ (hC.records hs)
  have hbearing : C.Bearing (f s.records) (f' s'.records)
      { s with records := f s.records } { s' with records := f' s'.records } :=
    ⟨hC.setRecords hs hchanged, rfl, rfl⟩
  exact (hC.commitBearing hchanged (hready _) (hready' _) _ _ hbearing).mono fun _ _ hd =>
    ⟨hd.value, hd.state.stores, hd.events⟩

theorem change_bind {f f' : Records → Records} {parts : List Part} {V : α → β → Prop}
    {k : Bool → Routine Store α} {k' : Bool → Routine Store β}
    (h : ∀ r r', r.Match C r' → (f r).Match C (f' r')) (hready : ∀ r, (f r).Ready parts)
    (hready' : ∀ r, (f' r).Ready parts) (hk : ∀ done, C.Go V (k done) (k' done)) :
    C.Go V (Store.modifyRecords f >>= fun _ => Store.commit parts >>= k)
      (Store.modifyRecords f' >>= fun _ => Store.commit parts >>= k') := by
  rw [← bind_assoc, ← bind_assoc]
  exact (hC.change h hready hready').bind_eq hk

/-- No profile is among the parts, so none has to be intact. -/
theorem commit {parts : List Part} (hp : ∀ slot, .profile slot ∉ parts) :
    C.Go Eq (Store.commit parts) (Store.commit parts) := by
  intro s s' hs
  have hready : ∀ r : Records, r.Ready parts := fun r slot hslot => absurd hslot (hp slot)
  have hcommit := hC.commitBearing (hC.records hs) (hready _) (hready _) s s' ⟨hs, rfl, rfl⟩
  exact hcommit.mono fun _ _ hd => ⟨hd.value, hd.state.stores, hd.events⟩

theorem putProfile (slot : Fin maxProfiles) {p p' : ProfileRecord} (hp : C.profiles p p')
    (hintact : p.isIntact = true) (hintact' : p'.isIntact = true) :
    C.Go Eq (Store.putProfile slot p) (Store.putProfile slot p') := by
  have hready : ∀ {p : ProfileRecord}, p.isIntact = true → ∀ r : Records,
      (r.withProfile slot p).Ready [.profile slot] := by
    intro p hintact r other hother
    obtain rfl := Part.profile.inj (List.mem_singleton.mp hother)
    rwa [Records.profile_withProfile_self]
  exact hC.change (fun _ _ hr => hr.withProfile slot hp) (hready hintact) (hready hintact')

theorem putTemplate (slot : Fin maxProfiles) :
    C.Go Eq (Store.putProfile slot (.template slot)) (Store.putProfile slot (.template slot)) :=
  hC.putProfile slot (hC.profile_self _) (ProfileRecord.isIntact_template _)
    (ProfileRecord.isIntact_template _)

theorem putSealed (slot : Fin maxProfiles) {p p' : ProfileRecord} (hp : C.profiles p p') :
    C.Go Eq (Store.putProfile slot p.sealed) (Store.putProfile slot p'.sealed) :=
  hC.putProfile slot (hC.sealed hp) (ProfileRecord.isIntact_sealed p)
    (ProfileRecord.isIntact_sealed p')

end Commit

section Boot

theorem loadProfiles (slots : List (Fin maxProfiles)) :
    C.Go Eq (Store.loadProfiles slots) (Store.loadProfiles slots) := by
  induction slots with
  | nil => exact paired_pure rfl
  | cons slot rest ih =>
    refine (hC.fetchProfile slot).bind fun found found' hfound => ?_
    cases hfound with
    | fault e => exact paired_pure rfl
    | @ok p p' hp =>
      obtain ⟨hsame, hintact⟩ := hp
      dsimp only
      rw [hintact]
      split
      · exact (hC.modifyRecords fun _ _ hr => hr.withProfile slot hsame).bind_eq fun _ => ih
      · rw [← bind_assoc]
        refine (hC.putTemplate slot).bind_eq fun written => ?_
        split
        · exact ih
        · exact paired_pure rfl

theorem load : C.Go Eq Store.load Store.load := by
  rw [Store.load_eq]
  refine hC.fetchManager.bind fun found found' hfound => ?_
  cases hfound with
  | fault e => exact paired_pure rfl
  | ok hm =>
    dsimp only
    rw [hC.isValid hm]
    split
    · refine hC.fetchQuick.bind fun quick quick' hquick => ?_
      cases hquick with
      | fault e => exact paired_pure rfl
      | ok hq =>
        refine (hC.modifyRecords fun _ _ hr => ?_).bind_eq fun _ => hC.loadProfiles _
        exact { hr with quick := hq, manager := hm }
    · exact paired_pure rfl

variable {now now' : UInt32} (hn : C.times now now')

include hn

theorem restoreDefaults : C.Go Eq (Store.restoreDefaults now) (Store.restoreDefaults now') := by
  have hready : ∀ now,
      (Records.default.modifyManager ({ · with lastSave := now })).Ready Part.all := by
    intro now slot _
    have hprofile : (Records.default.modifyManager ({ · with lastSave := now })).profile slot =
        .template slot := Records.profile_builtIn now slot
    rw [hprofile]
    exact ProfileRecord.isIntact_template _
  have hdefault : (Records.default.modifyManager ({ · with lastSave := now })).Match C
      (Records.default.modifyManager ({ · with lastSave := now' })) :=
    ⟨hC.quick_self _, hC.stamped _ hn, fun _ => hC.profile_self _⟩
  exact hC.change_bind (fun _ _ _ => hdefault) (fun _ => hready now) (fun _ => hready now')
    fun _ => paired_pure rfl

theorem takeOver : C.Go Eq (Store.takeOver now) (Store.takeOver now') := by
  refine hC.load.bind_eq fun loaded => ?_
  cases loaded with
  | true => exact paired_pure rfl
  | false => exact hC.restoreDefaults hn

theorem settled : C.Go Eq (modify ({ · with dirty := false, lastChange := now }))
    (modify ({ · with dirty := false, lastChange := now' })) :=
  paired_modify fun _ _ h => hC.settle h hn

theorem putInForce {live live' : DeviceSettings} (hl : C.settings live live') :
    C.Go C.settings (Store.putInForce live now) (Store.putInForce live' now') := by
  have hlast : ∀ {live live' : DeviceSettings}, C.settings live live' →
      C.Go C.settings
        (modify ({ · with dirty := false, lastChange := now }) >>= fun _ => pure live)
        (modify ({ · with dirty := false, lastChange := now' }) >>= fun _ => pure live') :=
    fun h => (hC.settled hn).bind_eq fun _ => paired_pure h
  refine (hC.modifyRecords fun r r' h => ?_).bind_eq fun _ => .get_bind fun s s' h => ?_
  · rw [hC.active h.manager]
    exact { h with quick := hC.aimed h.quick _ }
  · have hrecords := hC.records h
    rw [hC.autoLoad hrecords.manager]
    split
    · exact Paired.bind (paired_liftM (hC.bootSettings h hl)) fun _ _ => hlast
    · have hfirst := hC.numbered (hC.applied (hrecords.profile 0) hl) 0
      exact (hC.modifyRecords fun _ _ hr => hC.switched hr hfirst 0).bind_eq fun _ => hlast hfirst

theorem init {live live' : DeviceSettings} (hl : C.settings live live') :
    C.Go C.settings (Store.init live now) (Store.init live' now') := by
  rw [Store.init_eq, Store.init_eq]
  exact (hC.takeOver hn).bind_eq fun _ => hC.putInForce hn hl

theorem factoryReset : C.Go C.settings (Store.factoryReset now) (Store.factoryReset now') := by
  refine (hC.restoreDefaults hn).bind_eq fun _ => (hC.settled hn).bind_eq fun _ => ?_
  exact .get_bind fun s s' h => paired_liftM (hC.bootSettings h (hC.settings_self {}))

end Boot

theorem verifyProfiles (slots : List (Fin maxProfiles)) :
    C.Go Eq (Store.verify.profiles slots) (Store.verify.profiles slots) := by
  induction slots with
  | nil => exact paired_pure rfl
  | cons slot rest ih =>
    refine (hC.fetchProfile slot).bind fun found found' hfound => ?_
    cases hfound with
    | fault e => exact paired_pure rfl
    | ok hp =>
      dsimp only
      rw [hp.2]
      split
      · exact ih
      · exact paired_pure rfl

theorem verify : C.Go Eq Store.verify Store.verify := by
  refine hC.fetchManager.bind fun found found' hfound => ?_
  cases hfound with
  | fault e => exact paired_pure rfl
  | ok hm =>
    dsimp only
    rw [hC.isIntact hm]
    split
    · exact hC.verifyProfiles _
    · exact paired_pure rfl

section Save

variable {live live' : DeviceSettings} (hl : C.settings live live')

include hl

section

variable {now now' : UInt32} (hn : C.times now now')

include hn

theorem saveCurrent : C.Go Eq (Store.saveCurrent live now) (Store.saveCurrent live' now') := by
  refine .get_bind fun s s' h => ?_
  rw [hC.activeSlot h]
  refine (paired_liftM_self _).bind_eq fun slot => ?_
  have hready : ∀ (live : DeviceSettings) (now : UInt32) (r : Records),
      (r.saved slot live now).Ready [.quick, .manager, .profile slot] := by
    intro live now r other hother
    have hslot : other = slot := by simpa using hother
    rw [hslot, Records.profile_saved_self, ProfileRecord.capture]
    exact ProfileRecord.isIntact_sealed _
  refine hC.change_bind (fun _ _ hr => hC.savedRecords hr hl slot hn) (hready live now)
    (hready live' now') fun saved => ?_
  refine Paired.bind_eq (paired_modify fun t t' ht => ?_) fun _ => paired_pure rfl
  cases saved with
  | true => exact hC.clean ht
  | false => exact hC.markDirty ht hn

theorem taskTold : C.Go Eq (Store.taskTold live now) (Store.taskTold live' now') := by
  refine .get_bind fun s s' h => ?_
  rw [hC.dirty h, hC.autoSaves h]
  split
  · next hd =>
    rw [hC.elapsed (hC.lastChange h hd) hn]
    refine (paired_liftM_self _).bind_eq fun wanted => ?_
    split
    · split
      · exact (hC.saveCurrent hl hn).bind_eq fun _ => paired_pure rfl
      · exact paired_pure rfl
    · exact paired_pure rfl
  · exact paired_pure rfl

theorem task : C.Go Eq (Store.task live now) (Store.task live' now') := by
  rw [Store.task_eq_told, Store.task_eq_told]
  exact (hC.taskTold hl hn).bind_eq fun _ => paired_pure rfl

end

/-- What is unsaved was marked at some time, and is saved as of that time. -/
theorem flush : C.Go Eq (Store.flush live) (Store.flush live') := by
  intro s s' h
  cases hd : s.dirty with
  | false =>
    rw [Store.run_flush_of_clean hd, Store.run_flush_of_clean ((hC.dirty h).trans hd)]
    exact .ok ⟨rfl, h, .nil⟩
  | true =>
    rw [Store.run_flush_of_dirty hd, Store.run_flush_of_dirty ((hC.dirty h).trans hd)]
    exact (hC.saveCurrent hl (hC.lastChange h hd) s s' h).map fun _ _ he =>
      ⟨rfl, he.state, he.events⟩

theorem enter (slot : Fin maxProfiles) (id : UInt8) :
    C.Go (fun d d' => d'.1 = d.1 ∧ C.settings d.2 d'.2) (Store.enter slot id live)
      (Store.enter slot id live') := by
  refine .get_bind fun s s' h => ?_
  have hlive : C.settings (s.liveOf slot id live) (s'.liveOf slot id live') :=
    hC.numbered (hC.applied ((hC.records h).profile slot) hl) id
  refine (hC.modifyRecords fun _ _ hr => hC.switched hr hlive id).bind_eq fun _ => ?_
  exact (hC.commit (by simp)).bind_eq fun _ => paired_pure ⟨rfl, hlive⟩

theorem switchProfile (id : UInt8) :
    C.Go (fun d d' => d'.1 = d.1 ∧ C.settings d.2 d'.2) (Store.switchProfile id live)
      (Store.switchProfile id live') := by
  intro s s' h
  have htarget := hC.target h id
  cases ht : s.target id with
  | none =>
    rw [Store.run_switchProfile_of_none ht, Store.run_switchProfile_of_none (htarget.trans ht)]
    exact .ok ⟨⟨rfl, hl⟩, h, .nil⟩
  | some slot =>
    rw [Store.run_switchProfile_of_some ht, Store.run_switchProfile_of_some (htarget.trans ht)]
    exact (hC.flush hl).bind_eq (fun _ => hC.enter hl slot id) s s' h

theorem resetCurrent :
    C.Go (fun d d' => d'.1 = d.1 ∧ C.settings d.2 d'.2) (Store.resetCurrent live)
      (Store.resetCurrent live') := by
  refine .get_bind fun s s' h => ?_
  rw [hC.activeSlot h]
  refine (paired_liftM_self _).bind_eq fun slot => ?_
  refine (hC.putTemplate slot).bind_eq fun reset => .get_bind fun t t' ht => ?_
  have hlive := hC.applied ((hC.records ht).profile slot) hl
  refine (hC.modifyRecords fun r r' hr => ?_).bind_eq fun _ => ?_
  · exact { hr with quick := hC.noted hr.quick hlive }
  · refine Paired.bind_eq (paired_modify fun u u' hu => hC.clean hu) fun _ => ?_
    cases reset with
    | true => exact (hC.commit (by simp)).bind_eq fun _ => paired_pure ⟨rfl, hlive⟩
    | false => exact paired_pure ⟨rfl, hlive⟩

end Save

section Edit

theorem copyProfile (source target : UInt8) :
    C.Go Eq (Store.copyProfile source target) (Store.copyProfile source target) := by
  refine go_withSlot source fun source => go_withSlot target fun target => ?_
  split
  · exact paired_pure rfl
  · refine .get_bind fun s s' h => hC.putSealed target ?_
    exact hC.namedAs ((hC.records h).profile source) ((hC.records h).profile target)

theorem changeMask (f : UInt16 → UInt16) :
    C.Go Eq (Store.changeMask f) (Store.changeMask f) := by
  refine .get_bind fun s s' h => ?_
  rw [hC.activeSlot h]
  refine (paired_liftM_self _).bind_eq fun slot => ?_
  exact .get_bind fun t t' ht => hC.putSealed slot (hC.masked ((hC.records ht).profile slot) f)

theorem rename (id : UInt8) (text : String) :
    C.Go Eq (Store.rename id text) (Store.rename id text) :=
  go_withSlot id fun slot => .get_bind fun _ _ h =>
    hC.putSealed slot (hC.renamed ((hC.records h).profile slot) text)

theorem saveProfile (id : UInt8) : C.Go Eq (Store.saveProfile id) (Store.saveProfile id) :=
  go_withSlot id fun slot => .get_bind fun _ _ h => hC.putSealed slot ((hC.records h).profile slot)

theorem changeManager {f : ManagerRecord → ManagerRecord} (hf : ManagerRecord.Timeless f) :
    C.Go Eq (Store.changeManager f) (Store.changeManager f) :=
  (hC.modifyRecords fun _ _ hr => hC.modifyManager hr hf).bind_eq fun _ => hC.commit (by simp)

theorem importProfile (id : UInt8) (bytes : List UInt8) :
    C.Go Eq (Store.importProfile id bytes) (Store.importProfile id bytes) := by
  refine go_withSlot id fun slot => ?_
  cases ProfileRecord.codec.unpack bytes with
  | error e => exact paired_pure rfl
  | ok p =>
    dsimp only
    split
    · next hintact => exact hC.putProfile slot (hC.profile_self p) hintact hintact
    · exact paired_pure rfl

theorem saveAll : C.Go Eq Store.saveAll Store.saveAll := by
  have hprofile : ∀ (r : Records) (slot : Fin maxProfiles),
      Records.profile { r.modifyManager id with profiles := r.profiles.map .sealed } slot =
        (r.profile slot).sealed := by
    intro r slot
    simp [Records.profile]
  have hready : ∀ r : Records,
      Records.Ready { r.modifyManager id with profiles := r.profiles.map .sealed } Part.all := by
    intro r slot _
    rw [hprofile]
    exact ProfileRecord.isIntact_sealed _
  refine hC.change (fun r r' hr => ?_) hready hready
  have hmanager := hC.modifyManager (f := id) hr fun _ _ _ => rfl
  refine { hmanager with profile := fun slot => ?_ }
  rw [hprofile, hprofile]
  exact hC.sealed (hr.profile slot)

end Edit

end Lawful

end StoreComparison

/-- The call is told a time, or comes with what to do. -/
def StoreCall.Told : StoreCall → Prop
  | init _ | save _ | markDirty _ | task _ | factoryReset _ | emergencyReset _ | editProfile _ _ =>
    True
  | _ => False

namespace StoreComparison

/-- The same call. Times and edits are the same in their own ways. -/
inductive Calls (C : StoreComparison) : StoreCall → StoreCall → Prop
  | same (call : StoreCall) (h : ¬call.Told) : Calls C call call
  | init {now now' : UInt32} (h : C.times now now') : Calls C (.init now) (.init now')
  | save {now now' : UInt32} (h : C.times now now') : Calls C (.save now) (.save now')
  | markDirty {now now' : UInt32} (h : C.times now now') :
    Calls C (.markDirty now) (.markDirty now')
  | task {now now' : UInt32} (h : C.times now now') : Calls C (.task now) (.task now')
  | factoryReset {now now' : UInt32} (h : C.times now now') :
    Calls C (.factoryReset now) (.factoryReset now')
  | emergencyReset {now now' : UInt32} (h : C.times now now') :
    Calls C (.emergencyReset now) (.emergencyReset now')
  | editProfile (id : UInt8) {edit edit' : ProfileRecord → ProfileRecord}
    (h : ∀ p p', C.profiles p p' → C.profiles (edit p) (edit' p')) :
    Calls C (.editProfile id edit) (.editProfile id edit')

theorem Lawful.perform {C : StoreComparison} (hC : C.Lawful) {call call' : StoreCall}
    (h : C.Calls call call') {live live' : DeviceSettings} (hl : C.settings live live') :
    C.Go (fun d d' => C.settings d.1 d'.1 ∧ d'.2 = d.2) (call.perform live)
      (call'.perform live') := by
  have hanswer : ∀ {r r' : Routine Store Bool}, C.Go Eq r r' →
      C.Go (fun d d' => C.settings d.1 d'.1 ∧ d'.2 = d.2)
        (r >>= fun b => pure (live, some b)) (r' >>= fun b => pure (live', some b)) :=
    fun hr => hr.bind_eq fun _ => paired_pure ⟨hl, rfl⟩
  have hput : ∀ {r r' : Routine Store DeviceSettings}, C.Go C.settings r r' →
      C.Go (fun d d' => C.settings d.1 d'.1 ∧ d'.2 = d.2)
        (r >>= fun live => pure (live, (none : Option Bool)))
        (r' >>= fun live => pure (live, none)) :=
    fun hr => hr.bind fun _ _ hlive => paired_pure ⟨hlive, rfl⟩
  cases h with
  | init hn => exact hput (hC.init hn hl)
  | save hn => exact hanswer (hC.saveCurrent hl hn)
  | markDirty hn =>
    exact Paired.bind_eq (paired_modify fun _ _ hs => hC.markDirty hs hn) fun _ =>
      paired_pure ⟨hl, rfl⟩
  | task hn => exact (hC.task hl hn).bind_eq fun _ => paired_pure ⟨hl, rfl⟩
  | factoryReset hn | emergencyReset hn => exact hput (hC.factoryReset hn)
  | editProfile id hedit =>
    refine .get_bind fun s s' hs => ?_
    rw [Store.editProfile?, Store.editProfile?]
    cases Records.slot? id with
    | none => exact paired_pure ⟨hl, rfl⟩
    | some slot =>
      have hrecords := hC.records hs
      have hedited := hrecords.withProfile slot (hedit _ _ (hrecords.profile slot))
      exact Paired.bind_eq (paired_set (hC.setRecords hs hedited)) fun _ => paired_pure ⟨hl, rfl⟩
  | same call hcall =>
    cases call with
    | init now | save now | markDirty now | task now | factoryReset now | emergencyReset now
    | editProfile id edit => exact absurd trivial hcall
    | switchProfile id =>
      exact (hC.switchProfile hl id).bind fun _ _ hd => paired_pure ⟨hd.2, by rw [hd.1]⟩
    | resetCurrent =>
      exact (hC.resetCurrent hl).bind fun _ _ hd => paired_pure ⟨hd.2, by rw [hd.1]⟩
    | resetProfile id => exact hanswer (go_withSlot id hC.putTemplate)
    | rename id text => exact hanswer (hC.rename id text)
    | copyProfile source target => exact hanswer (hC.copyProfile source target)
    | enableCombo combo | disableCombo combo => exact hanswer (hC.changeMask _)
    | setAutoSave on | setAutoLoad on | setSwitching on =>
      exact hanswer (hC.changeManager fun _ _ _ => rfl)
    | importProfile id bytes => exact hanswer (hC.importProfile id bytes)
    | saveProfile id => exact hanswer (hC.saveProfile id)
    | saveAll => exact hanswer hC.saveAll
    | verify => exact hanswer hC.verify

end StoreComparison

end TwinStick
