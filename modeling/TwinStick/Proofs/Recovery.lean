import TwinStick.Proofs.Loading

/-! What boot makes of a region. A region with a valid manager record is mended in
place as long as no repair is refused, anything else gives way to the built-in
contents. What is left behind is accepted as it is by every later boot. -/

namespace TwinStick

namespace Records

/-- The built-in contents as they are saved at some time. -/
def builtIn (now : UInt32) : Records :=
  Records.default.modifyManager ({ · with lastSave := now })

/-- Records that boot accepts as they are, none of which loses a bit in flash. -/
structure Sound (r : Records) : Prop where
  manager : r.manager.isValid = true
  intact (slot : Fin maxProfiles) : (r.profile slot).isIntact = true
  fits_quick : QuickWord.codec.Fits r.quick
  fits_manager : ManagerRecord.codec.Fits r.manager
  fits_profile (slot : Fin maxProfiles) : ProfileRecord.codec.Fits (r.profile slot)

theorem profile_builtIn (now : UInt32) (slot : Fin maxProfiles) :
    (builtIn now).profile slot = .template slot := by
  simp [builtIn, modifyManager, default, profile]

theorem sound_builtIn (now : UInt32) : (builtIn now).Sound where
  manager := ManagerRecord.isValid_sealed (Nat.zero_lt_succ 3) rfl
  intact slot := by
    rw [profile_builtIn]
    exact ProfileRecord.isIntact_template slot
  fits_quick := QuickWord.fits_default
  fits_manager := by
    rw [builtIn, modifyManager, ManagerRecord.fits_sealed, ManagerRecord.fits_iff]
    exact Codec.fits_zero 5
  fits_profile slot := by
    rw [profile_builtIn]
    exact ProfileRecord.fits_template slot

theorem activeSlot_of_lt {r : Records} (h : r.manager.active.toNat < maxProfiles) :
    r.activeSlot = .ok ⟨r.manager.active.toNat, h⟩ := dif_pos h

theorem Sound.active_lt {r : Records} (h : r.Sound) : r.manager.active.toNat < maxProfiles :=
  ((ManagerRecord.isValid_iff _).mp h.manager).1

theorem Sound.damaged_eq_nil {r : Records} (h : r.Sound) (slots : List (Fin maxProfiles)) :
    r.damaged slots = [] := by
  refine List.filter_eq_nil_iff.mpr fun slot _ => ?_
  simp [h.intact slot]

theorem Sound.mended {r : Records} (h : r.Sound) : r.mended = r := by
  obtain ⟨quick, manager, profiles⟩ := r
  simp only [Records.mended, Records.mk.injEq, true_and]
  ext i hi
  rw [Vector.getElem_ofFn, repaired_of_intact (h.intact ⟨i, hi⟩)]
  rfl

/-- The quick word follows the manager record about which profile is active. -/
def synced (r : Records) : Records :=
  { r with quick := { r.quick with active := r.manager.active } }

theorem synced_of_agrees {r : Records} (h : r.quick.active = r.manager.active) :
    r.synced = r := by
  rw [synced, ← h]

/-- The settings that result from booting with these records. -/
def bootLive (r : Records) (slot : Fin maxProfiles) (live : DeviceSettings) : DeviceSettings :=
  if r.manager.autoLoad then (r.profile slot).applyExtended (r.synced.quick.apply live)
  else { (r.profile 0).apply live with profile := 0 }

def booted (r : Records) (live : DeviceSettings) : Records :=
  if r.manager.autoLoad then r.synced
  else
    { r.modifyManager ({ · with active := 0 }) with
      quick := r.synced.quick.capture { (r.profile 0).apply live with profile := 0 } }

theorem profile_booted (r : Records) (live : DeviceSettings) (slot : Fin maxProfiles) :
    (r.booted live).profile slot = r.profile slot := by
  unfold booted
  split <;> rfl

theorem booted_builtIn (now : UInt32) (live : DeviceSettings) :
    (builtIn now).booted live = builtIn now := if_pos rfl

theorem autoSave_booted (r : Records) (live : DeviceSettings) :
    (r.booted live).manager.autoSave = r.manager.autoSave := by
  unfold booted
  split <;> rfl

theorem switching_booted (r : Records) (live : DeviceSettings) :
    (r.booted live).manager.switching = r.manager.switching := by
  unfold booted
  split <;> rfl

theorem version_booted (r : Records) (live : DeviceSettings) :
    (r.booted live).manager.version = r.manager.version := by
  unfold booted
  split <;> rfl

theorem active_booted_lt {r : Records} (h : r.manager.active.toNat < maxProfiles)
    (live : DeviceSettings) : (r.booted live).manager.active.toNat < maxProfiles := by
  unfold booted
  split
  · exact h
  · exact Nat.zero_lt_succ 3

end Records

namespace Store

/-- Sound records are read from flash as they were written. -/
theorem region_eq_of_stored {s : Store} {r : Records} (h : r.Sound)
    (hs : ∀ p, s.stored p = r.image p) : s.region = r := by
  obtain ⟨quick, manager, profiles⟩ := r
  simp only [region, hs, Records.image, Records.mk.injEq]
  refine ⟨h.fits_quick.read_pack QuickWord.codec_whole,
    h.fits_manager.read_pack ManagerRecord.codec_whole, ?_⟩
  ext i hi
  rw [Vector.getElem_ofFn]
  exact (h.fits_profile ⟨i, hi⟩).read_pack ProfileRecord.codec_whole

/-- Whatever is in flash is the packed form of what is read from it. -/
theorem image_region {s : Store} (h : s.Placed) (p : Part) : s.region.image p = s.stored p := by
  have hl := h.length_stored p
  cases p with
  | quick => exact Codec.pack_read QuickWord.codec_lawful QuickWord.codec_whole hl
  | manager => exact Codec.pack_read ManagerRecord.codec_lawful ManagerRecord.codec_whole hl
  | profile slot =>
    rw [Records.image, profile_region]
    exact Codec.pack_read ProfileRecord.codec_lawful ProfileRecord.codec_whole hl

def repairs (s : Store) : Nat := (s.region.damaged (List.finRange maxProfiles)).length

/-- The region can be loaded: its manager record is valid, and every repair it takes
will be granted. -/
def Loadable (s : Store) : Prop :=
  s.region.manager.isValid = true ∧ s.flash.writes.streak s.repairs = s.repairs

/-- Who decides about the writes that follow an attempt to load the region. -/
def writesAfterLoad (s : Store) : Gate :=
  if s.region.manager.isValid then s.flash.writes.after s.repairs else s.flash.writes

structure Loaded (s : Store) (d : Outcome Store Unit) : Prop where
  state : d.state = { s with flash := d.state.flash, records := s.region.mended }
  reads : d.state.flash.reads.Free
  writes : d.state.flash.writes = s.writesAfterLoad
  capacity : d.state.flash.capacity = s.flash.capacity
  kept : ∀ p ∉ (s.region.damaged (List.finRange maxProfiles)).map .profile,
    d.state.stored p = s.stored p
  written : ∀ slot, (s.region.profile slot).isIntact = false →
    d.state.stored (.profile slot) = ProfileRecord.codec.pack (.template slot)
  silent : s.repairs = 0 → d.events = [] ∧ d.state.flash.bytes = s.flash.bytes

/-- What is left when the region was replaced: the copies hold the built-in
contents, but flash only those written before a write was refused. -/
structure Replaced (s : Store) (now : UInt32) (d : Outcome Store Unit) : Prop where
  state : d.state = { s with flash := d.state.flash, records := .builtIn now }
  reads : d.state.flash.reads.Free
  writes : d.state.flash.writes = s.writesAfterLoad.after Part.all.length
  capacity : d.state.flash.capacity = s.flash.capacity
  kept : ∀ p ∉ (s.region.damaged (List.finRange maxProfiles)).map .profile,
    p ∉ Part.all.take (s.writesAfterLoad.streak Part.all.length) →
      d.state.stored p = s.stored p
  written : ∀ p ∈ Part.all.take (s.writesAfterLoad.streak Part.all.length),
    d.state.stored p = (Records.builtIn now).image p

theorem run_restoreDefaults_eq (s : Store) (now : UInt32) :
    (restoreDefaults now).run s =
      ((commit Part.all).run { s with records := .builtIn now }).map fun d =>
        ⟨(), d.state, d.events⟩ := by
  rw [restoreDefaults, Routine.run_bind_of_silent (run_modifyRecords _ _)]
  exact Routine.run_bind_pure _ _ _

theorem run_restoreDefaults {s : Store} (h : s.Placed) (now : UInt32) :
    ∃ d, (restoreDefaults now).run s = .ok ⟨(), d.state, d.events⟩ ∧
      Committed { s with records := .builtIn now } Part.all d := by
  let t : Store := { s with records := .builtIn now }
  obtain ⟨d, hd, hc⟩ := run_commit (h.congr (t := t) rfl rfl) Part.all
  refine ⟨d, ?_, hc⟩
  rw [run_restoreDefaults_eq, hd]
  rfl

theorem run_takeOver_of_loadable {s : Store} (h : s.Placed) (hr : s.flash.reads.Free)
    (hl : s.Loadable) (now : UInt32) :
    ∃ d, (takeOver now).run s = .ok d ∧ Loaded s d := by
  obtain ⟨hv, hk⟩ := hl
  obtain ⟨d, hd, hm⟩ := run_load h hr
  rw [if_pos hv] at hm
  have hvalue : d.value = true := hm.value.trans (decide_eq_true hk)
  refine ⟨⟨(), d.state, d.events⟩, ?_, ?_, hm.reads, ?_, hm.capacity, hm.kept, ?_, ?_⟩
  · rw [takeOver, Routine.run_bind, hd]
    simp [Except.bind, Except.map, hvalue]
  · have hp : d.state.records.profiles = s.region.mended.profiles := by
      ext i hi
      have hc : d.state.records.profile ⟨i, hi⟩ = s.region.repaired ⟨i, hi⟩ :=
        hm.copied hvalue ⟨i, hi⟩ (List.mem_finRange _)
      exact hc.trans (Records.profile_mended _ _).symm
    have hs := hm.state
    rw [hp] at hs
    exact hs
  · rw [writesAfterLoad, if_pos hv]
    exact hm.writes
  · intro slot hs
    exact hm.written hvalue slot (Records.mem_damaged.mpr ⟨List.mem_finRange _, hs⟩)
  · intro hn
    exact hm.silent (List.length_eq_zero_iff.mp hn)

/-- A store that was not loaded. Its damaged slots may have been repaired in flash. -/
structure Unloaded (s t : Store) : Prop where
  state : t = { s with flash := t.flash, records := t.records }
  reads : t.flash.reads.Free
  writes : t.flash.writes = s.writesAfterLoad
  capacity : t.flash.capacity = s.flash.capacity
  kept : ∀ p ∉ (s.region.damaged (List.finRange maxProfiles)).map .profile,
    t.stored p = s.stored p

theorem run_load_of_not_loadable {s : Store} (h : s.Placed) (hr : s.flash.reads.Free)
    (hl : ¬ s.Loadable) :
    ∃ d, load.run s = .ok d ∧ d.value = false ∧ Unloaded s d.state := by
  obtain ⟨d, hd, hm⟩ := run_load h hr
  refine ⟨d, hd, ?_⟩
  by_cases hv : s.region.manager.isValid = true
  · rw [if_pos hv] at hm
    have hk : s.flash.writes.streak s.repairs ≠ s.repairs := fun hk => hl ⟨hv, hk⟩
    have hs := hm.state
    refine ⟨hm.value.trans (decide_eq_false hk), ?_, hm.reads, ?_, hm.capacity, hm.kept⟩
    · rw [hs]
    · rw [writesAfterLoad, if_pos hv]
      exact hm.writes
  · rw [if_neg hv] at hm
    obtain ⟨g, hg, rfl⟩ := hm
    refine ⟨rfl, rfl, hg, ?_, rfl, fun _ _ => rfl⟩
    rw [writesAfterLoad, if_neg hv]
    rfl

theorem run_takeOver_of_not_loadable {s : Store} (h : s.Placed) (hr : s.flash.reads.Free)
    (hl : ¬ s.Loadable) (now : UInt32) :
    ∃ d, (takeOver now).run s = .ok d ∧ Replaced s now d := by
  obtain ⟨d, hd, hvalue, hu⟩ := run_load_of_not_loadable h hr hl
  have hplaced : d.state.Placed := h.congr (by rw [hu.state]) hu.capacity
  obtain ⟨e, he, hc⟩ := run_restoreDefaults hplaced now
  have hs := hc.state
  rw [hu.state] at hs
  refine ⟨⟨(), e.state, d.events ++ e.events⟩, ?_, hs, ?_, ?_, hc.capacity.trans hu.capacity, ?_,
    ?_⟩
  · rw [takeOver, Routine.run_bind, hd]
    simp [Except.bind, Except.map, hvalue, he]
  · rw [hc.reads]
    exact hu.reads
  · rw [← hu.writes]
    exact hc.writes
  · intro p hp hn
    rw [← hu.writes] at hn
    exact (hc.kept p hn).trans (hu.kept p hp)
  · intro p hp
    rw [← hu.writes] at hp
    exact hc.written p hp

theorem activeRecord_eq {s : Store} {slot : Fin maxProfiles}
    (h : s.records.activeSlot = .ok slot) : s.activeRecord = .ok (s.records.profile slot) := by
  rw [activeRecord, h]
  rfl

theorem bootSettings_eq {s : Store} {slot : Fin maxProfiles}
    (h : s.records.activeSlot = .ok slot) (live : DeviceSettings) :
    s.bootSettings live =
      .ok ((s.records.profile slot).applyExtended (s.records.quick.apply live)) := by
  rw [bootSettings, activeRecord_eq h]
  rfl

theorem run_putInForce {s : Store} {slot : Fin maxProfiles} (h : s.records.activeSlot = .ok slot)
    (live : DeviceSettings) (now : UInt32) :
    (putInForce live now).run s =
      .ok ⟨s.records.bootLive slot live,
        { s with records := s.records.booted live, dirty := false, lastChange := now }, []⟩ := by
  let t : Store := { s with records := s.records.synced }
  have hsync : (modifyRecords Records.synced).run s = .ok ⟨(), t, []⟩ := run_modifyRecords _ _
  refine (Routine.run_bind_of_silent hsync _).trans ?_
  rw [Routine.run_bind_of_silent (Routine.run_get _), Records.bootLive, Records.booted]
  have hauto : t.records.manager.autoLoad = s.records.manager.autoLoad := rfl
  dsimp only
  rw [hauto]
  cases s.records.manager.autoLoad with
  | true =>
    have hslot : t.records.activeSlot = .ok slot := h
    exact Routine.run_bind_of_silent (Routine.run_liftM_of_ok (bootSettings_eq hslot live) t) _
  | false => rfl

theorem run_init {s : Store} {d : Outcome Store Unit} {now : UInt32} {slot : Fin maxProfiles}
    (hd : (takeOver now).run s = .ok d) (h : d.state.records.activeSlot = .ok slot)
    (live : DeviceSettings) :
    (init live now).run s =
      .ok ⟨d.state.records.bootLive slot live,
        { d.state with
          records := d.state.records.booted live, dirty := false, lastChange := now },
        d.events⟩ := by
  rw [init_eq, Routine.run_bind, hd]
  simp only [Except.bind, run_putInForce h, Except.map, List.append_nil]

end Store

end TwinStick
