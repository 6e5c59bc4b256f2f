import TwinStick.Proofs.Repair
import TwinStick.Proofs.Saving

/-! Flash as a mirror of the settings in force. With every access granted each
operation that saves leaves flash such that booting on it brings the settings back,
but for debugging and for sensitivities that the quick word has no room for. -/

namespace TwinStick

theorem Signal.min_maxSensitivity {n : UInt8} (h : n ≤ maxSensitivity) :
    min n maxSensitivity = n := if_pos h

/-- What a power cycle makes of settings that were saved. -/
def DeviceSettings.rebooted (s : DeviceSettings) : DeviceSettings :=
  { s with
    debug := false
    sticks := s.sticks.map fun stick =>
      { stick with sensitivity := min stick.sensitivity Signal.maxSensitivity } }

namespace ProfileRecord

/-- The quick word and a profile between them hold all settings. -/
theorem applyExtended_capture (p : ProfileRecord) (q : QuickWord) (live : DeviceSettings) :
    p.applyExtended ({ q.capture live with active := live.profile }.apply {}) =
      (p.applyExtended live).rebooted := by
  simp only [applyExtended, applyStickExtended, QuickWord.apply, QuickWord.applyStick,
    QuickWord.capture, DeviceSettings.rebooted, PerStick.map, PerStick.get,
    StickMode.ofAnalog_isAnalog]

end ProfileRecord

namespace Records

theorem bootLive_of_autoLoad {r : Records} (h : r.manager.autoLoad = true)
    (slot : Fin maxProfiles) (live : DeviceSettings) :
    r.bootLive slot live = (r.profile slot).applyExtended (r.synced.quick.apply live) :=
  if_pos h

/-- Booting brings settings back that the quick word was taken from and the active
profile agrees with. -/
theorem bootLive_of_agrees {r : Records} {slot : Fin maxProfiles} {live : DeviceSettings}
    {q : QuickWord} (h : r.manager.autoLoad = true)
    (hq : r.synced.quick = { q.capture live with active := live.profile })
    (hp : (r.profile slot).applyExtended live = live) : r.bootLive slot {} = live.rebooted := by
  rw [bootLive_of_autoLoad h, hq, ProfileRecord.applyExtended_capture, hp]

section Operations

variable {r : Records} {slot : Fin maxProfiles} {live : DeviceSettings}

theorem bootLive_saved (h : r.manager.autoLoad = true) (hp : live.profile = r.manager.active)
    (now : UInt32) : (r.saved slot live now).bootLive slot {} = live.rebooted := by
  refine bootLive_of_agrees (q := r.quick) (r := r.saved slot live now) h ?_ ?_
  · rw [hp]
    rfl
  · rw [profile_saved_self]
    rfl

theorem bootLive_switched {id : UInt8} (h : r.manager.autoLoad = true)
    (hp : live = { (r.profile slot).apply live with profile := id }) :
    (r.switched id live).bootLive slot {} = live.rebooted := by
  refine bootLive_of_agrees (q := r.quick) (r := r.switched id live) h ?_ ?_
  · rw [hp]
    rfl
  · rw [hp]
    rfl

theorem bootLive_reset (h : r.manager.autoLoad = true) (hp : live.profile = r.manager.active) :
    (r.reset slot live).bootLive slot {} =
      ((ProfileRecord.template slot).apply live).rebooted := by
  refine bootLive_of_agrees (q := r.quick) (r := r.reset slot live) h ?_ ?_
  · have hq : ((ProfileRecord.template slot).apply live).profile = r.manager.active := hp
    rw [hq]
    rfl
  · rw [profile_reset_self]
    rfl

theorem Sound.version {r : Records} (h : r.Sound) : r.manager.version = layoutVersion :=
  ((ManagerRecord.isValid_iff _).mp h.manager).2.1

theorem Sound.saved (h : r.Sound) (slot : Fin maxProfiles) (live : DeviceSettings)
    (now : UInt32) : (r.saved slot live now).Sound := by
  refine ⟨ManagerRecord.isValid_sealed h.active_lt h.version, ?_, ?_, ?_, ?_⟩
  · intro other
    by_cases ho : other = slot
    · rw [ho, profile_saved_self]
      exact ProfileRecord.isIntact_sealed _
    · rw [profile_saved_of_ne _ _ _ ho]
      exact h.intact other
  · exact QuickWord.fits_withActive (QuickWord.fits_capture h.fits_quick live) h.active_lt
  · exact ManagerRecord.fits_of_reserved h.fits_manager rfl
  · intro other
    by_cases ho : other = slot
    · rw [ho, profile_saved_self, ProfileRecord.fits_capture]
      exact h.fits_profile slot
    · rw [profile_saved_of_ne _ _ _ ho]
      exact h.fits_profile other

theorem Sound.switched (h : r.Sound) {id : UInt8} (hid : id.toNat < maxProfiles)
    (live : DeviceSettings) : (r.switched id live).Sound := by
  refine ⟨ManagerRecord.isValid_sealed hid h.version, h.intact, ?_, ?_, h.fits_profile⟩
  · exact QuickWord.fits_capture h.fits_quick live
  · exact ManagerRecord.fits_of_reserved h.fits_manager rfl

theorem Sound.reset (h : r.Sound) (slot : Fin maxProfiles) (live : DeviceSettings) :
    (r.reset slot live).Sound := by
  refine ⟨h.manager, ?_, QuickWord.fits_capture h.fits_quick _, h.fits_manager, ?_⟩
  · intro other
    by_cases ho : other = slot
    · rw [ho, profile_reset_self]
      exact ProfileRecord.isIntact_template slot
    · rw [profile_reset_of_ne _ _ ho]
      exact h.intact other
  · intro other
    by_cases ho : other = slot
    · rw [ho, profile_reset_self]
      exact ProfileRecord.fits_template slot
    · rw [profile_reset_of_ne _ _ ho]
      exact h.fits_profile other

theorem Sound.exists_activeSlot (h : r.Sound) : ∃ slot, r.activeSlot = .ok slot :=
  ⟨_, activeSlot_of_lt h.active_lt⟩

/-- What boot puts in force fits into the quick word already. -/
theorem Sound.rebooted_bootLive (h : r.Sound) (ha : r.manager.autoLoad = true)
    (slot : Fin maxProfiles) : (r.bootLive slot {}).rebooted = r.bootLive slot {} := by
  have hone := QuickWord.sensitivity_le_of_fits h.fits_quick .one
  have htwo := QuickWord.sensitivity_le_of_fits h.fits_quick .two
  rw [bootLive_of_autoLoad ha]
  simp only [PerStick.get] at hone htwo
  simp only [DeviceSettings.rebooted, ProfileRecord.applyExtended,
    ProfileRecord.applyStickExtended, QuickWord.apply, QuickWord.applyStick, synced, PerStick.map,
    PerStick.get]
  rw [Signal.min_maxSensitivity hone, Signal.min_maxSensitivity htwo]

end Operations

end Records

namespace Store

/-- Flash holds the copies with some quick word, may be written, and brings the
settings in force back when nothing is unsaved. -/
structure Mirrors (s : Store) (live : DeviceSettings) (q : QuickWord) : Prop where
  holds : s.Holds { s.records with quick := q }
  writes : s.flash.writes.Free
  fits_quick : QuickWord.codec.Fits s.records.quick
  autoLoad : s.records.manager.autoLoad = true
  profile : live.profile = s.records.manager.active
  clean : s.dirty = false → ∀ slot, s.records.activeSlot = .ok slot →
    ({ s.records with quick := q } : Records).bootLive slot {} = live.rebooted

theorem Mirrors.sound {s : Store} {live : DeviceSettings} {q : QuickWord}
    (h : s.Mirrors live q) : s.records.Sound :=
  ⟨h.holds.sound.manager, h.holds.sound.intact, h.fits_quick, h.holds.sound.fits_manager,
    h.holds.sound.fits_profile⟩

/-- Unsaved changes may do anything but change the profile. -/
theorem Mirrors.unsaved {s t : Store} {live live' : DeviceSettings} {q : QuickWord}
    (h : s.Mirrors live q) (hf : t.flash = s.flash) (hb : t.base = s.base)
    (hr : t.records = s.records) (hd : t.dirty = true) (hp : live'.profile = live.profile) :
    t.Mirrors live' q := by
  have hreads : t.flash.reads.Free := by
    rw [hf]
    exact h.holds.reads
  have hbytes : t.flash.bytes = s.flash.bytes := by rw [hf]
  refine ⟨?_, ?_, ?_, ?_, ?_, ?_⟩
  · rw [hr]
    exact h.holds.congr hbytes hb hreads
  · rw [hf]
    exact h.writes
  · rw [hr]
    exact h.fits_quick
  · rw [hr]
    exact h.autoLoad
  · rw [hr, hp]
    exact h.profile
  · intro hclean
    rw [hd] at hclean
    exact Bool.noConfusion hclean

/-- Debugging is forgotten anyway. -/
theorem Mirrors.debug {s : Store} {live : DeviceSettings} {q : QuickWord} (h : s.Mirrors live q)
    (on : Bool) : s.Mirrors { live with debug := on } q :=
  ⟨h.holds, h.writes, h.fits_quick, h.autoLoad, h.profile, h.clean⟩

/-- An attempt that is granted and writes every copy that was changed, the quick word
among them, leaves all copies in flash. -/
theorem Carried.mirrors {s t : Store} {live live' : DeviceSettings} {q : QuickWord}
    {r : Records} {parts : List Part} (h : s.Mirrors live q) (hc : Carried s t r parts)
    (hsound : r.Sound) (hq : .quick ∈ parts)
    (hsame : ∀ p ∉ parts, r.image p = s.records.image p) (ha : r.manager.autoLoad = true)
    (hp : live'.profile = r.manager.active)
    (hlive : ∀ slot, r.activeSlot = .ok slot → r.bootLive slot {} = live'.rebooted) :
    t.Mirrors live' t.records.quick := by
  -- what is not written again was a copy of flash already, but for the quick word
  have hreached : s.reached parts = parts := by
    rw [reached, h.writes.streak, List.take_length]
  have hstored : ∀ p, t.stored p = r.image p := by
    intro p
    by_cases hm : p ∈ parts
    · exact hc.written p (by rwa [hreached])
    · rw [hc.kept p (by rwa [hreached]), h.holds.stored, hsame p hm]
      cases p with
      | quick => exact absurd hq hm
      | manager => rfl
      | profile slot => rfl
  have hrec := hc.records
  refine ⟨⟨hc.placed h.holds.placed, ?_, ?_, ?_⟩, ?_, ?_, ?_, ?_, ?_⟩
  · rw [hc.reads]
    exact h.holds.reads
  · rw [hrec]
    exact hsound
  · rw [hrec]
    exact hstored
  · rw [hc.writes]
    exact h.writes.after _
  · rw [hrec]
    exact hsound.fits_quick
  · rw [hrec]
    exact ha
  · rw [hrec]
    exact hp
  · rw [hrec]
    exact fun _ => hlive

section Operations

variable {s : Store} {live : DeviceSettings} {q : QuickWord}

theorem Mirrors.saveCurrent (h : s.Mirrors live q) (live' : DeviceSettings)
    (hp : live'.profile = live.profile) (now : UInt32) :
    ∃ d, (Store.saveCurrent live' now).run s = .ok d ∧ d.state.dirty = false ∧
      d.state.Mirrors live' d.state.records.quick := by
  obtain ⟨slot, hslot⟩ := h.sound.exists_activeSlot
  have hp' : live'.profile = s.records.manager.active := hp.trans h.profile
  obtain ⟨d, hd, hv, hdirty, hc⟩ := run_saveCurrent h.holds.placed hslot live' now
  have hg : d.value = true := hv.trans (decide_eq_true (h.writes.streak _))
  have hclean : d.state.dirty = false := by
    rw [hdirty, hg]
    rfl
  refine ⟨d, hd, hclean, hc.mirrors h (h.sound.saved _ live' now) (by simp)
    (fun p hm => (s.records.same_saved hm).image) h.autoLoad hp' ?_⟩
  intro other hs
  obtain rfl : slot = other := Except.ok.inj (hslot.symm.trans hs)
  exact Records.bootLive_saved h.autoLoad hp' now

theorem Mirrors.task (h : s.Mirrors live q) (now : UInt32) :
    ∃ d q', (Store.task live now).run s = .ok d ∧ d.state.Mirrors live q' := by
  obtain ⟨slot, hslot⟩ := h.sound.exists_activeSlot
  have ht := run_task hslot live now
  by_cases hdue : s.due slot now = true
  · obtain ⟨d, hd, -, hm⟩ := h.saveCurrent live rfl now
    rw [if_pos hdue, hd] at ht
    exact ⟨_, _, ht, hm⟩
  · rw [if_neg hdue] at ht
    exact ⟨_, q, ht, h⟩

theorem Mirrors.flush (h : s.Mirrors live q) :
    ∃ d q', (Store.flush live).run s = .ok d ∧ d.state.dirty = false ∧
      d.state.Mirrors live q' := by
  cases hdirty : s.dirty with
  | false => exact ⟨_, q, run_flush_of_clean hdirty live, hdirty, h⟩
  | true =>
    obtain ⟨d, hd, hclean, hm⟩ := h.saveCurrent live rfl s.lastChange
    have hf := run_flush_of_dirty hdirty live
    rw [hd] at hf
    exact ⟨_, _, hf, hclean, hm⟩

theorem Mirrors.enter (h : s.Mirrors live q) {id : UInt8} {slot : Fin maxProfiles}
    (hid : Records.slot? id = some slot) :
    ∃ d, (Store.enter slot id live).run s = .ok d ∧ d.value.1 = true ∧
      d.state.Mirrors d.value.2 d.state.records.quick := by
  obtain ⟨d, hd, hv, -, hc⟩ := run_enter h.holds.placed slot id live
  have hslot := Records.activeSlot_switched (r := s.records) hid (s.liveOf slot id live)
  have hlt : id.toNat < maxProfiles := by
    by_contra hlt
    simp [Records.slot?, hlt] at hid
  have hentered : d.value.1 = true := by rw [hv]
  refine ⟨d, hd, hentered, ?_⟩
  rw [hv]
  refine hc.mirrors h (h.sound.switched hlt _) (by simp)
    (fun p hm => (s.records.same_switched hm).image) h.autoLoad rfl ?_
  intro other hs
  obtain rfl : slot = other := Except.ok.inj (hslot.symm.trans hs)
  exact Records.bootLive_switched h.autoLoad rfl

theorem Mirrors.switchProfile (h : s.Mirrors live q) (id : UInt8) :
    ∃ d q', (Store.switchProfile id live).run s = .ok d ∧ d.state.Mirrors d.value.2 q' ∧
      (d.value.1 = false → d.value.2 = live) := by
  cases ht : s.target id with
  | none => exact ⟨_, q, run_switchProfile_of_none ht live, h, fun _ => rfl⟩
  | some slot =>
    obtain ⟨e, q', he, -, hflush⟩ := h.flush
    obtain ⟨d, hd, hv, hm⟩ := hflush.enter (slot_of_target ht)
    refine ⟨_, d.state.records.quick, run_switchProfile_of_flush ht he hd, hm, fun hf => ?_⟩
    rw [hv] at hf
    exact Bool.noConfusion hf

theorem Mirrors.resetCurrent (h : s.Mirrors live q) :
    ∃ d, (Store.resetCurrent live).run s = .ok d ∧
      d.state.Mirrors d.value.2 d.state.records.quick := by
  obtain ⟨slot, hslot⟩ := h.sound.exists_activeSlot
  obtain ⟨d, hd, hv, -, hc⟩ := run_resetCurrent h.holds.placed hslot live
  refine ⟨d, hd, ?_⟩
  rw [hv]
  refine hc.mirrors h (h.sound.reset slot live) (by simp)
    (fun p hm => (s.records.same_reset hm).image) h.autoLoad h.profile ?_
  intro other hs
  obtain rfl : slot = other := Except.ok.inj (hslot.symm.trans hs)
  exact Records.bootLive_reset h.autoLoad h.profile

theorem Mirrors.factoryReset (h : s.Mirrors live q) (now : UInt32) :
    ∃ d, (Store.factoryReset now).run s = .ok d ∧
      d.state.Mirrors d.value d.state.records.quick := by
  obtain ⟨d, hd, hv, -, hc⟩ := run_factoryReset h.holds.placed now
  have hsound := Records.sound_builtIn now
  have hboot : (Records.builtIn now).bootLive 0 {} = d.value := by
    rw [hv, Records.bootLive_of_autoLoad rfl, Records.profile_builtIn]
    rfl
  refine ⟨d, hd, hc.mirrors h hsound (Part.mem_all _) (fun p hm => absurd p.mem_all hm) rfl ?_ ?_⟩
  · rw [hv]
    rfl
  · intro other hs
    obtain rfl : 0 = other := Except.ok.inj hs
    rw [← hboot, hsound.rebooted_bootLive rfl]

end Operations

/-- After boot flash mirrors the settings that boot has put in force, as long as the
manager record does not forbid to load them. -/
theorem mirrors_of_init {s : Store} (h : s.Placed) (hr : s.flash.reads.Free)
    (hw : s.flash.writes.Free)
    (ha : s.region.manager.isValid = true → s.region.manager.autoLoad = true) (now : UInt32) :
    ∃ d q, (init {} now).run s = .ok d ∧ d.state.Mirrors d.value q := by
  obtain ⟨d, hd, hb⟩ := run_init_of_free h hr hw {} now
  have hsound := hb.holds.sound
  have hauto : (s.recovered now).manager.autoLoad = true := by
    rw [recovered]
    split
    · next hv => exact ha hv
    · rfl
  have hrec : d.state.records = (s.recovered now).synced :=
    hb.records.trans (if_pos hauto)
  have hsame : ({ d.state.records with quick := (s.recovered now).quick } : Records) =
      s.recovered now := by
    rw [hrec]
    rfl
  obtain ⟨slot, hslot⟩ := hsound.exists_activeSlot
  have hvalue := hb.value slot hslot
  refine ⟨d, (s.recovered now).quick, hd, ?_, hb.writes, ?_, ?_, ?_, ?_⟩
  · rw [hsame]
    exact hb.holds
  · rw [hrec]
    exact QuickWord.fits_withActive hsound.fits_quick hsound.active_lt
  · rw [hrec]
    exact hauto
  · rw [hvalue, hrec, Records.bootLive_of_autoLoad hauto]
    rfl
  · intro _ other hother
    rw [hrec] at hother
    obtain rfl : slot = other := Except.ok.inj (hslot.symm.trans hother)
    rw [hsame, hvalue, hsound.rebooted_bootLive hauto]

/-- Booting on what a clean mirror has in flash brings the settings back. -/
theorem Mirrors.run_init {s : Store} {live : DeviceSettings} {q : QuickWord}
    (h : s.Mirrors live q) (hclean : s.dirty = false) {flash : Flash}
    (hb : flash.bytes = s.flash.bytes) (hr : flash.reads.Free) (now : UInt32) :
    ∃ d, (init {} now).run (ofFlash flash s.base) = .ok d ∧ d.value = live.rebooted := by
  have hholds := h.holds.congr (t := ofFlash flash s.base) hb rfl hr
  obtain ⟨d, hd, -, -, hv, -⟩ := hholds.run_init {} now
  refine ⟨d, hd, hv.trans (h.clean hclean _ ?_)⟩
  exact Records.activeSlot_of_lt h.sound.active_lt

end Store

end TwinStick
