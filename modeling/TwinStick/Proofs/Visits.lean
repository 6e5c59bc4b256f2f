import TwinStick.Proofs.Mirror

/-! Coming back to a profile. Whatever becomes of the writes, the copies remember the
settings with which each profile was last left, so that switching to it again puts these
in force. -/

namespace TwinStick

/-- No sensitivity is larger than a profile can put in force. -/
def DeviceSettings.Modest (live : DeviceSettings) : Prop :=
  ∀ stick, (live.sticks.get stick).sensitivity ≤ Signal.maxSensitivity

namespace ProfileRecord

/-- The profile puts these settings in force, all but which profile is current and
whether the device is being debugged. -/
def Recalls (p : ProfileRecord) (seen : DeviceSettings) : Prop :=
  ∀ live, p.apply live = { seen with profile := live.profile, debug := live.debug }

section

variable {p : ProfileRecord} {seen live : DeviceSettings}

theorem recalls_apply (p : ProfileRecord) (live : DeviceSettings) : p.Recalls (p.apply live) :=
  fun _ => rfl

theorem Recalls.with (h : p.Recalls seen) (profile : UInt8) (debug : Bool) :
    p.Recalls { seen with profile, debug } := h

theorem modest_apply (p : ProfileRecord) (live : DeviceSettings) : (p.apply live).Modest := by
  intro stick
  have hsettings : ((p.apply live).sticks.get stick).sensitivity =
      min (p.sticks.get stick).sensitivity Signal.maxSensitivity := by
    cases stick <;> rfl
  rw [hsettings]
  by_cases h : (p.sticks.get stick).sensitivity ≤ Signal.maxSensitivity
  · rw [Signal.min_maxSensitivity h]
    exact h
  · have hmin : min (p.sticks.get stick).sensitivity Signal.maxSensitivity =
        Signal.maxSensitivity := if_neg h
    rw [hmin]
    exact UInt8.le_refl _

theorem recalls_capture (p : ProfileRecord) (h : live.Modest) : (p.capture live).Recalls live := by
  intro found
  have hone := Signal.min_maxSensitivity (h .one)
  have htwo := Signal.min_maxSensitivity (h .two)
  simp only [PerStick.get] at hone htwo
  simp only [apply, capture, sealed, PerStick.map, StickProfile.settings, StickProfile.capture,
    StickMode.ofAnalog_isAnalog, hone, htwo]

theorem recalls_template_zero (live : DeviceSettings) :
    (template 0).Recalls ((template 0).applyExtended (Records.default.quick.apply live)) := by
  intro found
  rfl

end

end ProfileRecord

namespace Store

/-- The copies hold what each profile is remembered by, except that unsaved settings are
still to come to the active one. -/
structure Remembers (s : Store) (active : Fin maxProfiles) (live : DeviceSettings)
    (memory : Fin maxProfiles → DeviceSettings) : Prop where
  placed : s.Placed
  slot : s.records.activeSlot = .ok active
  switching : s.records.manager.switching = true
  modest : live.Modest
  others (slot : Fin maxProfiles) (h : slot ≠ active) :
    (s.records.profile slot).Recalls (memory slot)
  own : s.dirty = false → (s.records.profile active).Recalls live

/-- The active profile recalls the settings in force, whether they are in flash or not. -/
def Captured (s : Store) (active : Fin maxProfiles) (live : DeviceSettings) : Prop :=
  (s.records.profile active).Recalls live

section

variable {s : Store} {active : Fin maxProfiles} {live : DeviceSettings}
  {memory : Fin maxProfiles → DeviceSettings}

/-- A save captures the settings even if it fails. -/
theorem Remembers.saveCurrent (h : s.Remembers active live memory) (now : UInt32) :
    ∃ d, (Store.saveCurrent live now).run s = .ok d ∧ d.state.Remembers active live memory ∧
      d.state.Captured active live := by
  obtain ⟨d, hd, -, -, hc⟩ := run_saveCurrent h.placed h.slot live now
  have hcaptured : d.state.Captured active live := by
    rw [Captured, hc.records, Records.profile_saved_self]
    exact ProfileRecord.recalls_capture _ h.modest
  refine ⟨d, hd, ⟨hc.placed h.placed, ?_, ?_, h.modest, fun slot hn => ?_, fun _ => hcaptured⟩,
    hcaptured⟩
  · rw [hc.records]
    exact h.slot
  · rw [hc.records]
    exact h.switching
  · rw [hc.records, Records.profile_saved_of_ne _ _ _ hn]
    exact h.others slot hn

theorem Remembers.task (h : s.Remembers active live memory) (now : UInt32) :
    ∃ d, (Store.task live now).run s = .ok d ∧ d.state.Remembers active live memory := by
  have hrun := run_task h.slot live now
  by_cases hdue : s.due active now = true
  · obtain ⟨d, hd, hr, -⟩ := h.saveCurrent now
    rw [if_pos hdue, hd] at hrun
    exact ⟨_, hrun, hr⟩
  · rw [if_neg hdue] at hrun
    exact ⟨_, hrun, h⟩

theorem Remembers.flush (h : s.Remembers active live memory) :
    ∃ d, (Store.flush live).run s = .ok d ∧ d.state.Remembers active live memory ∧
      d.state.Captured active live := by
  cases hdirty : s.dirty with
  | false => exact ⟨_, run_flush_of_clean hdirty live, h, h.own hdirty⟩
  | true =>
    have hrun := run_flush_of_dirty hdirty live
    obtain ⟨d, hd, hr, hcaptured⟩ := h.saveCurrent s.lastChange
    rw [hd] at hrun
    exact ⟨_, hrun, hr, hcaptured⟩

theorem Remembers.recalls (h : s.Remembers active live memory) (hc : s.Captured active live)
    (slot : Fin maxProfiles) :
    (s.records.profile slot).Recalls (Function.update memory active live slot) := by
  by_cases hs : slot = active
  · subst hs
    rw [Function.update_self]
    exact hc
  · rw [Function.update_of_ne hs]
    exact h.others slot hs

theorem Remembers.enter (h : s.Remembers active live memory) (hc : s.Captured active live)
    {id : UInt8} {slot : Fin maxProfiles} (hid : Records.slot? id = some slot) :
    ∃ d, (Store.enter slot id live).run s = .ok d ∧
      d.value = (true, { Function.update memory active live slot with
        profile := id, debug := live.debug }) ∧
      d.state.Remembers slot d.value.2 (Function.update memory active live) := by
  have hrecalls := h.recalls hc
  have hlive : s.liveOf slot id live =
      { Function.update memory active live slot with profile := id, debug := live.debug } := by
    rw [liveOf, hrecalls slot live]
  obtain ⟨d, hd, hv, -, hcar⟩ := run_enter h.placed slot id live
  have hprofile : ∀ other, d.state.records.profile other = s.records.profile other := by
    intro other
    rw [hcar.records]
    rfl
  refine ⟨d, hd, ?_, hcar.placed h.placed, ?_, ?_, ?_, fun other _ => ?_, fun _ => ?_⟩
  · rw [hv, hlive]
  · rw [hcar.records]
    exact Records.activeSlot_switched hid _
  · rw [hcar.records]
    exact h.switching
  · rw [hv]
    exact ProfileRecord.modest_apply (s.records.profile slot) live
  · rw [hprofile]
    exact hrecalls other
  · rw [hprofile, hv, hlive]
    exact (hrecalls slot).with id live.debug

theorem Remembers.switchProfile (h : s.Remembers active live memory) {id : UInt8}
    {slot : Fin maxProfiles} (hid : Records.slot? id = some slot) :
    ∃ d, (Store.switchProfile id live).run s = .ok d ∧
      d.value = (true, { Function.update memory active live slot with
        profile := id, debug := live.debug }) ∧
      d.state.Remembers slot d.value.2 (Function.update memory active live) := by
  -- leaving captures the old profile first, so going back to the active one is no exception
  have ht : s.target id = some slot := by rw [target, h.switching, if_pos rfl, hid]
  obtain ⟨d, hd, hr, hc⟩ := h.flush
  obtain ⟨e, he, hv, hnext⟩ := hr.enter hc hid
  exact ⟨_, run_switchProfile_of_flush ht hd he, hv, hnext⟩

theorem bootLive_builtIn (now : UInt32) (live : DeviceSettings) :
    (Records.builtIn now).bootLive 0 live =
      (ProfileRecord.template 0).applyExtended (Records.default.quick.apply live) := by
  rw [Records.bootLive_of_autoLoad rfl, Records.profile_builtIn]
  rfl

theorem remembers_boot {now : UInt32} {d : Outcome Store DeviceSettings} (h : s.Placed)
    (hr : s.flash.reads.Free) (hv : s.region.manager.isValid = false)
    (hd : (init live now).run s = .ok d) :
    d.state.Remembers 0 d.value fun slot => (ProfileRecord.template slot).apply {} := by
  have hl : ¬ s.Loadable := by
    intro hl
    rw [hl.1] at hv
    exact Bool.noConfusion hv
  obtain ⟨e, he, hreplaced⟩ := run_takeOver_of_not_loadable h hr hl now
  have hrec : e.state.records = .builtIn now := by rw [hreplaced.state]
  have hbase : e.state.base = s.base := by rw [hreplaced.state]
  have hslot : e.state.records.activeSlot = .ok 0 := by
    rw [hrec]
    rfl
  obtain rfl := Except.ok.inj (hd.symm.trans (run_init he hslot live))
  rw [hrec, Records.booted_builtIn, bootLive_builtIn]
  let found := (ProfileRecord.template 0).applyExtended (Records.default.quick.apply live)
  have hfound : (ProfileRecord.template 0).Recalls found := ProfileRecord.recalls_template_zero live
  refine ⟨h.congr hbase hreplaced.capacity, rfl, rfl, ?_, fun slot _ => ?_, fun _ => ?_⟩
  · have happly : (ProfileRecord.template 0).apply found = found := hfound found
    change found.Modest
    rw [← happly]
    exact ProfileRecord.modest_apply _ found
  · change (((Records.builtIn now).profile slot).Recalls _)
    rw [Records.profile_builtIn]
    exact ProfileRecord.recalls_apply _ _
  · change (((Records.builtIn now).profile 0).Recalls found)
    rw [Records.profile_builtIn]
    exact hfound

end

/-- What a session comes to that starts with boot over a region that is not formatted:
writes are granted or refused in any pattern, edits are announced, settings are saved
and profiles switched. Goes with the settings in force and with those with which each
profile was last left, at first the ones of its template. -/
inductive Visits : Store → DeviceSettings → (Fin maxProfiles → DeviceSettings) → Prop
  | boot {s : Store} {live : DeviceSettings} {now : UInt32} {d : Outcome Store DeviceSettings}
      (h : s.Placed) (hr : s.flash.reads.Free) (hv : s.region.manager.isValid = false)
      (hd : (init live now).run s = .ok d) :
      Visits d.state d.value fun slot => (ProfileRecord.template slot).apply {}
  | gate {s : Store} {live : DeviceSettings} {memory : Fin maxProfiles → DeviceSettings}
      (h : Visits s live memory) (writes : Gate) :
      Visits { s with flash := { s.flash with writes } } live memory
  | edit {s : Store} {live : DeviceSettings} {memory : Fin maxProfiles → DeviceSettings}
      (h : Visits s live memory) {live' : DeviceSettings} (hl : live'.profile = live.profile)
      (hm : live'.Modest) (now : UInt32) : Visits (s.markDirty now) live' memory
  | task {s : Store} {live : DeviceSettings} {memory : Fin maxProfiles → DeviceSettings}
      (h : Visits s live memory) {now : UInt32} {d : Outcome Store Unit}
      (hd : (Store.task live now).run s = .ok d) : Visits d.state live memory
  | save {s : Store} {live : DeviceSettings} {memory : Fin maxProfiles → DeviceSettings}
      (h : Visits s live memory) {now : UInt32} {d : Outcome Store Bool}
      (hd : (saveCurrent live now).run s = .ok d) : Visits d.state live memory
  | switch {s : Store} {live : DeviceSettings} {memory : Fin maxProfiles → DeviceSettings}
      (h : Visits s live memory) {id : UInt8} {d : Outcome Store (Bool × DeviceSettings)}
      (hd : (switchProfile id live).run s = .ok d) {active : Fin maxProfiles}
      (ha : s.active.toNat = active) :
      Visits d.state d.value.2 (if d.value.1 then Function.update memory active live else memory)

section

variable {s : Store} {live : DeviceSettings} {memory : Fin maxProfiles → DeviceSettings}

theorem Remembers.active_eq {active : Fin maxProfiles} (h : s.Remembers active live memory)
    {other : Fin maxProfiles} (ha : s.active.toNat = other) : other = active :=
  Fin.ext (ha.symm.trans (Records.toNat_of_activeSlot h.slot))

theorem Visits.remembers (h : Visits s live memory) :
    ∃ active, s.Remembers active live memory := by
  induction h with
  | boot h hr hv hd => exact ⟨0, remembers_boot h hr hv hd⟩
  | gate _ writes ih =>
    obtain ⟨active, ih⟩ := ih
    exact ⟨active, ih.placed.congr rfl rfl, ih.slot, ih.switching, ih.modest, ih.others, ih.own⟩
  | edit _ hl hm now ih =>
    obtain ⟨active, ih⟩ := ih
    exact ⟨active, ih.placed.congr rfl rfl, ih.slot, ih.switching, hm, ih.others, nofun⟩
  | task _ hd ih =>
    obtain ⟨active, ih⟩ := ih
    obtain ⟨e, he, hr⟩ := ih.task _
    obtain rfl := Except.ok.inj (hd.symm.trans he)
    exact ⟨active, hr⟩
  | save _ hd ih =>
    obtain ⟨active, ih⟩ := ih
    obtain ⟨e, he, hr, -⟩ := ih.saveCurrent _
    obtain rfl := Except.ok.inj (hd.symm.trans he)
    exact ⟨active, hr⟩
  | @switch s live memory _ id d hd other ha ih =>
    obtain ⟨active, ih⟩ := ih
    obtain rfl := ih.active_eq ha
    cases hid : Records.slot? id with
    | none =>
      have ht := target_eq_none hid s
      obtain rfl := Except.ok.inj (hd.symm.trans (run_switchProfile_of_none ht live))
      exact ⟨other, ih⟩
    | some slot =>
      obtain ⟨e, he, hv, hr⟩ := ih.switchProfile hid
      obtain rfl := Except.ok.inj (hd.symm.trans he)
      rw [hv] at hr ⊢
      exact ⟨slot, hr⟩

/-- Switching to a profile puts in force the settings with which it was last left, no
matter which writes were refused since; only debugging stays as it is. -/
theorem Visits.switch_restores (h : Visits s live memory) (id : UInt8) :
    ∃ (active : Fin maxProfiles) (d : Outcome Store (Bool × DeviceSettings)),
      s.active.toNat = active ∧ (switchProfile id live).run s = .ok d ∧
      (d.value.1 = true ↔ id.toNat < maxProfiles) ∧
      ∀ slot : Fin maxProfiles, id.toNat = slot → d.state.active = id ∧
        d.value.2 = { Function.update memory active live slot with
          profile := id, debug := live.debug } := by
  obtain ⟨active, hr⟩ := h.remembers
  have hactive := Records.toNat_of_activeSlot hr.slot
  cases hid : Records.slot? id with
  | none =>
    have ht := target_eq_none hid s
    have hge : ¬ id.toNat < maxProfiles := by
      intro hlt
      rw [Records.slot?, dif_pos hlt] at hid
      cases hid
    refine ⟨active, _, hactive, run_switchProfile_of_none ht live,
      iff_of_false Bool.false_ne_true hge, fun slot hslot => ?_⟩
    exact absurd (hslot ▸ slot.isLt) hge
  | some target =>
    have htarget := Records.toNat_of_slot? hid
    obtain ⟨d, hd, hv, hnext⟩ := hr.switchProfile hid
    refine ⟨active, d, hactive, hd, ?_, fun slot hslot => ⟨?_, ?_⟩⟩
    · rw [hv]
      exact iff_of_true rfl (htarget ▸ target.isLt)
    · have hnow := Records.toNat_of_activeSlot hnext.slot
      exact UInt8.toNat_inj.mp (hnow.trans htarget.symm)
    · obtain rfl : slot = target := Fin.ext (hslot.symm.trans htarget)
      rw [hv]

/-- A store booted on erased memory, with an edit that was announced while every write
is refused. -/
theorem visits_refused :
    ∃ s, Visits s { debounceMs := 9 } (fun slot => (ProfileRecord.template slot).apply {}) ∧
      s.active = 0 := by
  have hfree := Gate.free_default
  obtain ⟨d, hd, hb⟩ := run_init_of_free placed_erased hfree hfree {} 0
  obtain ⟨-, hrecords, hvalue⟩ := hb.formatted isValid_erased
  have hprofile : ({ debounceMs := 9 } : DeviceSettings).profile = d.value.profile := by
    rw [hvalue, bootLive_builtIn]
    rfl
  have hmodest : ({ debounceMs := 9 } : DeviceSettings).Modest := by
    intro stick
    cases stick <;> decide
  have hactive : d.state.active = 0 := by
    rw [active, hrecords]
    rfl
  have hboot : Visits d.state d.value _ := .boot placed_erased hfree isValid_erased hd
  exact ⟨_, (hboot.gate { isOpen := false }).edit hprofile hmodest 5, hactive⟩

/-- The edit survives a visit to the second profile, though nothing of it got to flash. -/
theorem switch_restores_refused :
    ∃ s d e, Visits s { debounceMs := 9 } (fun slot => (ProfileRecord.template slot).apply {}) ∧
      (switchProfile 1 { debounceMs := 9 }).run s = .ok d ∧
      (switchProfile 0 d.value.2).run d.state = .ok e ∧ e.value.2 = { debounceMs := 9 } := by
  obtain ⟨s, hs, hzero⟩ := visits_refused
  obtain ⟨first, d, hfirst, hd, hiff, hleft⟩ := Visits.switch_restores hs 1
  obtain rfl : first = 0 := Fin.ext (by rw [← hfirst, hzero]; rfl)
  obtain ⟨hone, hlive⟩ := hleft 1 rfl
  have hnext := hs.switch hd hfirst
  rw [if_pos (hiff.mpr (by decide))] at hnext
  obtain ⟨second, e, hsecond, he, -, hback⟩ := Visits.switch_restores hnext 0
  obtain rfl : second = 1 := Fin.ext (by rw [← hsecond, hone]; rfl)
  obtain ⟨-, hrestored⟩ := hback 0 rfl
  refine ⟨s, d, e, hs, hd, he, ?_⟩
  rw [hrestored, hlive, Function.update_of_ne (by decide), Function.update_self]

end

end Store

end TwinStick
