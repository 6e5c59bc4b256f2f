import TwinStick.Proofs.Completion
import TwinStick.Proofs.Moves
import TwinStick.Proofs.WordArithmetic

/-! Nothing that is done to the device stops at a fault. Whatever happens, its active slot and the
profile in force exist, its records have addresses, its converter is not too wide, and the
threshold of its sticks has a negative; and that is all it takes. -/

namespace TwinStick

open Routine

namespace Controller

/-- What the device needs so that nothing stops at a fault. -/
structure Secure (c : Controller) : Prop where
  store : c.store.Fit
  profile : c.live.profile.toNat < maxProfiles
  bits : c.board.adc.bits ≤ 25
  threshold : c.sampler.config.threshold ≠ Int16.minValue

/-- The routine ends, and the device still has what it needs. -/
def Safe (r : Routine Controller α) : Prop :=
  ∀ c : Controller, c.Secure → r.Completes c fun _ d => d.Secure

variable {r : Routine Controller α} {f : α → Routine Controller β} {c : Controller}

theorem Safe.bind (hr : Safe r) (hf : ∀ a, Safe (f a)) : Safe (r >>= f) :=
  fun c h => (hr c h).bind fun a d hd => hf a d hd

theorem Safe.get_bind {f : Controller → Routine Controller β}
    (h : ∀ c : Controller, c.Secure → (f c).Completes c fun _ d => d.Secure) :
    Safe (get >>= f) := fun c hc => .get_bind (h c hc)

theorem safe_pure (a : α) : Safe (pure a) := fun _ h => .of_pure h

theorem safe_tell (events : List HostEvent) : Safe (tell events) :=
  fun c h => .of_run (run_tell events c) h

theorem safe_notify (n : Notice) : Safe (notify n) := fun c h => .of_run (run_notify n c) h

theorem completes_set {d : Controller} (h : d.Secure) :
    (set d : Routine Controller PUnit).Completes c fun _ d => d.Secure :=
  .of_run (run_set c d) h

theorem completes_modify {g : Controller → Controller} (h : (g c).Secure) :
    (modify g : Routine Controller PUnit).Completes c fun _ d => d.Secure :=
  .of_run (run_modify g c) h

theorem Secure.synced (h : c.Secure) : c.synced.Secure :=
  ⟨h.store, h.profile, h.bits, h.threshold⟩

theorem safe_sync : Safe sync := fun c h => .of_run (run_sync c) h.synced

theorem completes_onStore {r : Routine Store α} {P : α → Store → Prop}
    (h : r.Completes c.store P) :
    (onStore r).Completes c fun a d => ∃ s, P a s ∧ d = { c with store := s } :=
  .of_map (run_onStore r c) h fun d hd => ⟨d.state, hd, rfl⟩

theorem Secure.withStore (h : c.Secure) {s : Store} (hs : s.Fit) :
    Secure { c with store := s } := ⟨hs, h.profile, h.bits, h.threshold⟩

theorem safe_onStore {r : Routine Store α}
    (hr : ∀ s : Store, s.Fit → r.Completes s fun _ t => t.Fit) : Safe (onStore r) := by
  intro c h
  refine (completes_onStore (hr c.store h.store)).mono fun a d hd => ?_
  obtain ⟨s, hs, rfl⟩ := hd
  exact h.withStore hs

theorem safe_saveNow (now : UInt32) : Safe (saveNow now) := by
  refine .get_bind fun c h => ?_
  have hsave := safe_onStore (r := Store.saveCurrent c.live now)
    fun s hs => hs.completes_saveCurrent now
  exact (hsave c h).bind fun _ d hd => .of_pure hd

/-- Settings that name a slot are put in force. -/
theorem Secure.install (h : c.Secure) {s : Store} (hs : s.Fit) {live : DeviceSettings}
    (hl : live.profile.toNat < maxProfiles) {f : Unit → Routine Controller β}
    {Q : β → Controller → Prop}
    (hf : ∀ d : Controller, d.Secure → (f ()).Completes d Q) :
    (modify ({ · with live }) >>= fun _ => sync >>= f).Completes { c with store := s } Q := by
  let t : Controller := { c with store := s, live }
  have ht : t.Secure := ⟨hs, hl, h.bits, h.threshold⟩
  have hlive := run_modify (fun d : Controller => { d with live }) { c with store := s }
  refine (Completes.of_run (P := fun _ d => d = t) hlive rfl).bind fun _ d hd => ?_
  subst hd
  exact (Completes.of_run (P := fun _ d => d = t.synced) (run_sync t) rfl).bind fun _ d hd =>
    hd ▸ hf t.synced ht.synced

theorem addUInt8_slot {id : UInt8} (h : id.toNat < maxProfiles) :
    Checked.addUInt8 id 1 = .ok (id + 1) := by
  have hsum : id.toNat + (1 : UInt8).toNat < UInt8.size := by
    rw [maxProfiles] at h
    change id.toNat + 1 < 256
    omega
  exact if_pos hsum

theorem safe_switchProfile (id : UInt8) : Safe (switchProfile id) := by
  refine .get_bind fun c h => ?_
  refine (completes_onStore (h.store.completes_switchProfile id)).bind fun v d hd => ?_
  obtain ⟨switched, live⟩ := v
  obtain ⟨s, ⟨hs, hv⟩, rfl⟩ := hd
  cases switched with
  | false => exact .of_pure (h.withStore hs)
  | true =>
    obtain ⟨hid, hlive⟩ := hv rfl
    have hprofile : live.profile.toNat < maxProfiles := by
      rw [hlive]
      exact hid
    refine h.install hs hprofile fun d hd => .get_bind ?_
    obtain ⟨record, hrecord⟩ := hd.store.exists_activeRecord
    refine .liftM_bind hrecord (.liftM_bind (addUInt8_slot hid) ?_)
    exact (safe_notify _ d hd).bind fun _ e he => .of_pure he

theorem safe_toggleStickMode (stick : Stick) (now : UInt32) : Safe (toggleStickMode stick now) := by
  intro c h
  have hmode : (c.modeToggled stick).Secure := ⟨h.store, h.profile, h.bits, h.threshold⟩
  have hrest (n : Notice) : Safe (saveNow now >>= fun _ => notify n) :=
    (safe_saveNow now).bind fun _ => safe_notify n
  exact .of_map (run_toggleStickMode stick now c) (hrest _ _ hmode) fun d hd => hd

theorem safe_calibrateTouchscreen : Safe calibrateTouchscreen :=
  fun c h => .of_run (run_calibrateTouchscreen c) h

theorem safe_calibrateStick (stick : Stick) : Safe (calibrateStick stick) := by
  intro c h
  have hreadings := Sampler.completes_calibrate (s := c.sampler) h.bits stick calibrationSamples
  refine .of_map (run_calibrateStick stick c) hreadings fun d hd => ?_
  obtain ⟨hbits, hconfig⟩ := hd
  refine ⟨h.store, h.profile, hbits, ?_⟩
  change d.value.2.config.threshold ≠ Int16.minValue
  rw [hconfig]
  exact h.threshold

theorem safe_calibrate (now : UInt32) : Safe (calibrate now) :=
  safe_calibrateTouchscreen.bind fun _ => (safe_calibrateStick .one).bind fun _ =>
    (safe_calibrateStick .two).bind fun _ => (safe_saveNow now).bind fun _ => safe_notify _

theorem Secure.touchToggled (h : c.Secure) : c.touchToggled.1.Secure := by
  rw [touchToggled_fst]
  exact ⟨h.store, h.profile, h.bits, h.threshold⟩

theorem safe_toggleTouchscreen (now : UInt32) : Safe (toggleTouchscreen now) := by
  intro c h
  have hmarked := h.touchToggled.withStore (h.store.markDirty now)
  exact .of_run (run_toggleTouchscreen now c) hmarked

theorem safe_toggleCombos (now : UInt32) : Safe (toggleCombos now) := by
  intro c h
  have hflipped : c.combosFlipped.Secure := ⟨h.store, h.profile, h.bits, h.threshold⟩
  exact .of_run (run_toggleCombos now c) (hflipped.withStore (h.store.markDirty now))

theorem safe_toggleDebug : Safe toggleDebug := by
  intro c h
  have hflipped : c.debugFlipped.Secure := ⟨h.store, h.profile, h.bits, h.threshold⟩
  exact .of_run (run_toggleDebug c) hflipped

theorem safe_resetCurrent : Safe resetCurrent := by
  refine .get_bind fun c h => ?_
  refine (completes_onStore h.store.completes_resetCurrent).bind fun v d hd => ?_
  obtain ⟨reset, live⟩ := v
  obtain ⟨s, ⟨hs, hlive⟩, rfl⟩ := hd
  have hprofile : live.profile.toNat < maxProfiles := by
    rw [hlive]
    exact h.profile
  refine h.install hs hprofile fun d hd => .get_bind ?_
  exact .liftM_bind (addUInt8_slot hd.profile) (safe_notify _ d hd)

/-- Both resets of the whole device. -/
theorem safe_replace (n : Notice) (now : UInt32) :
    Safe (do
      notify n
      let live ← onStore (Store.factoryReset now)
      modify ({ · with live })
      sync) := by
  refine (safe_notify n).bind fun _ c h => ?_
  refine (completes_onStore (h.store.completes_factoryReset now)).bind fun live d hd => ?_
  obtain ⟨s, ⟨hs, hlive⟩, rfl⟩ := hd
  have hinstalled : Secure { c with store := s, live } := by
    refine ⟨hs, ?_, h.bits, h.threshold⟩
    rw [hlive]
    exact Nat.zero_lt_succ 3
  exact (completes_modify hinstalled).bind fun _ d hd => safe_sync d hd

theorem safe_moveToLayer (layer : UInt8) : Safe (moveToLayer layer) := by
  rw [moveToLayer]
  split
  · exact (safe_tell _).bind fun _ => safe_notify _
  · exact safe_pure _

theorem safe_perform (action : ComboAction) (now : UInt32) : Safe (perform action now) := by
  cases action with
  | switchProfile id => exact (safe_switchProfile id).bind fun _ => safe_pure _
  | toggleStickMode stick => exact safe_toggleStickMode stick now
  | calibrate => exact safe_calibrate now
  | resetSettings => exact safe_resetCurrent
  | moveToLayer layer => exact safe_moveToLayer layer
  | emergencyReset => exact safe_replace .emergencyReset now
  | toggleTouchscreen => exact safe_toggleTouchscreen now
  | toggleDebug => exact safe_toggleDebug
  | factoryReset => exact safe_replace .factoryReset now

theorem safe_processCombo (index : Nat) (pressed : Bool) : Safe (processCombo index pressed) := by
  rw [processCombo]
  cases pressed with
  | false => exact safe_pure _
  | true =>
    rw [if_pos rfl]
    cases Combo.ofIndex? index with
    | none => exact safe_pure _
    | some combo =>
      refine .get_bind fun c h => ?_
      split
      · obtain ⟨on, hon⟩ := h.store.exists_isComboEnabled combo
        refine .liftM_bind hon ?_
        split
        · exact safe_perform _ _ c h
        · exact .of_pure h
      · exact .of_pure h

theorem safe_processKey (code : UInt16) (pressed : Bool) : Safe (processKey code pressed) := by
  rw [processKey]
  cases CustomKey.ofKeycode? code with
  | none => exact safe_pure _
  | some key =>
    cases pressed with
    | false => exact safe_pure _
    | true =>
      refine .get_bind fun c h => ?_
      have hkey {α : Type} {r : Routine Controller α} (hr : Safe r) :
          (r >>= fun _ => pure KeyDisposition.consumed).Completes c fun _ d => d.Secure :=
        (hr.bind fun _ => safe_pure _) c h
      cases key with
      | profile slot => exact hkey (safe_switchProfile slot)
      | stick1Mode => exact hkey (safe_toggleStickMode .one _)
      | stick2Mode => exact hkey (safe_toggleStickMode .two _)
      | touchCalibrate => exact hkey safe_calibrateTouchscreen
      | comboToggle => exact hkey (safe_toggleCombos _)

theorem safe_tickMatrix (now : UInt32) : Safe (tickMatrix now) := by
  intro c h
  exact .of_run (run_tickMatrix now c) ⟨h.store, h.profile, h.bits, h.threshold⟩

theorem safe_tickSticks (now : UInt32) : Safe (tickSticks now) := by
  intro c h
  cases hdue : c.sampler.cadence.due now with
  | false => exact .of_run (run_tickSticks_idle hdue) h
  | true =>
    have hsample := Sampler.completes_tick h.bits h.threshold now
    refine .of_map (run_tickSticks_due hdue) hsample fun d ⟨hbits, hconfig⟩ => ?_
    refine ⟨h.store, h.profile, hbits, ?_⟩
    change d.value.2.config.threshold ≠ Int16.minValue
    rw [hconfig]
    exact h.threshold

theorem safe_pollModeSwitch (stick : Stick) (now : UInt32) : Safe (pollModeSwitch stick now) := by
  refine .get_bind fun c h => ?_
  have hlooked : Secure { c with
      switchLevels := c.switchLevels.set stick (c.board.switches.get stick) } :=
    ⟨h.store, h.profile, h.bits, h.threshold⟩
  refine (completes_set hlooked).bind fun _ d hd => ?_
  split
  · exact safe_toggleStickMode stick now d hd
  · exact .of_pure hd

theorem safe_tickSwitches (now : UInt32) : Safe (tickSwitches now) := by
  refine .get_bind fun c h => ?_
  obtain ⟨due, switchCadence⟩ := c.switchCadence.poll now
  have hpolled : Secure { c with switchCadence } := ⟨h.store, h.profile, h.bits, h.threshold⟩
  refine (completes_set hpolled).bind fun _ d hd => ?_
  cases due with
  | false => exact .of_pure hd
  | true =>
    have hboth := (safe_pollModeSwitch .one now).bind fun _ => safe_pollModeSwitch .two now
    exact hboth d hd

theorem safe_tickPanel (now : UInt32) : Safe (tickPanel now) := by
  intro c h
  have hticked : (c.panelTicked now).1.Secure := by
    rw [panelTicked_fst]
    exact ⟨h.store, h.profile, h.bits, h.threshold⟩
  exact .of_run (run_tickPanel now c) hticked

theorem safe_wrapUp (now : UInt32) : Safe (wrapUp now) := by
  have htask : Safe (get >>= fun c => onStore (Store.task c.live now)) := by
    refine .get_bind fun c h => ?_
    exact safe_onStore (fun s hs => hs.completes_task now) c h
  exact (safe_tickSwitches now).bind fun _ => (safe_tickPanel now).bind fun _ => htask

theorem safe_followUp (now : UInt32) (looked : Bool) : Safe (followUp now looked) := by
  rw [followUp]
  cases looked with
  | false => exact safe_wrapUp now
  | true =>
    intro c h
    have htracked : Secure { c with tracker := c.tracker.updateAll c.snapshot now } :=
      ⟨h.store, h.profile, h.bits, h.threshold⟩
    exact (completes_modify htracked).bind fun _ d hd => safe_wrapUp now d hd

theorem safe_tick : Safe tick := by
  rw [tick_eq]
  refine .get_bind fun c h => ?_
  have hrest (now : UInt32) := (safe_tickMatrix now).bind fun scanned =>
    (safe_tickSticks now).bind fun sampled => safe_followUp now (scanned || sampled)
  exact hrest c.board.now c h

theorem Secure.woken (h : c.Secure) : c.woken.Secure := by
  rw [woken_eq]
  exact ⟨h.store, h.profile, h.bits, h.threshold⟩

theorem safe_init : Safe init := by
  intro c h
  refine .of_map (run_init c) (h.store.completes_init c.board.now) fun d ⟨hs, hlive⟩ => ?_
  have hinstalled : (c.installed d d.value).Secure := ⟨hs, hlive, h.bits, h.threshold⟩
  have hsynced := hinstalled.woken.synced
  exact ⟨hsynced.store, hsynced.profile, hsynced.bits, hsynced.threshold⟩

/-- An edit of the settings leaves the profile in force. -/
def KeepsProfile (c : Controller) : ControllerCall → Prop
  | .updateSettings edit => (edit c.live).profile = c.live.profile
  | _ => True

theorem Secure.completes_updateSettings (h : c.Secure) {edit : DeviceSettings → DeviceSettings}
    (he : (edit c.live).profile = c.live.profile) :
    (updateSettings edit).Completes c fun _ d => d.Secure := by
  have hedited : Secure { c with live := edit c.live } := by
    refine ⟨h.store, ?_, h.bits, h.threshold⟩
    rw [he]
    exact h.profile
  have hmarked := hedited.synced.withStore (h.store.markDirty c.board.now)
  exact .of_run (run_updateSettings edit c) hmarked

theorem Secure.completes_call (h : c.Secure) {call : ControllerCall} (hc : c.KeepsProfile call) :
    call.perform.Completes c fun _ d => d.Secure := by
  have hreply {α : Type} {r : Routine Controller α} (hr : Safe r) (g : α → Reply) :
      (r >>= fun a => pure (g a)).Completes c fun _ d => d.Secure :=
    (hr.bind fun a => safe_pure (g a)) c h
  cases call with
  | init => exact hreply safe_init _
  | tick => exact hreply safe_tick _
  | combo index pressed => exact hreply (safe_processCombo index pressed) _
  | key code pressed => exact hreply (safe_processKey code pressed) _
  | switchProfile id => exact hreply (safe_switchProfile id) _
  | toggleStickMode stick now => exact hreply (safe_toggleStickMode stick now) _
  | calibrate now => exact hreply (safe_calibrate now) _
  | toggleTouchscreen now => exact hreply (safe_toggleTouchscreen now) _
  | toggleCombos now => exact hreply (safe_toggleCombos now) _
  | toggleDebug => exact hreply safe_toggleDebug _
  | resetCurrent => exact hreply safe_resetCurrent _
  | factoryReset now => exact hreply (safe_replace .factoryReset now) _
  | emergencyReset now => exact hreply (safe_replace .emergencyReset now) _
  | updateSettings edit =>
    exact (h.completes_updateSettings hc).bind fun _ d hd => .of_pure hd
  | store call =>
    refine .get_bind ?_
    have hcall := safe_onStore fun s hs => hs.completes_call call c.live
    refine (hcall c h).bind fun answer d hd => ?_
    split <;> exact .of_pure hd
  | tracker call =>
    obtain ⟨d, hd⟩ := c.tracker.exists_perform call
    have hrun := run_tracker call c
    rw [hd] at hrun
    exact .of_run hrun ⟨h.store, h.profile, h.bits, h.threshold⟩

/-- What can become of a device whose region is at an address: it is set up on some board and some
memory, both become any others, its operations are called, and its store is called behind its back
with any settings. -/
inductive Usage (base : UInt32) : Controller → Prop
  | new {board : Board} (hb : board.adc.bits ≤ 25) (flash : Flash) :
      Usage base (ofBoard board flash base)
  | outside {c : Controller} (h : Usage base c) {board : Board} (hb : board.adc.bits ≤ 25)
      (flash : Flash) : Usage base (c.placed board flash)
  | call {c : Controller} (h : Usage base c) {call : ControllerCall} (hc : c.KeepsProfile call)
      {d : Outcome Controller Reply} (hd : call.perform.run c = .ok d) : Usage base d.state
  | store {c : Controller} (h : Usage base c) {call : StoreCall} {live : DeviceSettings}
      {d : Outcome Controller (DeviceSettings × Option Bool)}
      (hd : (onStore (call.perform live)).run c = .ok d) : Usage base d.state

theorem safe_storeCall (call : StoreCall) (live : DeviceSettings) :
    Safe (onStore (call.perform live)) := safe_onStore fun _ hs => hs.completes_call call live

theorem Usage.secure {base : UInt32} (hbase : base.toNat + (Part.profile 3).offset < UInt32.size)
    (h : Usage base c) : c.Secure := by
  induction h with
  | new hb flash =>
    have hfit : (Store.ofFlash flash base).Fit :=
      ⟨Records.aimed_default, Store.addressed_of_lt hbase⟩
    have hdefault : Signal.defaultThreshold ≠ Int16.minValue := by decide
    exact ⟨hfit, Nat.zero_lt_succ 3, hb, hdefault⟩
  | outside _ hb flash ih =>
    exact ⟨⟨ih.store.aimed, ih.store.addressed⟩, ih.profile, hb, ih.threshold⟩
  | call _ hc hd ih => exact (ih.completes_call hc).ensures _ hd
  | @store c _ call live d hd ih => exact (safe_storeCall call live c ih).ensures _ hd

/-- Whatever was done to the device, nothing that is done to it next stops at a fault, as long as
the last record has an address and no converter is too wide. -/
theorem Usage.never_faults {base : UInt32}
    (hbase : base.toNat + (Part.profile 3).offset < UInt32.size) (h : Usage base c) :
    c.store.active.toNat < maxProfiles ∧ c.live.profile.toNat < maxProfiles ∧
    (∃ p, c.store.activeRecord = .ok p) ∧
    (∀ combo, ∃ on, c.store.isComboEnabled combo = .ok on) ∧
    (∀ call, c.KeepsProfile call → ∃ d, call.perform.run c = .ok d) ∧
    (∀ (call : StoreCall) (live : DeviceSettings),
      ∃ d, (onStore (call.perform live)).run c = .ok d) ∧
    (∀ call : TrackerCall, ∃ d, c.tracker.perform call = .ok d) ∧
    WordsSuffice := by
  have hs := h.secure hbase
  refine ⟨hs.store.aimed.active_lt, hs.profile, hs.store.exists_activeRecord,
    hs.store.exists_isComboEnabled, fun call hc => ?_, fun call live => ?_,
    c.tracker.exists_perform, wordsSuffice⟩
  · obtain ⟨d, hd, -⟩ := hs.completes_call hc
    exact ⟨d, hd⟩
  · obtain ⟨d, hd, -⟩ := safe_storeCall call live c hs
    exact ⟨d, hd⟩

/-- A device without any memory, at the last address that there can be and with a converter as wide
as it can be, which delivers its largest readings. -/
def cornered : Controller :=
  .ofBoard { adc := { inputs := .both (.both (.constant 65535)), bits := 25 } } (.erased 0)
    4294967067

set_option maxRecDepth 100000 in
/-- Its store is sent to the last profile while the first is in force, and it still calibrates and
lets go of the first of the inputs that it tracks. -/
theorem never_faults_cornered :
    ∃ c, Usage 4294967067 c ∧ c.store.active = 3 ∧ c.live.profile = 0 ∧ c.tracker.length = 10 ∧
      (∃ d, (ControllerCall.calibrate 7).perform.run c = .ok d) ∧
      ∃ d, (ControllerCall.tracker (.untrack ⟨0⟩)).perform.run c = .ok d := by
  have hrun : (ControllerCall.init.perform.run cornered).toOption.bind (fun d =>
      ((onStore ((StoreCall.switchProfile 3).perform { profile := 200 })).run
        d.state).toOption.map fun e =>
          (e.state.store.active, e.state.live.profile, e.state.tracker.length)) =
      some (3, 0, 10) := by
    decide +kernel
  obtain ⟨d, hd, hrun⟩ := Option.bind_eq_some_iff.mp hrun
  obtain ⟨e, he, hrun⟩ := Option.map_eq_some_iff.mp hrun
  obtain ⟨hactive, hprofile, htracked⟩ : _ ∧ _ ∧ _ := by simpa only [Prod.mk.injEq] using hrun
  have hbits : cornered.board.adc.bits ≤ 25 := by decide
  have hcalm : cornered.KeepsProfile .init := trivial
  have husage : Usage 4294967067 e.state :=
    .store (.call (.new hbits _) hcalm (eq_ok_of_toOption hd)) (eq_ok_of_toOption he)
  have hbase : (4294967067 : UInt32).toNat + (Part.profile 3).offset < UInt32.size := by decide
  obtain ⟨-, -, -, -, hcalls, -⟩ := Usage.never_faults hbase husage
  exact ⟨e.state, husage, hactive, hprofile, htracked, hcalls (.calibrate 7) trivial,
    hcalls (.tracker (.untrack ⟨0⟩)) trivial⟩

end Controller

end TwinStick
