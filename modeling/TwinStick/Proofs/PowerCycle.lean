import TwinStick.Proofs.Ensures
import TwinStick.Proofs.Mirror

/-! Power cycles. Whatever the device has been made to do, with every access to
flash granted, booting again in a state without unsaved settings brings the settings
back that were in force. -/

namespace TwinStick

namespace Controller

open Routine

def Mirrored (c : Controller) : Prop := ∃ q, c.store.Mirrors c.live q

/-- Flash mirrors settings of the same profile; those in force may have changed since
in other respects. -/
def Pending (c : Controller) : Prop :=
  ∃ live q, c.store.Mirrors live q ∧ c.live.profile = live.profile

def Maintains (r : Routine Controller α) : Prop :=
  ∀ c, c.Mirrored → r.Ensures c fun _ d => d.Mirrored

theorem Mirrored.pending {c : Controller} (h : c.Mirrored) : c.Pending := by
  obtain ⟨q, h⟩ := h
  exact ⟨c.live, q, h, rfl⟩

theorem Untouched.mirrored {c d : Controller} (h : Untouched c d) (hc : c.Mirrored) :
    d.Mirrored := by
  obtain ⟨q, hc⟩ := hc
  refine ⟨q, ?_⟩
  rw [h.store, h.live]
  exact hc

theorem Untouched.pending {c d : Controller} (h : Untouched c d) (hc : c.Pending) :
    d.Pending := by
  obtain ⟨live, q, hc, hp⟩ := hc
  refine ⟨live, q, ?_, ?_⟩
  · rw [h.store]
    exact hc
  · rw [h.live]
    exact hp

section

variable {r : Routine Controller α} {f : α → Routine Controller β} {c : Controller}

theorem Quiet.maintains (h : Quiet r) : Maintains r := fun c hc =>
  (h c).mono fun _ _ hd => hd.mirrored hc

theorem Quiet.pending (h : Quiet r) (hc : c.Pending) : r.Ensures c fun _ d => d.Pending :=
  (h c).mono fun _ _ hd => hd.pending hc

theorem Maintains.bind (hr : Maintains r) (hf : ∀ a, Maintains (f a)) : Maintains (r >>= f) :=
  fun c hc => (hr c hc).bind fun a d hd => hf a d hd

theorem Maintains.get_bind {f : Controller → Routine Controller β} (h : ∀ c, Maintains (f c)) :
    Maintains (get >>= f) := fun c hc => .get_bind (h c c hc)

theorem Pending.modifyLive (hc : c.Pending) {g : DeviceSettings → DeviceSettings}
    (hg : (g c.live).profile = c.live.profile) :
    (Controller.modifyLive g).Ensures c fun _ d => d.Pending := by
  obtain ⟨live, q, hm, hp⟩ := hc
  exact .of_modify ⟨live, q, hm, hg.trans hp⟩

theorem Pending.saveNow (hc : c.Pending) (now : UInt32) :
    (Controller.saveNow now).Ensures c fun _ d => d.Mirrored := by
  obtain ⟨live, q, hm, hp⟩ := hc
  obtain ⟨d, hd, -, hsaved⟩ := hm.saveCurrent c.live hp now
  refine .get_bind (.bind (P := fun _ e => e.Mirrored) (.of_onPart (.of_run hd ?_))
    fun _ _ he => .of_pure he)
  exact ⟨_, hsaved⟩

theorem Pending.markDirty (hc : c.Pending) (now : UInt32) :
    (Controller.markDirty now).Ensures c fun _ d => d.Mirrored := by
  obtain ⟨live, q, hm, hp⟩ := hc
  exact .of_modify ⟨q, hm.unsaved rfl rfl rfl rfl hp⟩

end

theorem maintains_toggleStickMode (stick : Stick) (now : UInt32) :
    Maintains (toggleStickMode stick now) := by
  intro c hc
  refine .bind ((quiet_onEngine _ _).pending hc.pending) fun _ d hd => .get_bind ?_
  refine .bind (hd.modifyLive rfl) fun _ e he => ?_
  exact .bind (he.saveNow now) fun _ _ h => (quiet_notify _).maintains _ h

theorem Pending.calibrateStick {c : Controller} (hc : c.Pending) (stick : Stick) :
    (Controller.calibrateStick stick).Ensures c fun _ d => d.Pending := by
  refine .get_bind (.bind ((quiet_onAdc _).pending hc) fun found d hd => ?_)
  obtain ⟨centre, sampler⟩ := found
  have hquiet : Quiet (modify fun c : Controller => { c with sampler }) :=
    quiet_modify fun _ => ⟨rfl, rfl⟩
  exact .bind (hquiet.pending hd) fun _ e he => he.modifyLive rfl

theorem maintains_calibrate (now : UInt32) : Maintains (calibrate now) := by
  intro c hc
  refine .bind (quiet_calibrateTouchscreen.pending hc.pending) fun _ d hd => ?_
  refine .bind (hd.calibrateStick _) fun _ d hd => .bind (hd.calibrateStick _) fun _ d hd => ?_
  exact .bind (hd.saveNow now) fun _ _ h => (quiet_notify _).maintains _ h

theorem maintains_toggleTouchscreen (now : UInt32) : Maintains (toggleTouchscreen now) := by
  intro c hc
  refine .bind (hc.pending.modifyLive rfl) fun _ d hd => .get_bind ?_
  have hrest : ∀ e : Controller, e.Pending → (markDirty now >>= fun _ => get >>= fun c =>
      notify (.touchscreen c.live.touchEnabled)).Ensures e fun _ e => e.Mirrored := by
    intro e he
    refine .bind (he.markDirty now) fun _ t ht => .get_bind ?_
    exact (quiet_notify _).maintains _ ht
  dsimp only
  split
  · exact .bind (quiet_startTouchscreen.pending hd) fun _ e he => hrest e he
  · exact hrest d hd

theorem maintains_toggleCombos (now : UInt32) : Maintains (toggleCombos now) := by
  intro c hc
  refine .bind (hc.pending.modifyLive rfl) fun _ d hd => .get_bind ?_
  refine .bind ((quiet_tell _).pending hd) fun _ e he => ?_
  exact .bind (he.markDirty now) fun _ _ h => (quiet_notify _).maintains _ h

theorem maintains_debug (on : Bool) : Maintains (modifyLive ({ · with debug := on })) := by
  intro c ⟨q, hc⟩
  exact .of_modify ⟨q, hc.debug on⟩

theorem maintains_toggleDebug : Maintains toggleDebug := by
  refine .get_bind fun c => ?_
  split
  · exact (quiet_notify _).maintains.bind fun _ => maintains_debug false
  · exact (maintains_debug true).bind fun _ => (quiet_notify _).maintains

theorem maintains_updateSettings {c : Controller} (hc : c.Mirrored)
    {edit : DeviceSettings → DeviceSettings} (he : (edit c.live).profile = c.live.profile) :
    (updateSettings edit).Ensures c fun _ d => d.Mirrored := by
  refine .bind (hc.pending.modifyLive he) fun _ d hd => ?_
  refine .bind (quiet_sync.pending hd) fun _ e he => .get_bind ?_
  exact he.markDirty _

theorem ensures_onStore {c : Controller} {r : Routine Store α} {d : Outcome Store α}
    (h : r.run c.store = .ok d) :
    (onStore r).Ensures c fun a e => a = d.value ∧ e = { c with store := d.state } :=
  .of_onPart (.of_run h ⟨rfl, rfl⟩)

/-- Settings that come with a change of the store are put in force before anything
else happens. -/
theorem ensures_install {c : Controller} {s : Store} {live : DeviceSettings} {q : QuickWord}
    (h : s.Mirrors live q) {r : Routine Controller α} (hr : Maintains r) :
    (modify ({ · with live }) >>= fun _ => r).Ensures { c with store := s }
      fun _ e => e.Mirrored :=
  .bind (.of_modify (P := fun _ e => Mirrored e) ⟨q, h⟩) fun _ e he => hr e he

theorem maintains_resetCurrent : Maintains resetCurrent := by
  intro c ⟨q, hc⟩
  obtain ⟨d, hd, hm⟩ := hc.resetCurrent
  refine .get_bind (.bind (ensures_onStore hd) fun a e ⟨ha, he⟩ => ?_)
  obtain ⟨reset, live⟩ := a
  rw [← ha] at hm
  rw [he]
  refine ensures_install hm (quiet_sync.maintains.bind fun _ => .get_bind fun _ => ?_)
  exact (quiet_liftM _).maintains.bind fun _ => (quiet_notify _).maintains

theorem maintains_replaceRegion (now : UInt32) :
    Maintains (onStore (Store.factoryReset now) >>= fun live =>
      modify ({ · with live }) >>= fun _ => sync) := by
  intro c ⟨q, hc⟩
  obtain ⟨d, hd, hm⟩ := hc.factoryReset now
  refine .bind (ensures_onStore hd) fun live e ⟨ha, he⟩ => ?_
  rw [← ha] at hm
  rw [he]
  exact ensures_install hm quiet_sync.maintains

theorem maintains_factoryReset (now : UInt32) : Maintains (factoryReset now) :=
  (quiet_notify _).maintains.bind fun _ => maintains_replaceRegion now

theorem maintains_emergencyReset (now : UInt32) : Maintains (emergencyReset now) :=
  (quiet_notify _).maintains.bind fun _ => maintains_replaceRegion now

theorem maintains_switchProfile (id : UInt8) : Maintains (switchProfile id) := by
  intro c ⟨q, hc⟩
  obtain ⟨d, q', hd, hm, hsame⟩ := hc.switchProfile id
  refine .get_bind (.bind (ensures_onStore hd) fun a e ⟨ha, he⟩ => ?_)
  obtain ⟨switched, live⟩ := a
  rw [← ha] at hm hsame
  rw [he]
  cases switched with
  | false =>
    have hlive : live = c.live := hsame rfl
    rw [hlive] at hm
    exact .of_pure ⟨q', hm⟩
  | true =>
    refine ensures_install hm (quiet_sync.maintains.bind fun _ => .get_bind fun _ => ?_)
    refine (quiet_liftM _).maintains.bind fun _ => (quiet_liftM _).maintains.bind fun _ => ?_
    exact (quiet_notify _).maintains.bind fun _ => (quiet_pure _).maintains

theorem maintains_moveToLayer (layer : UInt8) : Maintains (moveToLayer layer) := by
  rw [moveToLayer]
  split
  · exact (quiet_tell _).maintains.bind fun _ => (quiet_notify _).maintains
  · exact (quiet_pure _).maintains

theorem maintains_perform (action : ComboAction) (now : UInt32) :
    Maintains (perform action now) := by
  cases action with
  | switchProfile id =>
    exact (maintains_switchProfile id).bind fun _ => (quiet_pure _).maintains
  | toggleStickMode stick => exact maintains_toggleStickMode stick now
  | calibrate => exact maintains_calibrate now
  | resetSettings => exact maintains_resetCurrent
  | moveToLayer layer => exact maintains_moveToLayer layer
  | emergencyReset => exact maintains_emergencyReset now
  | toggleTouchscreen => exact maintains_toggleTouchscreen now
  | toggleDebug => exact maintains_toggleDebug
  | factoryReset => exact maintains_factoryReset now

theorem maintains_processCombo (index : Nat) (pressed : Bool) :
    Maintains (processCombo index pressed) := by
  cases pressed with
  | false => exact (quiet_pure _).maintains
  | true =>
    rw [processCombo, if_pos rfl]
    cases Combo.ofIndex? index with
    | none => exact (quiet_pure _).maintains
    | some combo =>
      refine .get_bind fun c => ?_
      split
      · refine (quiet_liftM _).maintains.bind fun on => ?_
        split
        · exact maintains_perform _ _
        · exact (quiet_pure _).maintains
      · exact (quiet_pure _).maintains

theorem maintains_processKey (code : UInt16) (pressed : Bool) :
    Maintains (processKey code pressed) := by
  rw [processKey]
  cases CustomKey.ofKeycode? code with
  | none => exact (quiet_pure _).maintains
  | some key =>
    cases pressed with
    | false => exact (quiet_pure _).maintains
    | true =>
      refine .get_bind fun c => ?_
      cases key with
      | profile slot =>
        exact (maintains_switchProfile slot).bind fun _ => (quiet_pure _).maintains
      | stick1Mode =>
        exact (maintains_toggleStickMode .one _).bind fun _ => (quiet_pure _).maintains
      | stick2Mode =>
        exact (maintains_toggleStickMode .two _).bind fun _ => (quiet_pure _).maintains
      | touchCalibrate =>
        exact quiet_calibrateTouchscreen.maintains.bind fun _ => (quiet_pure _).maintains
      | comboToggle =>
        exact (maintains_toggleCombos _).bind fun _ => (quiet_pure _).maintains

theorem maintains_pollModeSwitch (stick : Stick) (now : UInt32) :
    Maintains (pollModeSwitch stick now) := by
  intro c hc
  refine .get_bind (.bind (.of_set (P := fun _ d => Mirrored d) hc) fun _ d hd => ?_)
  split
  · exact maintains_toggleStickMode stick now d hd
  · exact (quiet_pure _).maintains d hd

theorem maintains_tickSwitches (now : UInt32) : Maintains (tickSwitches now) := by
  intro c hc
  refine .get_bind (.bind (.of_set (P := fun _ d => Mirrored d) hc) fun _ d hd => ?_)
  split
  · exact .bind (maintains_pollModeSwitch .one now d hd) fun _ e he =>
      maintains_pollModeSwitch .two now e he
  · exact (quiet_pure _).maintains d hd

theorem maintains_task (now : UInt32) :
    Maintains (get >>= fun c => onStore (Store.task c.live now)) := by
  intro c ⟨q, hc⟩
  obtain ⟨d, q', hd, hm⟩ := hc.task now
  exact .get_bind (.of_onPart (.of_run hd ⟨q', hm⟩))

theorem maintains_tick : Maintains tick := by
  have hrest : ∀ now : UInt32, Maintains (tickSwitches now >>= fun _ => tickPanel now >>= fun _ =>
      get >>= fun c => onStore (Store.task c.live now)) := fun now =>
    (maintains_tickSwitches now).bind fun _ =>
      (quiet_tickPanel now).maintains.bind fun _ => maintains_task now
  refine .get_bind fun c => ?_
  refine (quiet_tickMatrix _).maintains.bind fun scanned => ?_
  refine (quiet_tickSticks _).maintains.bind fun sampled => ?_
  dsimp only
  split
  · exact .bind (Quiet.maintains (quiet_modify fun _ => ⟨rfl, rfl⟩)) fun _ => hrest _
  · exact hrest _

/-- Bringing the device up makes flash a mirror, unless the manager record forbids to
load the settings. -/
theorem mirrored_of_init {board : Board} {flash : Flash} {base : UInt32}
    (h : (Store.ofFlash flash base).Placed) (hr : flash.reads.Free) (hw : flash.writes.Free)
    (ha : (Store.ofFlash flash base).region.manager.isValid = true →
      (Store.ofFlash flash base).region.manager.autoLoad = true) :
    init.Ensures (ofBoard board flash base) fun _ d => d.Mirrored := by
  obtain ⟨d, q, hd, hm⟩ := Store.mirrors_of_init h hr hw ha board.now
  refine .get_bind (.bind (ensures_onStore hd) fun live e ⟨hv, he⟩ => ?_)
  rw [← hv] at hm
  rw [he]
  -- the tracker is the last to be brought up; nothing after the store touches the store
  have hrest : ∀ g : Controller → Controller, (∀ c, Untouched c (g c)) →
      Maintains (sync >>= fun _ => modify g) := fun g hg =>
    quiet_sync.maintains.bind fun _ => (quiet_modify hg).maintains
  refine ensures_install hm ?_
  dsimp only
  split
  · exact quiet_startTouchscreen.maintains.bind fun _ => hrest _ fun _ => ⟨rfl, rfl⟩
  · exact hrest _ fun _ => ⟨rfl, rfl⟩

/-- The calls that the device is open to: everything but bringing it up again and
working on its store or its tracker behind its back. An edit of the settings has to
leave the profile alone. -/
def Admits (c : Controller) : ControllerCall → Prop
  | .updateSettings edit => (edit c.live).profile = c.live.profile
  | .init | .store _ | .tracker _ => False
  | _ => True

/-- The states that a device gets into after it was brought up on given flash, while
the board it reads from changes in any way. -/
inductive Reached (board : Board) (flash : Flash) (base : UInt32) : Controller → Prop
  | start {d : Outcome Controller Unit} (hd : init.run (ofBoard board flash base) = .ok d) :
      Reached board flash base d.state
  | outside {c : Controller} (h : Reached board flash base c) (other : Board) :
      Reached board flash base { c with board := other }
  | call {c : Controller} (h : Reached board flash base c) (call : ControllerCall)
      (hc : c.Admits call) {d : Outcome Controller Reply} (hd : call.perform.run c = .ok d) :
      Reached board flash base d.state

theorem mirrored_call {c : Controller} (h : c.Mirrored) {call : ControllerCall}
    (hc : c.Admits call) : call.perform.Ensures c fun _ d => d.Mirrored := by
  have hreply : ∀ (reply : Reply) (d : Controller), d.Mirrored →
      (pure reply : Routine Controller Reply).Ensures d fun _ e => e.Mirrored :=
    fun reply => (quiet_pure reply).maintains
  cases call with
  | tick => exact .bind (maintains_tick c h) fun _ => hreply _
  | combo index pressed => exact .bind (maintains_processCombo index pressed c h) fun _ => hreply _
  | key code pressed => exact .bind (maintains_processKey code pressed c h) fun _ => hreply _
  | switchProfile id => exact .bind (maintains_switchProfile id c h) fun _ => hreply _
  | toggleStickMode stick now =>
    exact .bind (maintains_toggleStickMode stick now c h) fun _ => hreply _
  | calibrate now => exact .bind (maintains_calibrate now c h) fun _ => hreply _
  | toggleTouchscreen now => exact .bind (maintains_toggleTouchscreen now c h) fun _ => hreply _
  | toggleCombos now => exact .bind (maintains_toggleCombos now c h) fun _ => hreply _
  | toggleDebug => exact .bind (maintains_toggleDebug c h) fun _ => hreply _
  | resetCurrent => exact .bind (maintains_resetCurrent c h) fun _ => hreply _
  | factoryReset now => exact .bind (maintains_factoryReset now c h) fun _ => hreply _
  | emergencyReset now => exact .bind (maintains_emergencyReset now c h) fun _ => hreply _
  | updateSettings edit => exact .bind (maintains_updateSettings h hc) fun _ => hreply _
  | init => exact hc.elim
  | store call => exact hc.elim
  | tracker edit => exact hc.elim

theorem Reached.mirrored {board : Board} {flash : Flash} {base : UInt32} {c : Controller}
    (hc : Reached board flash base c) (h : (Store.ofFlash flash base).Placed)
    (hr : flash.reads.Free) (hw : flash.writes.Free)
    (ha : (Store.ofFlash flash base).region.manager.isValid = true →
      (Store.ofFlash flash base).region.manager.autoLoad = true) : c.Mirrored := by
  -- the board is no part of the invariant, so only the calls can break it
  induction hc with
  | start hd => exact mirrored_of_init h hr hw ha _ hd
  | outside _ other ih =>
    obtain ⟨q, hm⟩ := ih
    exact ⟨q, hm⟩
  | call _ call hadm hd ih => exact mirrored_call ih hadm _ hd

/-- Whatever a device went through since it was brought up, as long as flash grants
everything and nothing is unsaved, booting on what is in flash brings back the
settings in force, without debugging and with sensitivities of at most 15. -/
theorem reboot_restores {board : Board} {flash : Flash} {base : UInt32} {c : Controller}
    (h : (Store.ofFlash flash base).Placed) (hr : flash.reads.Free) (hw : flash.writes.Free)
    (ha : (Store.ofFlash flash base).region.manager.isValid = true →
      (Store.ofFlash flash base).region.manager.autoLoad = true)
    (hc : Reached board flash base c) (hclean : c.store.dirty = false)
    {later : Flash} (hb : later.bytes = c.store.flash.bytes) (hl : later.reads.Free)
    (now : UInt32) :
    ∃ d, (Store.init {} now).run (.ofFlash later c.store.base) = .ok d ∧
      d.value = c.live.rebooted := by
  obtain ⟨q, hm⟩ := hc.mirrored h hr hw ha
  exact hm.run_init hclean hb hl now

set_option maxRecDepth 100000 in
/-- A device that comes up on erased memory and is switched to its third profile. -/
theorem reboot_restores_switched :
    ∃ c, Reached {} (.erased regionLength) 0 c ∧ c.live.profile = 2 ∧
      ∃ d, (Store.init {} 0).run (.ofFlash { bytes := c.store.flash.bytes } c.store.base) = .ok d ∧
        d.value = c.live.rebooted := by
  have hroom : (0 : UInt32).toNat + regionLength ≤ (Flash.erased regionLength).capacity := by
    decide +kernel
  have ha : (Store.ofFlash (.erased regionLength) 0).region.manager.isValid = true →
      (Store.ofFlash (.erased regionLength) 0).region.manager.autoLoad = true := by
    decide +kernel
  have hrun : (init.run (ofBoard {} (.erased regionLength) 0)).toOption.bind (fun d =>
      ((ControllerCall.switchProfile 2).perform.run d.state).toOption.map fun e =>
        (e.state.live.profile, e.state.store.dirty)) = some (2, false) := by
    decide +kernel
  have hfree : Gate.Free {} := ⟨rfl, fun _ _ => rfl⟩
  cases hd : init.run (ofBoard {} (.erased regionLength) 0) with
  | error e => simp [hd, Except.toOption] at hrun
  | ok d =>
    cases he : (ControllerCall.switchProfile 2).perform.run d.state with
    | error e => simp [hd, he, Except.toOption] at hrun
    | ok e =>
      have hlast : e.state.live.profile = 2 ∧ e.state.store.dirty = false := by
        simpa [hd, he, Except.toOption] using hrun
      have hc : Reached {} (.erased regionLength) 0 e.state :=
        .call (.start hd) (.switchProfile 2) trivial he
      have hb : ({ bytes := e.state.store.flash.bytes } : Flash).bytes =
          e.state.store.flash.bytes := rfl
      exact ⟨e.state, hc, hlast.1, reboot_restores (.of_room (by decide) hroom) hfree hfree ha hc
        hlast.2 hb hfree 0⟩

end Controller

end TwinStick
