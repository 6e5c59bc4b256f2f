import TwinStick.Proofs.Decisions
import TwinStick.Proofs.PairedRuns

/-! Two devices side by side. However they are compared, what a call does to both follows from
what its parts do: each operation of the controller is gone through once, for every way of
comparing devices under which its parts keep the devices the same. -/

namespace TwinStick

open Routine

namespace Routine

/-- A routine of whose events only some are seen. -/
def shown (p : Event → Bool) (r : Routine σ α) : Routine σ α := fun s =>
  (r s).map fun d => { d with events := d.events.filter p }

section

variable {p : Event → Bool}

theorem run_shown (p : Event → Bool) (r : Routine σ α) (s : σ) :
    (r.shown p).run s = (r.run s).map fun d => { d with events := d.events.filter p } := rfl

theorem shown_bind (p : Event → Bool) (r : Routine σ α) (f : α → Routine σ β) :
    (r >>= f).shown p = r.shown p >>= fun a => (f a).shown p := by
  refine funext fun s => ?_
  change ((r >>= f).shown p).run s = (r.shown p >>= fun a => (f a).shown p).run s
  rw [run_shown, run_bind, run_bind, run_shown]
  cases r.run s with
  | error e => rfl
  | ok d =>
    simp only [Except.bind, Except.map, run_shown]
    cases (f d.value).run d.state with
    | error e => rfl
    | ok d' => simp

theorem shown_all (r : Routine σ α) : r.shown (fun _ => true) = r := by
  refine funext fun s => ?_
  change (r.shown _).run s = r.run s
  rw [run_shown]
  cases r.run s with
  | error e => rfl
  | ok d => simp [Except.map]

theorem Paired.shown {E : Event → Event → Prop} {S : σ → τ → Prop} {V : α → β → Prop}
    {r : Routine σ α} {r' : Routine τ β} (h : Paired E S V r r')
    (hE : ∀ e e', E e e' → (p e = true ↔ p e' = true)) :
    Paired E S V (r.shown p) (r'.shown p) := by
  intro s s' hs
  rw [run_shown, run_shown]
  exact (h s s' hs).map fun _ _ hd =>
    ⟨hd.value, hd.state, List.rel_filter (fun e e' he => hE e e' he) hd.events⟩

end

end Routine

/-- What of two devices is compared, and when it counts as the same. -/
structure Comparison where
  seen : Event → Bool := fun _ => true
  events : Event → Event → Prop := Eq
  devices : Controller → Controller → Prop
  settings : DeviceSettings → DeviceSettings → Prop := Eq
  modes : Stick → StickMode → StickMode → Prop := fun _ => Eq
  times : UInt32 → UInt32 → Prop := Eq

namespace Comparison

/-- From devices that are the same the two do the same, as far as it is seen. -/
def Go (C : Comparison) (V : α → β → Prop) (r : Routine Controller α) (r' : Routine Controller β) :
    Prop :=
  Paired C.events C.devices V (r.shown C.seen) (r'.shown C.seen)

section

variable {C : Comparison} {V : α → β → Prop} {W : γ → δ → Prop} {r : Routine Controller α}
  {r' : Routine Controller β}

theorem Go.bind {f : α → Routine Controller γ} {f' : β → Routine Controller δ} (hr : C.Go V r r')
    (hf : ∀ a b, V a b → C.Go W (f a) (f' b)) : C.Go W (r >>= f) (r' >>= f') := by
  rw [Go, shown_bind, shown_bind]
  exact Paired.bind hr hf

theorem Go.bind_eq {r' : Routine Controller α} {f : α → Routine Controller γ}
    {f' : α → Routine Controller δ} (hr : C.Go Eq r r') (hf : ∀ a, C.Go W (f a) (f' a)) :
    C.Go W (r >>= f) (r' >>= f') :=
  hr.bind fun a b hab => by
    subst hab
    exact hf a

theorem Go.get_bind {f : Controller → Routine Controller γ} {f' : Controller → Routine Controller δ}
    (hf : ∀ c c', C.devices c c' → C.Go W (f c) (f' c')) : C.Go W (get >>= f) (get >>= f') := by
  rw [Go, shown_bind, shown_bind]
  exact Paired.get_bind hf

/-- As long as all events are seen. -/
theorem go_iff (hall : C.seen = fun _ => true) :
    C.Go V r r' ↔ Paired C.events C.devices V r r' := by
  rw [Go, hall, shown_all, shown_all]

theorem Go.mono {V' : α → β → Prop} (hr : C.Go V r r') (h : ∀ a b, V a b → V' a b) :
    C.Go V' r r' := Paired.mono hr h

theorem go_pure {a : α} {b : β} (h : V a b) : C.Go V (pure a) (pure b) := paired_pure h

theorem go_set {c c' : Controller} (h : C.devices c c') :
    C.Go Eq (set c : Routine Controller PUnit) (set c' : Routine Controller PUnit) := paired_set h

theorem go_modify {g g' : Controller → Controller}
    (h : ∀ c c', C.devices c c' → C.devices (g c) (g' c')) :
    C.Go Eq (modify g : Routine Controller PUnit) (modify g' : Routine Controller PUnit) :=
  paired_modify h

theorem go_liftM {x : Except Fault α} {x' : Except Fault β} (h : Alike V x x') :
    C.Go V (liftM x) (liftM x') := by
  intro c c' hc
  cases h with
  | fault e => exact .fault e
  | ok hv => exact .ok ⟨hv, hc, .nil⟩

theorem go_liftM_self (x : Except Fault α) : C.Go Eq (liftM x) (liftM x) :=
  go_liftM (.of_eq (fun _ => rfl) rfl)

end

/-- Whether an event is seen, and what counts as the same, is told from the event. -/
structure Fair (C : Comparison) : Prop where
  same (e : Event) : C.events e e
  seen (e e' : Event) (h : C.events e e') : C.seen e = true ↔ C.seen e' = true

namespace Fair

variable {C : Comparison} {V : α → β → Prop} {r : Routine Controller α} {r' : Routine Controller β}

theorem go_of_paired (hC : C.Fair) (h : Paired C.events C.devices V r r') : C.Go V r r' :=
  h.shown hC.seen

/-- Runs told from the device in closed form. -/
theorem go_of_run (hC : C.Fair) {g : Controller → Outcome Controller α}
    {g' : Controller → Outcome Controller β} (hrun : ∀ c, r.run c = .ok (g c))
    (hrun' : ∀ c, r'.run c = .ok (g' c))
    (h : ∀ c c', C.devices c c' → V (g c).value (g' c').value ∧
      C.devices (g c).state (g' c').state ∧
      (g' c').events.filter C.seen = (g c).events.filter C.seen) : C.Go V r r' := by
  intro c c' hc
  obtain ⟨hvalue, hstate, hevents⟩ := h c c' hc
  have hshown : List.Forall₂ C.events ((g c).events.filter C.seen)
      ((g' c').events.filter C.seen) := by
    rw [hevents]
    exact List.forall₂_same.mpr fun e _ => hC.same e
  rw [run_shown, run_shown, hrun, hrun']
  exact .ok ⟨hvalue, hstate, hshown⟩

theorem go_emit (hC : C.Fair) (events : List Event) : C.Go Eq (emit events) (emit events) :=
  hC.go_of_run (run_emit events) (run_emit events) fun _ _ hc => ⟨rfl, hc, rfl⟩

end Fair

open Controller

/-- What keeps devices the same while the mode of a stick is toggled. -/
structure Toggling (C : Comparison) : Prop extends C.Fair where
  live {c c' : Controller} (hc : C.devices c c') : C.settings c.live c'.live
  mode {c c' : Controller} (hc : C.devices c c') (stick : Stick) :
    C.modes stick (c.engines.get stick).mode (c'.engines.get stick).mode
  toggleMode (stick : Stick) :
    C.Go Eq (onEngine stick Engine.toggleMode) (onEngine stick Engine.toggleMode)
  setMode {stick : Stick} {mode mode' : StickMode} (hm : C.modes stick mode mode') :
    C.Go Eq (modifyLive (·.withMode stick mode)) (modifyLive (·.withMode stick mode'))
  modeLine {stick : Stick} {mode mode' : StickMode} (hm : C.modes stick mode mode') :
    C.Go Eq (notify (.stickMode stick mode)) (notify (.stickMode stick mode'))
  save {live live' : DeviceSettings} (hl : C.settings live live') {now now' : UInt32}
    (hn : C.times now now') :
    C.Go Eq (onStore (Store.saveCurrent live now)) (onStore (Store.saveCurrent live' now'))

namespace Toggling

variable {C : Comparison} (hC : C.Toggling)

include hC

theorem saveNow {now now' : UInt32} (hn : C.times now now') :
    C.Go Eq (saveNow now) (saveNow now') :=
  .get_bind fun _ _ hc => (hC.save (hC.live hc) hn).bind_eq fun _ => go_pure rfl

theorem toggleStickMode (stick : Stick) {now now' : UInt32} (hn : C.times now now') :
    C.Go Eq (toggleStickMode stick now) (toggleStickMode stick now') := by
  refine (hC.toggleMode stick).bind_eq fun _ => .get_bind fun c c' hc => ?_
  refine (hC.setMode (hC.mode hc stick)).bind_eq fun _ => ?_
  exact (hC.saveNow hn).bind_eq fun _ => hC.modeLine (hC.mode hc stick)

end Toggling

/-- What keeps devices the same under the commands. -/
structure Commands (C : Comparison) : Prop extends C.Toggling where
  now {c c' : Controller} (hc : C.devices c c') : C.times c.board.now c'.board.now
  touchReady {c c' : Controller} (hc : C.devices c c') : c'.touchReady = c.touchReady
  comboEnabled {c c' : Controller} (hc : C.devices c c') (combo : Combo) :
    c'.store.isComboEnabled combo = c.store.isComboEnabled combo
  activeName {c c' : Controller} (hc : C.devices c c') :
    Alike (fun p p' => p'.name = p.name) c.store.activeRecord c'.store.activeRecord
  profile {s s' : DeviceSettings} (hs : C.settings s s') : s'.profile = s.profile
  touchEnabled {s s' : DeviceSettings} (hs : C.settings s s') : s'.touchEnabled = s.touchEnabled
  combosEnabled {s s' : DeviceSettings} (hs : C.settings s s') :
    s'.combosEnabled = s.combosEnabled
  flipTouch {s s' : DeviceSettings} (hs : C.settings s s') :
    C.settings { s with touchEnabled := !s.touchEnabled }
      { s' with touchEnabled := !s'.touchEnabled }
  flipCombos {s s' : DeviceSettings} (hs : C.settings s s') :
    C.settings { s with combosEnabled := !s.combosEnabled }
      { s' with combosEnabled := !s'.combosEnabled }
  edit {f f' : DeviceSettings → DeviceSettings}
    (hf : ∀ s s', C.settings s s' → C.settings (f s) (f' s')) :
    C.Go Eq (modifyLive f) (modifyLive f')
  notify (n : Notice) : C.Go Eq (notify n) (notify n)
  markDirty {now now' : UInt32} (hn : C.times now now') : C.Go Eq (markDirty now) (markDirty now')
  sync : C.Go Eq sync sync
  startTouchscreen : C.Go Eq startTouchscreen startTouchscreen
  trackDefaults : C.Go Eq (modify trackingDefaults) (modify trackingDefaults)
  calibrateTouchscreen : C.Go Eq calibrateTouchscreen calibrateTouchscreen
  calibrateStick (stick : Stick) : C.Go Eq (calibrateStick stick) (calibrateStick stick)
  toggleDebug : C.Go Eq toggleDebug toggleDebug
  boot {live live' : DeviceSettings} (hl : C.settings live live') {now now' : UInt32}
    (hn : C.times now now') :
    C.Go C.settings (onStore (Store.init live now)) (onStore (Store.init live' now'))
  switch {live live' : DeviceSettings} (hl : C.settings live live') (id : UInt8) :
    C.Go (fun d d' => d'.1 = d.1 ∧ C.settings d.2 d'.2) (onStore (Store.switchProfile id live))
      (onStore (Store.switchProfile id live'))
  reset {live live' : DeviceSettings} (hl : C.settings live live') :
    C.Go (fun d d' => C.settings d.2 d'.2) (onStore (Store.resetCurrent live))
      (onStore (Store.resetCurrent live'))
  wipe {now now' : UInt32} (hn : C.times now now') :
    C.Go C.settings (onStore (Store.factoryReset now)) (onStore (Store.factoryReset now'))

namespace Commands

variable {C : Comparison} (hC : C.Commands)

include hC

theorem setLive {live live' : DeviceSettings} (hl : C.settings live live') :
    C.Go Eq (modify ({ · with live })) (modify ({ · with live := live' })) :=
  hC.edit fun _ _ _ => hl

theorem install {live live' : DeviceSettings} (hl : C.settings live live') :
    C.Go Eq (modify ({ · with live }) >>= fun _ => Controller.sync)
      (modify ({ · with live := live' }) >>= fun _ => Controller.sync) :=
  (hC.setLive hl).bind_eq fun _ => hC.sync

theorem init : C.Go Eq init init := by
  have hrest : C.Go Eq (Controller.sync >>= fun _ => modify trackingDefaults)
      (Controller.sync >>= fun _ => modify trackingDefaults) :=
    hC.sync.bind_eq fun _ => hC.trackDefaults
  refine .get_bind fun c c' hc => ?_
  refine (hC.boot (hC.live hc) (hC.now hc)).bind fun live live' hlive => ?_
  refine (hC.setLive hlive).bind_eq fun _ => ?_
  rw [hC.touchEnabled hlive]
  split
  · exact hC.startTouchscreen.bind_eq fun _ => hrest
  · exact hrest

theorem switchProfile (id : UInt8) : C.Go Eq (switchProfile id) (switchProfile id) := by
  refine .get_bind fun c c' hc => (hC.switch (hC.live hc) id).bind ?_
  rintro ⟨switched, live⟩ ⟨switched', live'⟩ ⟨hswitched, hlive⟩
  obtain rfl : switched' = switched := hswitched
  cases switched' with
  | false => exact go_pure rfl
  | true =>
    refine (hC.setLive hlive).bind_eq fun _ => hC.sync.bind_eq fun _ => ?_
    refine .get_bind fun c c' hc => (go_liftM (hC.activeName hc)).bind fun p p' hp => ?_
    rw [hp]
    refine (go_liftM_self _).bind_eq fun number => ?_
    exact (hC.notify _).bind_eq fun _ => go_pure rfl

theorem calibrate {now now' : UInt32} (hn : C.times now now') :
    C.Go Eq (calibrate now) (calibrate now') := by
  refine hC.calibrateTouchscreen.bind_eq fun _ => (hC.calibrateStick .one).bind_eq fun _ => ?_
  refine (hC.calibrateStick .two).bind_eq fun _ => (hC.saveNow hn).bind_eq fun _ => ?_
  exact hC.notify _

theorem toggleTouchscreen {now now' : UInt32} (hn : C.times now now') :
    C.Go Eq (toggleTouchscreen now) (toggleTouchscreen now') := by
  have hrest : C.Go Eq
      (Controller.markDirty now >>= fun _ => get >>= fun c =>
        Controller.notify (.touchscreen c.live.touchEnabled))
      (Controller.markDirty now' >>= fun _ => get >>= fun c =>
        Controller.notify (.touchscreen c.live.touchEnabled)) :=
    (hC.markDirty hn).bind_eq fun _ => .get_bind fun c c' hc => by
      rw [hC.touchEnabled (hC.live hc)]
      exact hC.notify _
  refine (hC.edit fun _ _ hs => hC.flipTouch hs).bind_eq fun _ => .get_bind fun c c' hc => ?_
  rw [hC.touchEnabled (hC.live hc), hC.touchReady hc]
  split
  · exact hC.startTouchscreen.bind_eq fun _ => hrest
  · exact hrest

theorem toggleCombos {now now' : UInt32} (hn : C.times now now') :
    C.Go Eq (toggleCombos now) (toggleCombos now') := by
  refine (hC.edit fun _ _ hs => hC.flipCombos hs).bind_eq fun _ => .get_bind fun c c' hc => ?_
  rw [hC.combosEnabled (hC.live hc)]
  refine (hC.go_emit _).bind_eq fun _ => (hC.markDirty hn).bind_eq fun _ => ?_
  exact hC.notify _

theorem resetCurrent : C.Go Eq resetCurrent resetCurrent := by
  refine .get_bind fun c c' hc => (hC.reset (hC.live hc)).bind fun d d' hlive => ?_
  refine (hC.setLive hlive).bind_eq fun _ => hC.sync.bind_eq fun _ => .get_bind fun c c' hc => ?_
  rw [hC.profile (hC.live hc)]
  exact (go_liftM_self _).bind_eq fun _ => hC.notify _

theorem factoryReset {now now' : UInt32} (hn : C.times now now') :
    C.Go Eq (factoryReset now) (factoryReset now') :=
  (hC.notify _).bind_eq fun _ => (hC.wipe hn).bind fun _ _ hlive => hC.install hlive

theorem emergencyReset {now now' : UInt32} (hn : C.times now now') :
    C.Go Eq (emergencyReset now) (emergencyReset now') :=
  (hC.notify _).bind_eq fun _ => (hC.wipe hn).bind fun _ _ hlive => hC.install hlive

theorem updateSettings {f f' : DeviceSettings → DeviceSettings}
    (hf : ∀ s s', C.settings s s' → C.settings (f s) (f' s')) :
    C.Go Eq (updateSettings f) (updateSettings f') := by
  refine (hC.edit hf).bind_eq fun _ => hC.sync.bind_eq fun _ => ?_
  exact .get_bind fun _ _ hc => hC.markDirty (hC.now hc)

theorem act (action : ComboAction) {now now' : UInt32} (hn : C.times now now') :
    C.Go Eq (perform action now) (perform action now') := by
  cases action with
  | switchProfile id => exact (hC.switchProfile id).bind_eq fun _ => go_pure rfl
  | toggleStickMode stick => exact hC.toggleStickMode stick hn
  | calibrate => exact hC.calibrate hn
  | resetSettings => exact hC.resetCurrent
  | moveToLayer layer =>
    rw [perform, perform, moveToLayer]
    split
    · exact (hC.go_emit _).bind_eq fun _ => hC.notify _
    · exact go_pure rfl
  | emergencyReset => exact hC.emergencyReset hn
  | toggleTouchscreen => exact hC.toggleTouchscreen hn
  | toggleDebug => exact hC.toggleDebug
  | factoryReset => exact hC.factoryReset hn

theorem processCombo (index : Nat) (pressed : Bool) :
    C.Go Eq (processCombo index pressed) (processCombo index pressed) := by
  rw [Controller.processCombo]
  split
  · split
    · exact go_pure rfl
    · next combo _ =>
      refine .get_bind fun c c' hc => ?_
      rw [hC.combosEnabled (hC.live hc), hC.comboEnabled hc]
      split
      · refine (go_liftM_self _).bind_eq fun on => ?_
        split
        · exact hC.act _ (hC.now hc)
        · exact go_pure rfl
      · exact go_pure rfl
  · exact go_pure rfl

theorem processKey (code : UInt16) (pressed : Bool) :
    C.Go Eq (processKey code pressed) (processKey code pressed) := by
  rw [Controller.processKey]
  cases CustomKey.ofKeycode? code with
  | none => exact go_pure rfl
  | some key =>
    cases pressed with
    | false => exact go_pure rfl
    | true =>
      refine .get_bind fun c c' hc => ?_
      cases key with
      | profile slot => exact (hC.switchProfile slot).bind_eq fun _ => go_pure rfl
      | stick1Mode | stick2Mode =>
        exact (hC.toggleStickMode _ (hC.now hc)).bind_eq fun _ => go_pure rfl
      | touchCalibrate => exact hC.calibrateTouchscreen.bind_eq fun _ => go_pure rfl
      | comboToggle => exact (hC.toggleCombos (hC.now hc)).bind_eq fun _ => go_pure rfl

end Commands

/-- What keeps devices the same under the housekeeping, but for what is seen of tracked inputs. -/
structure Housekeeping (C : Comparison) : Prop extends C.Toggling where
  now {c c' : Controller} (hc : C.devices c c') : C.times c.board.now c'.board.now
  touchActive {c c' : Controller} (hc : C.devices c c') : c'.touchActive = c.touchActive
  panel {c c' : Controller} (hc : C.devices c c') (hactive : c.touchActive = true) :
    c'.board.panel = c.board.panel
  setPanel {c c' : Controller} (hc : C.devices c c') (panel : Panel) :
    C.devices { c with board := { c.board with panel } }
      { c' with board := { c'.board with panel } }
  pollPanel {c c' : Controller} (hc : C.devices c c') {now now' : UInt32} (hn : C.times now now') :
    (c'.touchCadence.poll now').1 = (c.touchCadence.poll now).1 ∧
      C.devices { c with touchCadence := (c.touchCadence.poll now).2 }
        { c' with touchCadence := (c'.touchCadence.poll now').2 }
  switches {c c' : Controller} (hc : C.devices c c') : c'.board.switches = c.board.switches
  switchLevels {c c' : Controller} (hc : C.devices c c') : c'.switchLevels = c.switchLevels
  setLevels {c c' : Controller} (hc : C.devices c c') (switchLevels : PerStick Bool) :
    C.devices { c with switchLevels } { c' with switchLevels }
  pollSwitches {c c' : Controller} (hc : C.devices c c') {now now' : UInt32}
    (hn : C.times now now') :
    (c'.switchCadence.poll now').1 = (c.switchCadence.poll now).1 ∧
      C.devices { c with switchCadence := (c.switchCadence.poll now).2 }
        { c' with switchCadence := (c'.switchCadence.poll now').2 }
  tickMatrix {now now' : UInt32} (hn : C.times now now') :
    C.Go Eq (tickMatrix now) (tickMatrix now')
  sampleSticks {now now' : UInt32} (hn : C.times now now') :
    C.Go Eq (sampleSticks now) (sampleSticks now')
  processStick (stick : Stick) : C.Go Eq (processStick stick) (processStick stick)
  axes {c c' : Controller} (hc : C.devices c c') :
    C.Go Eq (tell [.axes c.report]) (tell [.axes c'.report])
  task {live live' : DeviceSettings} (hl : C.settings live live') {now now' : UInt32}
    (hn : C.times now now') :
    C.Go Eq (onStore (Store.taskTold live now)) (onStore (Store.taskTold live' now'))

namespace Housekeeping

variable {C : Comparison} (hC : C.Housekeeping) {now now' : UInt32} (hn : C.times now now')

include hC hn

theorem tickSticks : C.Go Eq (tickSticks now) (tickSticks now') := by
  refine (hC.sampleSticks hn).bind_eq fun sampled => ?_
  cases sampled with
  | false => exact go_pure rfl
  | true =>
    refine (hC.processStick .one).bind_eq fun _ => (hC.processStick .two).bind_eq fun _ => ?_
    exact .get_bind fun _ _ hc => (hC.axes hc).bind_eq fun _ => go_pure rfl

theorem pollModeSwitch (stick : Stick) :
    C.Go Eq (pollModeSwitch stick now) (pollModeSwitch stick now') := by
  refine .get_bind fun c c' hc => ?_
  rw [hC.switches hc, hC.switchLevels hc]
  refine (go_set (hC.setLevels hc _)).bind_eq fun _ => ?_
  split
  · exact hC.toggleStickMode stick hn
  · exact go_pure rfl

theorem tickSwitchesTold : C.Go Eq (tickSwitchesTold now) (tickSwitchesTold now') := by
  refine .get_bind fun c c' hc => ?_
  have hpolled := hC.pollSwitches hc hn
  generalize c.switchCadence.poll now = polled at hpolled ⊢
  generalize c'.switchCadence.poll now' = polled' at hpolled ⊢
  refine (go_set hpolled.2).bind_eq fun _ => ?_
  dsimp only
  rw [hpolled.1]
  split
  · refine (hC.pollModeSwitch hn .one).bind_eq fun _ => ?_
    exact (hC.pollModeSwitch hn .two).bind_eq fun _ => go_pure rfl
  · exact go_pure rfl

theorem tickPanelTold : C.Go Eq (tickPanelTold now) (tickPanelTold now') := by
  refine .get_bind fun c c' hc => ?_
  rw [hC.touchActive hc]
  split
  · next hactive =>
    have hpolled := hC.pollPanel hc hn
    generalize c.touchCadence.poll now = polled at hpolled ⊢
    generalize c'.touchCadence.poll now' = polled' at hpolled ⊢
    refine (go_set hpolled.2).bind_eq fun _ => ?_
    dsimp only
    rw [hpolled.1, hC.panel hc hactive]
    split
    · refine (go_modify fun _ _ hd => hC.setPanel hd _).bind_eq fun _ => ?_
      exact (hC.go_emit _).bind_eq fun _ => go_pure rfl
    · exact go_pure rfl
  · exact go_pure rfl

end Housekeeping

theorem Housekeeping.tickTold {C : Comparison} (hC : C.Housekeeping)
    (hupdate : ∀ now now', C.times now now' →
      C.Go Eq (modify fun c => { c with tracker := c.tracker.updateAll c.snapshot now })
        (modify fun c => { c with tracker := c.tracker.updateAll c.snapshot now' })) :
    C.Go Eq tickTold tickTold := by
  refine .get_bind fun c c' hc => ?_
  have hn := hC.now hc
  generalize c.board.now = now at hn
  generalize c'.board.now = now' at hn
  have hrest : ∀ swept sampled, C.Go Eq
      (Controller.tickSwitchesTold now >>= fun polled => Controller.tickPanelTold now >>=
        fun served => get >>= fun c => onStore (Store.taskTold c.live now) >>= fun saved =>
          pure (⟨swept, sampled, polled, served, saved⟩ : Decisions))
      (Controller.tickSwitchesTold now' >>= fun polled => Controller.tickPanelTold now' >>=
        fun served => get >>= fun c => onStore (Store.taskTold c.live now') >>= fun saved =>
          pure (⟨swept, sampled, polled, served, saved⟩ : Decisions)) := by
    intro swept sampled
    refine (hC.tickSwitchesTold hn).bind_eq fun polled =>
      (hC.tickPanelTold hn).bind_eq fun served => ?_
    exact .get_bind fun _ _ hc => (hC.task (hC.live hc) hn).bind_eq fun _ => go_pure rfl
  refine (hC.tickMatrix hn).bind_eq fun swept => (hC.tickSticks hn).bind_eq fun sampled => ?_
  split
  · exact (hupdate now now' hn).bind_eq fun _ => hrest swept sampled
  · exact hrest swept sampled

/-- The same call. Times, edits and what is asked of the parts are the same in their own ways. -/
inductive Calls (C : Comparison) : ControllerCall → ControllerCall → Prop
  | init : Calls C .init .init
  | tick (h : C.Go Eq tickTold tickTold) : Calls C .tick .tick
  | combo (index : Nat) (pressed : Bool) : Calls C (.combo index pressed) (.combo index pressed)
  | key (code : UInt16) (pressed : Bool) : Calls C (.key code pressed) (.key code pressed)
  | switchProfile (id : UInt8) : Calls C (.switchProfile id) (.switchProfile id)
  | toggleStickMode (stick : Stick) {now now' : UInt32} (h : C.times now now') :
    Calls C (.toggleStickMode stick now) (.toggleStickMode stick now')
  | calibrate {now now' : UInt32} (h : C.times now now') :
    Calls C (.calibrate now) (.calibrate now')
  | toggleTouchscreen {now now' : UInt32} (h : C.times now now') :
    Calls C (.toggleTouchscreen now) (.toggleTouchscreen now')
  | toggleCombos {now now' : UInt32} (h : C.times now now') :
    Calls C (.toggleCombos now) (.toggleCombos now')
  | toggleDebug : Calls C .toggleDebug .toggleDebug
  | resetCurrent : Calls C .resetCurrent .resetCurrent
  | factoryReset {now now' : UInt32} (h : C.times now now') :
    Calls C (.factoryReset now) (.factoryReset now')
  | emergencyReset {now now' : UInt32} (h : C.times now now') :
    Calls C (.emergencyReset now) (.emergencyReset now')
  | updateSettings {edit edit' : DeviceSettings → DeviceSettings}
    (h : ∀ s s', C.settings s s' → C.settings (edit s) (edit' s')) :
    Calls C (.updateSettings edit) (.updateSettings edit')
  | store {request request' : StoreCall}
    (h : ∀ live live', C.settings live live' →
      C.Go (fun d d' => d'.2 = d.2) (onStore (request.perform live))
        (onStore (request'.perform live'))) :
    Calls C (.store request) (.store request')
  | tracker {request request' : TrackerCall}
    (h : ∀ c c', C.devices c c' →
      Alike (fun d d' => C.devices { c with tracker := d.2 } { c' with tracker := d'.2 })
        (c.tracker.perform request) (c'.tracker.perform request')) :
    Calls C (.tracker request) (.tracker request')

namespace Commands

variable {C : Comparison} (hC : C.Commands)

include hC

theorem perform {call call' : ControllerCall} (h : C.Calls call call') :
    C.Go Eq call.perform call'.perform := by
  have hquiet : ∀ {r r' : Routine Controller Unit}, C.Go Eq r r' →
      C.Go Eq (r >>= fun _ => pure Reply.none) (r' >>= fun _ => pure Reply.none) :=
    fun hr => hr.bind_eq fun _ => go_pure rfl
  cases h with
  | init => exact hquiet hC.init
  | tick htick =>
    refine hquiet ?_
    rw [tick_eq_told]
    exact htick.bind_eq fun _ => go_pure rfl
  | combo index pressed => exact hquiet (hC.processCombo index pressed)
  | key code pressed => exact (hC.processKey code pressed).bind_eq fun _ => go_pure rfl
  | switchProfile id => exact (hC.switchProfile id).bind_eq fun _ => go_pure rfl
  | toggleStickMode stick hn => exact hquiet (hC.toggleStickMode stick hn)
  | calibrate hn => exact hquiet (hC.calibrate hn)
  | toggleTouchscreen hn => exact hquiet (hC.toggleTouchscreen hn)
  | toggleCombos hn => exact hquiet (hC.toggleCombos hn)
  | toggleDebug => exact hquiet hC.toggleDebug
  | resetCurrent => exact hquiet hC.resetCurrent
  | factoryReset hn => exact hquiet (hC.factoryReset hn)
  | emergencyReset hn => exact hquiet (hC.emergencyReset hn)
  | updateSettings hedit => exact hquiet (hC.updateSettings hedit)
  | store hrequest =>
    refine .get_bind fun c c' hc => (hrequest _ _ (hC.live hc)).bind fun d d' hd => ?_
    rw [hd]
    split <;> exact go_pure rfl
  | @tracker request request' hrequest =>
    intro c c' hc
    have hasked := hrequest c c' hc
    rw [run_shown, run_shown, run_tracker, run_tracker]
    generalize c.tracker.perform request = x at hasked
    generalize c'.tracker.perform request' = x' at hasked
    cases hasked with
    | fault e => exact .fault e
    | ok hd => exact .ok ⟨rfl, hd, .nil⟩

theorem told {call call' : ControllerCall} (h : C.Calls call call') :
    C.Go Eq call.told call'.told := by
  have hperform := hC.perform h
  cases h with
  | tick htick => exact htick.bind_eq fun _ => go_pure rfl
  | _ => exact hperform.bind_eq fun _ => go_pure rfl

end Commands

end Comparison

end TwinStick
