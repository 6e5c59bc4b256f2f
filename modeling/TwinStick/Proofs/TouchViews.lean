import TwinStick.Proofs.SideBySide
import TwinStick.Proofs.Touches

/-! What a device looks like to those who do not see touches. Devices that look the same do the
same, as far as touches are not heard. -/

namespace TwinStick

open Routine

def Outcome.seen (view : σ → τ) (d : Outcome σ α) : Outcome τ α := ⟨d.value, view d.state, d.events⟩

namespace Panel

/-- A panel that says nothing of touches. -/
def blind : Panel → Panel
  | detached => detached
  | fitted chip => fitted { chip with pending := false, touching := false }

@[simp] theorem blind_blind (p : Panel) : p.blind.blind = p.blind := by cases p <;> rfl

@[simp] theorem powerUp_blind (p : Panel) : p.blind.powerUp = p.powerUp := by cases p <;> rfl

@[simp] theorem calibrate_blind (p : Panel) : p.blind.calibrate = p.calibrate := by
  cases p <;> rfl

end Panel

namespace Controller

def unheard (_ : DeviceSettings) : Bool := false

/-- The device without what its panel says of touches, unless it is heard under the
settings in force, and without the contacts of touch inputs, unless they are asked for. -/
def view (heard : DeviceSettings → Bool) (contacts : Bool) (c : Controller) : Controller :=
  { c with
    board := { c.board with panel := if heard c.live then c.board.panel else c.board.panel.blind }
    tracker := if contacts then c.tracker else c.tracker.blind }

section

variable {heard : DeviceSettings → Bool} {contacts : Bool} {c d : Controller}

theorem eq_of_view (f : Controller → β) (hf : ∀ c, f (c.view heard contacts) = f c)
    (h : d.view heard contacts = c.view heard contacts) : f d = f c := by
  rw [← hf d, h, hf c]

theorem view_map (g : Controller → Controller)
    (hg : ∀ c, (g c).view heard contacts = g (c.view heard contacts))
    (h : d.view heard contacts = c.view heard contacts) :
    (g d).view heard contacts = (g c).view heard contacts := by
  rw [hg, h, hg]

theorem view_tracked (h : d.view heard false = c.view heard false) {t t' : Tracker}
    (ht : t'.blind = t.blind) :
    Controller.view heard false { d with tracker := t' } =
      Controller.view heard false { c with tracker := t } :=
  calc Controller.view heard false { d with tracker := t' }
    _ = { d.view heard false with tracker := t'.blind } := rfl
    _ = { c.view heard false with tracker := t.blind } := by rw [h, ht]

end

end Controller

namespace Comparison

open Controller

/-- Devices are compared by what a view leaves of them. -/
abbrev viewed (heard : DeviceSettings → Bool) (contacts : Bool) : Comparison where
  devices c d := d.view heard contacts = c.view heard contacts

section

variable {heard : DeviceSettings → Bool} {contacts : Bool} {r : Routine Controller α}

theorem fair_viewed : (viewed heard contacts).Fair where
  same _ := rfl
  seen e e' h := by rw [h]

/-- A run that is told from the device by cases that are in view. -/
theorem go_viewed_of_map {x : Controller → Except Fault γ}
    {g k : γ → Controller → Outcome Controller α} (hrun : ∀ c, r.run c = (x c).map (g · c))
    (hx : ∀ c, x c = x (c.view heard contacts))
    (hg : ∀ o c, (g o c).seen (view heard contacts) = k o (c.view heard contacts)) :
    (viewed heard contacts).Go Eq r r := by
  refine (go_iff rfl).mpr fun c d h => ?_
  have hsame : x d = x c := by rw [hx d, h, ← hx c]
  rw [hrun c, hrun d, hsame]
  cases x c with
  | error e => exact .fault e
  | ok o =>
    have hseen : (g o d).seen (view heard contacts) = (g o c).seen (view heard contacts) := by
      rw [hg o d, h, ← hg o c]
    obtain ⟨hvalue, hview, hevents⟩ := Outcome.mk.inj hseen
    exact .ok ⟨hvalue.symm, hview, List.forall₂_eq_eq_eq ▸ hevents.symm⟩

theorem go_viewed_of_run {g k : Controller → Outcome Controller α}
    (hrun : ∀ c, r.run c = .ok (g c))
    (hg : ∀ c, (g c).seen (view heard contacts) = k (c.view heard contacts)) :
    (viewed heard contacts).Go Eq r r :=
  go_viewed_of_map (x := fun _ => .ok ()) (g := fun _ c => g c) (k := fun _ c => k c) hrun
    (fun _ => rfl) fun _ c => hg c

theorem go_viewed_onStore (q : Routine Store α) :
    (viewed heard contacts).Go Eq (onStore q) (onStore q) :=
  go_viewed_of_map (k := fun d c => ⟨d.value, { c with store := d.state }, d.events⟩)
    (run_onStore q) (fun _ => rfl) fun _ _ => rfl

theorem go_viewed_notify (n : Notice) : (viewed heard contacts).Go Eq (notify n) (notify n) :=
  go_viewed_of_run (k := fun c => ⟨(), c, c.noticed n⟩) (run_notify n) fun _ => rfl

theorem toggling_viewed (hmode : ∀ live stick mode, heard (live.withMode stick mode) = heard live) :
    (viewed heard contacts).Toggling where
  toFair := fair_viewed
  live hc := (eq_of_view (·.live) (fun _ => rfl) hc).symm
  mode hc stick := (eq_of_view (fun c => (c.engines.get stick).mode) (fun _ => rfl) hc).symm
  toggleMode stick := go_viewed_of_run (k := fun c => ⟨(), { c with
    engines := c.engines.set stick (c.engines.get stick).toggleMode.1 },
    (c.engines.get stick).toggleMode.2.map .host⟩) (run_onEngine stick _) fun _ => rfl
  setMode {stick mode _} hm := by
    rw [← hm]
    refine go_modify fun _ _ hc =>
      view_map (fun c => { c with live := c.live.withMode stick mode }) (fun c => ?_) hc
    simp only [view, hmode]
  modeLine hm := by
    rw [hm]
    exact go_viewed_notify _
  save hl _ _ hn := by
    rw [hl, hn]
    exact go_viewed_onStore _

end

section

variable {contacts : Bool}

theorem commands_viewed : (viewed unheard contacts).Commands where
  toToggling := toggling_viewed fun _ _ _ => rfl
  now hc := (eq_of_view (·.board.now) (fun _ => rfl) hc).symm
  touchReady hc := eq_of_view (·.touchReady) (fun _ => rfl) hc
  comboEnabled hc combo := eq_of_view (·.store.isComboEnabled combo) (fun _ => rfl) hc
  activeName hc := .of_eq (P := fun p p' => p'.name = p.name) (fun _ => rfl)
    (eq_of_view (·.store.activeRecord) (fun _ => rfl) hc)
  profile hs := congrArg _ hs.symm
  touchEnabled hs := congrArg _ hs.symm
  combosEnabled hs := congrArg _ hs.symm
  flipTouch hs := by rw [hs]
  flipCombos hs := by rw [hs]
  edit {f f'} hf := by
    have hsame : f' = f := funext fun s => (hf s s rfl).symm
    rw [hsame]
    exact go_modify fun _ _ hc => view_map (fun c => { c with live := f c.live }) (fun _ => rfl) hc
  notify n := go_viewed_notify n
  markDirty {now _} hn := by
    rw [← hn]
    exact go_modify fun _ _ hc =>
      view_map (fun c => { c with store := c.store.markDirty now }) (fun _ => rfl) hc
  sync := go_viewed_of_run (k := fun c => ⟨(), c.synced, c.syncEvents⟩) run_sync fun c => by
    cases contacts <;> rfl
  startTouchscreen := by
    refine go_viewed_of_run (k := fun c => ⟨(), c.powered, c.powerEvents⟩) run_startTouchscreen
      fun c => ?_
    have hpower : (c.view unheard contacts).board.panel.powerUp = c.board.panel.powerUp :=
      c.board.panel.powerUp_blind
    simp only [Outcome.seen, powered, powerEvents, hpower]
    rfl
  trackDefaults := by
    have htold : ∀ c : Controller, c.trackingDefaults.view unheard contacts =
        (c.view unheard contacts).trackingDefaults.view unheard contacts := by
      intro c
      have hclear : (c.view unheard contacts).tracker.clear = c.tracker.clear := by
        cases contacts <;> rfl
      rw [trackingDefaults, trackingDefaults, hclear]
      simp [view, unheard]
    exact go_modify fun c d hc => (htold d).trans <|
      (congrArg (fun c => c.trackingDefaults.view unheard contacts) hc).trans (htold c).symm
  calibrateTouchscreen := by
    refine go_viewed_of_run (k := fun c => ⟨(), c, c.calibrationEvents⟩) run_calibrateTouchscreen
      fun c => ?_
    have hpanel : (c.view unheard contacts).board.panel.calibrate = c.board.panel.calibrate :=
      c.board.panel.calibrate_blind
    simp only [Outcome.seen, calibrationEvents, hpanel]
    rfl
  calibrateStick stick :=
    go_viewed_of_map (x := fun c => (c.sampler.calibrate stick calibrationSamples).run c.board.adc)
      (k := fun d c => ⟨⟨⟩, c.centred stick d, d.events⟩) (run_calibrateStick stick)
      (fun _ => rfl) fun _ _ => rfl
  toggleDebug := go_viewed_of_run (k := fun c => ⟨⟨⟩, c.debugFlipped,
    [.host (.line (Notice.debug !c.live.debug).line)]⟩) run_toggleDebug fun _ => rfl
  boot hl _ _ hn := by
    rw [hl, hn]
    exact go_viewed_onStore _
  switch hl id := by
    rw [hl]
    exact (go_viewed_onStore _).mono fun _ _ hd => ⟨congrArg _ hd.symm, congrArg _ hd⟩
  reset hl := by
    rw [hl]
    exact (go_viewed_onStore _).mono fun _ _ hd => congrArg _ hd
  wipe hn := by
    rw [hn]
    exact go_viewed_onStore _

/-- The interrupts of a panel that is switched off are not looked at. -/
theorem housekeeping_viewed : (viewed (·.touchEnabled) contacts).Housekeeping where
  toToggling := toggling_viewed fun _ _ _ => rfl
  now hc := (eq_of_view (·.board.now) (fun _ => rfl) hc).symm
  touchActive hc := eq_of_view (·.touchActive) (fun _ => rfl) hc
  panel {c d} hc hactive := by
    have hon : c.live.touchEnabled = true := (Bool.and_eq_true_iff.mp hactive).1
    have hon' : d.live.touchEnabled = true :=
      (eq_of_view (·.live.touchEnabled) (fun _ => rfl) hc).trans hon
    have hpanel := congrArg (fun c : Controller => c.board.panel) hc
    simpa only [view, hon, hon', if_true] using hpanel
  setPanel hc panel := congrArg (fun c : Controller => { c with
    board := { c.board with panel := if c.live.touchEnabled then panel else panel.blind } }) hc
  pollPanel {_ _} hc now _ hn := by
    subst hn
    exact ⟨eq_of_view (fun c => (c.touchCadence.poll now).1) (fun _ => rfl) hc,
      view_map (fun c => { c with touchCadence := (c.touchCadence.poll now).2 }) (fun _ => rfl) hc⟩
  switches hc := eq_of_view (·.board.switches) (fun _ => rfl) hc
  switchLevels hc := eq_of_view (·.switchLevels) (fun _ => rfl) hc
  setLevels hc switchLevels := view_map ({ · with switchLevels }) (fun _ => rfl) hc
  pollSwitches {_ _} hc now _ hn := by
    subst hn
    exact ⟨eq_of_view (fun c => (c.switchCadence.poll now).1) (fun _ => rfl) hc,
      view_map (fun c => { c with switchCadence := (c.switchCadence.poll now).2 })
        (fun _ => rfl) hc⟩
  tickMatrix {now _} hn := by
    rw [← hn]
    exact go_viewed_of_run (k := fun c => ⟨(c.matrix.scan c.board.closed now).1,
      { c with matrix := (c.matrix.scan c.board.closed now).2 }, []⟩) (run_tickMatrix now)
      fun _ => rfl
  sampleSticks {now _} hn := by
    rw [← hn]
    exact go_viewed_of_map (x := fun c => (c.sampler.tick now).run c.board.adc)
      (k := fun d c => ⟨d.value.1, c.withSampler d.state d.value.2, d.events⟩)
      (run_sampleSticks now) (fun _ => rfl) fun _ _ => rfl
  processStick stick := go_viewed_of_run (k := fun c => ⟨(), { c with
      engines := c.engines.set stick (c.processed stick).2.1
      report := c.report.set stick (c.processed stick).1 }, (c.processed stick).2.2.map .host⟩)
    (run_processStick stick) fun _ => rfl
  axes hc := by
    rw [eq_of_view (·.report) (fun _ => rfl) hc]
    exact fair_viewed.go_emit _
  task hl _ _ hn := by
    rw [hl, hn]
    exact go_viewed_onStore _

end

/-- Touches that only the tracker is shown make no difference but to the tracker. -/
theorem go_viewed_updateAll {now now' : UInt32} (hn : now = now') :
    (viewed (·.touchEnabled) false).Go Eq
      (modify fun c => { c with tracker := c.tracker.updateAll c.snapshot now })
      (modify fun c => { c with tracker := c.tracker.updateAll c.snapshot now' }) := by
  subst hn
  refine go_modify fun c d hc => view_tracked hc ?_
  have htracker : d.tracker.blind = c.tracker.blind := congrArg (fun c : Controller => c.tracker) hc
  have hsnapshot : d.snapshot.blind = c.snapshot.blind :=
    eq_of_view (·.snapshot.blind) (fun _ => rfl) hc
  exact Tracker.blind_updateAll htracker hsnapshot now

theorem calls_viewed (contacts : Bool) {call : ControllerCall} (ht : call ≠ .tick) :
    (viewed unheard contacts).Calls call call := by
  cases call with
  | tick => exact absurd rfl ht
  | init => exact .init
  | combo index pressed => exact .combo index pressed
  | key code pressed => exact .key code pressed
  | switchProfile id => exact .switchProfile id
  | toggleStickMode stick now => exact .toggleStickMode stick rfl
  | calibrate now => exact .calibrate rfl
  | toggleTouchscreen now => exact .toggleTouchscreen rfl
  | toggleCombos now => exact .toggleCombos rfl
  | toggleDebug => exact .toggleDebug
  | resetCurrent => exact .resetCurrent
  | factoryReset now => exact .factoryReset rfl
  | emergencyReset now => exact .emergencyReset rfl
  | updateSettings edit => exact .updateSettings fun _ _ hs => congrArg edit hs
  | store request =>
    refine .store fun live live' hl => ?_
    rw [hl]
    exact (go_viewed_onStore _).mono fun _ _ hd => by rw [hd]
  | tracker request =>
    refine .tracker fun c d hc => ?_
    have htracker := congrArg (fun c : Controller => c.tracker) hc
    cases contacts with
    | false =>
      exact (Tracker.blind_perform htracker request).mono fun _ _ hd => view_tracked hc hd
    | true =>
      have hsame : d.tracker = c.tracker := htracker
      rw [hsame]
      exact .of_eq (fun a => view_map ({ · with tracker := a.2 }) (fun _ => rfl) hc) rfl

end Comparison

end TwinStick
