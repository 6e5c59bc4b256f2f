import TwinStick.Proofs.Emission
import TwinStick.Proofs.Names
import TwinStick.Proofs.Readings

/-! Closed forms of the routines of the controller that no fault can stop. Each is a
state and a list of events, told from the state before. -/

namespace TwinStick

namespace Engine

/-- Only going from digital to analog changes what is held. -/
theorem setMode_fst (e : Engine) (mode : StickMode) :
    (e.setMode mode).1 = { e with
      mode
      held := if e.mode = .digital ∧ mode = .analog then {} else e.held } := by
  obtain ⟨stick, was, sensitivity, invert, held⟩ := e
  cases was <;> cases mode <;> rfl

theorem process_engine (e : Engine) (s : StickSample) :
    (e.process s).2.1 = { e with
      held := if e.mode = .digital then s.directions else e.held } := by
  obtain ⟨stick, was, sensitivity, invert, held⟩ := e
  cases was <;> rfl

theorem within_hold (e : Engine) (wanted : Directions) :
    Within [.key] ((e.hold wanted).2.map .host) := by
  intro k hk
  simp only [hold, List.map_map, List.mem_map] at hk
  obtain ⟨⟨direction, down⟩, -, rfl⟩ := hk
  cases down <;> exact .head _

theorem within_setMode (e : Engine) (mode : StickMode) :
    Within [.key] ((e.setMode mode).2.map .host) := by
  rw [setMode]
  split
  · exact within_nil
  · split
    · exact e.within_hold {}
    · exact within_nil

theorem within_process (e : Engine) (s : StickSample) :
    Within [.key] ((e.process s).2.2.map .host) := by
  rw [process]
  split
  · exact within_nil
  · exact e.within_hold _

end Engine

namespace Panel

theorem within_powerUp (p : Panel) : Within [.panelPower] p.powerUp.2 := by
  cases p <;> simp [powerUp, Within, Event.topic]

theorem within_calibrate (p : Panel) : Within [.panelCalibration] p.calibrate.2 := by
  cases p <;> simp [calibrate, Within, Event.topic]

theorem within_handle (p : Panel) : Within [.panelService] p.handle.2 := by
  cases p <;> simp [handle, Within, Event.topic]

end Panel

namespace Notice

theorem utf8ByteSize_number_le (n : UInt8) : (toString n.toNat).utf8ByteSize ≤ 3 := by
  have hall : ∀ k < 256, (toString k).utf8ByteSize ≤ 3 := by decide +kernel
  exact hall _ n.toNat_lt

/-- No notice is too long for the console, whatever a profile is called. -/
theorem line_fits (n : Notice) : n.line.utf8ByteSize ≤ lineLength := by
  cases n with
  | profile number name =>
    have hnumber := utf8ByteSize_number_le number
    have hname := name.utf8ByteSize_text_le
    have hwords : "KIBOARD: ".utf8ByteSize + "Profile ".utf8ByteSize + ": ".utf8ByteSize = 19 := rfl
    simp only [line, text, String.utf8ByteSize_append, lineLength, nameLength] at *
    omega
  | profileReset number =>
    have hnumber := utf8ByteSize_number_le number
    have hwords :
        "KIBOARD: ".utf8ByteSize + "Profile ".utf8ByteSize + " reset".utf8ByteSize = 23 := rfl
    simp only [line, text, String.utf8ByteSize_append, lineLength] at *
    omega
  | layer number =>
    have hnumber := utf8ByteSize_number_le number
    have hwords : "KIBOARD: ".utf8ByteSize + "Layer ".utf8ByteSize = 15 := rfl
    simp only [line, text, String.utf8ByteSize_append, lineLength] at *
    omega
  | stickMode stick mode => cases stick <;> cases mode <;> decide
  | touchscreen on | combos on | debug on => cases on <;> decide
  | _ => decide

end Notice

namespace Controller

open Routine

theorem run_tell (events : List HostEvent) (c : Controller) :
    (tell events).run c = .ok ⟨(), c, events.map .host⟩ := rfl

/-- The line for a notice, if lines are printed. -/
def noticed (c : Controller) (n : Notice) : List Event :=
  if c.live.debug then [.host (.line n.line)] else []

theorem run_notify (n : Notice) (c : Controller) :
    (notify n).run c = .ok ⟨(), c, c.noticed n⟩ := by
  rw [notify, run_bind_of_silent (run_get c), noticed, if_pos n.line_fits]
  cases c.live.debug <;> rfl

theorem run_onEngine (stick : Stick) (f : Engine → Engine × List HostEvent) (c : Controller) :
    (onEngine stick f).run c =
      .ok ⟨(), { c with engines := c.engines.set stick (f (c.engines.get stick)).1 },
        (f (c.engines.get stick)).2.map .host⟩ := rfl

def applied (c : Controller) (stick : Stick) : Engine × List HostEvent :=
  (c.engines.get stick).applySettings (c.live.sticks.get stick)

def synced (c : Controller) : Controller :=
  let scanner := { c.matrix.config with debounce := c.live.debounceMs.toUInt32 }
  let sampler := { c.sampler.config with interval := c.live.stickPollMs.toUInt32 }
  { c with
    matrix := c.matrix.withConfig scanner
    tracker := c.tracker.withConfig scanner
    sampler := { c.sampler.withConfig sampler with
      centres := c.live.sticks.map (·.centre)
      deadzones := c.live.sticks.map (·.deadzone) }
    touchCadence := c.touchCadence.withPeriod c.live.touchPollMs.toUInt32
    engines := ⟨(c.applied .one).1, (c.applied .two).1⟩ }

def syncKeys (c : Controller) : List HostEvent := (c.applied .one).2 ++ (c.applied .two).2

def syncEvents (c : Controller) : List Event :=
  (c.syncKeys ++
    [HostEvent.combos c.live.combosEnabled, .defaultLayer c.live.defaultLayer]).map .host

theorem run_sync (c : Controller) : sync.run c = .ok ⟨(), c.synced, c.syncEvents⟩ := by
  have hrun : sync.run c = .ok ⟨(), c.synced,
      (c.applied .one).2.map .host ++ ((c.applied .two).2.map .host ++
        [.host (.combos c.live.combosEnabled), .host (.defaultLayer c.live.defaultLayer)])⟩ := rfl
  simp [hrun, syncEvents, syncKeys]

def powered (c : Controller) : Controller :=
  { c with touchReady := c.board.panel.powerUp.1.isOk }

def powerEvents (c : Controller) : List Event :=
  c.board.panel.powerUp.2 ++
    if c.board.panel.powerUp.1.isOk then [] else c.noticed .touchInitFailed

theorem run_startTouchscreen (c : Controller) :
    startTouchscreen.run c = .ok ⟨(), c.powered, c.powerEvents⟩ := by
  rw [startTouchscreen, run_bind_of_silent (run_get c), powered, powerEvents]
  obtain ⟨answer, events⟩ := c.board.panel.powerUp
  cases answer with
  | ok u => rfl
  | error e =>
    rw [run_bind_of_ok (run_emit events c), run_bind_of_silent (run_modify _ _), run_notify]
    rfl

def woken (c : Controller) : Controller := if c.live.touchEnabled then c.powered else c

theorem woken_eq (c : Controller) :
    c.woken = { c with
      touchReady :=
        if c.live.touchEnabled then c.board.panel.powerUp.1.isOk else c.touchReady } := by
  rw [woken]
  split <;> rfl

def wakeEvents (c : Controller) : List Event := if c.live.touchEnabled then c.powerEvents else []

/-- The device with the store as a call has left it, and the settings put in force that
came with it. -/
def installed (c : Controller) (d : Outcome Store α) (live : DeviceSettings) : Controller :=
  { c with store := d.state, live }

theorem run_onStore (r : Routine Store α) (c : Controller) :
    (onStore r).run c =
      (r.run c.store).map fun d => ⟨d.value, { c with store := d.state }, d.events⟩ := rfl

theorem run_install (c : Controller) (d : Outcome Store α) (live : DeviceSettings)
    (f : Unit → Routine Controller β) :
    (modify ({ · with live }) >>= fun _ => sync >>= f).run { c with store := d.state } =
      ((f ()).run (c.installed d live).synced).map fun e =>
        ⟨e.value, e.state, (c.installed d live).syncEvents ++ e.events⟩ := by
  rw [run_bind_of_silent (run_modify _ _)]
  exact run_bind_of_ok (run_sync (c.installed d live)) f

def trackingDefaults (c : Controller) : Controller :=
  { c with
    tracker := defaultInputs.foldl (fun t (kind, id) => (t.track kind id).2) c.tracker.clear }

@[simp] theorem engines_trackingDefaults (c : Controller) :
    c.trackingDefaults.engines = c.engines := by rw [trackingDefaults]

theorem run_init (c : Controller) :
    init.run c = ((Store.init c.live c.board.now).run c.store).map fun d =>
      ⟨(), (c.installed d d.value).woken.synced.trackingDefaults,
        d.events ++ ((c.installed d d.value).wakeEvents ++
          (c.installed d d.value).woken.syncEvents)⟩ := by
  cases hd : (Store.init c.live c.board.now).run c.store with
  | error e =>
    rw [init, run_bind_of_silent (run_get c), run_bind, run_onStore, hd]
    rfl
  | ok d =>
    let t := c.installed d d.value
    have hstore : (onStore (Store.init c.live c.board.now)).run c =
        .ok ⟨d.value, { c with store := d.state }, d.events⟩ := by
      rw [run_onStore, hd]
      rfl
    have hlast : ∀ t : Controller, (sync >>= fun _ => modify trackingDefaults).run t =
        .ok ⟨⟨⟩, t.synced.trackingDefaults, t.syncEvents⟩ := by
      intro t
      rw [run_bind_of_ok (run_sync t), run_modify]
      simp [Except.map]
    have hwake : (if t.live.touchEnabled then
        startTouchscreen >>= fun _ => sync >>= fun _ => modify trackingDefaults
      else sync >>= fun _ => modify trackingDefaults).run t =
        .ok ⟨⟨⟩, t.woken.synced.trackingDefaults, t.wakeEvents ++ t.woken.syncEvents⟩ := by
      rw [woken, wakeEvents]
      cases t.live.touchEnabled with
      | false => exact hlast t
      | true =>
        rw [if_pos rfl, if_pos rfl, if_pos rfl, run_bind_of_ok (run_startTouchscreen t), hlast]
        rfl
    rw [init, run_bind_of_silent (run_get c), run_bind_of_ok hstore]
    dsimp only
    rw [run_bind_of_silent (run_modify _ _)]
    exact congrArg (Except.map _) hwake

def calibrationEvents (c : Controller) : List Event :=
  if c.touchActive then
    c.board.panel.calibrate.2 ++
      if c.board.panel.calibrate.1 then [] else c.noticed .touchCalibrationFailed
  else []

theorem run_calibrateTouchscreen (c : Controller) :
    calibrateTouchscreen.run c = .ok ⟨(), c, c.calibrationEvents⟩ := by
  rw [calibrateTouchscreen, run_bind_of_silent (run_get c), calibrationEvents]
  cases c.touchActive with
  | false => rfl
  | true =>
    obtain ⟨calibrated, events⟩ := c.board.panel.calibrate
    cases calibrated with
    | true => rfl
    | false =>
      have hrest : (notify .touchCalibrationFailed).run c = _ := run_notify _ c
      exact (run_bind_of_ok (run_emit events c) _).trans (congrArg (Except.map _) hrest)

def touchFlipped (c : Controller) : Controller :=
  { c with live := { c.live with touchEnabled := !c.live.touchEnabled } }

/-- What the touchscreen toggle does before the change is marked. -/
def touchToggled (c : Controller) : Controller × List Event :=
  if !c.live.touchEnabled && !c.touchReady then
    (c.touchFlipped.powered, c.touchFlipped.powerEvents)
  else (c.touchFlipped, [])

theorem touchToggled_fst (c : Controller) :
    c.touchToggled.1 = { c.touchFlipped with
      touchReady :=
        if !c.live.touchEnabled && !c.touchReady then c.board.panel.powerUp.1.isOk
        else c.touchReady } := by
  rw [touchToggled]
  split <;> rfl

theorem run_toggleTouchscreen (now : UInt32) (c : Controller) :
    (toggleTouchscreen now).run c =
      .ok ⟨(), { c.touchToggled.1 with store := c.store.markDirty now },
        c.touchToggled.2 ++ c.noticed (.touchscreen (!c.live.touchEnabled))⟩ := by
  have hmark : ∀ t : Controller, (markDirty now >>= fun _ => get >>= fun c =>
      notify (.touchscreen c.live.touchEnabled)).run t =
        .ok ⟨(), { t with store := t.store.markDirty now },
          t.noticed (.touchscreen t.live.touchEnabled)⟩ := by
    intro t
    rw [markDirty, run_bind_of_silent (run_modify _ t), run_bind_of_silent (run_get _)]
    exact run_notify _ _
  have hflip : (modifyLive fun s => { s with touchEnabled := !s.touchEnabled }).run c =
      .ok ⟨⟨⟩, c.touchFlipped, []⟩ := rfl
  rw [toggleTouchscreen, run_bind_of_silent hflip, run_bind_of_silent (run_get c.touchFlipped),
    touchToggled]
  have hwanted : c.touchFlipped.live.touchEnabled = !c.live.touchEnabled := rfl
  have hready : c.touchFlipped.touchReady = c.touchReady := rfl
  dsimp only
  rw [hwanted, hready]
  cases !c.live.touchEnabled && !c.touchReady with
  | false =>
    rw [if_neg Bool.false_ne_true, if_neg Bool.false_ne_true, hmark]
    rfl
  | true =>
    rw [if_pos rfl, if_pos rfl, run_bind_of_ok (run_startTouchscreen c.touchFlipped), hmark]
    rfl

def modeToggled (c : Controller) (stick : Stick) : Controller :=
  let engine := (c.engines.get stick).toggleMode.1
  { c with
    engines := c.engines.set stick engine
    live := c.live.withMode stick engine.mode }

def modeEvents (c : Controller) (stick : Stick) : List Event :=
  (c.engines.get stick).toggleMode.2.map .host

theorem run_toggleStickMode (stick : Stick) (now : UInt32) (c : Controller) :
    (toggleStickMode stick now).run c =
      ((saveNow now >>= fun _ => notify
        (.stickMode stick (c.engines.get stick).toggleMode.1.mode)).run
          (c.modeToggled stick)).map fun d => ⟨(), d.state, c.modeEvents stick ++ d.events⟩ := by
  have hmode : ((c.engines.set stick (c.engines.get stick).toggleMode.1).get stick).mode =
      (c.engines.get stick).toggleMode.1.mode := by
    rw [PerStick.get_set_self]
  rw [toggleStickMode, run_bind_of_ok (run_onEngine _ _ c)]
  dsimp only
  rw [run_bind_of_silent (run_get _), modifyLive, run_bind_of_silent (run_modify _ _)]
  dsimp only
  rw [hmode]
  rfl

/-- The device with a sampler and a converter as a reading has left them. -/
def withSampler (c : Controller) (adc : Adc) (sampler : Sampler) : Controller :=
  { c with board := { c.board with adc }, sampler }

def centred (c : Controller) (stick : Stick) (d : Outcome Adc (Pair UInt16 × Sampler)) :
    Controller :=
  { c.withSampler d.state d.value.2 with live := c.live.withCentre stick d.value.1 }

theorem run_calibrateStick (stick : Stick) (c : Controller) :
    (calibrateStick stick).run c =
      ((c.sampler.calibrate stick calibrationSamples).run c.board.adc).map fun d =>
        ⟨⟨⟩, c.centred stick d, d.events⟩ := by
  rw [calibrateStick, run_bind_of_silent (run_get c), run_bind]
  change Except.bind (((c.sampler.calibrate stick calibrationSamples).run c.board.adc).map _) _ = _
  cases (c.sampler.calibrate stick calibrationSamples).run c.board.adc with
  | error e => rfl
  | ok d =>
    change Except.ok (_ : Outcome Controller PUnit) = _
    simp [Except.map, centred, withSampler]

def combosFlipped (c : Controller) : Controller :=
  { c with live := { c.live with combosEnabled := !c.live.combosEnabled } }

theorem run_toggleCombos (now : UInt32) (c : Controller) :
    (toggleCombos now).run c =
      .ok ⟨(), { c.combosFlipped with store := c.store.markDirty now },
        .host (.combos (!c.live.combosEnabled)) ::
          c.noticed (.combos (!c.live.combosEnabled))⟩ := by
  rw [toggleCombos, modifyLive, run_bind_of_silent (run_modify _ c),
    run_bind_of_silent (run_get _), run_bind_of_ok (run_tell _ _), markDirty,
    run_bind_of_silent (run_modify _ _), run_notify]
  rfl

def debugFlipped (c : Controller) : Controller :=
  { c with live := { c.live with debug := !c.live.debug } }

theorem run_toggleDebug (c : Controller) :
    toggleDebug.run c =
      .ok ⟨⟨⟩, c.debugFlipped, [.host (.line (Notice.debug !c.live.debug).line)]⟩ := by
  rw [toggleDebug, run_bind_of_silent (run_get c), debugFlipped]
  cases hdebug : c.live.debug with
  | true =>
    rw [if_pos rfl, run_bind_of_ok (run_notify _ c), noticed, if_pos hdebug]
    rfl
  | false => rfl

theorem run_updateSettings (edit : DeviceSettings → DeviceSettings) (c : Controller) :
    (updateSettings edit).run c =
      .ok ⟨⟨⟩, { { c with live := edit c.live }.synced with
          store := c.store.markDirty c.board.now }, { c with live := edit c.live }.syncEvents⟩ := by
  rw [updateSettings, modifyLive, run_bind_of_silent (run_modify _ c),
    run_bind_of_ok (run_sync _), run_bind_of_silent (run_get _), markDirty, run_modify]
  simp [Except.map]
  rfl

def processed (c : Controller) (stick : Stick) : Pair Int16 × Engine × List HostEvent :=
  (c.engines.get stick).process (c.sampler.samples.get stick)

theorem run_processStick (stick : Stick) (c : Controller) : (processStick stick).run c =
    .ok ⟨(), { c with
      engines := c.engines.set stick (c.processed stick).2.1
      report := c.report.set stick (c.processed stick).1 },
      (c.processed stick).2.2.map .host⟩ := rfl

def reported (c : Controller) : Controller :=
  { c with
    engines := ⟨(c.processed .one).2.1, (c.processed .two).2.1⟩
    report := ⟨(c.processed .one).1, (c.processed .two).1⟩ }

def reportKeys (c : Controller) : List HostEvent := (c.processed .one).2.2 ++ (c.processed .two).2.2

/-- The last event is the report; the keys come before. -/
def reportEvents (c : Controller) : List Event :=
  c.reportKeys.map .host ++ [.host (.axes c.reported.report)]

theorem run_sampler_idle {s : Sampler} {now : UInt32} (h : s.cadence.due now = false) (adc : Adc) :
    (s.tick now).run adc = .ok ⟨(false, s), adc, []⟩ := by
  rw [Sampler.tick, Cadence.poll, h]
  rfl

theorem value_of_sampler_due {s : Sampler} {now : UInt32} (h : s.cadence.due now = true) {adc : Adc}
    {d : Outcome Adc (Bool × Sampler)} (hd : (s.tick now).run adc = .ok d) :
    d.value.1 = true := by
  obtain ⟨e, o, -, -, hvalue⟩ := Sampler.samples_of_due_tick h hd
  rw [hvalue]

theorem run_sampleSticks (now : UInt32) (c : Controller) :
    (sampleSticks now).run c = ((c.sampler.tick now).run c.board.adc).map fun d =>
      ⟨d.value.1, c.withSampler d.state d.value.2, d.events⟩ := by
  rw [sampleSticks, run_bind_of_silent (run_get c), run_bind]
  change Except.bind (((c.sampler.tick now).run c.board.adc).map _) _ = _
  cases (c.sampler.tick now).run c.board.adc with
  | error e => rfl
  | ok d =>
    simp only [Except.map, Except.bind, run_bind_of_silent (run_modify _ _), run_pure,
      List.append_nil]
    rfl

theorem run_tickSticks_idle {c : Controller} {now : UInt32}
    (h : c.sampler.cadence.due now = false) : (tickSticks now).run c = .ok ⟨false, c, []⟩ := by
  have hrun := run_sampleSticks now c
  rw [run_sampler_idle h] at hrun
  exact run_bind_of_silent hrun _

theorem run_tickSticks_due {c : Controller} {now : UInt32}
    (h : c.sampler.cadence.due now = true) :
    (tickSticks now).run c = ((c.sampler.tick now).run c.board.adc).map fun d =>
      ⟨true, (c.withSampler d.state d.value.2).reported,
        d.events ++ (c.withSampler d.state d.value.2).reportEvents⟩ := by
  have hrun := run_sampleSticks now c
  cases hd : (c.sampler.tick now).run c.board.adc with
  | error e =>
    rw [tickSticks, run_bind, hrun, hd]
    rfl
  | ok d =>
    have hv := value_of_sampler_due h hd
    let t := c.withSampler d.state d.value.2
    have hrest : (processStick .one >>= fun _ => processStick .two >>= fun _ => get >>= fun c =>
        tell [.axes c.report] >>= fun _ => pure true).run t =
          .ok ⟨true, t.reported, (t.processed .one).2.2.map .host ++
            ((t.processed .two).2.2.map .host ++ [.host (.axes t.reported.report)])⟩ := rfl
    rw [hd, Except.map, hv] at hrun
    rw [tickSticks, run_bind_of_ok hrun]
    refine (congrArg (Except.map _) hrest).trans ?_
    simp [Except.map, reportEvents, reportKeys, t]

theorem run_tickMatrix (now : UInt32) (c : Controller) :
    (tickMatrix now).run c =
      .ok ⟨(c.matrix.scan c.board.closed now).1,
        { c with matrix := (c.matrix.scan c.board.closed now).2 }, []⟩ := rfl

/-- The panel looked at, and served if it asks for it. -/
def panelTicked (c : Controller) (now : UInt32) : Controller × List Event :=
  if c.touchActive then
    let t : Controller := { c with touchCadence := (c.touchCadence.poll now).2 }
    if (c.touchCadence.poll now).1 && c.board.panel.pending then
      ({ t with board := { c.board with panel := c.board.panel.handle.1 } },
        c.board.panel.handle.2)
    else (t, [])
  else (c, [])

theorem panelTicked_fst (c : Controller) (now : UInt32) :
    (c.panelTicked now).1 = { c with
      touchCadence := if c.touchActive then (c.touchCadence.poll now).2 else c.touchCadence
      board := { c.board with
        panel :=
          if c.touchActive && ((c.touchCadence.poll now).1 && c.board.panel.pending) then
            c.board.panel.handle.1
          else c.board.panel } } := by
  rw [panelTicked]
  cases c.touchActive with
  | false => rfl
  | true =>
    dsimp only
    cases (c.touchCadence.poll now).1 && c.board.panel.pending <;> rfl

theorem run_tickPanel (now : UInt32) (c : Controller) :
    (tickPanel now).run c = .ok ⟨(), (c.panelTicked now).1, (c.panelTicked now).2⟩ := by
  rw [tickPanel, run_bind_of_silent (run_get c), panelTicked]
  cases c.touchActive with
  | false => rfl
  | true =>
    rw [if_pos rfl, if_pos rfl]
    dsimp only
    rw [run_bind_of_silent (run_set _ _)]
    cases (c.touchCadence.poll now).1 && c.board.panel.pending with
    | false => rfl
    | true =>
      rw [if_pos rfl, if_pos rfl, run_bind_of_silent (run_modify _ _), run_emit]

theorem run_tracker (call : TrackerCall) (c : Controller) :
    (ControllerCall.tracker call).perform.run c =
      (c.tracker.perform call).map fun d => ⟨.none, { c with tracker := d.2 }, []⟩ := by
  rw [ControllerCall.perform, run_bind_of_silent (run_get c), run_bind, run_liftM]
  cases c.tracker.perform call <;> rfl

end Controller

end TwinStick
