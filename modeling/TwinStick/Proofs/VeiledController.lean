import TwinStick.Proofs.VeiledStore
import TwinStick.Proofs.SideBySide

/-! The controller behind a veil. Key events of a hidden stick and lines that tell of what is
hidden are not seen at all; everything else that the device does can be told from what was seen
before. -/

namespace TwinStick

open Routine

variable {v : Veil} {base : UInt32}

namespace Veil

/-- The line tells whether the device is debugged, or the mode of a hidden stick. -/
def hidesLine (v : Veil) (text : String) : Bool :=
  v.debug || Stick.all.any fun stick => v.hides stick &&
    [StickMode.analog, .digital].any fun mode => text == (Notice.stickMode stick mode).line

def shows (v : Veil) : Event → Bool
  | .host (.keyDown key) => !v.hides key.stick
  | .host (.keyUp key) => !v.hides key.stick
  | .host (.line text) => !v.hidesLine text
  | _ => true

theorem hidesLine_of_debug (h : v.debug = true) (text : String) : v.hidesLine text = true := by
  rw [hidesLine, h, Bool.true_or]

theorem hidesLine_stickMode {stick : Stick} (h : v.hides stick = true) (mode : StickMode) :
    v.hidesLine (Notice.stickMode stick mode).line = true := by
  have hstick : stick ∈ Stick.all := by cases stick <;> decide
  have hmode : mode ∈ [StickMode.analog, .digital] := by cases mode <;> decide
  rw [hidesLine, Bool.or_eq_true]
  refine .inr (List.any_eq_true.mpr ⟨stick, hstick, ?_⟩)
  rw [h, Bool.true_and]
  exact List.any_eq_true.mpr ⟨mode, hmode, beq_self_eq_true _⟩

end Veil

theorem Event.Veiled.shows (e e' : Event) (h : e.Veiled v e') :
    v.shows e = true ↔ v.shows e' = true := by
  cases h <;> exact Iff.rfl

namespace Engine

/-- An engine stays with its stick and has no keys but those of it. -/
structure Speaks (e : Engine) (d : Engine × List HostEvent) : Prop where
  stick : d.1.stick = e.stick
  keys : ∀ event ∈ d.2, ∃ direction, event = .keyDown ⟨e.stick, direction⟩ ∨
    event = .keyUp ⟨e.stick, direction⟩

section

variable (e : Engine)

theorem speaks_silent {e' : Engine} (h : e'.stick = e.stick) : e.Speaks (e', []) :=
  ⟨h, fun _ hevent => absurd hevent List.not_mem_nil⟩

theorem speaks_hold (wanted : Directions) : e.Speaks (e.hold wanted) := by
  refine ⟨rfl, fun event hevent => ?_⟩
  obtain ⟨⟨direction, down⟩, -, rfl⟩ := List.mem_map.mp hevent
  cases down with
  | true => exact ⟨direction, .inl rfl⟩
  | false => exact ⟨direction, .inr rfl⟩

theorem speaks_setMode (mode : StickMode) : e.Speaks (e.setMode mode) := by
  rw [setMode]
  split
  · exact e.speaks_silent rfl
  · split
    · exact ⟨rfl, (e.speaks_hold {}).keys⟩
    · exact e.speaks_silent rfl

theorem speaks_applySettings (s : StickSettings) : e.Speaks (e.applySettings s) :=
  let e' := { e with sensitivity := s.sensitivity, invert := s.invert }
  ⟨(e'.speaks_setMode s.mode).stick, (e'.speaks_setMode s.mode).keys⟩

theorem speaks_process (s : StickSample) : e.Speaks (e.process s).2 := by
  rw [process]
  split
  · exact e.speaks_silent rfl
  · exact e.speaks_hold _

end

/-- The keys of a hidden stick are not seen, those of any other are the same. -/
theorem shown_eq {e e' : Engine} {d d' : Engine × List HostEvent} {stick : Stick}
    (hd : e.Speaks d) (hd' : e'.Speaks d') (hown : v.hides stick = true → e.stick = stick)
    (hown' : v.hides stick = true → e'.stick = stick) (hseen : v.hides stick = false → d' = d) :
    (d'.2.map Event.host).filter v.shows = (d.2.map Event.host).filter v.shows := by
  cases hh : v.hides stick with
  | false => rw [hseen hh]
  | true =>
    have hnone : ∀ {e : Engine} {d : Engine × List HostEvent}, e.Speaks d → e.stick = stick →
        (d.2.map Event.host).filter v.shows = [] := by
      intro e d hd he
      refine List.filter_eq_nil_iff.mpr fun event hevent => ?_
      obtain ⟨key, hkey, rfl⟩ := List.mem_map.mp hevent
      obtain ⟨direction, rfl | rfl⟩ := hd.keys key hkey
      · simp [Veil.shows, he, hh]
      · simp [Veil.shows, he, hh]
    rw [hnone hd (hown hh), hnone hd' (hown' hh)]

end Engine

structure Board.Veiled (v : Veil) (b b' : Board) : Prop where
  now : b'.now = b.now
  closed : b'.closed = b.closed
  adc : b.adc.Veiled v b'.adc
  switches : b'.switches = b.switches
  panel : b'.panel = b.panel

theorem Board.veiled_self (b : Board) : b.Veiled v b := ⟨rfl, rfl, b.adc.veiled_self, rfl, rfl⟩

theorem Board.Veiled.eq_of_bare {b b' : Board} (h : b.Veiled v b') (hb : v.Bare) : b' = b := by
  have hadc := h.adc.eq_of_bare hb
  obtain ⟨hnow, hclosed, -, hswitches, hpanel⟩ := h
  cases b
  cases b'
  simp_all

/-- The engines of hidden sticks speak of these sticks and of no other. -/
def Veil.Owns (v : Veil) (engines : PerStick Engine) : Prop :=
  ∀ stick, v.hides stick = true → (engines.get stick).stick = stick

theorem Veil.Owns.set {engines : PerStick Engine} (h : v.Owns engines) {stick : Stick} {e : Engine}
    (he : e.stick = (engines.get stick).stick) : v.Owns (engines.set stick e) := by
  intro other hhidden
  by_cases ho : stick = other
  · subst ho
    rw [PerStick.get_set_self, he, h stick hhidden]
  · rw [PerStick.get_set_of_ne _ ho, h other hhidden]

namespace Controller

/-- Two devices with their records at a base that are the same behind a veil. -/
structure Veiled (v : Veil) (base : UInt32) (c c' : Controller) : Prop where
  board : c.board.Veiled v c'.board
  store : c.store.Veiled v base c'.store
  live : c.live.Veiled v c'.live
  matrix : c'.matrix = c.matrix
  sampler : c.sampler.Veiled v c'.sampler
  tracker : c.tracker.Veiled v c'.tracker
  engines : c.engines.Veiled v c'.engines
  owns : v.Owns c.engines
  owns' : v.Owns c'.engines
  report : c.report.Veiled v c'.report
  switchCadence : c'.switchCadence = c.switchCadence
  switchLevels : c'.switchLevels = c.switchLevels
  touchCadence : c'.touchCadence = c.touchCadence
  touchReady : c'.touchReady = c.touchReady

theorem veiled_self {c : Controller} (h : v.Owns c.engines) : c.Veiled v c.store.base c where
  board := c.board.veiled_self
  store := c.store.veiled_self
  live := c.live.veiled_self
  matrix := rfl
  sampler := c.sampler.veiled_self
  tracker := c.tracker.veiled_self
  engines := c.engines.veiled_self
  owns := h
  owns' := h
  report := c.report.veiled_self
  switchCadence := rfl
  switchLevels := rfl
  touchCadence := rfl
  touchReady := rfl

section

variable {c c' : Controller}

theorem Veiled.touchActive (h : c.Veiled v base c') : c'.touchActive = c.touchActive := by
  rw [Controller.touchActive, Controller.touchActive, h.live.touchEnabled, h.touchReady]

theorem Veiled.snapshot (h : c.Veiled v base c') : c.snapshot.Veiled v c'.snapshot where
  matrix := h.matrix
  sampler := h.sampler
  touching := by rw [Controller.snapshot, Controller.snapshot, h.touchReady, h.board.panel]

/-- A line that is hidden is not seen, whether it is printed or not. -/
theorem filter_noticed_of_hidden {n : Notice} (h : v.hidesLine n.line = true) :
    (c.noticed n).filter v.shows = [] := by
  rw [noticed]
  split
  · rw [List.filter_singleton, Veil.shows, h]
    rfl
  · rfl

theorem Veiled.noticed (h : c.Veiled v base c') (n : Notice) :
    (c'.noticed n).filter v.shows = (c.noticed n).filter v.shows := by
  cases hd : v.debug with
  | true =>
    have hhidden := Veil.hidesLine_of_debug hd n.line
    rw [filter_noticed_of_hidden hhidden, filter_noticed_of_hidden hhidden]
  | false => rw [Controller.noticed, Controller.noticed, h.live.debug hd]

theorem Veiled.applied (h : c.Veiled v base c') (stick : Stick)
    (hseen : v.hides stick = false) : c'.applied stick = c.applied stick := by
  rw [Controller.applied, Controller.applied, h.engines stick hseen, h.live.sticks stick hseen]

theorem owns_synced (h : v.Owns c.engines) : v.Owns c.synced.engines := by
  intro stick hhidden
  have hsynced : c.synced.engines.get stick = (c.applied stick).1 := by
    cases stick <;> rfl
  rw [hsynced, Controller.applied, (Engine.speaks_applySettings _ _).stick]
  exact h stick hhidden

theorem Veiled.synced (h : c.Veiled v base c') : c.synced.Veiled v base c'.synced := by
  have hscanner : { c'.matrix.config with debounce := c'.live.debounceMs.toUInt32 } =
      { c.matrix.config with debounce := c.live.debounceMs.toUInt32 } := by
    rw [h.matrix, h.live.debounceMs]
  have hsampling : { c'.sampler.config with interval := c'.live.stickPollMs.toUInt32 } =
      { c.sampler.config with interval := c.live.stickPollMs.toUInt32 } := by
    rw [h.sampler.config, h.live.stickPollMs]
  have hsampler := h.sampler.withConfig
    { c.sampler.config with interval := c.live.stickPollMs.toUInt32 }
  have hengines : c.synced.engines.Veiled v c'.synced.engines := by
    intro stick hseen
    have happlied := congrArg Prod.fst (h.applied stick hseen)
    cases stick <;> exact happlied
  refine { h with
    matrix := ?_
    sampler := ?_
    tracker := ?_
    engines := hengines
    owns := owns_synced h.owns
    owns' := owns_synced h.owns'
    touchCadence := ?_ }
  · rw [Controller.synced, Controller.synced]
    dsimp only
    rw [hscanner, h.matrix]
  · rw [Controller.synced, Controller.synced]
    dsimp only
    rw [hsampling]
    exact { hsampler with
      centres := h.live.sticks.map _
      deadzones := h.live.sticks.map _ }
  · rw [Controller.synced, Controller.synced]
    dsimp only
    rw [hscanner]
    exact h.tracker.withConfig _
  · rw [Controller.synced, Controller.synced, h.touchCadence, h.live.touchPollMs]

theorem Veiled.appliedKeys (h : c.Veiled v base c') (stick : Stick) :
    ((c'.applied stick).2.map Event.host).filter v.shows =
      ((c.applied stick).2.map Event.host).filter v.shows :=
  Engine.shown_eq (Engine.speaks_applySettings _ _) (Engine.speaks_applySettings _ _)
    (h.owns stick) (h.owns' stick) (h.applied stick)

theorem Veiled.syncEvents (h : c.Veiled v base c') :
    c'.syncEvents.filter v.shows = c.syncEvents.filter v.shows := by
  simp only [Controller.syncEvents, Controller.syncKeys, List.map_append, List.filter_append,
    h.appliedKeys, h.live.combosEnabled, h.live.defaultLayer]

theorem Veiled.powered (h : c.Veiled v base c') : c.powered.Veiled v base c'.powered :=
  { h with touchReady := by rw [Controller.powered, Controller.powered, h.board.panel] }

theorem Veiled.powerEvents (h : c.Veiled v base c') :
    c'.powerEvents.filter v.shows = c.powerEvents.filter v.shows := by
  rw [Controller.powerEvents, Controller.powerEvents, h.board.panel, List.filter_append,
    List.filter_append]
  split
  · rfl
  · rw [h.noticed]

theorem Veiled.calibrationEvents (h : c.Veiled v base c') :
    c'.calibrationEvents.filter v.shows = c.calibrationEvents.filter v.shows := by
  rw [Controller.calibrationEvents, Controller.calibrationEvents, h.touchActive, h.board.panel]
  split
  · rw [List.filter_append, List.filter_append]
    split
    · rfl
    · rw [h.noticed]
  · rfl

theorem Veiled.trackingDefaults (h : c.Veiled v base c') :
    c.trackingDefaults.Veiled v base c'.trackingDefaults := by
  rw [Controller.trackingDefaults, Controller.trackingDefaults]
  -- the list is kept from being evaluated
  generalize defaultInputs = inputs
  have hclear := h.tracker.clear TrackedInput.kept_veiled
  exact { h with tracker := hclear.trackAll TrackedInput.kept_veiled inputs }

end

end Controller

namespace Comparison

open Controller
open StoreComparison (lawful_veiled)

/-- Devices are compared behind a veil. -/
abbrev veiled (v : Veil) (base : UInt32) : Comparison where
  seen := v.shows
  events := Event.Veiled v
  devices := Controller.Veiled v base
  settings := DeviceSettings.Veiled v
  modes stick mode mode' := v.hides stick = false → mode' = mode

theorem fair_veiled : (veiled v base).Fair where
  same := .same
  seen := Event.Veiled.shows

section

variable {V : α → β → Prop}

theorem go_veiled_onStore {r : Routine Store α} {r' : Routine Store β}
    (h : (StoreComparison.veiled v base).Go V r r') :
    (veiled v base).Go V (onStore r) (onStore r') :=
  fair_veiled.go_of_paired <| paired_onPart h (fun _ _ hc => hc.store) fun _ _ _ _ hc hs =>
    { hc with store := hs }

theorem go_veiled_onAdc {r : Routine Adc α} {r' : Routine Adc β}
    (h : Paired (Event.Veiled v) (Adc.Veiled v) V r r') :
    (veiled v base).Go V (onAdc r) (onAdc r') :=
  fair_veiled.go_of_paired <| paired_onPart h (fun _ _ hc => hc.board.adc) fun _ _ _ _ hc ha =>
    { hc with board := { hc.board with adc := ha } }

/-- What an engine that stays with its stick says of a hidden one is not seen. -/
theorem go_veiled_onEngine (stick : Stick) {f : Engine → Engine × List HostEvent}
    (hf : ∀ e : Engine, e.Speaks (f e)) :
    (veiled v base).Go Eq (onEngine stick f) (onEngine stick f) := by
  refine fair_veiled.go_of_run (run_onEngine stick f) (run_onEngine stick f) fun c c' h => ?_
  have hsame : v.hides stick = false → f (c'.engines.get stick) = f (c.engines.get stick) :=
    fun hseen => by rw [h.engines stick hseen]
  have hkeys := Engine.shown_eq (hf _) (hf _) (h.owns stick) (h.owns' stick) hsame
  refine ⟨rfl, { h with engines := ?_, owns := ?_, owns' := ?_ }, hkeys⟩
  · exact h.engines.set fun hseen => congrArg Prod.fst (hsame hseen)
  · exact h.owns.set (hf _).stick
  · exact h.owns'.set (hf _).stick

end

theorem go_veiled_notify (n : Notice) : (veiled v base).Go Eq (notify n) (notify n) :=
  fair_veiled.go_of_run (run_notify n) (run_notify n) fun _ _ h => ⟨rfl, h, h.noticed n⟩

theorem toggling_veiled : (veiled v base).Toggling where
  toFair := fair_veiled
  live h := h.live
  mode h stick hseen := by rw [h.engines stick hseen]
  toggleMode stick := go_veiled_onEngine stick fun e => e.speaks_setMode _
  setMode hm := go_modify fun _ _ h => { h with live := h.live.withMode hm }
  -- the mode of a hidden stick may be another
  modeLine {stick mode mode'} hm := by
    cases hh : v.hides stick with
    | false =>
      rw [hm hh]
      exact go_veiled_notify _
    | true =>
      refine fair_veiled.go_of_run (run_notify _) (run_notify _) fun c c' h => ⟨rfl, h, ?_⟩
      rw [filter_noticed_of_hidden (Veil.hidesLine_stickMode hh mode),
        filter_noticed_of_hidden (Veil.hidesLine_stickMode hh mode')]
  save hl _ _ hn := go_veiled_onStore (lawful_veiled.saveCurrent hl hn)

theorem commands_veiled : (veiled v base).Commands where
  toToggling := toggling_veiled
  now h := h.board.now.symm
  touchReady h := h.touchReady
  comboEnabled h := h.store.isComboEnabled
  activeName h := (lawful_veiled.activeRecord h.store).mono fun _ _ hp => hp.name
  profile hs := hs.profile
  touchEnabled hs := hs.touchEnabled
  combosEnabled hs := hs.combosEnabled
  flipTouch hs := { hs with touchEnabled := congrArg not hs.touchEnabled }
  flipCombos hs := { hs with combosEnabled := congrArg not hs.combosEnabled }
  edit hf := go_modify fun _ _ h => { h with live := hf _ _ h.live }
  notify n := go_veiled_notify n
  markDirty hn := by
    subst hn
    exact go_modify fun _ _ h => { h with store := h.store.markDirty _ }
  sync := fair_veiled.go_of_run run_sync run_sync fun _ _ h => ⟨rfl, h.synced, h.syncEvents⟩
  startTouchscreen := fair_veiled.go_of_run run_startTouchscreen run_startTouchscreen
    fun _ _ h => ⟨rfl, h.powered, h.powerEvents⟩
  trackDefaults := go_modify fun _ _ h => h.trackingDefaults
  calibrateTouchscreen := fair_veiled.go_of_run run_calibrateTouchscreen run_calibrateTouchscreen
    fun _ _ h => ⟨rfl, h, h.calibrationEvents⟩
  calibrateStick stick := .get_bind fun c c' h => by
    refine (go_veiled_onAdc (h.sampler.calibrate .same stick _)).bind fun p p' hp => ?_
    obtain ⟨hcentre, hsampler⟩ := hp
    refine (go_modify fun _ _ hc => ?_).bind_eq fun _ => go_modify fun _ _ hc => ?_
    · exact { hc with sampler := hsampler }
    · exact { hc with live := hc.live.withCentre hcentre }
  toggleDebug := fair_veiled.go_of_run run_toggleDebug run_toggleDebug fun c c' h => by
    refine ⟨rfl, ?_, ?_⟩
    · exact { h with live := { h.live with debug := fun hd => congrArg not (h.live.debug hd) } }
    · cases hd : v.debug with
      -- the two may go either way then, each with a line of its own
      | true => simp [Veil.shows, Veil.hidesLine_of_debug hd]
      | false => rw [h.live.debug hd]
  boot hl _ _ hn := go_veiled_onStore (lawful_veiled.init hn hl)
  switch hl id := go_veiled_onStore (lawful_veiled.switchProfile hl id)
  reset hl := (go_veiled_onStore (lawful_veiled.resetCurrent hl)).mono fun _ _ hd => hd.2
  wipe hn := go_veiled_onStore (lawful_veiled.factoryReset hn)

theorem housekeeping_veiled : (veiled v base).Housekeeping where
  toToggling := toggling_veiled
  now h := h.board.now.symm
  touchActive h := h.touchActive
  panel h _ := h.board.panel
  setPanel h _ := { h with board := { h.board with panel := rfl } }
  pollPanel h _ _ hn := by
    subst hn
    rw [h.touchCadence]
    exact ⟨rfl, { h with touchCadence := rfl }⟩
  switches h := h.board.switches
  switchLevels h := h.switchLevels
  setLevels h _ := { h with switchLevels := rfl }
  pollSwitches h _ _ hn := by
    subst hn
    rw [h.switchCadence]
    exact ⟨rfl, { h with switchCadence := rfl }⟩
  tickMatrix hn := by
    subst hn
    refine fair_veiled.go_of_run (run_tickMatrix _) (run_tickMatrix _) fun c c' h => ?_
    rw [h.board.closed, h.matrix]
    exact ⟨rfl, { h with matrix := rfl }, rfl⟩
  sampleSticks hn := .get_bind fun c c' h => by
    subst hn
    refine (go_veiled_onAdc (h.sampler.tick .same _)).bind fun p p' hp => ?_
    obtain ⟨hsampled, hsampler⟩ := hp
    refine (go_modify fun _ _ hc => ?_).bind_eq fun _ => go_pure hsampled.symm
    exact { hc with sampler := hsampler }
  processStick stick := by
    have hrun := run_processStick stick
    refine fair_veiled.go_of_run hrun hrun fun c c' h => ?_
    have hspeaks : ∀ c : Controller, (c.engines.get stick).Speaks (c.processed stick).2 :=
      fun c => (c.engines.get stick).speaks_process _
    have hprocessed : v.hides stick = false → c'.processed stick = c.processed stick := by
      intro hseen
      rw [processed, processed, h.engines stick hseen, h.sampler.samples stick hseen]
    have hkeys := Engine.shown_eq (hspeaks c) (hspeaks c') (h.owns stick) (h.owns' stick)
      fun hseen => congrArg Prod.snd (hprocessed hseen)
    refine ⟨rfl, { h with engines := ?_, owns := ?_, owns' := ?_, report := ?_ }, hkeys⟩
    · exact h.engines.set fun hseen => by rw [hprocessed hseen]
    · exact h.owns.set (hspeaks c).stick
    · exact h.owns'.set (hspeaks c').stick
    · exact h.report.set fun hseen => by rw [hprocessed hseen]
  axes h := fair_veiled.go_of_paired (paired_emit (.cons (.axes h.report) .nil))
  task hl _ _ hn := go_veiled_onStore (lawful_veiled.taskTold hl hn)

theorem go_veiled_tickTold : (veiled v base).Go Eq tickTold tickTold :=
  housekeeping_veiled.tickTold fun now _ hn => by
    subst hn
    exact go_modify fun _ _ h => { h with
      tracker := h.tracker.updateAll TrackedInput.kept_veiled ⟨h.snapshot, rfl⟩ }

end Comparison

end TwinStick
