import TwinStick.Proofs.LaterStore
import TwinStick.Proofs.SideBySide

/-! The controller under a clock that is ahead. It hands every reading of the clock on to its
parts, so it does the same with them as long as they do the same. -/

namespace TwinStick

open Routine

variable {k base : UInt32} {old : UInt32 → Prop}

/-- The same world at a time that is ahead. -/
def Board.later (b : Board) (k : UInt32) : Board := { b with now := b.now + k }

theorem Board.later_sub (b : Board) (j k : UInt32) : (b.later j).later (k - j) = b.later k := by
  rw [later, later, later, add_assoc, add_sub_cancel]

namespace Controller

/-- A device with its records at a base, and how it is under a clock that is ahead. -/
structure Later (k base : UInt32) (old : UInt32 → Prop) (c c' : Controller) : Prop where
  board : c'.board = c.board.later k
  store : c.store.Later k base old c'.store
  live : c'.live = c.live
  matrix : c.matrix.Later k c'.matrix
  sampler : c.sampler.Later k c'.sampler
  tracker : c.tracker.Later k c'.tracker
  engines : c'.engines = c.engines
  report : c'.report = c.report
  switchCadence : c'.switchCadence = c.switchCadence.later k
  switchLevels : c'.switchLevels = c.switchLevels
  touchCadence : c'.touchCadence = c.touchCadence.later k
  touchReady : c'.touchReady = c.touchReady

section

variable {c c' : Controller}

theorem Later.now (h : c.Later k base old c') : c'.board.now = c.board.now + k := by
  rw [h.board, Board.later]

theorem Later.panel (h : c.Later k base old c') : c'.board.panel = c.board.panel := by
  rw [h.board, Board.later]

theorem Later.closed (h : c.Later k base old c') : c'.board.closed = c.board.closed := by
  rw [h.board, Board.later]

theorem Later.switches (h : c.Later k base old c') : c'.board.switches = c.board.switches := by
  rw [h.board, Board.later]

theorem Later.adc (h : c.Later k base old c') : c'.board.adc = c.board.adc := by
  rw [h.board, Board.later]

theorem Later.touchActive (h : c.Later k base old c') : c'.touchActive = c.touchActive := by
  rw [Controller.touchActive, Controller.touchActive, h.live, h.touchReady]

theorem Later.noticed (h : c.Later k base old c') (n : Notice) : c'.noticed n = c.noticed n := by
  rw [Controller.noticed, Controller.noticed, h.live]

theorem Later.applied (h : c.Later k base old c') : c'.applied = c.applied := by
  funext stick
  rw [Controller.applied, Controller.applied, h.engines, h.live]

theorem Later.snapshot (h : c.Later k base old c') : c.snapshot.Agrees c'.snapshot := by
  have htouching : c'.snapshot.touching = c.snapshot.touching := by
    rw [Controller.snapshot, Controller.snapshot, h.touchReady, h.panel]
  exact InputSnapshot.agrees_of_later h.matrix h.sampler htouching

theorem Later.setAdc (h : c.Later k base old c') (adc : Adc) :
    Later k base old { c with board := { c.board with adc } }
      { c' with board := { c'.board with adc } } :=
  { h with board := by rw [h.board, Board.later, Board.later] }

theorem Later.setPanel (h : c.Later k base old c') (panel : Panel) :
    Later k base old { c with board := { c.board with panel } }
      { c' with board := { c'.board with panel } } :=
  { h with board := by rw [h.board, Board.later, Board.later] }

theorem Later.synced (h : c.Later k base old c') : Later k base old c.synced c'.synced := by
  have hconfig : { c'.matrix.config with debounce := c'.live.debounceMs.toUInt32 } =
      { c.matrix.config with debounce := c.live.debounceMs.toUInt32 } := by
    rw [h.matrix.config, h.live]
  have hsampling : { c'.sampler.config with interval := c'.live.stickPollMs.toUInt32 } =
      { c.sampler.config with interval := c.live.stickPollMs.toUInt32 } := by
    rw [h.sampler.config, h.live]
  rw [Controller.synced, Controller.synced]
  dsimp only
  rw [hconfig, hsampling, h.applied, h.live, h.touchCadence]
  have hsampler := h.sampler.withConfig
    { c.sampler.config with interval := c.live.stickPollMs.toUInt32 }
  exact { h with
    live := rfl
    matrix := h.matrix.withConfig _
    sampler := ⟨rfl, rfl, hsampler.config, hsampler.cadence, hsampler.samples⟩
    tracker := h.tracker.withConfig _
    engines := rfl
    touchCadence := rfl }

theorem Later.powered (h : c.Later k base old c') : Later k base old c.powered c'.powered :=
  { h with touchReady := by rw [Controller.powered, Controller.powered, h.panel] }

theorem Later.trackingDefaults (h : c.Later k base old c') :
    Later k base old c.trackingDefaults c'.trackingDefaults := by
  rw [Controller.trackingDefaults, Controller.trackingDefaults]
  -- the list is kept from being evaluated
  generalize defaultInputs = inputs
  have hclear := h.tracker.clear TrackedInput.kept_later
  exact { h with tracker := hclear.trackAll TrackedInput.kept_later inputs }

end

end Controller

namespace Comparison

/-- Devices are compared across clocks. -/
abbrev later (k base : UInt32) (old : UInt32 → Prop) : Comparison where
  events := Event.Later k old
  devices := Controller.Later k base old
  times now now' := now' = now + k

open Controller
open StoreComparison (lawful_later)

theorem fair_later : (later k base old).Fair where
  same := .same
  seen _ _ _ := Iff.rfl

theorem go_later_of_run {r r' : Routine Controller α} {g g' : Controller → Outcome Controller α}
    (hrun : ∀ c, r.run c = .ok (g c)) (hrun' : ∀ c, r'.run c = .ok (g' c))
    (h : ∀ c c', c.Later k base old c' → (g c).value = (g' c').value ∧
      (g c).state.Later k base old (g' c').state ∧ (g' c').events = (g c).events) :
    (later k base old).Go Eq r r' :=
  fair_later.go_of_run hrun hrun' fun c c' hc => by
    obtain ⟨hvalue, hstate, hevents⟩ := h c c' hc
    exact ⟨hvalue, hstate, congrArg _ hevents⟩

theorem go_later_onStore {V : α → β → Prop} {r : Routine Store α} {r' : Routine Store β}
    (h : (StoreComparison.later k base old).Go V r r') :
    (later k base old).Go V (onStore r) (onStore r') :=
  fair_later.go_of_paired <| paired_onPart h (fun _ _ hc => hc.store) fun _ _ _ _ hc hs =>
    { hc with store := hs }

theorem go_later_onAdc {V : α → β → Prop} {r : Routine Adc α} {r' : Routine Adc β}
    (h : Paired (Event.Later k old) Eq V r r') :
    (later k base old).Go V (onAdc r) (onAdc r') := by
  refine fair_later.go_of_paired (paired_onPart h (fun _ _ hc => hc.adc.symm) ?_)
  intro _ _ _ _ hc ha
  subst ha
  exact hc.setAdc _

theorem toggling_later : (later k base old).Toggling where
  toFair := fair_later
  live hc := hc.live.symm
  mode hc stick := by rw [hc.engines]
  toggleMode stick :=
    go_later_of_run (run_onEngine stick _) (run_onEngine stick _) fun c c' hc => by
    rw [hc.engines]
    exact ⟨rfl, { hc with engines := rfl }, rfl⟩
  setMode hm := go_modify fun _ _ hc => { hc with live := by rw [hm, hc.live] }
  modeLine hm := by
    rw [hm]
    exact go_later_of_run (run_notify _) (run_notify _) fun _ _ hc => ⟨rfl, hc, hc.noticed _⟩
  save hl _ _ hn := go_later_onStore (lawful_later.saveCurrent hl hn)

theorem commands_later : (later k base old).Commands where
  toToggling := toggling_later
  now hc := hc.now
  touchReady hc := hc.touchReady
  comboEnabled hc := hc.store.isComboEnabled
  activeName hc := .of_eq (P := fun p p' => p'.name = p.name) (fun _ => rfl) hc.store.activeRecord
  profile hs := congrArg _ hs.symm
  touchEnabled hs := congrArg _ hs.symm
  combosEnabled hs := congrArg _ hs.symm
  flipTouch hs := by rw [hs]
  flipCombos hs := by rw [hs]
  edit hf := go_modify fun c c' hc => { hc with live := (hf _ _ hc.live.symm).symm }
  notify n := go_later_of_run (run_notify n) (run_notify n) fun _ _ hc => ⟨rfl, hc, hc.noticed n⟩
  markDirty hn := by
    rw [hn]
    exact go_modify fun _ _ hc => { hc with store := hc.store.markDirty _ }
  sync := go_later_of_run run_sync run_sync fun c c' hc => ⟨rfl, hc.synced, by
    rw [syncEvents, syncEvents, syncKeys, syncKeys, hc.applied, hc.live]⟩
  startTouchscreen :=
    go_later_of_run run_startTouchscreen run_startTouchscreen fun c c' hc => ⟨rfl, hc.powered, by
      rw [powerEvents, powerEvents, hc.panel, hc.noticed]⟩
  trackDefaults := go_modify fun _ _ hc => hc.trackingDefaults
  calibrateTouchscreen :=
    go_later_of_run run_calibrateTouchscreen run_calibrateTouchscreen fun c c' hc => ⟨rfl, hc, by
      rw [calibrationEvents, calibrationEvents, hc.touchActive, hc.panel, hc.noticed]⟩
  calibrateStick stick := .get_bind fun c c' hc => by
    refine (go_later_onAdc (hc.sampler.calibrate .same stick _)).bind ?_
    rintro ⟨centre, sampler⟩ ⟨_, sampler'⟩ ⟨rfl, hsampler⟩
    refine (go_modify fun _ _ hd => ?_).bind_eq fun _ => go_modify fun _ _ hd => ?_
    · exact { hd with sampler := hsampler }
    · exact { hd with live := by rw [hd.live] }
  toggleDebug := go_later_of_run run_toggleDebug run_toggleDebug fun c c' hc => by
    rw [debugFlipped, debugFlipped, hc.live]
    exact ⟨rfl, { hc with live := rfl }, rfl⟩
  boot hl _ _ hn := go_later_onStore (lawful_later.init hn hl)
  switch hl id := go_later_onStore (lawful_later.switchProfile hl id)
  reset hl := (go_later_onStore (lawful_later.resetCurrent hl)).mono fun _ _ hd => hd.2
  wipe hn := go_later_onStore (lawful_later.factoryReset hn)

theorem housekeeping_later : (later k base old).Housekeeping where
  toToggling := toggling_later
  now hc := hc.now
  touchActive hc := hc.touchActive
  panel hc _ := hc.panel
  setPanel hc panel := hc.setPanel panel
  pollPanel hc _ _ hn := by
    rw [hn, hc.touchCadence, Cadence.poll_later]
    exact ⟨rfl, { hc with touchCadence := rfl }⟩
  switches hc := hc.switches
  switchLevels hc := hc.switchLevels
  setLevels hc _ := { hc with switchLevels := rfl }
  pollSwitches hc _ _ hn := by
    rw [hn, hc.switchCadence, Cadence.poll_later]
    exact ⟨rfl, { hc with switchCadence := rfl }⟩
  tickMatrix hn := by
    rw [hn]
    refine go_later_of_run (run_tickMatrix _) (run_tickMatrix _) fun c c' hc => ?_
    rw [hc.closed]
    obtain ⟨hscanned, hmatrix⟩ := hc.matrix.scan c.board.closed _
    exact ⟨hscanned.symm, { hc with matrix := hmatrix }, rfl⟩
  sampleSticks hn := .get_bind fun c c' hc => by
    rw [hn]
    refine (go_later_onAdc (hc.sampler.tick .same _)).bind ?_
    rintro ⟨sampled, sampler⟩ ⟨_, sampler'⟩ ⟨rfl, hsampler⟩
    refine (go_modify fun _ _ hd => ?_).bind_eq fun _ => go_pure rfl
    exact { hd with sampler := hsampler }
  processStick stick := by
    have hrun := run_processStick stick
    refine go_later_of_run hrun hrun fun c c' hc => ?_
    have hprocessed : c'.processed stick = c.processed stick := by
      rw [processed, processed, hc.engines, (hc.sampler.samples stick).eq]
      rfl
    rw [hprocessed, hc.engines, hc.report]
    exact ⟨rfl, { hc with engines := rfl, report := rfl }, rfl⟩
  axes hc := by
    rw [hc.report]
    exact fair_later.go_emit _
  task hl _ _ hn := go_later_onStore (lawful_later.taskTold hl hn)

theorem go_later_tickTold : (later k base old).Go Eq tickTold tickTold :=
  housekeeping_later.tickTold fun now _ hn => by
    rw [hn]
    exact go_modify fun _ _ hc => { hc with
      tracker := hc.tracker.updateAll TrackedInput.kept_later ⟨hc.snapshot, rfl⟩ }

end Comparison

end TwinStick
