import TwinStick.Proofs.Agreement
import TwinStick.Proofs.Moves
import TwinStick.Proofs.PowerCycle
import TwinStick.Proofs.Touches

/-! The copies of the settings. Every component keeps those that concern it, the host is
told of two more, and the store knows which profile they belong to. None of them is ever
behind the settings in force when an operation ends. -/

namespace TwinStick

def Event.combos? : Event → Option Bool
  | host (.combos on) => some on
  | _ => none

def Event.defaultLayer? : Event → Option UInt8
  | host (.defaultLayer layer) => some layer
  | _ => none

theorem Event.combos?_eq_none {e : Event} (h : e.topic ≠ .combos) : e.combos? = none := by
  cases e with
  | host e => cases e <;> first | rfl | exact absurd rfl h
  | _ => rfl

theorem Event.defaultLayer?_eq_none {e : Event} (h : e.topic ≠ .defaultLayer) :
    e.defaultLayer? = none := by
  cases e with
  | host e => cases e <;> first | rfl | exact absurd rfl h
  | _ => rfl

def latest (f : Event → Option α) (events : List Event) : Option α :=
  (events.filterMap f).getLast?

section

variable {f : Event → Option α} {topics : List Topic} {past events : List Event}

theorem latest_append_of_within (h : Within topics events)
    (hf : ∀ e, e.topic ∈ topics → f e = none) : latest f (past ++ events) = latest f past := by
  rw [latest, List.filterMap_append, h.filterMap_eq_nil hf, List.append_nil, latest]

theorem latest_append {a : α} (h : latest f events = some a) :
    latest f (past ++ events) = some a := by
  rw [latest] at h
  rw [latest, List.filterMap_append, List.getLast?_append, h]
  rfl

end

namespace Sampler

/-- Everything but the samples and the time of the last one is the same. -/
structure SameSetup (s t : Sampler) : Prop where
  config : t.config = s.config
  period : t.cadence.period = s.cadence.period
  centres : t.centres = s.centres
  deadzones : t.deadzones = s.deadzones

theorem SameSetup.trans {s t u : Sampler} (h : SameSetup s t) (h' : SameSetup t u) :
    SameSetup s u :=
  ⟨h'.config.trans h.config, h'.period.trans h.period, h'.centres.trans h.centres,
    h'.deadzones.trans h.deadzones⟩

theorem sameSetup_sample {s : Sampler} {stick : Stick} {now : UInt32} {adc : Adc}
    {d : Outcome Adc Sampler} (hd : (s.sample stick now).run adc = .ok d) :
    SameSetup s d.value := by
  obtain ⟨⟨sample, hvalue⟩, -⟩ := truthful_sample hd
  rw [hvalue]
  exact ⟨rfl, rfl, rfl, rfl⟩

theorem sameSetup_tick {s : Sampler} {now : UInt32} {adc : Adc}
    {d : Outcome Adc (Bool × Sampler)} (hd : (s.tick now).run adc = .ok d) :
    SameSetup s d.value.2 := by
  cases hdue : s.cadence.due now with
  | false =>
    obtain rfl := Except.ok.inj ((Controller.run_sampler_idle hdue adc).symm.trans hd)
    exact ⟨rfl, rfl, rfl, rfl⟩
  | true =>
    obtain ⟨e, o, he, ho, hvalue⟩ := samples_of_due_tick hdue hd
    have hpoll : SameSetup s { s with cadence := { s.cadence with last := some now } } :=
      ⟨rfl, rfl, rfl, rfl⟩
    rw [hvalue]
    exact (hpoll.trans (sameSetup_sample he)).trans (sameSetup_sample ho)

theorem value_of_calibrate {s : Sampler} {stick : Stick} {count : UInt16} {adc : Adc}
    {d : Outcome Adc (Pair UInt16 × Sampler)} (hd : (s.calibrate stick count).run adc = .ok d) :
    SameSetup (s.withCentre stick d.value.1) d.value.2 := by
  obtain ⟨e, e', -, he', rfl⟩ := Routine.run_bind_eq_ok.mp hd
  obtain rfl := Except.ok.inj he'
  exact ⟨rfl, rfl, rfl, rfl⟩

end Sampler

namespace Store

section

variable {s : Store} {live : DeviceSettings}

theorem coherent_of_performs (h : s.records.Coherent live) {active : Fin maxProfiles}
    {r : Routine Store (DeviceSettings × Option Bool)} {attempt : Option Attempt}
    (hp : Performs r s live attempt) (hs : ∀ a, attempt = some a → a.Shape s.records active live)
    {d : Outcome Store (DeviceSettings × Option Bool)} (hd : r.run s = .ok d) :
    d.state.records.Coherent d.value.1 := by
  rcases hp.result hd with ⟨-, hrecords, hlive⟩ | ⟨a, ha, hrecords, hlive⟩
  · rw [hrecords, hlive]
    exact h
  · rw [hrecords, hlive]
    exact h.attempted (hs a ha)

theorem coherent_switchProfile (h : s.records.Coherent live) {id : UInt8}
    {d : Outcome Store (Bool × DeviceSettings)} (hd : (switchProfile id live).run s = .ok d) :
    d.state.records.Coherent d.value.2 := by
  cases ht : s.target id with
  | none =>
    rw [run_switchProfile_of_none ht] at hd
    obtain rfl := Except.ok.inj hd
    exact h
  | some slot =>
    rw [run_switchProfile_of_some ht] at hd
    obtain ⟨e, e', he, he', rfl⟩ := Routine.run_bind_eq_ok.mp hd
    have haimed : e.state.records.Aimed := (aims_flush h.aimed).post e he
    obtain ⟨hvalue, hrecords⟩ := entered_of_run_enter he'
    dsimp only
    rw [hvalue, hrecords]
    exact haimed.coherent_switched (slot_of_target ht) rfl

theorem coherent_call (h : s.records.Coherent live) {call : StoreCall}
    (hc : call.Saves ∨ call.Loads) {d : Outcome Store (DeviceSettings × Option Bool)}
    (hd : (call.perform live).run s = .ok d) : d.state.records.Coherent d.value.1 := by
  obtain ⟨active, hslot⟩ := h.aimed.exists_activeSlot
  have hsingle : ∀ {call : StoreCall}, (call.perform live).run s = .ok d → call.Single →
      d.state.records.Coherent d.value.1 := fun hd hc =>
    coherent_of_performs h (performs_call hslot hc) (fun a ha => StoreCall.shape_of_attempt ha) hd
  cases call with
  | markDirty now =>
    obtain rfl := Except.ok.inj hd
    exact h
  | switchProfile id =>
    obtain ⟨e, e', he, he', rfl⟩ := Routine.run_bind_eq_ok.mp hd
    obtain rfl := Except.ok.inj he'
    exact coherent_switchProfile h he
  | save now | task now | resetCurrent | factoryReset now | emergencyReset now =>
    exact hsingle hd trivial
  | _ => exact (hc.elim id id).elim

theorem live_of_saves {call : StoreCall} (hc : call.Saves)
    {d : Outcome Store (DeviceSettings × Option Bool)} (hd : (call.perform live).run s = .ok d) :
    d.value.1 = live := by
  cases call with
  | save now | task now | markDirty now =>
    obtain ⟨e, e', -, he', rfl⟩ := Routine.run_bind_eq_ok.mp hd
    obtain rfl := Except.ok.inj he'
    rfl
  | _ => exact hc.elim

theorem coherent_init {now : UInt32} {d : Outcome Store DeviceSettings}
    (hd : (init live now).run s = .ok d) : d.state.records.Coherent d.value := by
  rw [init_eq] at hd
  obtain ⟨e, e', he, he', rfl⟩ := Routine.run_bind_eq_ok.mp hd
  have haimed : e.state.records.Aimed := (aims_takeOver now).post e he
  obtain ⟨active, hslot⟩ := haimed.exists_activeSlot
  rw [run_putInForce hslot] at he'
  obtain rfl := Except.ok.inj he'
  exact Records.coherent_booted haimed active live

end

end Store

namespace Controller

open Routine

/-- What the components keep of the settings of a stick. -/
def kept (c : Controller) (stick : Stick) : StickSettings where
  mode := (c.engines.get stick).mode
  centre := c.sampler.centres.get stick
  deadzone := c.sampler.deadzones.get stick
  sensitivity := (c.engines.get stick).sensitivity
  invert := (c.engines.get stick).invert

/-- Every copy is that of the settings in force. -/
structure Copied (c : Controller) (past : List Event) : Prop where
  scanner : c.matrix.config.debounce = c.live.debounceMs.toUInt32
  tracker : c.tracker.debounce = c.live.debounceMs.toUInt32
  sampler : c.sampler.config.interval = c.live.stickPollMs.toUInt32
  sampling : c.sampler.cadence.period = c.live.stickPollMs.toUInt32
  panel : c.touchCadence.period = c.live.touchPollMs.toUInt32
  sticks : ∀ stick, c.kept stick = c.live.sticks.get stick
  combos : latest Event.combos? past = some c.live.combosEnabled
  layer : latest Event.defaultLayer? past = some c.live.defaultLayer

theorem copied_synced (c : Controller) (past : List Event) :
    Copied c.synced (past ++ c.syncEvents) := by
  refine ⟨rfl, rfl, rfl, rfl, rfl, fun stick => ?_, ?_, ?_⟩
  · cases stick <;> simp [kept, synced, applied, Engine.applySettings, Engine.setMode_fst,
      PerStick.get, PerStick.map]
  · rw [syncEvents, List.map_append, ← List.append_assoc]
    exact latest_append rfl
  · rw [syncEvents, List.map_append, ← List.append_assoc]
    exact latest_append rfl

theorem debounce_track (t : Tracker) (kind : InputKind) (id : UInt8) :
    (t.track kind id).2.debounce = t.debounce := by
  rw [Tracker.track]
  split <;> rfl

theorem debounce_trackAll (t : Tracker) (inputs : List (InputKind × UInt8)) :
    (inputs.foldl (fun t (kind, id) => (t.track kind id).2) t).debounce = t.debounce :=
  List.foldlRecOn (motive := fun u : Tracker => u.debounce = t.debounce) inputs _ rfl
    fun u hu (kind, id) _ => (debounce_track u kind id).trans hu

theorem Copied.trackingDefaults {c : Controller} {past : List Event} (h : Copied c past) :
    Copied c.trackingDefaults past := by
  refine ⟨h.scanner, ?_, h.sampler, h.sampling, h.panel, fun stick => ?_, h.combos, h.layer⟩
  · exact (debounce_trackAll c.tracker.clear defaultInputs).trans h.tracker
  · rw [kept, Controller.trackingDefaults]
    exact h.sticks stick

theorem config_scan (m : KeyMatrix) (closed : Nat → Nat → Bool) (now : UInt32) :
    (m.scan closed now).2.config = m.config := by
  rw [Scanner.scan]
  dsimp only
  split <;> rfl

theorem period_poll (g : Cadence) (now : UInt32) : (g.poll now).2.period = g.period := by
  rw [Cadence.poll]
  split <;> rfl

theorem Copied.extend {c : Controller} {past events : List Event} {topics : List Topic}
    (h : Copied c past) (hw : Within topics events) (hc : Topic.combos ∉ topics)
    (hl : Topic.defaultLayer ∉ topics) : Copied c (past ++ events) := by
  refine { h with combos := ?_, layer := ?_ }
  · rw [latest_append_of_within hw fun e he => Event.combos?_eq_none (ne_of_mem_of_not_mem he hc)]
    exact h.combos
  · rw [latest_append_of_within hw fun e he =>
      Event.defaultLayer?_eq_none (ne_of_mem_of_not_mem he hl)]
    exact h.layer

theorem Copied.modeToggled {c : Controller} {past : List Event} (h : Copied c past)
    (stick : Stick) : Copied (c.modeToggled stick) past := by
  refine ⟨h.scanner, h.tracker, h.sampler, h.sampling, h.panel, fun other => ?_, h.combos,
    h.layer⟩
  have hother := h.sticks other
  by_cases hs : stick = other
  · subst hs
    simp only [kept, Controller.modeToggled, DeviceSettings.withMode, Engine.toggleMode,
      Engine.setMode_fst, PerStick.get_set_self, ← hother]
  · simp only [kept, Controller.modeToggled, DeviceSettings.withMode, PerStick.get_set_of_ne _ hs]
    exact hother

theorem Copied.centred {c : Controller} {past : List Event} (h : Copied c past) {stick : Stick}
    {d : Outcome Adc (Pair UInt16 × Sampler)}
    (hd : (c.sampler.calibrate stick calibrationSamples).run c.board.adc = .ok d) :
    Copied (c.centred stick d) past := by
  have hset := Sampler.value_of_calibrate hd
  refine ⟨h.scanner, h.tracker, ?_, ?_, h.panel, fun other => ?_, h.combos, h.layer⟩
  · exact (congrArg SamplerConfig.interval hset.config).trans h.sampler
  · exact hset.period.trans h.sampling
  · have hother := h.sticks other
    simp only [kept, Controller.centred, withSampler, hset.centres, hset.deadzones,
      Sampler.withCentre, DeviceSettings.withCentre]
    by_cases hs : stick = other
    · subst hs
      simp only [PerStick.get_set_self, ← hother, kept]
    · simp only [PerStick.get_set_of_ne _ hs, ← hother, kept]

theorem Copied.sampled {c : Controller} {past : List Event} (h : Copied c past) {now : UInt32}
    {d : Outcome Adc (Bool × Sampler)} (hd : (c.sampler.tick now).run c.board.adc = .ok d) :
    Copied (c.withSampler d.state d.value.2).reported past := by
  have hset := Sampler.sameSetup_tick hd
  refine ⟨h.scanner, h.tracker, ?_, ?_, h.panel, fun stick => ?_, h.combos, h.layer⟩
  · exact (congrArg SamplerConfig.interval hset.config).trans h.sampler
  · exact hset.period.trans h.sampling
  · have hstick := h.sticks stick
    cases stick <;>
      simpa only [kept, reported, processed, withSampler, Engine.process_engine, hset.centres,
        hset.deadzones, PerStick.get] using hstick

/-- Every move keeps the copies up to date, unless somebody edits the tracker. -/
theorem Move.copied {kind : MoveKind} {c d : Controller} {past events : List Event}
    (hk : kind ≠ .trackerEdited) (h : Copied c past) (hm : Move kind c events d) :
    Copied d (past ++ events) := by
  have hw := hm.within
  cases hm with
  | trackerEdited hd => exact absurd rfl hk
  -- whoever puts other settings in force pushes all of them down afterwards
  | loaded hc hd hdone =>
    rw [← List.append_assoc]
    exact copied_synced _ _
  | booted hd =>
    rw [← List.append_assoc, ← List.append_assoc]
    exact (copied_synced _ _).trackingDefaults
  | edited c edit => exact copied_synced _ _
  | combosToggled c =>
    have hlayer : latest Event.defaultLayer? (past ++ _) = _ := latest_append_of_within hw
      fun e he => Event.defaultLayer?_eq_none (ne_of_mem_of_not_mem he (by decide))
    exact ⟨h.scanner, h.tracker, h.sampler, h.sampling, h.panel, h.sticks, latest_append rfl,
      hlayer.trans h.layer⟩
  | modeToggled c stick => exact (h.extend hw (by decide) (by decide)).modeToggled stick
  | centred hd => exact (h.extend hw (by decide) (by decide)).centred hd
  | sampled hdue hd => exact (h.extend hw (by decide) (by decide)).sampled hd
  | line c n | layer c n | panelCalibrated c => exact h.extend hw (by decide) (by decide)
  | saved hc hd | storeCalled hd | debugToggled c | switchesPolled c now
  | switchRead c stick =>
    have h := h.extend hw (by decide) (by decide)
    exact ⟨h.scanner, h.tracker, h.sampler, h.sampling, h.panel, h.sticks, h.combos, h.layer⟩
  | scanned c now =>
    have h := h.extend hw (by decide) (by decide)
    refine ⟨?_, h.tracker, h.sampler, h.sampling, h.panel, h.sticks, h.combos, h.layer⟩
    rw [config_scan]
    exact h.scanner
  | tracked c now =>
    have h := h.extend hw (by decide) (by decide)
    refine ⟨h.scanner, ?_, h.sampler, h.sampling, h.panel, h.sticks, h.combos, h.layer⟩
    rw [Tracker.updateAll_eq]
    exact h.tracker
  | touchToggled c =>
    have h := h.extend hw (by decide) (by decide)
    rw [touchToggled_fst]
    exact ⟨h.scanner, h.tracker, h.sampler, h.sampling, h.panel, h.sticks, h.combos, h.layer⟩
  | panelTicked c now =>
    have h := h.extend hw (by decide) (by decide)
    rw [panelTicked_fst]
    refine ⟨h.scanner, h.tracker, h.sampler, h.sampling, ?_, h.sticks, h.combos, h.layer⟩
    dsimp only
    split
    · exact (period_poll _ _).trans h.panel
    · exact h.panel

/-- Every move keeps the store and the settings in force at the same profile, unless they
are edited or the store is called behind the controller's back. -/
theorem Move.coherent {kind : MoveKind} {c d : Controller} {events : List Event}
    (he : kind ≠ .edited) (hs : kind ≠ .storeCalled) (h : c.store.records.Coherent c.live)
    (hm : Move kind c events d) : d.store.records.Coherent d.live := by
  cases hm with
  | edited c edit => exact absurd rfl he
  | storeCalled hd => exact absurd rfl hs
  | saved hc hd =>
    have hafter := Store.coherent_call h (.inl hc) hd
    rw [Store.live_of_saves hc hd] at hafter
    exact hafter
  | loaded hc hd hdone => exact Store.coherent_call h (.inr hc) hd
  | booted hd =>
    rw [woken_eq]
    exact Store.coherent_init hd
  | modeToggled c stick | combosToggled c | debugToggled c => exact ⟨h.aimed, h.quick, h.live⟩
  | centred hd => exact ⟨h.aimed, h.quick, h.live⟩
  | touchToggled c =>
    rw [touchToggled_fst]
    exact ⟨h.aimed, h.quick, h.live⟩
  | panelTicked c now =>
    rw [panelTicked_fst]
    exact h
  | line | layer | panelCalibrated | scanned | sampled | tracked | switchesPolled | switchRead
  | trackerEdited => exact h

/-- Every copy is that of the settings in force, and these are settings of the profile
that the store takes for the active one. -/
structure InStep (c : Controller) (past : List Event) : Prop extends Copied c past where
  coherent : c.store.records.Coherent c.live

theorem InStep.moves {c d : Controller} {past events : List Event} (h : InStep c past)
    {kinds : List MoveKind} (hm : Moves kinds c events d)
    (hkinds : ∀ kind ∈ kinds, kind ≠ .trackerEdited ∧ kind ≠ .edited ∧ kind ≠ .storeCalled) :
    InStep d (past ++ events) := by
  refine Moves.invariant (P := InStep) (fun hk hc hm => ?_) hm h
  obtain ⟨htracker, hedited, hstore⟩ := hkinds _ hk
  exact ⟨hm.copied htracker hc.toCopied, hm.coherent hedited hstore hc.coherent⟩

theorem InStep.updateSettings {c : Controller} {past : List Event} (h : InStep c past)
    {edit : DeviceSettings → DeviceSettings} (he : (edit c.live).profile = c.live.profile) :
    InStep { { c with live := edit c.live }.synced with store := c.store.markDirty c.board.now }
      (past ++ { c with live := edit c.live }.syncEvents) := by
  have hcopied := copied_synced { c with live := edit c.live } past
  exact ⟨⟨hcopied.scanner, hcopied.tracker, hcopied.sampler, hcopied.sampling, hcopied.panel,
    hcopied.sticks, hcopied.combos, hcopied.layer⟩,
    h.coherent.aimed, h.coherent.quick, he.trans h.coherent.live⟩

theorem InStep.call {c : Controller} {past : List Event} (h : InStep c past)
    {call : ControllerCall} (hc : c.Admits call) {d : Outcome Controller Reply}
    (hd : call.perform.run c = .ok d) : InStep d.state (past ++ d.events) := by
  have hmoves := goes_call c call d hd
  cases call with
  | init | store call | tracker edit => exact hc.elim
  | updateSettings edit =>
    obtain ⟨e, e', he, he', rfl⟩ := run_bind_eq_ok.mp hd
    obtain rfl := Except.ok.inj he'
    obtain rfl := Except.ok.inj ((run_updateSettings edit c).symm.trans he)
    rw [List.append_nil]
    exact h.updateSettings hc
  | combo index pressed =>
    exact h.moves (hmoves.mono (ControllerCall.kinds_combo index pressed)) (by decide)
  | key code pressed =>
    exact h.moves (hmoves.mono (ControllerCall.kinds_key code pressed)) (by decide)
  | _ => exact h.moves hmoves (by rw [ControllerCall.kinds]; decide)

theorem inStep_init {c : Controller} {d : Outcome Controller Unit} (hd : init.run c = .ok d) :
    InStep d.state d.events := by
  rw [run_init] at hd
  obtain ⟨o, ho, rfl⟩ := exists_of_map_eq_ok hd
  refine ⟨?_, ?_⟩
  · rw [← List.append_assoc]
    exact (copied_synced _ _).trackingDefaults
  · rw [woken_eq]
    exact Store.coherent_init ho

/-- From boot on, whatever flash holds and whichever accesses it refuses, no operation
leaves a copy behind the settings in force. -/
theorem Session.in_step {board : Board} {flash : Flash} {base : UInt32}
    {d : Outcome Controller Unit} (hd : init.run (ofBoard board flash base) = .ok d)
    {c : Controller} {past : List Event}
    (h : Session Admits (fun _ => True) d.state d.events c past) :
    Copied c past ∧ c.live.profile = c.store.active := by
  have hstep : InStep c past := by
    refine h.invariant (inStep_init hd) (fun flash _ hc => ?_) fun hadmits hc hd =>
      hc.call hadmits hd
    exact ⟨⟨hc.scanner, hc.tracker, hc.sampler, hc.sampling, hc.panel, hc.sticks, hc.combos,
      hc.layer⟩, hc.coherent⟩
  exact ⟨hstep.toCopied, hstep.coherent.live⟩

/-- A device comes up on flash of which every other write fails, is switched to its third
profile, and is told to debounce longer. -/
def unreliable : Except Fault (Outcome Controller Unit × List (Outcome Controller Reply)) := do
  let flash : Flash :=
    { Flash.erased regionLength with writes := { allows := fun n => n % 2 == 0 } }
  let d ← init.run (ofBoard {} flash 0)
  let e ← (ControllerCall.switchProfile 2).perform.run d.state
  let f ← (ControllerCall.updateSettings ({ · with debounceMs := 20 })).perform.run e.state
  return (d, [e, f])

set_option maxRecDepth 100000 in
theorem in_step_unreliable :
    ∃ d e f, unreliable = .ok (d, [e, f]) ∧ Copied f.state (d.events ++ e.events ++ f.events) ∧
      f.state.live.profile = f.state.store.active ∧
      (f.state.live.profile, f.state.matrix.config.debounce, f.state.store.dirty) =
        (2, 20, true) := by
  have hrun : unreliable.toOption.bind (fun (_, calls) => calls.getLast?.map fun f =>
      (f.state.live.profile, f.state.matrix.config.debounce, f.state.store.dirty)) =
        some (2, 20, true) := by
    decide +kernel
  obtain ⟨⟨d, calls⟩, hcalls, hlast⟩ := Option.bind_eq_some_iff.mp hrun
  have hsession := eq_ok_of_toOption hcalls
  obtain ⟨d, hd, h⟩ := exists_of_bind_eq_ok hsession
  obtain ⟨e, he, h⟩ := exists_of_bind_eq_ok h
  obtain ⟨f, hf, h⟩ := exists_of_bind_eq_ok h
  obtain ⟨rfl, rfl⟩ := Prod.mk.inj (Except.ok.inj h)
  have hswitched : Session Admits (fun _ => True) d.state d.events e.state _ :=
    Session.start.call trivial he
  have hadmits : e.state.Admits (.updateSettings ({ · with debounceMs := 20 })) := rfl
  obtain ⟨hcopied, hprofile⟩ := Session.in_step hd (hswitched.call hadmits hf)
  exact ⟨d, e, f, hsession, hcopied, hprofile, Option.some.inj hlast⟩

end Controller

end TwinStick
