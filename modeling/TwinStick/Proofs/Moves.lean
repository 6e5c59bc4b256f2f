import TwinStick.Proofs.Effects

/-! What the controller can do, said once. Every operation is a sequence of a few kinds
of moves; an invariant of the device is one that every move keeps. -/

namespace TwinStick

/-- The calls that carry the settings in force to flash. -/
def StoreCall.Saves : StoreCall → Prop
  | save _ | markDirty _ | task _ => True
  | _ => False

/-- The calls that come with other settings. -/
def StoreCall.Loads : StoreCall → Prop
  | switchProfile _ | resetCurrent | factoryReset _ | emergencyReset _ => True
  | _ => False

inductive MoveKind where
  | line
  | layer
  | saved
  | loaded
  | booted
  | edited
  | modeToggled
  | touchToggled
  | combosToggled
  | debugToggled
  | centred
  | panelCalibrated
  | scanned
  | sampled
  | tracked
  | switchesPolled
  | switchRead
  | panelTicked
  /-- A call on the store behind the controller's back. -/
  | storeCalled
  | trackerEdited
deriving DecidableEq

/-- What the world may see of a move. -/
def MoveKind.topics : MoveKind → List Topic
  | line | debugToggled => [.line]
  | layer => [.layer]
  | saved | storeCalled => [.flash]
  | loaded => [.flash, .key, .combos, .defaultLayer]
  | booted => [.flash, .panelPower, .line, .key, .combos, .defaultLayer]
  | edited => [.key, .combos, .defaultLayer]
  | modeToggled => [.key]
  | touchToggled => [.panelPower, .line]
  | combosToggled => [.combos]
  | centred => [.converter]
  | panelCalibrated => [.panelCalibration, .line]
  | sampled => [.converter, .key, .axes]
  | panelTicked => [.panelService]
  | scanned | tracked | switchesPolled | switchRead | trackerEdited => []

namespace Controller

open Routine

/-- One move: the state before, what the world sees of it, and the state after. -/
inductive Move : MoveKind → Controller → List Event → Controller → Prop
  | line (c : Controller) (n : Notice) : Move .line c (c.noticed n) c
  | layer (c : Controller) (n : UInt8) : Move .layer c [.host (.layer n)] c
  | saved {c : Controller} {call : StoreCall} (hc : call.Saves)
      {d : Outcome Store (DeviceSettings × Option Bool)}
      (hd : (call.perform c.live).run c.store = .ok d) :
      Move .saved c d.events { c with store := d.state }
  | loaded {c : Controller} {call : StoreCall} (hc : call.Loads)
      {d : Outcome Store (DeviceSettings × Option Bool)}
      (hd : (call.perform c.live).run c.store = .ok d)
      (hdone : ∀ id, call = .switchProfile id → d.value.2 = some true) :
      Move .loaded c (d.events ++ (c.installed d d.value.1).syncEvents)
        (c.installed d d.value.1).synced
  | booted {c : Controller} {d : Outcome Store DeviceSettings}
      (hd : (Store.init c.live c.board.now).run c.store = .ok d) :
      Move .booted c
        (d.events ++ ((c.installed d d.value).wakeEvents ++
          (c.installed d d.value).woken.syncEvents))
        (c.installed d d.value).woken.synced.trackingDefaults
  | edited (c : Controller) (edit : DeviceSettings → DeviceSettings) :
      Move .edited c { c with live := edit c.live }.syncEvents { c with live := edit c.live }.synced
  | modeToggled (c : Controller) (stick : Stick) :
      Move .modeToggled c (c.modeEvents stick) (c.modeToggled stick)
  | touchToggled (c : Controller) : Move .touchToggled c c.touchToggled.2 c.touchToggled.1
  | combosToggled (c : Controller) :
      Move .combosToggled c [.host (.combos (!c.live.combosEnabled))] c.combosFlipped
  | debugToggled (c : Controller) :
      Move .debugToggled c [.host (.line (Notice.debug !c.live.debug).line)] c.debugFlipped
  | centred {c : Controller} {stick : Stick} {d : Outcome Adc (Pair UInt16 × Sampler)}
      (hd : (c.sampler.calibrate stick calibrationSamples).run c.board.adc = .ok d) :
      Move .centred c d.events (c.centred stick d)
  | panelCalibrated (c : Controller) : Move .panelCalibrated c c.calibrationEvents c
  | scanned (c : Controller) (now : UInt32) :
      Move .scanned c [] { c with matrix := (c.matrix.scan c.board.closed now).2 }
  | sampled {c : Controller} {now : UInt32} (hdue : c.sampler.cadence.due now = true)
      {d : Outcome Adc (Bool × Sampler)} (hd : (c.sampler.tick now).run c.board.adc = .ok d) :
      Move .sampled c (d.events ++ (c.withSampler d.state d.value.2).reportEvents)
        (c.withSampler d.state d.value.2).reported
  | tracked (c : Controller) (now : UInt32) :
      Move .tracked c [] { c with tracker := c.tracker.updateAll c.snapshot now }
  | switchesPolled (c : Controller) (now : UInt32) :
      Move .switchesPolled c [] { c with switchCadence := (c.switchCadence.poll now).2 }
  | switchRead (c : Controller) (stick : Stick) :
      Move .switchRead c []
        { c with switchLevels := c.switchLevels.set stick (c.board.switches.get stick) }
  | panelTicked (c : Controller) (now : UInt32) :
      Move .panelTicked c (c.panelTicked now).2 (c.panelTicked now).1
  | storeCalled {c : Controller} {call : StoreCall}
      {d : Outcome Store (DeviceSettings × Option Bool)}
      (hd : (call.perform c.live).run c.store = .ok d) :
      Move .storeCalled c d.events { c with store := d.state }
  | trackerEdited {c : Controller} {call : TrackerCall} {d : TrackerAnswer × Tracker}
      (hd : c.tracker.perform call = .ok d) : Move .trackerEdited c [] { c with tracker := d.2 }

section

variable (c : Controller)

theorem within_noticed (n : Notice) : Within [.line] (c.noticed n) := by
  rw [noticed]
  split
  · exact within_singleton (.head _)
  · exact within_nil

theorem within_syncEvents : Within [.key, .combos, .defaultLayer] c.syncEvents := by
  have hkeys : ∀ stick, Within [.key, .combos, .defaultLayer] ((c.applied stick).2.map .host) :=
    fun stick => (Engine.within_setMode _ _).mono (by decide)
  rw [syncEvents, syncKeys, List.map_append, List.map_append]
  refine ((hkeys .one).append (hkeys .two)).append ?_
  simp [Within, Event.topic, HostEvent.topic]

theorem within_powerEvents : Within [.panelPower, .line] c.powerEvents := by
  rw [powerEvents]
  refine .append ((Panel.within_powerUp _).mono (by decide)) ?_
  split
  · exact within_nil
  · exact (c.within_noticed _).mono (by decide)

theorem within_wakeEvents : Within [.panelPower, .line] c.wakeEvents := by
  rw [wakeEvents]
  split
  · exact c.within_powerEvents
  · exact within_nil

theorem within_touchToggled : Within [.panelPower, .line] c.touchToggled.2 := by
  rw [touchToggled]
  split
  · exact c.touchFlipped.within_powerEvents
  · exact within_nil

theorem within_calibrationEvents : Within [.panelCalibration, .line] c.calibrationEvents := by
  rw [calibrationEvents]
  split
  · refine .append ((Panel.within_calibrate _).mono (by decide)) ?_
    split
    · exact within_nil
    · exact (c.within_noticed _).mono (by decide)
  · exact within_nil

theorem within_reportEvents : Within [.key, .axes] c.reportEvents := by
  have hkeys : ∀ stick, Within [.key, .axes] ((c.processed stick).2.2.map .host) :=
    fun stick => (Engine.within_process _ _).mono (by decide)
  rw [reportEvents, reportKeys, List.map_append]
  exact ((hkeys .one).append (hkeys .two)).append (within_singleton (.tail _ (.head _)))

theorem within_panelTicked (now : UInt32) : Within [.panelService] (c.panelTicked now).2 := by
  rw [panelTicked]
  split
  · dsimp only
    split
    · exact Panel.within_handle _
    · exact within_nil
  · exact within_nil

end

theorem Move.within {kind : MoveKind} {c d : Controller} {events : List Event}
    (hm : Move kind c events d) : Within kind.topics events := by
  cases hm with
  | line c n => exact within_noticed _ _
  | layer c n => exact within_singleton (.head _)
  | saved _ hd | storeCalled hd => exact within_of_onFlash (Store.emits_perform _ _ _ _ hd)
  | loaded _ hd _ =>
    have hflash := within_of_onFlash (Store.emits_perform _ _ _ _ hd)
    exact (hflash.mono (by decide)).append ((within_syncEvents _).mono (by decide))
  | booted hd =>
    have hflash := within_of_onFlash (Store.emits_init _ _ _ _ hd)
    refine (hflash.mono (by decide)).append (.append ?_ ?_)
    · exact (within_wakeEvents _).mono (by decide)
    · exact (within_syncEvents _).mono (by decide)
  | edited c edit => exact within_syncEvents _
  | modeToggled c stick => exact Engine.within_setMode _ _
  | touchToggled c => exact within_touchToggled _
  | combosToggled c | debugToggled c => exact within_singleton (.head _)
  | centred hd => exact within_of_onConverter (Sampler.emits_calibrate _ _ _ _ _ hd)
  | panelCalibrated c => exact within_calibrationEvents _
  | sampled _ hd =>
    have hread := within_of_onConverter (Sampler.emits_tick _ _ _ _ hd)
    exact (hread.mono (by decide)).append ((within_reportEvents _).mono (by decide))
  | panelTicked c now => exact within_panelTicked _ _
  | scanned | tracked | switchesPolled | switchRead | trackerEdited => exact within_nil

/-- Moves of the given kinds, one after another, with all that the world sees of them. -/
inductive Moves (kinds : List MoveKind) (c : Controller) : List Event → Controller → Prop
  | refl : Moves kinds c [] c
  | tail {past events : List Event} {m d : Controller} {kind : MoveKind}
      (h : Moves kinds c past m) (hk : kind ∈ kinds) (hm : Move kind m events d) :
      Moves kinds c (past ++ events) d

section

variable {kinds kinds' : List MoveKind} {kind : MoveKind} {c m d : Controller}
  {past events events' : List Event}

theorem Moves.single (hk : kind ∈ kinds) (hm : Move kind c events d) : Moves kinds c events d :=
  Moves.refl.tail hk hm

theorem Moves.trans (h : Moves kinds c events m) (h' : Moves kinds m events' d) :
    Moves kinds c (events ++ events') d := by
  induction h' with
  | refl =>
    rw [List.append_nil]
    exact h
  | tail _ hk hm ih =>
    rw [← List.append_assoc]
    exact ih.tail hk hm

theorem Moves.mono (h : Moves kinds c events d) (hsub : kinds ⊆ kinds') :
    Moves kinds' c events d := by
  induction h with
  | refl => exact .refl
  | tail _ hk hm ih => exact ih.tail (hsub hk) hm

theorem Moves.within (h : Moves kinds c events d) :
    Within (kinds.flatMap MoveKind.topics) events := by
  induction h with
  | refl => exact within_nil
  | tail _ hk hm ih => exact ih.append (hm.within.mono fun _ ht => List.mem_flatMap.mpr ⟨_, hk, ht⟩)

/-- What every move keeps, all moves keep. -/
theorem Moves.invariant {P : Controller → List Event → Prop}
    (hmove : ∀ {kind c events d past}, kind ∈ kinds → P c past → Move kind c events d →
      P d (past ++ events))
    (h : Moves kinds c events d) (hc : P c past) : P d (past ++ events) := by
  induction h with
  | refl =>
    rw [List.append_nil]
    exact hc
  | tail _ hk hm ih =>
    rw [← List.append_assoc]
    exact hmove hk ih hm

end

/-- Every run of the routine from the state that no fault stops is made up of moves of
the given kinds. -/
def Goes (kinds : List MoveKind) (c : Controller) (r : Routine Controller α) : Prop :=
  ∀ d, r.run c = .ok d → Moves kinds c d.events d.state

section

variable {kinds kinds' : List MoveKind} {kind : MoveKind} {c d : Controller}
  {r : Routine Controller α} {f : α → Routine Controller β}

theorem Goes.bind (hr : Goes kinds c r) (hf : ∀ a d, Goes kinds d (f a)) :
    Goes kinds c (r >>= f) := by
  intro d hd
  obtain ⟨e, e', he, he', rfl⟩ := run_bind_eq_ok.mp hd
  exact (hr e he).trans (hf e.value e.state e' he')

theorem Goes.get_bind {f : Controller → Routine Controller β} (h : Goes kinds c (f c)) :
    Goes kinds c (get >>= f) := by
  intro d hd
  rw [run_bind_of_silent (run_get c)] at hd
  exact h d hd

theorem Goes.of_run {e : Outcome Controller α} (hrun : r.run c = .ok e)
    (h : Moves kinds c e.events e.state) : Goes kinds c r := by
  intro d hd
  obtain rfl := Except.ok.inj (hrun.symm.trans hd)
  exact h

/-- The first move has been made, and the rest of the routine goes on from there. -/
theorem Goes.of_map {events : List Event} {a : α} {q : Routine Controller β}
    (hrun : r.run c = (q.run d).map fun e => ⟨a, e.state, events ++ e.events⟩)
    (hk : kind ∈ kinds) (hm : Move kind c events d) (hq : Goes kinds d q) : Goes kinds c r := by
  intro e he
  rw [hrun] at he
  obtain ⟨e', he', rfl⟩ := exists_of_map_eq_ok he
  exact (Moves.single hk hm).trans (hq e' he')

theorem Goes.mono (h : Goes kinds c r) (hsub : kinds ⊆ kinds') : Goes kinds' c r :=
  fun d hd => (h d hd).mono hsub

theorem goes_pure (a : α) : Goes kinds c (pure a) := .of_run (run_pure a c) .refl

theorem goes_liftM (x : Except Fault α) : Goes kinds c (liftM x) := by
  intro d hd
  rw [run_liftM] at hd
  cases x with
  | error e => exact nomatch hd
  | ok a =>
    obtain rfl := Except.ok.inj hd
    exact .refl

end

section

variable (c : Controller) (stick : Stick) (now : UInt32)

theorem goes_notify (n : Notice) : Goes [.line] c (notify n) :=
  .of_run (run_notify n c) (.single (.head _) (.line c n))

/-- What comes after a routine of the store starts with the store as that left it. -/
theorem Goes.onStore_bind {kinds : List MoveKind} {r : Routine Store α}
    {f : α → Routine Controller β}
    (h : ∀ o, r.run c.store = .ok o → ∀ d, (f o.value).run { c with store := o.state } = .ok d →
      Moves kinds c (o.events ++ d.events) d.state) : Goes kinds c (onStore r >>= f) := by
  intro d hd
  obtain ⟨e, e', he, he', rfl⟩ := run_bind_eq_ok.mp hd
  obtain ⟨o, ho, rfl⟩ := exists_of_map_eq_ok he
  exact h o ho e' he'

theorem goes_saveNow : Goes [.saved] c (saveNow now) := by
  refine .get_bind (.onStore_bind c fun o ho d hd => ?_)
  obtain rfl := Except.ok.inj hd
  have hcall : ((StoreCall.save now).perform c.live).run c.store = _ :=
    run_bind_pure_of_ok ho fun saved => (c.live, some saved)
  have hsaves : (StoreCall.save now).Saves := trivial
  rw [List.append_nil]
  exact .single (.head _) (.saved hsaves hcall)

theorem goes_task : Goes [.saved] c (onStore (Store.task c.live now)) := by
  rw [← bind_pure (onStore _)]
  refine .onStore_bind c fun o ho d hd => ?_
  obtain rfl := Except.ok.inj hd
  have hcall : ((StoreCall.task now).perform c.live).run c.store = _ :=
    run_bind_pure_of_ok ho fun _ => (c.live, none)
  have hsaves : (StoreCall.task now).Saves := trivial
  rw [List.append_nil]
  exact .single (.head _) (.saved hsaves hcall)

theorem moves_markDirty : Moves [.saved] c [] { c with store := c.store.markDirty now } := by
  have hcall : ((StoreCall.markDirty now).perform c.live).run c.store =
      .ok ⟨(c.live, none), c.store.markDirty now, []⟩ := rfl
  have hsaves : (StoreCall.markDirty now).Saves := trivial
  exact .single (.head _) (.saved hsaves hcall)

theorem goes_toggleStickMode :
    Goes [.modeToggled, .saved, .line] c (toggleStickMode stick now) := by
  refine .of_map (run_toggleStickMode stick now c) (by decide) (.modeToggled c stick) ?_
  refine .bind ((goes_saveNow _ now).mono (by decide)) fun _ d => ?_
  exact (goes_notify d _).mono (by decide)

theorem goes_calibrateStick : Goes [.centred] c (calibrateStick stick) := by
  intro d hd
  rw [run_calibrateStick] at hd
  obtain ⟨o, ho, rfl⟩ := exists_of_map_eq_ok hd
  exact .single (.head _) (.centred ho)

theorem goes_calibrateTouchscreen : Goes [.panelCalibrated] c calibrateTouchscreen :=
  .of_run (run_calibrateTouchscreen c) (.single (.head _) (.panelCalibrated c))

theorem goes_calibrate :
    Goes [.panelCalibrated, .centred, .saved, .line] c (calibrate now) := by
  refine .bind ((goes_calibrateTouchscreen c).mono (by decide)) fun _ c => ?_
  refine .bind ((goes_calibrateStick c .one).mono (by decide)) fun _ c => ?_
  refine .bind ((goes_calibrateStick c .two).mono (by decide)) fun _ c => ?_
  refine .bind ((goes_saveNow c now).mono (by decide)) fun _ c => ?_
  exact (goes_notify c _).mono (by decide)

theorem goes_toggleTouchscreen :
    Goes [.touchToggled, .saved, .line] c (toggleTouchscreen now) := by
  refine .of_run (run_toggleTouchscreen now c) ?_
  have htoggle : Moves [.touchToggled, .saved, .line] c _ _ :=
    .single (by decide) (.touchToggled c)
  have hmark : Moves [.touchToggled, .saved, .line] c.touchToggled.1 _ _ :=
    (moves_markDirty c.touchToggled.1 now).mono (by decide)
  have hline := (htoggle.trans hmark).tail (by decide) (.line _ (.touchscreen !c.live.touchEnabled))
  rw [List.append_nil] at hline
  have hstore : c.touchToggled.1.store = c.store := by
    rw [touchToggled]
    split <;> rfl
  have hnoticed : Controller.noticed { c.touchToggled.1 with store := c.store.markDirty now } =
      c.noticed := by
    rw [touchToggled]
    split <;> rfl
  rw [hstore, hnoticed] at hline
  exact hline

theorem goes_toggleCombos : Goes [.combosToggled, .saved, .line] c (toggleCombos now) := by
  refine .of_run (run_toggleCombos now c) ?_
  have hflip : Moves [.combosToggled, .saved, .line] c _ _ :=
    .single (by decide) (.combosToggled c)
  have hmark : Moves [.combosToggled, .saved, .line] c.combosFlipped _ _ :=
    (moves_markDirty c.combosFlipped now).mono (by decide)
  exact (hflip.trans hmark).tail (by decide) (.line _ (.combos !c.live.combosEnabled))

theorem goes_toggleDebug : Goes [.debugToggled] c toggleDebug :=
  .of_run (run_toggleDebug c) (.single (.head _) (.debugToggled c))

theorem goes_updateSettings (edit : DeviceSettings → DeviceSettings) :
    Goes [.edited, .saved] c (updateSettings edit) := by
  refine .of_run (run_updateSettings edit c) ?_
  have hedit : Moves [.edited, .saved] c _ _ := .single (by decide) (.edited c edit)
  have hmark : Moves [.edited, .saved] _ _ _ :=
    (moves_markDirty { c with live := edit c.live }.synced c.board.now).mono (by decide)
  have hboth := hedit.trans hmark
  rw [List.append_nil] at hboth
  exact hboth

/-- Other settings are put in force right after the call that came with them. -/
theorem Goes.install {kinds : List MoveKind} {call : StoreCall} (hc : call.Loads)
    {o : Outcome Store α} {live : DeviceSettings} {done : Option Bool}
    (hd : (call.perform c.live).run c.store = .ok ⟨(live, done), o.state, o.events⟩)
    (hdone : ∀ id, call = .switchProfile id → done = some true) (hk : .loaded ∈ kinds)
    {f : Unit → Routine Controller β} (hf : ∀ d, Goes kinds d (f ())) {d : Outcome Controller β}
    (hrun : (modify ({ · with live }) >>= fun _ => sync >>= f).run { c with store := o.state } =
      .ok d) : Moves kinds c (o.events ++ d.events) d.state := by
  rw [run_install] at hrun
  obtain ⟨e, he, rfl⟩ := exists_of_map_eq_ok hrun
  have hload := (Moves.single hk (.loaded hc hd hdone)).trans (hf _ e he)
  rw [List.append_assoc] at hload
  exact hload

theorem switched_of_target {s : Store} {slot : Fin maxProfiles} {id : UInt8}
    (ht : s.target id = some slot) {live : DeviceSettings}
    {o : Outcome Store (Bool × DeviceSettings)}
    (ho : (Store.switchProfile id live).run s = .ok o) : o.value.1 = true := by
  rw [Store.run_switchProfile_of_some ht] at ho
  obtain ⟨e, e', -, he', rfl⟩ := run_bind_eq_ok.mp ho
  rw [Store.run_enter_eq] at he'
  obtain ⟨w, -, hw⟩ := exists_of_map_eq_ok he'
  rw [← hw]

theorem goes_switchProfile (id : UInt8) : Goes [.loaded, .line] c (switchProfile id) := by
  refine .get_bind (.onStore_bind c fun o ho d hd => ?_)
  cases ht : c.store.target id with
  | none =>
    rw [Store.run_switchProfile_of_none ht] at ho
    obtain rfl := Except.ok.inj ho
    obtain rfl := Except.ok.inj hd
    exact .refl
  | some slot =>
    have hdone := switched_of_target ht ho
    obtain ⟨⟨switched, live⟩, s, events⟩ := o
    obtain rfl : switched = true := hdone
    have hcall : ((StoreCall.switchProfile id).perform c.live).run c.store = _ :=
      run_bind_pure_of_ok ho fun d => (d.2, some d.1)
    have hloads : (StoreCall.switchProfile id).Loads := trivial
    refine Goes.install c hloads hcall (fun _ _ => rfl) (by decide) (fun d => ?_) hd
    refine .get_bind (.bind (goes_liftM _) fun record d => ?_)
    refine .bind (goes_liftM _) fun number d => ?_
    exact .bind ((goes_notify d _).mono (by decide)) fun _ d => goes_pure _

theorem goes_resetCurrent : Goes [.loaded, .line] c resetCurrent := by
  refine .get_bind (.onStore_bind c fun o ho d hd => ?_)
  obtain ⟨⟨reset, live⟩, s, events⟩ := o
  have hcall : (StoreCall.resetCurrent.perform c.live).run c.store = _ :=
    run_bind_pure_of_ok ho fun d => (d.2, some d.1)
  have hloads : StoreCall.resetCurrent.Loads := trivial
  refine Goes.install c hloads hcall nofun (by decide) (fun d => ?_) hd
  refine .get_bind (.bind (goes_liftM _) fun number d => ?_)
  exact (goes_notify d _).mono (by decide)

/-- Replacing the whole region, for whatever reason. -/
theorem goes_replaceRegion : Goes [.loaded, .line] c (onStore (Store.factoryReset now) >>=
    fun live => modify ({ · with live }) >>= fun _ => sync) := by
  refine .onStore_bind c fun o ho d hd => ?_
  have hcall : ((StoreCall.factoryReset now).perform c.live).run c.store = _ :=
    run_bind_pure_of_ok ho fun live => (live, none)
  have hloads : (StoreCall.factoryReset now).Loads := trivial
  rw [← bind_pure sync] at hd
  exact Goes.install c hloads hcall nofun (by decide) (fun d => goes_pure _) hd

theorem goes_factoryReset : Goes [.loaded, .line] c (factoryReset now) :=
  .bind ((goes_notify c _).mono (by decide)) fun _ c => goes_replaceRegion c now

theorem goes_emergencyReset : Goes [.loaded, .line] c (emergencyReset now) :=
  .bind ((goes_notify c _).mono (by decide)) fun _ c => goes_replaceRegion c now

theorem goes_moveToLayer (layer : UInt8) : Goes [.layer, .line] c (moveToLayer layer) := by
  rw [moveToLayer]
  split
  · refine .bind (.of_run (run_tell _ c) (.single (by decide) (.layer c layer))) fun _ d => ?_
    exact (goes_notify d _).mono (by decide)
  · exact goes_pure _

theorem goes_init : Goes [.booted] c init := by
  intro d hd
  rw [run_init] at hd
  obtain ⟨o, ho, rfl⟩ := exists_of_map_eq_ok hd
  exact .single (.head _) (.booted ho)

theorem goes_tickSticks : Goes [.sampled] c (tickSticks now) := by
  intro d hd
  cases hdue : c.sampler.cadence.due now with
  | false =>
    rw [run_tickSticks_idle hdue] at hd
    obtain rfl := Except.ok.inj hd
    exact .refl
  | true =>
    rw [run_tickSticks_due hdue] at hd
    obtain ⟨o, ho, rfl⟩ := exists_of_map_eq_ok hd
    exact .single (.head _) (.sampled hdue ho)

theorem goes_tickMatrix : Goes [.scanned] c (tickMatrix now) :=
  .of_run (run_tickMatrix now c) (.single (.head _) (.scanned c now))

theorem goes_tickPanel : Goes [.panelTicked] c (tickPanel now) :=
  .of_run (run_tickPanel now c) (.single (.head _) (.panelTicked c now))

theorem goes_pollModeSwitch :
    Goes [.switchRead, .modeToggled, .saved, .line] c (pollModeSwitch stick now) := by
  refine .get_bind (.bind (.of_run (run_set c _) ?_) fun _ d => ?_)
  · exact .single (by decide) (.switchRead c stick)
  · split
    · exact (goes_toggleStickMode d stick now).mono (by decide)
    · exact goes_pure _

theorem goes_tickSwitches :
    Goes [.switchesPolled, .switchRead, .modeToggled, .saved, .line] c (tickSwitches now) := by
  refine .get_bind (.bind (.of_run (run_set c _) ?_) fun _ d => ?_)
  · exact .single (by decide) (.switchesPolled c now)
  · split
    · refine .bind ((goes_pollModeSwitch d .one now).mono (by decide)) fun _ d => ?_
      exact (goes_pollModeSwitch d .two now).mono (by decide)
    · exact goes_pure _

end

def wrapUp (now : UInt32) : Routine Controller Unit := do
  tickSwitches now
  tickPanel now
  onStore (Store.task (← get).live now)

/-- What a pass of the housekeeping does after the matrix and the sticks. -/
def followUp (now : UInt32) (looked : Bool) : Routine Controller Unit := do
  if looked then
    modify fun c => { c with tracker := c.tracker.updateAll c.snapshot now }
  wrapUp now

theorem tick_eq : tick = (do
    let now := (← get).board.now
    let scanned ← tickMatrix now
    let sampled ← tickSticks now
    followUp now (scanned || sampled)) := rfl

def wrapUpKinds : List MoveKind :=
  [.switchesPolled, .switchRead, .modeToggled, .saved, .line, .panelTicked]

def followUpKinds : List MoveKind := .tracked :: wrapUpKinds

def tickKinds : List MoveKind := .scanned :: .sampled :: followUpKinds

theorem goes_wrapUp (c : Controller) (now : UInt32) : Goes wrapUpKinds c (wrapUp now) := by
  refine .bind ((goes_tickSwitches c now).mono (by decide)) fun _ c => ?_
  refine .bind ((goes_tickPanel c now).mono (by decide)) fun _ c => ?_
  exact .get_bind ((goes_task c now).mono (by decide))

theorem goes_followUp (c : Controller) (now : UInt32) (looked : Bool) :
    Goes followUpKinds c (followUp now looked) := by
  -- told once for both branches of the conditional update
  have hrest : ∀ c : Controller, Goes followUpKinds c (wrapUp now) :=
    fun c => (goes_wrapUp c now).mono (List.subset_cons_self _ _)
  rw [followUp]
  cases looked with
  | true =>
    refine .bind (.of_run (run_modify _ c) ?_) fun _ c => hrest c
    exact .single (by decide) (.tracked c now)
  | false => exact hrest c

theorem goes_tick (c : Controller) : Goes tickKinds c tick := by
  rw [tick_eq]
  refine Goes.get_bind (.bind ((goes_tickMatrix c _).mono (by decide)) fun scanned d => ?_)
  refine .bind ((goes_tickSticks d _).mono (by decide)) fun sampled d => ?_
  exact (goes_followUp d _ _).mono (List.subset_cons_of_subset _ (List.subset_cons_self _ _))

end Controller

def ComboAction.kinds : ComboAction → List MoveKind
  | switchProfile _ | resetSettings | emergencyReset | factoryReset => [.loaded, .line]
  | toggleStickMode _ => [.modeToggled, .saved, .line]
  | calibrate => [.panelCalibrated, .centred, .saved, .line]
  | moveToLayer _ => [.layer, .line]
  | toggleTouchscreen => [.touchToggled, .saved, .line]
  | toggleDebug => [.debugToggled]

def CustomKey.kinds : CustomKey → List MoveKind
  | profile _ => [.loaded, .line]
  | stick1Mode | stick2Mode => [.modeToggled, .saved, .line]
  | touchCalibrate => [.panelCalibrated]
  | comboToggle => [.combosToggled, .saved, .line]

def ControllerCall.kinds : ControllerCall → List MoveKind
  | init => [.booted]
  | tick => Controller.tickKinds
  | combo index pressed =>
    if pressed then (Combo.ofIndex? index).elim [] (·.action.kinds) else []
  | key code pressed => if pressed then (CustomKey.ofKeycode? code).elim [] (·.kinds) else []
  | switchProfile _ | resetCurrent | factoryReset _ | emergencyReset _ => [.loaded, .line]
  | toggleStickMode _ _ => [.modeToggled, .saved, .line]
  | calibrate _ => [.panelCalibrated, .centred, .saved, .line]
  | toggleTouchscreen _ => [.touchToggled, .saved, .line]
  | toggleCombos _ => [.combosToggled, .saved, .line]
  | toggleDebug => [.debugToggled]
  | updateSettings _ => [.edited, .saved]
  | store _ => [.storeCalled]
  | tracker _ => [.trackerEdited]

def comboKinds : List MoveKind :=
  [.loaded, .line, .modeToggled, .saved, .panelCalibrated, .centred, .layer, .touchToggled,
    .debugToggled]

def keyKinds : List MoveKind :=
  [.loaded, .line, .modeToggled, .saved, .panelCalibrated, .combosToggled]

theorem ControllerCall.kinds_combo (index : Nat) (pressed : Bool) :
    (combo index pressed).kinds ⊆ comboKinds := by
  have haction : ∀ action : ComboAction, action.kinds ⊆ comboKinds := by
    intro action
    cases action <;> rw [ComboAction.kinds] <;> decide
  rw [kinds]
  cases pressed with
  | false => exact List.nil_subset _
  | true =>
    cases Combo.ofIndex? index with
    | none => exact List.nil_subset _
    | some c => exact haction c.action

theorem ControllerCall.kinds_key (code : UInt16) (pressed : Bool) :
    (key code pressed).kinds ⊆ keyKinds := by
  have hkey : ∀ k : CustomKey, k.kinds ⊆ keyKinds := by
    intro k
    cases k <;> rw [CustomKey.kinds] <;> decide
  rw [kinds]
  cases pressed with
  | false => exact List.nil_subset _
  | true =>
    cases CustomKey.ofKeycode? code with
    | none => exact List.nil_subset _
    | some k => exact hkey k

namespace Controller

open Routine

theorem goes_perform (c : Controller) (action : ComboAction) (now : UInt32) :
    Goes action.kinds c (perform action now) := by
  cases action with
  | switchProfile id => exact (goes_switchProfile c id).bind fun _ d => goes_pure _
  | toggleStickMode stick => exact goes_toggleStickMode c stick now
  | calibrate => exact goes_calibrate c now
  | resetSettings => exact goes_resetCurrent c
  | moveToLayer layer => exact goes_moveToLayer c layer
  | emergencyReset => exact goes_emergencyReset c now
  | toggleTouchscreen => exact goes_toggleTouchscreen c now
  | toggleDebug => exact goes_toggleDebug c
  | factoryReset => exact goes_factoryReset c now

/-- A combo that is seen either does nothing or is on, enabled and performed. -/
theorem processCombo_cases {c : Controller} {index : Nat} {pressed : Bool}
    {d : Outcome Controller Unit} (hd : (processCombo index pressed).run c = .ok d) :
    d = ⟨(), c, []⟩ ∨
    ∃ combo, pressed = true ∧ Combo.ofIndex? index = some combo ∧ c.live.combosEnabled = true ∧
      c.store.isComboEnabled combo = .ok true ∧
      (perform combo.action c.board.now).run c = .ok d := by
  cases pressed with
  | false =>
    obtain rfl := Except.ok.inj hd
    exact .inl rfl
  | true =>
    rw [processCombo, if_pos rfl] at hd
    cases hcombo : Combo.ofIndex? index with
    | none =>
      rw [hcombo] at hd
      obtain rfl := Except.ok.inj hd
      exact .inl rfl
    | some combo =>
      rw [hcombo] at hd
      dsimp only at hd
      rw [run_bind_of_silent (run_get c)] at hd
      cases hon : c.live.combosEnabled with
      | false =>
        rw [hon] at hd
        obtain rfl := Except.ok.inj hd
        exact .inl rfl
      | true =>
        rw [hon, if_pos rfl] at hd
        cases henabled : c.store.isComboEnabled combo with
        | error fault =>
          rw [run_bind, run_liftM, henabled] at hd
          cases hd
        | ok on =>
          rw [run_bind_of_silent (run_liftM_of_ok henabled c)] at hd
          cases on with
          | false =>
            obtain rfl := Except.ok.inj hd
            exact .inl rfl
          | true => exact .inr ⟨combo, rfl, rfl, rfl, henabled, hd⟩

theorem goes_processCombo (c : Controller) (index : Nat) (pressed : Bool) :
    Goes (ControllerCall.combo index pressed).kinds c (processCombo index pressed) := by
  rw [processCombo, ControllerCall.kinds]
  cases pressed with
  | false => exact goes_pure _
  | true =>
    rw [if_pos rfl, if_pos rfl]
    cases Combo.ofIndex? index with
    | none => exact goes_pure _
    | some combo =>
      refine .get_bind ?_
      split
      · refine .bind (goes_liftM _) fun on d => ?_
        split
        · exact goes_perform d _ _
        · exact goes_pure _
      · exact goes_pure _

theorem goes_processKey (c : Controller) (code : UInt16) (pressed : Bool) :
    Goes (ControllerCall.key code pressed).kinds c (processKey code pressed) := by
  rw [processKey, ControllerCall.kinds]
  cases CustomKey.ofKeycode? code with
  | none => exact goes_pure _
  | some key =>
    cases pressed with
    | false => exact goes_pure _
    | true =>
      refine .get_bind ?_
      cases key with
      | profile slot => exact (goes_switchProfile c slot).bind fun _ d => goes_pure _
      | stick1Mode | stick2Mode => exact (goes_toggleStickMode c _ _).bind fun _ d => goes_pure _
      | touchCalibrate => exact (goes_calibrateTouchscreen c).bind fun _ d => goes_pure _
      | comboToggle => exact (goes_toggleCombos c _).bind fun _ d => goes_pure _

theorem goes_call (c : Controller) (call : ControllerCall) : Goes call.kinds c call.perform := by
  cases call with
  | init => exact (goes_init c).bind fun _ d => goes_pure _
  | tick => exact (goes_tick c).bind fun _ d => goes_pure _
  | combo index pressed => exact (goes_processCombo c index pressed).bind fun _ d => goes_pure _
  | key code pressed => exact (goes_processKey c code pressed).bind fun _ d => goes_pure _
  | switchProfile id => exact (goes_switchProfile c id).bind fun _ d => goes_pure _
  | toggleStickMode stick now =>
    exact (goes_toggleStickMode c stick now).bind fun _ d => goes_pure _
  | calibrate now => exact (goes_calibrate c now).bind fun _ d => goes_pure _
  | toggleTouchscreen now => exact (goes_toggleTouchscreen c now).bind fun _ d => goes_pure _
  | toggleCombos now => exact (goes_toggleCombos c now).bind fun _ d => goes_pure _
  | toggleDebug => exact (goes_toggleDebug c).bind fun _ d => goes_pure _
  | resetCurrent => exact (goes_resetCurrent c).bind fun _ d => goes_pure _
  | factoryReset now => exact (goes_factoryReset c now).bind fun _ d => goes_pure _
  | emergencyReset now => exact (goes_emergencyReset c now).bind fun _ d => goes_pure _
  | updateSettings edit => exact (goes_updateSettings c edit).bind fun _ d => goes_pure _
  | tracker call =>
    intro d hd
    rw [run_tracker] at hd
    obtain ⟨o, ho, rfl⟩ := exists_of_map_eq_ok hd
    exact .single (.head _) (.trackerEdited ho)
  | store call =>
    refine .get_bind (.onStore_bind c fun o ho d hd => ?_)
    have hd : d.state = { c with store := o.state } ∧ d.events = [] := by
      cases hanswer : o.value.2 with
      | none | some b =>
        rw [hanswer] at hd
        obtain rfl := Except.ok.inj hd
        exact ⟨rfl, rfl⟩
    rw [hd.1, hd.2, List.append_nil]
    exact .single (.head _) (.storeCalled ho)

/-- The device on another board, with flash as something else has left it. -/
def placed (c : Controller) (board : Board) (flash : Flash) : Controller :=
  { c with board, store := { c.store with flash } }

/-- A session of the device: admitted calls that no fault stops, in between which the
board becomes any that fits and flash becomes anything. Goes with all that the world has
seen. -/
inductive Session (admits : Controller → ControllerCall → Prop) (fits : Board → Prop)
    (first : Controller) (seen : List Event) : Controller → List Event → Prop
  | start : Session admits fits first seen first seen
  | outside {c : Controller} {past : List Event} (h : Session admits fits first seen c past)
      {board : Board} (hb : fits board) (flash : Flash) :
      Session admits fits first seen (c.placed board flash) past
  | call {c : Controller} {past : List Event} (h : Session admits fits first seen c past)
      {call : ControllerCall} (hc : admits c call) {d : Outcome Controller Reply}
      (hd : call.perform.run c = .ok d) :
      Session admits fits first seen d.state (past ++ d.events)

theorem Session.invariant {admits : Controller → ControllerCall → Prop} {fits : Board → Prop}
    {first : Controller} {seen : List Event} {P : Controller → List Event → Prop}
    (hfirst : P first seen)
    (houtside : ∀ {c past board} (flash : Flash), fits board → P c past →
      P (c.placed board flash) past)
    (hcall : ∀ {c past call} {d : Outcome Controller Reply}, admits c call → P c past →
      call.perform.run c = .ok d → P d.state (past ++ d.events))
    {c : Controller} {past : List Event} (h : Session admits fits first seen c past) :
    P c past := by
  induction h with
  | start => exact hfirst
  | outside _ hb flash ih => exact houtside flash hb ih
  | call _ hc hd ih => exact hcall hc ih hd

end Controller

end TwinStick
