import TwinStick.Proofs.AutoSave
import TwinStick.Proofs.Copies
import TwinStick.Proofs.FaultFree

/-! The mode switches over runs of passes. A pass reads them when their gate opens, and every
fall of a level toggles the mode of that stick and saves; nothing else in a pass concerns a
mode. -/

namespace TwinStick

/-- What there was to read at the polls at which the gate opens. -/
def Cadence.passes : Cadence → List (UInt32 × α) → List α
  | _, [] => []
  | g, (now, a) :: rest =>
    if g.due now then a :: (g.poll now).2.passes rest else (g.poll now).2.passes rest

/-- How often a level goes from high to low, the last one known included. -/
def falls (last : Bool) (levels : List Bool) : Nat :=
  ((last :: levels).zip levels).count (true, false)

theorem falls_cons (last level : Bool) (levels : List Bool) :
    falls last (level :: levels) = falls level levels + if last && !level then 1 else 0 := by
  rw [falls, List.zip_cons_cons, List.count_cons, falls]
  cases last <;> cases level <;> rfl

namespace Store

/-- The region has its place in memory, and no write to it is refused. -/
structure Works (s : Store) : Prop where
  placed : s.Placed
  free : s.flash.writes.Free

/-- The copies are as a save at this time leaves them, and so is the region if storage works. -/
def SavedAs (s : Store) (live : DeviceSettings) (now : UInt32) (works : Prop) : Prop :=
  ∃ slot, s.records.activeSlot = .ok slot ∧ s.records.Reflects slot live now ∧
    (works → s.Works ∧ s.dirty = false ∧ s.region.Reflects slot live now)

section

variable {s : Store} {live : DeviceSettings} {now : UInt32} {works : Prop}

theorem exists_slot_of_saveCurrent {d : Outcome Store Bool}
    (hd : (saveCurrent live now).run s = .ok d) : ∃ slot, s.records.activeSlot = .ok slot := by
  rw [saveCurrent, Routine.run_bind_of_silent (Routine.run_get _)] at hd
  obtain ⟨e, -, he, -, -⟩ := Routine.run_bind_eq_ok.mp hd
  obtain ⟨slot, hslot, -⟩ := exists_of_map_eq_ok ((Routine.run_liftM _ _).symm.trans he)
  exact ⟨slot, hslot⟩

theorem Works.saved (h : s.Works) {slot : Fin maxProfiles}
    (hslot : s.records.activeSlot = .ok slot) {d : Outcome Store Bool}
    (hd : (saveCurrent live now).run s = .ok d) :
    d.state.Works ∧ d.state.dirty = false ∧ d.state.region.Reflects slot live now := by
  obtain ⟨e, he, hvalue, hdirty, hcarried⟩ := run_saveCurrent h.placed hslot live now
  obtain rfl := Except.ok.inj (he.symm.trans hd)
  have hgranted : s.Grants [.quick, .manager, .profile slot] := h.free.streak _
  have hfree : e.state.flash.writes.Free := by
    rw [hcarried.writes]
    exact h.free.after _
  refine ⟨⟨hcarried.placed h.placed, hfree⟩, ?_, ?_⟩
  · rw [hdirty, hvalue, decide_eq_true hgranted]
    rfl
  · refine reflects_region (Records.reflects_saved hslot live now) fun p hp => ?_
    refine hcarried.written p ?_
    rw [reached_of_free h.free]
    exact hp

theorem savedAs_of_saveCurrent (hw : works → s.Works) {d : Outcome Store Bool}
    (hd : (saveCurrent live now).run s = .ok d) : d.state.SavedAs live now works := by
  obtain ⟨slot, hslot⟩ := exists_slot_of_saveCurrent hd
  have hrecords := records_of_run_saveCurrent hslot hd
  refine ⟨slot, ?_, ?_, fun h => (hw h).saved hslot hd⟩
  · rw [hrecords]
    exact hslot
  · rw [hrecords]
    exact Records.reflects_saved hslot live now

/-- Saving once more at the same time makes no difference. -/
theorem SavedAs.task (h : s.SavedAs live now works) {d : Outcome Store Unit}
    (hd : (Store.task live now).run s = .ok d) : d.state.SavedAs live now works := by
  obtain ⟨slot, hslot, hreflects, hstored⟩ := h
  rw [run_task hslot] at hd
  split at hd
  · obtain ⟨e, he, rfl⟩ := exists_of_map_eq_ok hd
    exact savedAs_of_saveCurrent (fun hw => (hstored hw).1) he
  · obtain rfl := Except.ok.inj hd
    exact ⟨slot, hslot, hreflects, hstored⟩

end

end Store

namespace Controller

open Routine

/-- Nothing has happened that concerns the modes. -/
structure Calm (c d : Controller) : Prop where
  store : d.store = c.store
  live : d.live = c.live
  cadence : d.switchCadence = c.switchCadence
  levels : d.switchLevels = c.switchLevels
  switches : d.board.switches = c.board.switches
  modes (stick : Stick) : (d.engines.get stick).mode = (c.engines.get stick).mode

theorem Calm.refl (c : Controller) : Calm c c := ⟨rfl, rfl, rfl, rfl, rfl, fun _ => rfl⟩

theorem Calm.trans {c d e : Controller} (h : Calm c d) (h' : Calm d e) : Calm c e where
  store := h'.store.trans h.store
  live := h'.live.trans h.live
  cadence := h'.cadence.trans h.cadence
  levels := h'.levels.trans h.levels
  switches := h'.switches.trans h.switches
  modes stick := (h'.modes stick).trans (h.modes stick)

def calmKinds : List MoveKind := [.line, .scanned, .sampled, .tracked, .panelTicked]

theorem Move.calm {kind : MoveKind} {c d : Controller} {events : List Event}
    (hk : kind ∈ calmKinds) (hm : Move kind c events d) : Calm c d := by
  cases hm with
  | line c n => exact .refl c
  | scanned c now | tracked c now => exact ⟨rfl, rfl, rfl, rfl, rfl, fun _ => rfl⟩
  | sampled hdue hd =>
    refine ⟨rfl, rfl, rfl, rfl, rfl, fun stick => ?_⟩
    cases stick <;>
      simp only [reported, processed, withSampler, Engine.process_engine, PerStick.get]
  | panelTicked c now =>
    rw [panelTicked_fst]
    exact ⟨rfl, rfl, rfl, rfl, rfl, fun _ => rfl⟩
  | _ => exact absurd hk (by decide)

/-- What every move keeps of the state, all moves keep. -/
theorem Moves.induct_state {P : Controller → Prop} {kinds : List MoveKind} {c d : Controller}
    {events : List Event}
    (hmove : ∀ {kind c events d}, kind ∈ kinds → P c → Move kind c events d → P d)
    (hm : Moves kinds c events d) (hc : P c) : P d := by
  induction hm with
  | refl => exact hc
  | tail _ hk hm ih => exact hmove hk ih hm

theorem Moves.calm {kinds : List MoveKind} (hk : kinds ⊆ calmKinds) {c d : Controller}
    {events : List Event} (hm : Moves kinds c events d) : Calm c d :=
  hm.induct_state (fun hkind hc hm => hc.trans (hm.calm (hk hkind))) (.refl c)

section

variable {c m d e : Controller} {stick : Stick} {now : UInt32} {works : Prop}

/-- The mode switch of a stick is low and was high at the last look. -/
def pressed (c : Controller) (stick : Stick) : Bool :=
  c.switchLevels.get stick && !c.board.switches.get stick

/-- The gate opens now, and the switch is found pressed. -/
def toggles (c : Controller) (stick : Stick) (now : UInt32) : Bool :=
  c.switchCadence.due now && c.pressed stick

/-- What a look at one mode switch does. -/
structure Polled (now : UInt32) (works : Prop) (stick : Stick) (c d : Controller) : Prop where
  cadence : d.switchCadence = c.switchCadence
  switches : d.board.switches = c.board.switches
  levels : d.switchLevels = c.switchLevels.set stick (c.board.switches.get stick)
  modes (other : Stick) : (d.engines.get other).mode =
    if other = stick ∧ c.pressed stick = true then (c.engines.get other).mode.toggled
    else (c.engines.get other).mode
  idle : c.pressed stick = false → d.store = c.store ∧ d.live = c.live
  saved : c.pressed stick = true → d.store.SavedAs d.live now works

theorem mode_modeToggled (c : Controller) (stick other : Stick) :
    ((c.modeToggled stick).engines.get other).mode =
      if other = stick then (c.engines.get other).mode.toggled
      else (c.engines.get other).mode := by
  rw [modeToggled]
  by_cases hother : other = stick
  · subst hother
    rw [if_pos rfl, PerStick.get_set_self, Engine.toggleMode, Engine.setMode_fst]
  · have hne : stick ≠ other := fun h => hother h.symm
    rw [if_neg hother, PerStick.get_set_of_ne _ hne]

/-- The switch has been looked at. -/
def switchRead (c : Controller) (stick : Stick) : Controller :=
  { c with switchLevels := c.switchLevels.set stick (c.board.switches.get stick) }

theorem run_pollModeSwitch (stick : Stick) (now : UInt32) (c : Controller) :
    (pollModeSwitch stick now).run c =
      (if c.pressed stick then toggleStickMode stick now else pure ()).run
        (c.switchRead stick) := by
  rw [pollModeSwitch, run_bind_of_silent (run_get c)]
  exact run_bind_of_silent (run_set c (c.switchRead stick)) _

theorem state_of_toggleStickMode {o : Outcome Controller Unit}
    (ho : (toggleStickMode stick now).run c = .ok o) :
    ∃ b, (Store.saveCurrent (c.modeToggled stick).live now).run c.store = .ok b ∧
      o.state = { c.modeToggled stick with store := b.state } := by
  rw [run_toggleStickMode] at ho
  obtain ⟨e, he, rfl⟩ := exists_of_map_eq_ok ho
  obtain ⟨f, f', hf, hf', rfl⟩ := run_bind_eq_ok.mp he
  obtain rfl := Except.ok.inj ((run_notify _ _).symm.trans hf')
  rw [saveNow, run_bind_of_silent (run_get _)] at hf
  obtain ⟨g, g', hg, hg', rfl⟩ := run_bind_eq_ok.mp hf
  obtain rfl := Except.ok.inj hg'
  obtain ⟨b, hb, rfl⟩ := exists_of_map_eq_ok ((run_onStore _ _).symm.trans hg)
  exact ⟨b, hb, rfl⟩

theorem polled_of_run {o : Outcome Controller Unit}
    (ho : (pollModeSwitch stick now).run c = .ok o) (hw : works → c.store.Works) :
    Polled now works stick c o.state := by
  rw [run_pollModeSwitch] at ho
  cases hpressed : c.pressed stick with
  | false =>
    rw [hpressed] at ho
    obtain rfl := Except.ok.inj ho
    refine ⟨rfl, rfl, rfl, fun other => ?_, fun _ => ⟨rfl, rfl⟩, fun h => ?_⟩
    · rw [if_neg (by simp [hpressed])]
      rfl
    · exact absurd (hpressed.symm.trans h) Bool.false_ne_true
  | true =>
    rw [hpressed, if_pos rfl] at ho
    obtain ⟨b, hb, hstate⟩ := state_of_toggleStickMode ho
    rw [hstate]
    refine ⟨rfl, rfl, rfl, fun other => ?_, fun h => ?_, fun _ => ?_⟩
    · simpa only [hpressed, and_true, switchRead] using
        (c.switchRead stick).mode_modeToggled stick other
    · exact absurd (h.symm.trans hpressed) Bool.false_ne_true
    · exact Store.savedAs_of_saveCurrent hw hb

theorem Polled.still_works (h : Polled now works stick c d) (hw : works → c.store.Works) :
    works → d.store.Works := by
  intro hworks
  cases hpressed : c.pressed stick with
  | false =>
    rw [(h.idle hpressed).1]
    exact hw hworks
  | true =>
    obtain ⟨slot, -, -, hstored⟩ := h.saved hpressed
    exact (hstored hworks).1

/-- What a pass does about the mode switches. -/
structure Switched (now : UInt32) (works : Prop) (c d : Controller) : Prop where
  cadence : d.switchCadence = (c.switchCadence.poll now).2
  levels : d.switchLevels =
    if c.switchCadence.due now then c.board.switches else c.switchLevels
  modes (stick : Stick) : (d.engines.get stick).mode =
    if c.toggles stick now then (c.engines.get stick).mode.toggled
    else (c.engines.get stick).mode
  saved (stick : Stick) : c.toggles stick now = true → d.store.SavedAs d.live now works

theorem switched_of_polled (hdue : c.switchCadence.due now = true)
    (hone : Polled now works .one { c with switchCadence := (c.switchCadence.poll now).2 } m)
    (htwo : Polled now works .two m d) : Switched now works c d := by
  have hfirst : pressed { c with switchCadence := (c.switchCadence.poll now).2 } .one =
      c.pressed .one := rfl
  have hsecond : m.pressed .two = c.pressed .two := by
    rw [pressed, pressed, hone.levels, hone.switches, PerStick.get_set_of_ne _ (by decide)]
  have htoggles : ∀ stick, c.toggles stick now = c.pressed stick := by
    intro stick
    rw [toggles, hdue, Bool.true_and]
  refine ⟨htwo.cadence.trans hone.cadence, ?_, fun stick => ?_, fun stick hstick => ?_⟩
  · rw [if_pos hdue, htwo.levels, hone.levels, hone.switches]
    rfl
  · rw [htwo.modes, hone.modes, hfirst, hsecond, htoggles]
    cases stick <;> simp
  · rw [htoggles] at hstick
    cases hlast : m.pressed .two with
    | true => exact htwo.saved hlast
    | false =>
      obtain ⟨hstore, hlive⟩ := htwo.idle hlast
      rw [hstore, hlive]
      cases stick with
      | one => exact hone.saved hstick
      | two => exact absurd (hlast.symm.trans (hsecond.trans hstick)) Bool.false_ne_true

theorem run_tickSwitches (now : UInt32) (c : Controller) :
    (tickSwitches now).run c =
      (if c.switchCadence.due now then do
          pollModeSwitch .one now
          pollModeSwitch .two now
        else pure ()).run { c with switchCadence := (c.switchCadence.poll now).2 } := by
  have hgate : (c.switchCadence.poll now).1 = c.switchCadence.due now := by
    rw [Cadence.poll]
    cases c.switchCadence.due now <;> rfl
  rw [tickSwitches, run_bind_of_silent (run_get c), ← hgate]
  exact run_bind_of_silent (run_set c _) _

theorem switched_of_run {o : Outcome Controller Unit} (ho : (tickSwitches now).run c = .ok o)
    (hw : works → c.store.Works) : Switched now works c o.state := by
  rw [run_tickSwitches] at ho
  cases hdue : c.switchCadence.due now with
  | false =>
    rw [hdue] at ho
    obtain rfl := Except.ok.inj ho
    have htoggles : ∀ stick, c.toggles stick now = false := by
      intro stick
      rw [toggles, hdue, Bool.false_and]
    refine ⟨rfl, ?_, fun stick => ?_, fun stick hstick => ?_⟩
    · rw [hdue]
      rfl
    · rw [htoggles]
      rfl
    · exact absurd ((htoggles stick).symm.trans hstick) Bool.false_ne_true
  | true =>
    rw [hdue, if_pos rfl] at ho
    obtain ⟨e, f, he, hf, rfl⟩ := run_bind_eq_ok.mp ho
    have hone := polled_of_run he hw
    have htwo : Polled now works .two e.state f.state := polled_of_run hf (hone.still_works hw)
    exact switched_of_polled hdue hone htwo

theorem Switched.of_calm_left (hcalm : Calm c m) (h : Switched now works m d) :
    Switched now works c d := by
  have htoggles : ∀ stick, m.toggles stick now = c.toggles stick now := by
    intro stick
    rw [toggles, toggles, pressed, pressed, hcalm.cadence, hcalm.levels, hcalm.switches]
  refine ⟨?_, ?_, fun stick => ?_, fun stick hstick => ?_⟩
  · rw [h.cadence, hcalm.cadence]
  · rw [h.levels, hcalm.cadence, hcalm.switches, hcalm.levels]
  · rw [h.modes, htoggles, hcalm.modes]
  · exact h.saved stick ((htoggles stick).trans hstick)

theorem Switched.of_calm_right (h : Switched now works c m) (hcalm : Calm m d) :
    Switched now works c d := by
  refine ⟨hcalm.cadence.trans h.cadence, hcalm.levels.trans h.levels,
    fun stick => (hcalm.modes stick).trans (h.modes stick), fun stick hstick => ?_⟩
  rw [hcalm.store, hcalm.live]
  exact h.saved stick hstick

/-- A pass that changes a mode has found its switch pressed. -/
theorem Switched.saved_of_mode_ne (h : Switched now works c d)
    (hstick : (d.engines.get stick).mode ≠ (c.engines.get stick).mode) :
    d.store.SavedAs d.live now works := by
  refine h.saved stick ?_
  by_contra hidle
  have hmode := h.modes stick
  rw [if_neg hidle] at hmode
  exact hstick hmode

theorem exists_of_tick {o : Outcome Controller Unit} (ho : tick.run c = .ok o) :
    ∃ m e, Calm c m ∧ (wrapUp c.board.now).run m = .ok e ∧ o.state = e.state := by
  rw [tick_eq, run_bind_of_silent (run_get c)] at ho
  obtain ⟨a, a', ha, ha', rfl⟩ := run_bind_eq_ok.mp ho
  obtain ⟨b, b', hb, hb', rfl⟩ := run_bind_eq_ok.mp ha'
  have hmatrix := (goes_tickMatrix c _ a ha).calm (by decide)
  have hsticks := (goes_tickSticks a.state _ b hb).calm (by decide)
  have hlooked := hmatrix.trans hsticks
  rw [followUp] at hb'
  cases hvalue : a.value || b.value with
  | false =>
    rw [hvalue] at hb'
    exact ⟨b.state, b', hlooked, hb', rfl⟩
  | true =>
    rw [hvalue, if_pos rfl, run_bind_of_silent (run_modify _ _)] at hb'
    let m : Controller := { b.state with
      tracker := b.state.tracker.updateAll b.state.snapshot c.board.now }
    have htracked : Calm b.state m := ⟨rfl, rfl, rfl, rfl, rfl, fun _ => rfl⟩
    exact ⟨m, b', hlooked.trans htracked, hb', rfl⟩

theorem switched_of_tick {o : Outcome Controller Unit} (ho : tick.run c = .ok o)
    (hw : works → c.store.Works) : Switched c.board.now works c o.state := by
  obtain ⟨m, f, hcalm, hf, hstate⟩ := exists_of_tick ho
  rw [hstate]
  rw [wrapUp] at hf
  obtain ⟨a, a', ha, ha', rfl⟩ := run_bind_eq_ok.mp hf
  obtain ⟨b, b', hb, hb', rfl⟩ := run_bind_eq_ok.mp ha'
  have hworks : works → m.store.Works := by
    rw [hcalm.store]
    exact hw
  have hpanel := (goes_tickPanel a.state _ b hb).calm (by decide)
  have hswitched := ((switched_of_run ha hworks).of_calm_left hcalm).of_calm_right hpanel
  rw [run_bind_of_silent (run_get _)] at hb'
  obtain ⟨t, ht, rfl⟩ := exists_of_map_eq_ok ((run_onStore _ _).symm.trans hb')
  exact ⟨hswitched.cadence, hswitched.levels, hswitched.modes,
    fun stick hstick => (hswitched.saved stick hstick).task ht⟩

end

/-- One pass after the other, each on a board and on flash as they are then. -/
def ticks : List (Board × Flash) → Routine Controller Unit
  | [] => pure ()
  | (board, flash) :: rest => do
    modify (·.placed board flash)
    tick
    ticks rest

/-- Each engine acts in the mode in force, and the gate of the mode switches has its rate. -/
structure Geared (c : Controller) : Prop where
  modes (stick : Stick) : (c.engines.get stick).mode = (c.live.sticks.get stick).mode
  period : c.switchCadence.period = 50

section

variable {c d : Controller} {past : List Event} {path : List (Board × Flash)}

theorem geared_synced (h : c.switchCadence.period = 50) : c.synced.Geared := by
  refine ⟨fun stick => ?_, h⟩
  exact congrArg StickSettings.mode ((copied_synced c []).sticks stick)

theorem Calm.geared (hcalm : Calm c d) (h : c.Geared) : d.Geared := by
  refine ⟨fun stick => ?_, ?_⟩
  · rw [hcalm.modes, hcalm.live]
    exact h.modes stick
  · rw [hcalm.cadence]
    exact h.period

theorem Geared.modeToggled (h : c.Geared) (stick : Stick) : (c.modeToggled stick).Geared := by
  refine ⟨fun other => ?_, h.period⟩
  have hother := h.modes other
  rw [Controller.modeToggled, DeviceSettings.withMode]
  by_cases hs : stick = other
  · subst hs
    simp only [PerStick.get_set_self]
  · simpa only [PerStick.get_set_of_ne _ hs] using hother

theorem Geared.centred (h : c.Geared) (stick : Stick) (o : Outcome Adc (Pair UInt16 × Sampler)) :
    (c.centred stick o).Geared := by
  refine ⟨fun other => ?_, h.period⟩
  have hother := h.modes other
  rw [Controller.centred, withSampler, DeviceSettings.withCentre]
  by_cases hs : stick = other
  · subst hs
    simpa only [PerStick.get_set_self] using hother
  · simpa only [PerStick.get_set_of_ne _ hs] using hother

/-- Every move keeps the modes together. -/
theorem Move.geared {kind : MoveKind} {events : List Event} (h : c.Geared)
    (hm : Move kind c events d) : d.Geared := by
  cases hm with
  -- whoever puts other settings in force pushes all of them down afterwards
  | loaded hc hd hdone => exact geared_synced h.period
  | edited c edit => exact geared_synced h.period
  | @booted _ o hd =>
    have hperiod : (c.installed o o.value).woken.switchCadence.period = 50 := by
      rw [woken_eq]
      exact h.period
    refine ⟨fun stick => ?_, hperiod⟩
    rw [engines_trackingDefaults]
    exact (geared_synced hperiod).modes stick
  | modeToggled c stick => exact h.modeToggled stick
  | centred hd => exact h.centred _ _
  | sampled hdue hd => exact ((Move.sampled hdue hd).calm (by decide)).geared h
  | panelTicked c now => exact ((Move.panelTicked c now).calm (by decide)).geared h
  | touchToggled c =>
    rw [touchToggled_fst]
    exact ⟨h.modes, h.period⟩
  | switchesPolled c now => exact ⟨h.modes, (period_poll _ _).trans h.period⟩
  | line | layer | panelCalibrated => exact h
  | saved | storeCalled | combosToggled | debugToggled | scanned | tracked | switchRead
  | trackerEdited => exact ⟨h.modes, h.period⟩

theorem Geared.moves {kinds : List MoveKind} {events : List Event} (h : c.Geared)
    (hm : Moves kinds c events d) : d.Geared :=
  hm.induct_state (fun _ hc hm => hm.geared hc) h

theorem geared_init {board : Board} {flash : Flash} {base : UInt32} {o : Outcome Controller Unit}
    (ho : init.run (ofBoard board flash base) = .ok o) : o.state.Geared := by
  have hnew : (ofBoard board flash base).Geared := ⟨fun stick => by cases stick <;> rfl, rfl⟩
  exact hnew.moves (goes_init _ o ho)

theorem Session.geared {first : Controller} {seen : List Event} (hfirst : first.Geared)
    (h : Session (fun _ _ => True) (fun _ => True) first seen c past) : c.Geared :=
  h.invariant (P := fun c _ => c.Geared) hfirst (fun _ _ hc => ⟨hc.modes, hc.period⟩)
    fun _ hc hd => hc.moves (goes_call _ _ _ hd)

theorem exists_of_ticks_cons {board : Board} {flash : Flash} {o : Outcome Controller Unit}
    (ho : (ticks ((board, flash) :: path)).run c = .ok o) :
    ∃ e f, tick.run (c.placed board flash) = .ok e ∧ (ticks path).run e.state = .ok f ∧
      o.state = f.state := by
  rw [ticks, run_bind_of_silent (run_modify _ c)] at ho
  obtain ⟨e, f, he, hf, rfl⟩ := run_bind_eq_ok.mp ho
  exact ⟨e, f, he, hf, rfl⟩

theorem Geared.ticks (h : c.Geared) {o : Outcome Controller Unit}
    (ho : (ticks path).run c = .ok o) : o.state.Geared := by
  induction path generalizing c o with
  | nil =>
    obtain rfl := Except.ok.inj ho
    exact h
  | cons step rest ih =>
    obtain ⟨board, flash⟩ := step
    obtain ⟨e, f, he, hf, hstate⟩ := exists_of_ticks_cons ho
    have hplaced : (c.placed board flash).Geared := ⟨h.modes, h.period⟩
    have hticked : e.state.Geared := hplaced.moves (goes_tick _ e he)
    rw [hstate]
    exact ih hticked hf

theorem Secure.completes_ticks (h : c.Secure) (hbits : ∀ step ∈ path, step.1.adc.bits ≤ 25) :
    (Controller.ticks path).Completes c fun _ d => d.Secure := by
  induction path generalizing c with
  | nil => exact .of_pure h
  | cons step rest ih =>
    obtain ⟨board, flash⟩ := step
    have hplaced : (c.placed board flash).Secure :=
      ⟨⟨h.store.aimed, h.store.addressed⟩, h.profile, hbits _ List.mem_cons_self, h.threshold⟩
    refine (completes_modify hplaced).bind fun _ d hd => (safe_tick d hd).bind fun _ e he => ?_
    exact ih he fun step hstep => hbits step (List.mem_cons_of_mem _ hstep)

theorem Usage.booted {board : Board} (hbits : board.adc.bits ≤ 25) {flash : Flash} {base : UInt32}
    {d : Outcome Controller Unit} (hd : init.run (ofBoard board flash base) = .ok d) :
    Usage base d.state := by
  have hkeeps : (ofBoard board flash base).KeepsProfile .init := trivial
  exact .call (.new hbits _) hkeeps (run_bind_pure_of_ok hd fun _ => Reply.none)

/-- What the mode switch of a stick shows at each pass, and when. -/
def shown (stick : Stick) (path : List (Board × Flash)) : List (UInt32 × Bool) :=
  path.map fun (board, _) => (board.now, board.switches.get stick)

/-- One pass and those after it. -/
theorem iterate_falls_cons (c : Controller) (stick : Stick) (rest : List (UInt32 × Bool)) :
    StickMode.toggled^[falls (c.switchLevels.get stick)
        (c.switchCadence.passes ((c.board.now, c.board.switches.get stick) :: rest))]
      (c.engines.get stick).mode =
    StickMode.toggled^[falls
        ((if c.switchCadence.due c.board.now then c.board.switches else c.switchLevels).get stick)
        ((c.switchCadence.poll c.board.now).2.passes rest)]
      (if c.toggles stick c.board.now then (c.engines.get stick).mode.toggled
        else (c.engines.get stick).mode) := by
  rw [Cadence.passes, toggles, pressed]
  cases c.switchCadence.due c.board.now with
  | false => rfl
  | true =>
    rw [if_pos rfl, if_pos rfl, Bool.true_and, falls_cons, Function.iterate_add_apply]
    cases c.switchLevels.get stick && !c.board.switches.get stick <;> rfl

/-- Over a run of passes a mode is toggled once for each fall of the level of its switch. -/
theorem mode_of_ticks {o : Outcome Controller Unit} (ho : (ticks path).run c = .ok o)
    (stick : Stick) :
    (o.state.engines.get stick).mode = StickMode.toggled^[falls (c.switchLevels.get stick)
      (c.switchCadence.passes (shown stick path))] (c.engines.get stick).mode := by
  induction path generalizing c o with
  | nil =>
    obtain rfl := Except.ok.inj ho
    rfl
  | cons step rest ih =>
    obtain ⟨board, flash⟩ := step
    obtain ⟨e, f, he, hf, hstate⟩ := exists_of_ticks_cons ho
    have hfirst : Switched _ False _ _ := switched_of_tick he False.elim
    have hrest := ih hf
    rw [hfirst.cadence, hfirst.levels, hfirst.modes] at hrest
    rw [hstate, hrest]
    exact (iterate_falls_cons (c.placed board flash) stick _).symm

/-- After boot and anything else, a run of passes toggles the mode of a stick once for each fall
of the level of its switch, from the one last read on, at the passes at which the gate of 50
milliseconds opens. Engines and settings agree, and a pass that toggles a mode has saved the
settings, to flash too if that works. -/
theorem Session.modes_toggle_on_press {board : Board} {flash : Flash} {base : UInt32}
    {first : Outcome Controller Unit} (hfirst : init.run (ofBoard board flash base) = .ok first)
    (h : Session (fun _ _ => True) (fun _ => True) first.state first.events c past) :
    c.switchCadence.period = 50 ∧
    ∀ path : List (Board × Flash),
      (Usage base c → base.toNat + (Part.profile 3).offset < UInt32.size →
        (∀ step ∈ path, step.1.adc.bits ≤ 25) → ∃ o, (ticks path).run c = .ok o) ∧
      ∀ o, (ticks path).run c = .ok o →
        (∀ stick, (o.state.engines.get stick).mode =
            StickMode.toggled^[falls (c.switchLevels.get stick)
              (c.switchCadence.passes (shown stick path))] (c.engines.get stick).mode ∧
          (o.state.live.sticks.get stick).mode = (o.state.engines.get stick).mode) ∧
        ∀ (board : Board) (flash : Flash) (e : Outcome Controller Unit),
          tick.run (o.state.placed board flash) = .ok e →
          (∃ stick, (e.state.engines.get stick).mode ≠ (o.state.engines.get stick).mode) →
          e.state.store.SavedAs e.state.live board.now
            (o.state.placed board flash).store.Works := by
  have hgeared := Session.geared (geared_init hfirst) h
  refine ⟨hgeared.period, fun path => ⟨fun husage hbase hbits => ?_, fun o ho => ⟨?_, ?_⟩⟩⟩
  · obtain ⟨o, ho, -⟩ := (husage.secure hbase).completes_ticks hbits
    exact ⟨o, ho⟩
  · intro stick
    exact ⟨mode_of_ticks ho stick, ((hgeared.ticks ho).modes stick).symm⟩
  · rintro board flash e he ⟨stick, hstick⟩
    exact (switched_of_tick he id).saved_of_mode_ne hstick

end

/-- The board at some time, with the first mode switch at some level. -/
def switchedBoard (now : UInt32) (level : Bool) : Board := { now, switches := ⟨level, true⟩ }

/-- A press that is over before the next look, on memory that cannot be written. -/
def shortPress : List (Board × Flash) :=
  [(switchedBoard 0 true, .erased 0), (switchedBoard 20 false, .erased 0),
    (switchedBoard 40 true, .erased 0)]

theorem bits_shortPress : ∀ step ∈ shortPress, step.1.adc.bits ≤ 25 := by
  intro step hstep
  simp only [shortPress, List.mem_cons, List.not_mem_nil, or_false] at hstep
  obtain rfl | rfl | rfl := hstep <;> exact (by decide : 10 ≤ 25)

/-- After a short press, one that lasts, on memory that can be written. -/
def pressedTwice : Except Fault
    (Outcome Controller Unit × Outcome Controller Unit × Outcome Controller Unit) := do
  let a ← init.run (ofBoard {} (.erased regionLength) 0)
  let b ← (ticks shortPress).run a.state
  let e ← tick.run (b.state.placed (switchedBoard 60 false) (.erased regionLength))
  return (a, b, e)

set_option maxRecDepth 100000 in
theorem modes_toggle_on_press_twice :
    ∃ a b e, pressedTwice = .ok (a, b, e) ∧ (b.state.engines.get .one).mode = .analog ∧
      (e.state.engines.get .one).mode = .digital ∧ e.state.store.SavedAs e.state.live 60 True := by
  have hrun : pressedTwice.toOption.map (fun (a, b, e) =>
      (a.state.switchLevels, a.state.switchCadence, (a.state.engines.get .one).mode,
        (e.state.engines.get .one).mode, b.state.store.base)) =
        some (.both true, ⟨50, none⟩, .analog, .digital, 0) := by
    decide +kernel
  obtain ⟨⟨a, b, e⟩, hpressed, hfacts⟩ := Option.map_eq_some_iff.mp hrun
  obtain ⟨hlevels, hcadence, hmode, hlater, hbase⟩ : _ ∧ _ ∧ _ ∧ _ ∧ _ := by
    simpa only [Prod.mk.injEq] using hfacts
  have hpressed := eq_ok_of_toOption hpressed
  obtain ⟨first, hfirst, h⟩ := exists_of_bind_eq_ok hpressed
  obtain ⟨o, ho, h⟩ := exists_of_bind_eq_ok h
  obtain ⟨last, hlast, h⟩ := exists_of_bind_eq_ok h
  simp only [pure, Except.pure, Except.ok.injEq, Prod.mk.injEq] at h
  obtain ⟨rfl, rfl, rfl⟩ := h
  have husage : Usage 0 first.state := .booted (by decide) hfirst
  have hroom : (0 : UInt32).toNat + (Part.profile 3).offset < UInt32.size := by decide
  obtain ⟨-, hruns⟩ := Session.modes_toggle_on_press hfirst .start
  obtain ⟨hends, htoggles⟩ := hruns shortPress
  obtain ⟨o', ho'⟩ := hends husage hroom bits_shortPress
  obtain rfl := Except.ok.inj (ho.symm.trans ho')
  obtain ⟨hmodes, hsaves⟩ := htoggles o ho
  obtain ⟨hafter, -⟩ := hmodes .one
  have hfalls : falls true (Cadence.passes ⟨50, none⟩ (shown .one shortPress)) = 0 := by decide
  rw [hlevels, hcadence, PerStick.get_both, hfalls] at hafter
  have hearlier : (o.state.engines.get .one).mode = .analog := hafter.trans hmode
  have hchanged : (last.state.engines.get .one).mode ≠ (o.state.engines.get .one).mode := by
    rw [hlater, hearlier]
    decide
  obtain ⟨slot, hslot, hreflects, hstored⟩ := hsaves _ _ last hlast ⟨.one, hchanged⟩
  have hworks : (o.state.placed (switchedBoard 60 false) (.erased regionLength)).store.Works :=
    ⟨Store.placed_erased.congr hbase rfl, Gate.free_default⟩
  exact ⟨first, o, last, hpressed, hearlier, hlater, slot, hslot, hreflects,
    fun _ => hstored hworks⟩

end Controller

end TwinStick
