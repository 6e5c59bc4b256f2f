import TwinStick.Proofs.Moves

/-! The keys of the sticks. Whatever the device goes through, every key goes down and up
in turn, and those that are down are the ones that the engine of their stick holds. -/

namespace TwinStick

/-- What an event does to a key, if anything: true if the key goes down. -/
def Event.stroke? (key : StickKey) : Event → Option Bool
  | host (.keyDown k) => if k = key then some true else none
  | host (.keyUp k) => if k = key then some false else none
  | _ => none

theorem Event.stroke?_edge (key k : StickKey) (down : Bool) :
    Event.stroke? key (.host (if down then .keyDown k else .keyUp k)) =
      if k = key then some down else none := by
  cases down <;> rfl

theorem Event.stroke?_eq_none {key : StickKey} {e : Event} (h : e.topic ≠ .key) :
    e.stroke? key = none := by
  cases e with
  | host e => cases e <;> first | rfl | exact absurd rfl h
  | _ => rfl

def strokes (key : StickKey) (events : List Event) : List Bool :=
  events.filterMap (Event.stroke? key)

def isDown (key : StickKey) (events : List Event) : Bool := (strokes key events).getLastD false

/-- From one position to another, the key goes down and up in turn. -/
structure Plays (key : StickKey) (before : Bool) (events : List Event) (after : Bool) : Prop where
  alternates : (before :: strokes key events).IsChain (· ≠ ·)
  last : (strokes key events).getLastD before = after

section

variable {key : StickKey} {down down' down'' : Bool} {events events' : List Event}
  {topics : List Topic}

theorem plays_of_strokes (h : strokes key events = []) : Plays key down events down := by
  refine ⟨?_, ?_⟩ <;> rw [h]
  · exact List.isChain_singleton down
  · rfl

theorem strokes_of_within (hw : Within topics events) (hk : Topic.key ∉ topics) :
    strokes key events = [] :=
  hw.filterMap_eq_nil fun _ he => Event.stroke?_eq_none (ne_of_mem_of_not_mem he hk)

theorem isChain_append {l l' : List Bool} (h : (down :: l).IsChain (· ≠ ·))
    (h' : (l.getLastD down :: l').IsChain (· ≠ ·)) : (down :: (l ++ l')).IsChain (· ≠ ·) := by
  induction l generalizing down with
  | nil => exact h'
  | cons b l ih =>
    rw [List.getLastD_cons] at h'
    obtain ⟨hne, hl⟩ := List.isChain_cons_cons.mp h
    exact List.isChain_cons_cons.mpr ⟨hne, ih hl h'⟩

theorem getLastD_append (l l' : List Bool) :
    (l ++ l').getLastD down = l'.getLastD (l.getLastD down) := by
  induction l generalizing down with
  | nil => rfl
  | cons b l ih => rw [List.cons_append, List.getLastD_cons, List.getLastD_cons, ih]

theorem Plays.append (h : Plays key down events down') (h' : Plays key down' events' down'') :
    Plays key down (events ++ events') down'' := by
  obtain ⟨hchain, rfl⟩ := h
  obtain ⟨hchain', rfl⟩ := h'
  have happend : strokes key (events ++ events') = strokes key events ++ strokes key events' :=
    List.filterMap_append
  refine ⟨?_, ?_⟩
  · rw [happend]
    exact isChain_append hchain hchain'
  · rw [happend, getLastD_append]

end

namespace Engine

/-- One engine goes over into another while these keys go down and up. -/
structure Switches (e e' : Engine) (keys : List HostEvent) : Prop where
  stick : e'.stick = e.stick
  idle : (e.mode = .analog → e.held = {}) → e'.mode = .analog → e'.held = {}
  plays : ∀ d, Plays ⟨e.stick, d⟩ (e.held.has d) (keys.map .host) (e'.held.has d)
  others : ∀ key : StickKey, key.stick ≠ e.stick → strokes key (keys.map .host) = []

/-- What the host is told of a direction when others are to be held. -/
def change? (e : Engine) (wanted : Directions) (d : Direction) : Option HostEvent :=
  if e.held.has d = wanted.has d then none
  else some (if wanted.has d then .keyDown ⟨e.stick, d⟩ else .keyUp ⟨e.stick, d⟩)

theorem events_hold (e : Engine) (wanted : Directions) :
    (e.hold wanted).2 = Direction.all.filterMap (e.change? wanted) := by
  have hchange : ∀ d : Direction, Option.map
      (fun p : Direction × Bool =>
        if p.2 then HostEvent.keyDown ⟨e.stick, p.1⟩ else .keyUp ⟨e.stick, p.1⟩)
      (if e.held.has d = wanted.has d then none else some (d, wanted.has d)) =
        e.change? wanted d := by
    intro d
    rw [change?]
    split <;> rfl
  rw [hold, Directions.changes, List.map_filterMap]
  exact congrArg (List.filterMap · Direction.all) (funext hchange)

theorem strokes_hold (e : Engine) (wanted : Directions) (key : StickKey) :
    strokes key ((e.hold wanted).2.map .host) =
      if e.stick = key.stick ∧ e.held.has key.direction ≠ wanted.has key.direction then
        [wanted.has key.direction]
      else [] := by
  obtain ⟨stick, d⟩ := key
  -- of the four directions only that of the key can be heard of
  have hstroke : ∀ x : Direction,
      ((e.change? wanted x).map Event.host).bind (Event.stroke? ⟨stick, d⟩) =
      if x = d ∧ e.stick = stick ∧ e.held.has d ≠ wanted.has d then some (wanted.has d)
      else none := by
    intro x
    by_cases hx : x = d
    · subst hx
      by_cases hh : e.held.has x = wanted.has x <;> simp [change?, hh, Event.stroke?_edge]
    · by_cases hh : e.held.has x = wanted.has x <;> simp [change?, hh, hx, Event.stroke?_edge]
  have hall : strokes ⟨stick, d⟩ ((e.hold wanted).2.map .host) = Direction.all.filterMap fun x =>
      if x = d ∧ e.stick = stick ∧ e.held.has d ≠ wanted.has d then some (wanted.has d)
      else none := by
    rw [strokes, events_hold, List.map_filterMap, List.filterMap_filterMap]
    exact congrArg (List.filterMap · Direction.all) (funext hstroke)
  rw [hall]
  by_cases hc : e.stick = stick ∧ e.held.has d ≠ wanted.has d
  · rw [if_pos hc]
    cases d <;> simp [Direction.all, hc]
  · rw [if_neg hc]
    simp [hc]

theorem plays_hold (e : Engine) (wanted : Directions) (d : Direction) :
    Plays ⟨e.stick, d⟩ (e.held.has d) ((e.hold wanted).2.map .host) (wanted.has d) := by
  by_cases hd : e.held.has d = wanted.has d
  · rw [hd]
    exact plays_of_strokes (by simp [strokes_hold, hd])
  · have hstrokes : strokes ⟨e.stick, d⟩ ((e.hold wanted).2.map .host) = [wanted.has d] := by
      simp [strokes_hold, hd]
    refine ⟨?_, ?_⟩ <;> rw [hstrokes]
    · exact List.isChain_pair.mpr hd
    · rfl

/-- Holding other directions, in whatever mode that ends. -/
theorem switches_hold (e : Engine) (wanted : Directions) {e' : Engine}
    (hs : e'.stick = e.stick) (hh : e'.held = wanted) (hi : e'.mode = .analog → wanted = {}) :
    Switches e e' (e.hold wanted).2 := by
  refine ⟨hs, fun _ hm => hh.trans (hi hm), fun d => ?_, fun key hk => ?_⟩
  · rw [hh]
    exact plays_hold e wanted d
  · rw [strokes_hold, if_neg fun h => hk h.1.symm]

theorem switches_silent {e e' : Engine} (hs : e'.stick = e.stick) (hh : e'.held = e.held)
    (hi : e'.mode = .analog → e.mode = .analog) : Switches e e' [] := by
  refine ⟨hs, fun h hm => hh.trans (h (hi hm)), fun d => ?_, fun key hk => rfl⟩
  rw [hh]
  exact plays_of_strokes rfl

theorem switches_setMode (e : Engine) (mode : StickMode) :
    Switches e (e.setMode mode).1 (e.setMode mode).2 := by
  by_cases hsame : mode = e.mode
  · rw [setMode, if_pos hsame]
    exact switches_silent rfl rfl id
  · rw [setMode, if_neg hsame]
    cases hmode : e.mode with
    | digital => exact switches_hold e {} rfl rfl fun _ => rfl
    | analog =>
      refine switches_silent rfl rfl fun h => ?_
      exact hmode

theorem switches_applySettings (e : Engine) (s : StickSettings) :
    Switches e (e.applySettings s).1 (e.applySettings s).2 := by
  have h := switches_setMode { e with sensitivity := s.sensitivity, invert := s.invert } s.mode
  exact ⟨h.stick, h.idle, h.plays, h.others⟩

theorem switches_process (e : Engine) (s : StickSample) :
    Switches e (e.process s).2.1 (e.process s).2.2 := by
  rw [process]
  cases hmode : e.mode with
  | analog => exact switches_silent rfl rfl id
  | digital =>
    refine switches_hold e s.directions rfl rfl fun h => ?_
    exact absurd (hmode.symm.trans h) (by decide)

end Engine

/-- The keys are where the engines have them, and have gone down and up in turn. A stick
that is analog holds none. -/
structure Holding (engines : PerStick Engine) (past : List Event) : Prop where
  own : ∀ stick, (engines.get stick).stick = stick
  idle : ∀ stick, (engines.get stick).mode = .analog → (engines.get stick).held = {}
  plays : ∀ key : StickKey,
    Plays key false past ((engines.get key.stick).held.has key.direction)

section

variable {engines : PerStick Engine} {past events : List Event} {topics : List Topic}

theorem Holding.isDown (h : Holding engines past) (key : StickKey) :
    isDown key past = (engines.get key.stick).held.has key.direction := (h.plays key).last

theorem Holding.quiet (h : Holding engines past) (hw : Within topics events)
    (hk : Topic.key ∉ topics) : Holding engines (past ++ events) :=
  ⟨h.own, h.idle, fun key =>
    (h.plays key).append (plays_of_strokes (strokes_of_within hw hk))⟩

theorem Holding.switch (h : Holding engines past) {stick : Stick} {e : Engine}
    {keys : List HostEvent} (hs : (engines.get stick).Switches e keys) :
    Holding (engines.set stick e) (past ++ keys.map .host) := by
  have hown := h.own stick
  refine ⟨fun other => ?_, fun other => ?_, fun key => ?_⟩
  · by_cases ho : stick = other
    · subst ho
      rw [PerStick.get_set_self, hs.stick, hown]
    · rw [PerStick.get_set_of_ne _ ho]
      exact h.own other
  · by_cases ho : stick = other
    · subst ho
      rw [PerStick.get_set_self]
      exact hs.idle (h.idle stick)
    · rw [PerStick.get_set_of_ne _ ho]
      exact h.idle other
  · obtain ⟨other, d⟩ := key
    refine (h.plays ⟨other, d⟩).append ?_
    by_cases ho : stick = other
    · subst ho
      have hplays := hs.plays d
      rw [hown] at hplays
      rw [PerStick.get_set_self]
      exact hplays
    · rw [PerStick.get_set_of_ne _ ho]
      refine plays_of_strokes (hs.others _ ?_)
      rw [hown]
      exact Ne.symm ho

theorem Holding.both (h : Holding engines past) {e e' : Engine} {keys keys' : List HostEvent}
    (hs : (engines.get .one).Switches e keys) (hs' : (engines.get .two).Switches e' keys') :
    Holding ⟨e, e'⟩ (past ++ (keys ++ keys').map .host) := by
  have htwo : ((engines.set .one e).get .two).Switches e' keys' := hs'
  rw [List.map_append, ← List.append_assoc]
  exact (h.switch hs).switch htwo

end

namespace Controller

open Routine

theorem holding_synced {c : Controller} {past : List Event} (h : Holding c.engines past) :
    Holding c.synced.engines (past ++ c.syncEvents) := by
  have hkeys : Holding c.synced.engines (past ++ c.syncKeys.map .host) :=
    h.both (Engine.switches_applySettings _ _) (Engine.switches_applySettings _ _)
  have hrest : Within [.combos, .defaultLayer] ([HostEvent.combos c.live.combosEnabled,
      .defaultLayer c.live.defaultLayer].map .host) := by
    simp [Within, Event.topic, HostEvent.topic]
  rw [syncEvents, List.map_append, ← List.append_assoc]
  exact hkeys.quiet hrest (by decide)

/-- Right before a report is sent the keys are where the samples want them. -/
theorem holding_reported {c : Controller} {past : List Event} (h : Holding c.engines past) :
    Holding c.reported.engines (past ++ c.reportKeys.map .host) :=
  h.both (Engine.switches_process _ _) (Engine.switches_process _ _)

theorem held_reported (c : Controller) (stick : Stick)
    (hm : (c.reported.engines.get stick).mode = .digital) :
    (c.reported.engines.get stick).held = (c.sampler.samples.get stick).directions := by
  have hengine : c.reported.engines.get stick = (c.processed stick).2.1 := by cases stick <;> rfl
  rw [hengine, processed, Engine.process_engine] at hm ⊢
  exact if_pos hm

theorem Move.holding {kind : MoveKind} {c d : Controller} {past events : List Event}
    (h : Holding c.engines past) (hm : Move kind c events d) :
    Holding d.engines (past ++ events) := by
  have hw := hm.within
  cases hm with
  | loaded hc hd hdone =>
    rw [← List.append_assoc]
    have hflash := within_of_onFlash (Store.emits_perform _ _ _ _ hd)
    exact holding_synced (h.quiet hflash (by decide))
  | booted hd =>
    have hflash := within_of_onFlash (Store.emits_init _ _ _ _ hd)
    rw [← List.append_assoc, ← List.append_assoc, engines_trackingDefaults]
    refine holding_synced ?_
    rw [woken_eq]
    exact (h.quiet hflash (by decide)).quiet (within_wakeEvents _) (by decide)
  | edited c edit => exact holding_synced h
  | modeToggled c stick => exact h.switch (Engine.switches_setMode _ _)
  | @sampled _ now hdue o hd =>
    have hread := within_of_onConverter (Sampler.emits_tick _ _ _ _ hd)
    have hkeys := holding_reported (c := c.withSampler o.state o.value.2)
      (h.quiet hread (by decide))
    have hreport : Within [.axes]
        [.host (.axes (c.withSampler o.state o.value.2).reported.report)] :=
      within_singleton (.head _)
    rw [reportEvents, ← List.append_assoc, ← List.append_assoc]
    exact hkeys.quiet hreport (by decide)
  | touchToggled c =>
    rw [touchToggled_fst]
    exact h.quiet hw (by decide)
  | panelTicked c now =>
    rw [panelTicked_fst]
    exact h.quiet hw (by decide)
  | _ => exact h.quiet hw (by decide)

theorem holding_call {c : Controller} {past : List Event} (h : Holding c.engines past)
    {call : ControllerCall} {d : Outcome Controller Reply} (hd : call.perform.run c = .ok d) :
    Holding d.state.engines (past ++ d.events) :=
  (goes_call c call d hd).invariant (P := fun c past => Holding c.engines past)
    (fun _ hc hm => hm.holding hc) h

theorem holding_new (board : Board) (flash : Flash) (base : UInt32) :
    Holding (ofBoard board flash base).engines [] := by
  refine ⟨fun stick => ?_, fun stick _ => ?_, fun ⟨stick, direction⟩ => ?_⟩
  · cases stick <;> rfl
  · cases stick <;> rfl
  · cases stick <;> cases direction <;> exact plays_of_strokes rfl

/-- The part of a pass that ends with the report, if there is one. -/
def upToReport (now : UInt32) : Routine Controller Bool := do
  let _ ← tickMatrix now
  tickSticks now

theorem axes_notMem {events : List Event} {topics : List Topic} (hw : Within topics events)
    (ha : Topic.axes ∉ topics) (r : AxisReport) : Event.host (.axes r) ∉ events :=
  fun hr => ha (hw _ hr)

/-- The device after a pass has looked at the matrix and taken a sample. -/
def sampledBy (c : Controller) (o : Outcome Adc (Bool × Sampler)) : Controller :=
  { c with matrix := (c.matrix.scan c.board.closed c.board.now).2 }.withSampler o.state o.value.2

section

variable {c : Controller} {d : Outcome Controller Unit}

/-- A pass in which the rate gate of the sticks stays shut has no report. -/
theorem within_of_idle_tick (hd : tick.run c = .ok d)
    (hidle : c.sampler.cadence.due c.board.now = false) :
    Within (followUpKinds.flatMap MoveKind.topics) d.events := by
  let m : Controller := { c with matrix := (c.matrix.scan c.board.closed c.board.now).2 }
  have hsticks : (tickSticks c.board.now).run m = .ok ⟨false, m, []⟩ := run_tickSticks_idle hidle
  rw [tick_eq, run_bind_of_silent (run_get c), run_bind_of_silent (run_tickMatrix _ c),
    run_bind_of_silent hsticks] at hd
  exact (goes_followUp m _ _ d hd).within

/-- A pass in which that gate opens takes a sample, reports it, and goes on to the rest. -/
theorem run_of_due_tick (hd : tick.run c = .ok d)
    (hdue : c.sampler.cadence.due c.board.now = true) :
    ∃ (o : Outcome Adc (Bool × Sampler)) (after : List Event),
      (c.sampler.tick c.board.now).run c.board.adc = .ok o ∧
      (upToReport c.board.now).run c =
        .ok ⟨true, (c.sampledBy o).reported, o.events ++ (c.sampledBy o).reportEvents⟩ ∧
      d.events = o.events ++ (c.sampledBy o).reportEvents ++ after ∧
      Within (followUpKinds.flatMap MoveKind.topics) after := by
  let m : Controller := { c with matrix := (c.matrix.scan c.board.closed c.board.now).2 }
  have hgate : m.sampler.cadence.due c.board.now = true := hdue
  rw [tick_eq, run_bind_of_silent (run_get c), run_bind_of_silent (run_tickMatrix _ c)] at hd
  obtain ⟨e, f, hsticks, hrest, rfl⟩ := run_bind_eq_ok.mp hd
  have hlast := (goes_followUp e.state _ _ f hrest).within
  have hpart : (upToReport c.board.now).run c = .ok e := by
    rw [upToReport, run_bind_of_silent (run_tickMatrix _ c)]
    exact hsticks
  rw [run_tickSticks_due hgate] at hsticks
  obtain ⟨o, ho, rfl⟩ := exists_of_map_eq_ok hsticks
  exact ⟨o, f.events, ho, hpart, rfl, hlast⟩

end

/-- A report is the last thing that happens to the sticks in its pass; the keys of the
samples that it reports come right before it. -/
theorem report_of_tick {c : Controller} {d : Outcome Controller Unit} (hd : tick.run c = .ok d)
    {before after : List Event} {r : AxisReport}
    (he : d.events = before ++ .host (.axes r) :: after) :
    ∃ (t : Controller) (reads : List Event),
      (upToReport c.board.now).run c = .ok ⟨true, t.reported, before ++ [.host (.axes r)]⟩ ∧
      t.engines = c.engines ∧ Within [.converter] reads ∧
      before = reads ++ t.reportKeys.map .host := by
  have hmem : Event.host (.axes r) ∈ d.events := by
    rw [he]
    exact List.mem_append_right _ List.mem_cons_self
  cases hdue : c.sampler.cadence.due c.board.now with
  | false => exact absurd hmem (axes_notMem (within_of_idle_tick hd hdue) (by decide) r)
  | true =>
    obtain ⟨o, rest, ho, hrun, hevents, hlast⟩ := run_of_due_tick hd hdue
    let t := c.sampledBy o
    have hr : Event.host (.axes r) ∉ rest := axes_notMem hlast (by decide) r
    have hreads := within_of_onConverter (Sampler.emits_tick _ _ _ _ ho)
    have hkeys : Within [.key] (t.reportKeys.map .host) := by
      rw [reportKeys, List.map_append]
      exact (Engine.within_process _ _).append (Engine.within_process _ _)
    have hbefore : Event.host (.axes r) ∉ o.events ++ t.reportKeys.map .host := fun h =>
      (List.mem_append.mp h).elim (axes_notMem hreads (by decide) r)
        (axes_notMem hkeys (by decide) r)
    have hsplit : o.events ++ t.reportKeys.map .host ++ .host (.axes t.reported.report) :: rest =
        before ++ .host (.axes r) :: after := by
      rw [← he, hevents]
      simp [t, reportEvents]
    obtain ⟨hb, hreport, -⟩ := (List.append_cons_inj_of_notMem hbefore hr).mp hsplit
    refine ⟨t, o.events, ?_, rfl, hreads, hb.symm⟩
    rw [hrun, ← hb, ← hreport]
    simp [t, reportEvents]

theorem eq_tick_of_report {c : Controller} {call : ControllerCall} {d : Outcome Controller Reply}
    (hd : call.perform.run c = .ok d) {r : AxisReport} (hr : .host (.axes r) ∈ d.events) :
    call = .tick := by
  have hmoves := goes_call c call d hd
  have hnone : ∀ {kinds : List MoveKind}, call.kinds ⊆ kinds →
      Topic.axes ∉ kinds.flatMap MoveKind.topics → call = .tick := fun hsub ha =>
    absurd hr (axes_notMem (hmoves.mono hsub).within ha r)
  cases call with
  | tick => rfl
  | combo index pressed => exact hnone (ControllerCall.kinds_combo index pressed) (by decide)
  | key code pressed => exact hnone (ControllerCall.kinds_key code pressed) (by decide)
  | _ => exact hnone (List.Subset.refl _) (by rw [ControllerCall.kinds]; decide)

theorem Session.holding {board : Board} {flash : Flash} {base : UInt32} {c : Controller}
    {past : List Event}
    (h : Session (fun _ _ => True) (fun _ => True) (ofBoard board flash base) [] c past) :
    Holding c.engines past :=
  h.invariant (P := fun c past => Holding c.engines past) (holding_new board flash base)
    (fun _ _ hc => hc) fun _ hc hd => holding_call hc hd

/-- In any session, whatever is called and whatever fails, every key of a stick goes down
and up in turn. Those that are down when a call ends are the ones that the engine holds,
none for an analog stick; and when a report is sent, those of a digital stick are the
directions of the sample that it reports. -/
theorem Session.keys_follow {board : Board} {flash : Flash} {base : UInt32} {c : Controller}
    {past : List Event}
    (h : Session (fun _ _ => True) (fun _ => True) (ofBoard board flash base) [] c past) :
    (∀ key : StickKey, (false :: strokes key past).IsChain (· ≠ ·) ∧
      isDown key past = (c.engines.get key.stick).held.has key.direction ∧
      ((c.engines.get key.stick).mode = .analog → isDown key past = false)) ∧
    ∀ (call : ControllerCall) (d : Outcome Controller Reply) (before after : List Event)
      (r : AxisReport), call.perform.run c = .ok d →
      d.events = before ++ .host (.axes r) :: after →
      call = .tick ∧ ∃ m, (upToReport c.board.now).run c =
          .ok ⟨true, m, before ++ [.host (.axes r)]⟩ ∧
        ∀ key : StickKey, (m.engines.get key.stick).mode = .digital →
          isDown key (past ++ before) =
            (m.sampler.samples.get key.stick).directions.has key.direction := by
  have hold := h.holding
  refine ⟨fun key => ⟨(hold.plays key).alternates, hold.isDown key, fun hm => ?_⟩, ?_⟩
  · rw [hold.isDown, hold.idle _ hm]
    cases key.direction <;> rfl
  · intro call d before after r hd he
    have hr : Event.host (.axes r) ∈ d.events := by
      rw [he]
      exact List.mem_append_right _ List.mem_cons_self
    obtain rfl := eq_tick_of_report hd hr
    obtain ⟨e, e', htick, he', rfl⟩ := run_bind_eq_ok.mp hd
    obtain rfl := Except.ok.inj he'
    rw [List.append_nil] at he
    obtain ⟨t, reads, hrun, hengines, hreads, rfl⟩ := report_of_tick htick he
    refine ⟨rfl, t.reported, hrun, fun key hm => ?_⟩
    have hsent := hold.quiet hreads (by decide)
    rw [← hengines] at hsent
    have hsent := holding_reported hsent
    rw [List.append_assoc] at hsent
    rw [hsent.isDown, held_reported t _ hm]
    rfl

/-- The first stick is made digital and then pushed to the left; the average of the
samples takes a second pass to get there. -/
def pushed : Except Fault (Controller × List Event) := do
  let board : Board := { adc := { inputs :=
    ⟨⟨.constant 0, .constant Signal.midpoint⟩, .both (.constant Signal.midpoint)⟩ } }
  let a ← ControllerCall.init.perform.run (ofBoard {} (.erased regionLength) 0)
  let b ← (ControllerCall.toggleStickMode .one 0).perform.run a.state
  let c ← ControllerCall.tick.perform.run { b.state with board }
  return ({ c.state with board := { board with now := 10 } },
    [] ++ a.events ++ b.events ++ c.events)

theorem session_pushed {c : Controller} {past : List Event} (h : pushed = .ok (c, past)) :
    Session (fun _ _ => True) (fun _ => True) (ofBoard {} (.erased regionLength) 0) [] c past := by
  obtain ⟨a, ha, h⟩ := exists_of_bind_eq_ok h
  obtain ⟨b, hb, h⟩ := exists_of_bind_eq_ok h
  obtain ⟨c, hc, h⟩ := exists_of_bind_eq_ok h
  obtain ⟨rfl, rfl⟩ := Prod.mk.inj (Except.ok.inj h)
  refine .outside (.call (.outside (.call (.call .start ?_ ha) ?_ hb) ?_ b.state.store.flash) ?_ hc)
    ?_ c.state.store.flash
  all_goals trivial

set_option maxRecDepth 100000 in
theorem keys_follow_pushed :
    ∃ c past d m, pushed = .ok (c, past) ∧ ControllerCall.tick.perform.run c = .ok d ∧
      (upToReport c.board.now).run c = .ok ⟨true, m, d.events⟩ ∧
      isDown ⟨.one, .left⟩ past = false ∧ (c.engines.get .one).held.left = false ∧
      isDown ⟨.one, .left⟩ (past ++ d.events.dropLast) = true ∧
      (m.sampler.samples.get .one).directions.left = true := by
  have hrun : pushed.toOption.bind (fun (c, past) =>
      (ControllerCall.tick.perform.run c).toOption.bind fun d =>
        ((upToReport c.board.now).run c).toOption.map fun m =>
          (d.events.drop 4, (m.state.engines.get .one).mode, strokes ⟨.one, .left⟩ past,
            strokes ⟨.one, .left⟩ (d.events.take 4))) =
        some ([.host (.keyDown ⟨.one, .left⟩), .host (.axes .zero)], .digital, [], []) := by
    decide +kernel
  obtain ⟨⟨c, past⟩, hpushed, h⟩ := Option.bind_eq_some_iff.mp hrun
  obtain ⟨d, hd, h⟩ := Option.bind_eq_some_iff.mp h
  obtain ⟨m, hm, h⟩ := Option.map_eq_some_iff.mp h
  obtain ⟨hlast, hmode, hpast, hreads⟩ : _ ∧ _ ∧ _ ∧ _ := by simpa only [Prod.mk.injEq] using h
  have hrest : d.events = (d.events.take 4 ++ [.host (.keyDown ⟨.one, .left⟩)]) ++
      .host (.axes .zero) :: [] := by
    conv_lhs => rw [← List.take_append_drop 4 d.events, hlast]
    simp
  obtain ⟨hkeys, hreports⟩ := Session.keys_follow (session_pushed (eq_ok_of_toOption hpushed))
  obtain ⟨-, hup, -⟩ := hkeys ⟨.one, .left⟩
  obtain ⟨-, m', hm', hdown⟩ := hreports .tick d _ _ _ (eq_ok_of_toOption hd) hrest
  obtain rfl := Except.ok.inj ((eq_ok_of_toOption hm).symm.trans hm')
  have hpressed := hdown ⟨.one, .left⟩ hmode
  have hbefore : d.events.dropLast = d.events.take 4 ++ [.host (.keyDown ⟨.one, .left⟩)] := by
    conv_lhs => rw [hrest]
    exact List.dropLast_concat
  have hisUp : isDown ⟨.one, .left⟩ past = false := by rw [isDown, hpast]; rfl
  have hisDown : isDown ⟨.one, .left⟩ (past ++ d.events.dropLast) = true := by
    rw [hbefore, isDown, strokes, List.filterMap_append, List.filterMap_append]
    change (strokes _ past ++ (strokes _ (d.events.take 4) ++ [true])).getLastD false = true
    rw [hpast, hreads]
    rfl
  refine ⟨c, past, d, m', eq_ok_of_toOption hpushed, eq_ok_of_toOption hd, ?_, hisUp, ?_,
    hisDown, ?_⟩
  · rw [hm', ← hrest]
  · exact hup.symm.trans hisUp
  · rw [← hbefore, hisDown] at hpressed
    exact hpressed.symm

end Controller

end TwinStick
