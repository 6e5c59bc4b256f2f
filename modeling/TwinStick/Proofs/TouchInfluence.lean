import TwinStick.Proofs.Moves
import TwinStick.Proofs.TouchViews

/-! What touches of a panel that is switched off can do. Two devices that differ only in
what their panels say of touches, while the touchscreen is off, do the same and become the
same, except for what the tracker notes of touch inputs: the housekeeping shows the tracker
a touch whenever the panel is ready, wanted or not. -/

namespace TwinStick

open Routine Comparison

namespace Controller

/-- The device without all that touches can change while the touchscreen is off. -/
def core (c : Controller) : Controller := c.view unheard false

/-- The device without what its panel says of touches. -/
def whole (c : Controller) : Controller := c.view unheard true

/-- The readings of a pass of the housekeeping, and whether anything new was read. -/
def look (now : UInt32) : Routine Controller Bool := do
  let scanned ← tickMatrix now
  let sampled ← tickSticks now
  return scanned || sampled

theorem tick_eq_look : tick = (do
    let now := (← get).board.now
    let looked ← look now
    followUp now looked) := by
  simp only [look, bind_assoc, pure_bind]
  rfl

def looks (c : Controller) : Bool :=
  (c.matrix.scan c.board.closed c.board.now).1 || c.sampler.cadence.due c.board.now

theorem look_leaves {c : Controller} {m : Outcome Controller Bool}
    (hm : (look c.board.now).run c = .ok m) :
    m.value = c.looks ∧ m.state.tracker = c.tracker ∧
      m.state.snapshot.touching = c.snapshot.touching := by
  let t : Controller := { c with matrix := (c.matrix.scan c.board.closed c.board.now).2 }
  rw [look, run_bind_of_silent (run_tickMatrix _ c)] at hm
  cases hdue : c.sampler.cadence.due c.board.now with
  | false =>
    rw [run_bind_of_silent (run_tickSticks_idle (c := t) hdue)] at hm
    obtain rfl := Except.ok.inj hm
    exact ⟨by rw [looks, hdue], rfl, rfl⟩
  | true =>
    obtain ⟨e, e', he, he', rfl⟩ := run_bind_eq_ok.mp hm
    rw [run_tickSticks_due (c := t) hdue] at he
    obtain ⟨o, -, rfl⟩ := exists_of_map_eq_ok he
    obtain rfl := Except.ok.inj he'
    exact ⟨by rw [looks, hdue], rfl, rfl⟩

section

variable {contacts : Bool} (now : UInt32)

theorem go_look : (viewed (·.touchEnabled) contacts).Go Eq (look now) (look now) :=
  (housekeeping_viewed.tickMatrix rfl).bind_eq fun _ =>
    (housekeeping_viewed.tickSticks rfl).bind_eq fun _ => go_pure rfl

theorem go_wrapUp : (viewed (·.touchEnabled) contacts).Go Eq (wrapUp now) (wrapUp now) := by
  have hC : (viewed (·.touchEnabled) contacts).Housekeeping := housekeeping_viewed
  rw [wrapUp, tickSwitches_eq_told, tickPanel_eq_told]
  refine ((hC.tickSwitchesTold rfl).bind_eq fun _ => go_pure rfl).bind_eq fun _ => ?_
  refine ((hC.tickPanelTold rfl).bind_eq fun _ => go_pure rfl).bind_eq fun _ => ?_
  refine .get_bind fun c d hc => ?_
  rw [eq_of_view (·.live) (fun _ => rfl) hc]
  exact go_viewed_onStore _

end

section

variable {heard : DeviceSettings → Bool} {contacts : Bool} {r : Routine Controller α}
  {c d : Controller}

/-- Runs from devices that look the same come to the same. -/
theorem of_go (hr : (viewed heard contacts).Go Eq r r)
    (h : d.view heard contacts = c.view heard contacts) {o o' : Outcome Controller α}
    (ho : r.run c = .ok o) (ho' : r.run d = .ok o') :
    o'.value = o.value ∧ o'.state.view heard contacts = o.state.view heard contacts ∧
      o'.events = o.events := by
  have hpair := (go_iff rfl).mp hr c d h
  rw [ho, ho'] at hpair
  cases hpair with
  | ok hd => exact ⟨hd.value.symm, hd.state, (List.forall₂_eq_eq_eq ▸ hd.events).symm⟩

/-- What looks the same looks the same to those who see less. -/
theorem seen_of_go (hr : (viewed heard contacts).Go Eq r r) {coarse : Controller → τ}
    (hcoarse : ∀ c, coarse (c.view heard contacts) = coarse c)
    (h : d.view heard contacts = c.view heard contacts) :
    (r.run d).map (·.seen coarse) = (r.run c).map (·.seen coarse) := by
  have hpair := (go_iff rfl).mp hr c d h
  generalize r.run c = x at hpair
  generalize r.run d = x' at hpair
  cases hpair with
  | fault e => rfl
  | @ok o o' hd =>
    have hstate : coarse o'.state = coarse o.state := by rw [← hcoarse, hd.state, hcoarse]
    have hevents : o'.events = o.events := (List.forall₂_eq_eq_eq ▸ hd.events).symm
    simp only [Except.map, Outcome.seen, hd.value, hstate, hevents]

end

end Controller

/-- The call is a pass of the housekeeping that shows the tracker a touch on one of the
devices only: it reads something new, the panel is ready, and a touch input is registered. -/
def ControllerCall.Leaks (c d : Controller) : ControllerCall → Prop
  | tick => c.looks = true ∧ c.touchReady = true ∧ d.board.panel.touching ≠ c.board.panel.touching ∧
    ∃ i ∈ c.tracker.entries, i.kind = .touch
  | _ => False

/-- The boards are the same but for what their panels say of touches, and if the
touchscreen is on, not even that differs. -/
structure Board.Alike (on : Bool) (board board' : Board) : Prop where
  others : { board' with panel := board.panel } = board
  blind : board'.panel.blind = board.panel.blind
  heard : on = true → board'.panel = board.panel

namespace Controller

/-- Two devices that start as one and go through the same calls, on boards whose panels
answer differently only while the touchscreen is off. Goes with all that the world has seen
of either, and with whether any call leaked a touch. -/
inductive Twins (first : Controller) :
    Controller → List Event → Controller → List Event → Prop → Prop
  | start : Twins first first [] first [] False
  | call {c d : Controller} {past past' : List Event} {leaked : Prop}
      (h : Twins first c past d past' leaked) {board board' : Board} (flash : Flash)
      (hb : board.Alike c.live.touchEnabled board') {call : ControllerCall}
      {o o' : Outcome Controller Reply} (ho : call.perform.run (c.placed board flash) = .ok o)
      (ho' : call.perform.run (d.placed board' flash) = .ok o') :
      Twins first o.state (past ++ o.events) o'.state (past' ++ o'.events)
        (leaked ∨ call.Leaks (c.placed board flash) (d.placed board' flash))

theorem view_view (c : Controller) (heard : DeviceSettings → Bool) (contacts : Bool) :
    (c.view heard contacts).view unheard contacts = c.view unheard contacts := by
  cases contacts <;> cases hheard : heard c.live <;> simp [view, unheard, hheard]

/-- Boards that are alike look the same to devices that look the same. -/
theorem view_placed {c d : Controller} {contacts : Bool}
    (h : d.view unheard contacts = c.view unheard contacts)
    {board board' : Board} (hb : board.Alike c.live.touchEnabled board') (flash : Flash) :
    (d.placed board' flash).view (·.touchEnabled) contacts =
      (c.placed board flash).view (·.touchEnabled) contacts := by
  have hon := eq_of_view (·.live.touchEnabled) (fun _ => rfl) h
  have hpanel : (if c.live.touchEnabled then board'.panel else board'.panel.blind) =
      if c.live.touchEnabled then board.panel else board.panel.blind := by
    split
    · next hlive => exact hb.heard hlive
    · exact hb.blind
  have hboard := congrArg (fun b : Board => { b with
    panel := if c.live.touchEnabled then board.panel else board.panel.blind }) hb.others
  calc (d.placed board' flash).view (·.touchEnabled) contacts
    _ = (d.view unheard contacts).placed { board' with
          panel := if d.live.touchEnabled then board'.panel else board'.panel.blind } flash := rfl
    _ = (c.view unheard contacts).placed { board with
          panel := if c.live.touchEnabled then board.panel else board.panel.blind } flash := by
        rw [h, hon, hpanel]
        exact congrArg (placed _ · flash) hboard
    _ = (c.placed board flash).view (·.touchEnabled) contacts := rfl

theorem tracker_of_wrapUp {c d : Controller} {events : List Event}
    (h : Moves wrapUpKinds c events d) : d.tracker = c.tracker := by
  induction h with
  | refl => rfl
  | tail _ hk hm ih =>
    refine Eq.trans ?_ ih
    cases hm with
    | panelTicked m now => rw [panelTicked_fst]
    | line | saved | modeToggled | switchesPolled | switchRead => rfl
    | _ => exact absurd hk (by decide)

theorem whole_wrapUp_iff {c d : Controller} {now : UInt32}
    (h : d.view (·.touchEnabled) false = c.view (·.touchEnabled) false)
    {o o' : Outcome Controller Unit} (ho : (wrapUp now).run c = .ok o)
    (ho' : (wrapUp now).run d = .ok o') :
    o'.state.whole = o.state.whole ↔ d.tracker = c.tracker := by
  constructor
  · intro hwhole
    calc d.tracker
      _ = o'.state.tracker := (tracker_of_wrapUp (goes_wrapUp d now o' ho')).symm
      _ = o.state.tracker := eq_of_view (·.tracker) (fun _ => rfl) hwhole
      _ = c.tracker := tracker_of_wrapUp (goes_wrapUp c now o ho)
  · intro htracker
    have hview : d.view (·.touchEnabled) true = c.view (·.touchEnabled) true :=
      calc d.view (·.touchEnabled) true
        _ = { d.view (·.touchEnabled) false with tracker := d.tracker } := rfl
        _ = { c.view (·.touchEnabled) false with tracker := c.tracker } := by rw [h, htracker]
        _ = c.view (·.touchEnabled) true := rfl
    obtain ⟨-, hlast, -⟩ := of_go (go_wrapUp now) hview ho ho'
    have hwhole := congrArg whole hlast
    rw [whole, whole, view_view, view_view] at hwhole
    exact hwhole

theorem not_leaks_iff {c d : Controller} (hready : d.touchReady = c.touchReady)
    (hlooks : c.looks = true) : ¬ ControllerCall.tick.Leaks c d ↔
      d.snapshot.touching = c.snapshot.touching ∨ ∀ i ∈ c.tracker.entries, i.kind ≠ .touch := by
  rw [ControllerCall.Leaks, snapshot, snapshot, hready]
  cases c.touchReady with
  | false => simp
  | true => simp [hlooks, or_iff_not_imp_left]

/-- From devices that differ in what their panels say of touches only, a pass of the
housekeeping makes the trackers differ exactly if it leaks. -/
theorem whole_tick_iff {c d : Controller}
    (h : d.view (·.touchEnabled) true = c.view (·.touchEnabled) true)
    {o o' : Outcome Controller Unit} (ho : tick.run c = .ok o) (ho' : tick.run d = .ok o') :
    o'.state.whole = o.state.whole ↔ ¬ ControllerCall.tick.Leaks c d := by
  have hnow := eq_of_view (·.board.now) (fun _ => rfl) h
  have hready := eq_of_view (·.touchReady) (fun _ => rfl) h
  rw [tick_eq_look, run_bind_of_silent (run_get _)] at ho ho'
  obtain ⟨m, e, hm, he, rfl⟩ := run_bind_eq_ok.mp ho
  obtain ⟨m', e', hm', he', rfl⟩ := run_bind_eq_ok.mp ho'
  obtain ⟨hlooks, htracker, htouching⟩ := look_leaves hm
  obtain ⟨-, -, htouching'⟩ := look_leaves hm'
  rw [hnow] at hm' he'
  obtain ⟨hvalue, hview, -⟩ := of_go (go_look c.board.now) h hm hm'
  -- the readings leave the trackers alone: they are still one and the same, and what they
  -- are shown next differs in the touch alone
  have hcore : m'.state.view (·.touchEnabled) false = m.state.view (·.touchEnabled) false :=
    congrArg (fun c : Controller => { c with tracker := c.tracker.blind }) hview
  have htracker' := eq_of_view (·.tracker) (fun _ => rfl) hview
  have hsnapshot := eq_of_view (·.snapshot.blind) (fun _ => rfl) hview
  rw [hvalue, hlooks] at he'
  rw [hlooks] at he
  cases hlooked : c.looks with
  | false =>
    rw [hlooked] at he he'
    have hsilent : ¬ ControllerCall.tick.Leaks c d := fun hleaks =>
      nomatch hlooked.symm.trans hleaks.1
    exact iff_of_true ((whole_wrapUp_iff hcore he he').mpr htracker') hsilent
  | true =>
    rw [hlooked, followUp, if_pos rfl] at he he'
    rw [run_bind_of_silent (run_modify _ _)] at he he'
    obtain ⟨-, hupdated, -⟩ := of_go (go_viewed_updateAll rfl) hcore (run_modify _ _)
      (run_modify _ _)
    refine (whole_wrapUp_iff hupdated he he').trans ?_
    dsimp only
    rw [htracker', Tracker.updateAll_eq_iff _ hsnapshot, htouching, htouching', htracker]
    exact (not_leaks_iff hready hlooked).symm

section

variable {c d : Controller} {board board' : Board} {call : ControllerCall}

theorem hidden_placed {contacts : Bool}
    (h : d.view unheard contacts = c.view unheard contacts)
    (hb : board.Alike c.live.touchEnabled board') (flash : Flash) :
    (d.placed board' flash).view unheard contacts =
      (c.placed board flash).view unheard contacts := by
  rw [← view_view _ (·.touchEnabled), view_placed h hb, view_view]

theorem core_call (call : ControllerCall) (h : d.core = c.core)
    (hb : board.Alike c.live.touchEnabled board') (flash : Flash) :
    (call.perform.run (d.placed board' flash)).map (·.seen core) =
      (call.perform.run (c.placed board flash)).map (·.seen core) := by
  by_cases htick : call = .tick
  · subst htick
    have htold := housekeeping_viewed.tickTold fun _ _ hn => go_viewed_updateAll hn
    have htick : (viewed (·.touchEnabled) false).Go Eq ControllerCall.tick.perform
        ControllerCall.tick.perform := by
      rw [ControllerCall.perform, tick_eq_told]
      exact (htold.bind_eq fun _ => go_pure rfl).bind_eq fun _ => go_pure rfl
    exact seen_of_go htick (fun c => c.view_view _ false) (view_placed h hb flash)
  · have hcall := commands_viewed.perform (calls_viewed false htick)
    exact seen_of_go hcall (fun c => c.view_view _ false) (hidden_placed h hb flash)

theorem whole_call_iff (h : d.whole = c.whole) (hb : board.Alike c.live.touchEnabled board')
    {flash : Flash} {o o' : Outcome Controller Reply}
    (ho : call.perform.run (c.placed board flash) = .ok o)
    (ho' : call.perform.run (d.placed board' flash) = .ok o') :
    o'.state.whole = o.state.whole ↔
      ¬ call.Leaks (c.placed board flash) (d.placed board' flash) := by
  by_cases htick : call = .tick
  · subst htick
    obtain ⟨e, f, he, hf, rfl⟩ := run_bind_eq_ok.mp ho
    obtain ⟨e', f', he', hf', rfl⟩ := run_bind_eq_ok.mp ho'
    obtain rfl := Except.ok.inj hf
    obtain rfl := Except.ok.inj hf'
    exact whole_tick_iff (view_placed h hb flash) he he'
  · have hsilent : ¬ call.Leaks (c.placed board flash) (d.placed board' flash) := by
      cases call with
      | tick => exact absurd rfl htick
      | _ => exact id
    have hcall := commands_viewed.perform (calls_viewed true htick)
    exact iff_of_true (of_go hcall (hidden_placed h hb flash) ho ho').2.1 hsilent

end

/-- Whatever the panels of two devices say while the touchscreen is off, the devices show
the world the same and become the same but for the contacts of touch inputs, and from there
any call ends alike on both. They become the same altogether unless a call has leaked, and
a call makes them differ exactly if it leaks. -/
theorem Twins.influence_iff {first c d : Controller} {past past' : List Event} {leaked : Prop}
    (h : Twins first c past d past' leaked) :
    past' = past ∧ d.core = c.core ∧ (¬ leaked → d.whole = c.whole) ∧
    ∀ (call : ControllerCall) (board board' : Board) (flash : Flash),
      board.Alike c.live.touchEnabled board' →
      (call.perform.run (d.placed board' flash)).map (·.seen core) =
        (call.perform.run (c.placed board flash)).map (·.seen core) ∧
      (d.whole = c.whole → ∀ o o', call.perform.run (c.placed board flash) = .ok o →
        call.perform.run (d.placed board' flash) = .ok o' →
        (o'.state.whole = o.state.whole ↔
          ¬ call.Leaks (c.placed board flash) (d.placed board' flash))) := by
  -- the last part follows from the others, so only they are carried along the run
  have hsame : past' = past ∧ d.core = c.core ∧ (¬ leaked → d.whole = c.whole) := by
    induction h with
    | start => exact ⟨rfl, rfl, fun _ => rfl⟩
    | @call c d past past' leaked _ board board' flash hb call o o' ho ho' ih =>
      obtain ⟨hpast, hcore, hwhole⟩ := ih
      have hcall := core_call call hcore hb flash
      rw [ho, ho'] at hcall
      obtain ⟨-, hlast, hevents⟩ := Outcome.mk.inj (Except.ok.inj hcall)
      refine ⟨congr (congrArg _ hpast) hevents, hlast, fun hsilent => ?_⟩
      obtain ⟨hbefore, hnow⟩ := not_or.mp hsilent
      exact (whole_call_iff (hwhole hbefore) hb ho ho').mpr hnow
  obtain ⟨hpast, hcore, hwhole⟩ := hsame
  refine ⟨hpast, hcore, hwhole, fun call board board' flash hb => ?_⟩
  exact ⟨core_call call hcore hb flash, fun hsame _ _ ho ho' => whole_call_iff hsame hb ho ho'⟩

theorem Twins.together {first c : Controller} {past past' : List Event} {leaked : Prop}
    (h : Twins first c past c past' leaked) {call : ControllerCall}
    {o : Outcome Controller Reply} (ho : call.perform.run c = .ok o) :
    Twins first o.state (past ++ o.events) o.state (past' ++ o.events)
      (leaked ∨ call.Leaks c c) :=
  h.call c.store.flash ⟨rfl, rfl, fun _ => rfl⟩ ho ho

/-- The touchscreen of a device that tracks one more input is switched off, and then the
housekeeping passes, once with nobody and once with somebody touching the panel. -/
def passed (kind : InputKind) :
    Except Fault (Controller × Outcome Controller Reply × Outcome Controller Reply) := do
  let a ← ControllerCall.init.perform.run (ofBoard {} (.erased regionLength) 0)
  let b ← (ControllerCall.tracker (.track kind 0)).perform.run a.state
  let c ← (ControllerCall.toggleTouchscreen 0).perform.run b.state
  let flash := c.state.store.flash
  let touched : Board := { panel := .fitted { touching := true, pending := true } }
  let o ← ControllerCall.tick.perform.run (c.state.placed {} flash)
  let o' ← ControllerCall.tick.perform.run (c.state.placed touched flash)
  return (c.state, o, o')

theorem twins_passed {kind : InputKind} {c : Controller} {o o' : Outcome Controller Reply}
    (h : passed kind = .ok (c, o, o')) (hoff : c.live.touchEnabled = false) :
    ∃ past past' leaked, Twins (ofBoard {} (.erased regionLength) 0) o.state past o'.state past'
      leaked ∧ (leaked → ∃ i ∈ c.tracker.entries, i.kind = .touch) := by
  obtain ⟨a, ha, h⟩ := exists_of_bind_eq_ok h
  obtain ⟨b, hb, h⟩ := exists_of_bind_eq_ok h
  obtain ⟨c, hc, h⟩ := exists_of_bind_eq_ok h
  obtain ⟨o, ho, h⟩ := exists_of_bind_eq_ok h
  obtain ⟨o', ho', h⟩ := exists_of_bind_eq_ok h
  obtain ⟨rfl, hlast⟩ := Prod.mk.inj (Except.ok.inj h)
  obtain ⟨rfl, rfl⟩ := Prod.mk.inj hlast
  have hboards : ({} : Board).Alike c.state.live.touchEnabled
      { panel := .fitted { touching := true, pending := true } } :=
    ⟨rfl, rfl, fun hon => nomatch hoff.symm.trans hon⟩
  have htwins := ((Twins.start.together ha).together hb).together hc
  refine ⟨_, _, _, htwins.call _ hboards ho ho', fun hleaked => ?_⟩
  have hleaks := hleaked.resolve_left fun hbefore => by simp [ControllerCall.Leaks] at hbefore
  exact hleaks.2.2.2

set_option maxRecDepth 100000 in
/-- A touch that no registered input could notice leaves no trace at all. -/
theorem influence_untracked :
    ∃ c past d past' leaked, Twins (ofBoard {} (.erased regionLength) 0) c past d past' leaked ∧
      ¬ leaked ∧ past' = past ∧ d.whole = c.whole := by
  have hrun : (passed .button).toOption.map (fun (c, _, _) => (c.live.touchEnabled,
      c.tracker.entries.all (·.kind ≠ .touch))) = some (false, true) := by
    decide +kernel
  obtain ⟨⟨c, o, o'⟩, hpassed, hfacts⟩ := Option.map_eq_some_iff.mp hrun
  obtain ⟨hoff, hnone⟩ := Prod.mk.inj hfacts
  obtain ⟨past, past', leaked, htwins, hleaked⟩ := twins_passed (eq_ok_of_toOption hpassed) hoff
  have hsilent : ¬ leaked := fun h => by
    obtain ⟨i, hi, hkind⟩ := hleaked h
    exact of_decide_eq_true (List.all_eq_true.mp hnone i hi) hkind
  obtain ⟨hpast, -, hwhole, -⟩ := htwins.influence_iff
  exact ⟨_, past, _, past', leaked, htwins, hsilent, hpast, hwhole hsilent⟩

set_option maxRecDepth 100000 in
/-- A registered touch input notices the touch, though the touchscreen is off. -/
theorem touch_noticed :
    ∃ c past d past' leaked, Twins (ofBoard {} (.erased regionLength) 0) c past d past' leaked ∧
      c.live.touchEnabled = false ∧ d.tracker ≠ c.tracker := by
  have hrun : (passed .touch).toOption.map (fun (c, o, o') => (c.live.touchEnabled,
      o.state.live.touchEnabled, decide (o'.state.tracker = o.state.tracker))) =
        some (false, false, false) := by
    decide +kernel
  obtain ⟨⟨c, o, o'⟩, hpassed, hfacts⟩ := Option.map_eq_some_iff.mp hrun
  obtain ⟨hbefore, hoff, htracker⟩ : _ ∧ _ ∧ _ := by simpa only [Prod.mk.injEq] using hfacts
  obtain ⟨past, past', leaked, htwins, -⟩ := twins_passed (eq_ok_of_toOption hpassed) hbefore
  exact ⟨_, past, _, past', leaked, htwins, hoff, of_decide_eq_false htracker⟩

end Controller

end TwinStick
