import TwinStick.Proofs.VeiledRuns
import TwinStick.Proofs.TouchPower

/-! Debugging only looks on. The flag is among the settings that are captured, saved, reset and
loaded, but nothing in the device ever comes to depend on it other than the lines on the
console; and while it is down there are none. -/

namespace TwinStick

open Routine

/-- Whether the device is being debugged is hidden and nothing else. -/
def Veil.debugging : Veil := { debug := true }

theorem Veil.bare_debugging : Veil.debugging.Bare := fun _ => rfl

namespace Veil

theorem owns_debugging (engines : PerStick Engine) : debugging.Owns engines := nofun

theorem shows_debugging (e : Event) : debugging.shows e = decide (e.topic ≠ .line) := by
  cases e with
  | host e => cases e <;> rfl
  | _ => rfl

end Veil

def DeviceSettings.SameButDebug (s s' : DeviceSettings) : Prop := s' = { s with debug := s'.debug }

theorem DeviceSettings.sameButDebug_iff {s s' : DeviceSettings} :
    s.SameButDebug s' ↔ s.Veiled .debugging s' := by
  constructor
  · intro h
    rw [h]
    exact { s.veiled_self with debug := nofun }
  · intro h
    have hsticks := h.sticks.eq_of_bare Veil.bare_debugging
    obtain ⟨-, htouch, hcombos, hprofile, -, hdebounce, hstick, hpanel, hlayer⟩ := h
    cases s
    cases s'
    simp_all [SameButDebug]

def Controller.SameButDebug (c c' : Controller) : Prop :=
  c' = { c with live := { c.live with debug := c'.live.debug } }

namespace Controller

variable {v : Veil} {c c' : Controller} {base : UInt32}

theorem SameButDebug.veiled (h : c.SameButDebug c') :
    c.Veiled .debugging c.store.base c' := by
  have hlive : c.live.SameButDebug c'.live := congrArg Controller.live h
  rw [h]
  exact { veiled_self (Veil.owns_debugging _) with
    live := DeviceSettings.sameButDebug_iff.mp (hlive ▸ hlive) }

theorem Veiled.eq_withLive (h : c.Veiled v base c') (hb : v.Bare) :
    c' = { c with live := c'.live } := by
  have hboard := h.board.eq_of_bare hb
  have hstore := h.store.eq_of_bare hb
  have hsampler := h.sampler.eq_of_bare hb
  have htracker := h.tracker.eq_of_bare hb
  have hengines := h.engines.eq_of_bare hb
  have hreport := h.report.eq_of_bare hb
  obtain ⟨-, -, -, hmatrix, -, -, -, -, -, -, hswitch, hlevels, htouch, hready⟩ := h
  cases c
  cases c'
  simp_all

theorem Veiled.sameButDebug (h : c.Veiled .debugging base c') : c.SameButDebug c' := by
  have hlive : c.live.SameButDebug c'.live := DeviceSettings.sameButDebug_iff.mpr h.live
  exact (h.eq_withLive Veil.bare_debugging).trans (congrArg (fun live => { c with live }) hlive)

end Controller

/-- The same turn, or two edits of the settings that act alike on all but the flag. -/
inductive Turn.SameButDebug : Turn → Turn → Prop
  | same (turn : Turn) (h : ∀ edit, turn ≠ .call (.updateSettings edit)) : SameButDebug turn turn
  | updateSettings {edit edit' : DeviceSettings → DeviceSettings}
      (h : ∀ s s' : DeviceSettings, s.SameButDebug s' → (edit s).SameButDebug (edit' s')) :
    SameButDebug (.call (.updateSettings edit)) (.call (.updateSettings edit'))

theorem Turn.SameButDebug.veiled {turn turn' : Turn} (h : turn.SameButDebug turn') :
    turn.Veiled .debugging turn' := by
  have hb := Veil.bare_debugging
  cases h with
  | updateSettings hedit =>
    refine .call (.updateSettings fun s s' hs => DeviceSettings.sameButDebug_iff.mp ?_)
    exact hedit s s' (DeviceSettings.sameButDebug_iff.mpr hs)
  | same turn hturn =>
    cases turn with
    | world board reads writes => exact .world board.veiled_self reads writes
    | call call =>
      refine .call ?_
      cases call with
      | updateSettings edit => exact absurd rfl (hturn edit)
      | tracker request =>
        exact .tracker (request.paired_self fun s _ => ⟨⟨rfl, s.sampler.veiled_self, rfl⟩, rfl⟩)
      | store request =>
        refine .store ?_
        cases request with
        | editProfile id edit =>
          refine .editProfile id fun p p' hp => ?_
          rw [hp.eq_of_bare hb]
          exact (edit p).veiled_self
        | _ => exact .same _ nofun
      | _ => exact .same _ id

/-- Two turns that came to the same, but for the flag and for lines on the console. -/
structure Outcome.SameButDebug (d d' : Outcome Controller α) : Prop where
  value : d'.value = d.value
  state : d.state.SameButDebug d'.state
  events : d'.events.filter (·.topic ≠ .line) = d.events.filter (·.topic ≠ .line)

theorem Outcome.Veiled.sameButDebug {base : UInt32} {d d' : Outcome Controller α}
    (h : d.Veiled .debugging base d') : d.SameButDebug d' := by
  refine ⟨h.value, h.state.sameButDebug, ?_⟩
  have hshows : Veil.debugging.shows = fun e => decide (e.topic ≠ .line) :=
    funext Veil.shows_debugging
  have hevents := h.events
  rw [hshows] at hevents
  have hsame : List.Forall₂ Eq (d.events.filter (·.topic ≠ .line))
      (d'.events.filter (·.topic ≠ .line)) :=
    hevents.imp fun _ _ he => (he.eq_of_bare Veil.bare_debugging).symm
  rw [List.forall₂_eq_eq_eq] at hsame
  exact hsame.symm

namespace Store

variable {s : Store} {live : DeviceSettings}

theorem debug_bootSettings {live' : DeviceSettings} (h : s.bootSettings live = .ok live') :
    live'.debug = live.debug := by
  obtain ⟨p, -, hp⟩ := exists_of_map_eq_ok h
  rw [← hp]
  rfl

theorem ensures_putInForce (now : UInt32) :
    (putInForce live now).Ensures s fun live' _ => live'.debug = live.debug := by
  have hlast : ∀ {live' : DeviceSettings} {t : Store}, live'.debug = live.debug →
      (modify ({ · with dirty := false, lastChange := now }) >>= fun _ => pure live' :
        Routine Store DeviceSettings).Ensures t fun live' _ => live'.debug = live.debug :=
    fun h => .bind_any fun _ _ => .of_pure h
  refine .bind_any fun _ t => .get_bind ?_
  dsimp only
  split
  · exact .bind (.of_liftM fun _ h => debug_bootSettings h) fun _ _ h => hlast h
  · exact .bind_any fun _ _ => hlast rfl

theorem ensures_init (now : UInt32) :
    (init live now).Ensures s fun live' _ => live'.debug = live.debug := by
  rw [init_eq]
  exact .bind_any fun _ _ => ensures_putInForce now

theorem debug_of_loads {call : StoreCall} (hc : call.Loads) :
    (call.perform live).Ensures s fun d _ => live.debug = false → d.1.debug = false := by
  cases call with
  | switchProfile id =>
    refine .bind (P := fun d _ => live.debug = false → d.2.debug = false) ?_ fun d t h => .of_pure h
    intro d hd
    cases ht : s.target id with
    | none =>
      rw [run_switchProfile_of_none ht] at hd
      obtain rfl := Except.ok.inj hd
      exact fun h => h
    | some slot =>
      rw [run_switchProfile_of_some ht] at hd
      have hswitch : (flush live >>= fun _ => enter slot id live).Ensures s
          fun d _ => live.debug = false → d.2.debug = false := by
        refine .bind_any fun _ _ => .get_bind (.bind_any fun _ _ => ?_)
        exact .bind_any fun _ _ => .of_pure fun h => h
      exact hswitch d hd
  | resetCurrent =>
    refine .bind (P := fun d _ => live.debug = false → d.2.debug = false) ?_ fun d t h => .of_pure h
    refine .get_bind (.bind_any fun slot _ => .bind_any fun reset _ => .get_bind ?_)
    refine .bind_any fun _ _ => .bind_any fun _ _ => ?_
    cases reset with
    | true => exact .bind_any fun _ _ => .of_pure fun h => h
    | false => exact .of_pure fun h => h
  | factoryReset now | emergencyReset now =>
    refine .bind (P := fun d _ => live.debug = false → d.debug = false) ?_ fun d t h => .of_pure h
    refine .bind_any fun _ _ => .bind_any fun _ _ => .get_bind (.of_liftM ?_)
    exact fun _ h _ => debug_bootSettings h
  | _ => exact hc.elim

end Store

/-- None of the events is a line on the console. -/
def Silent (events : List Event) : Prop := ∀ e ∈ events, e.topic ≠ .line

section

variable {events events' : List Event} {topics : List Topic}

theorem silent_nil : Silent [] := nofun

theorem Silent.append (h : Silent events) (h' : Silent events') : Silent (events ++ events') := by
  intro e he
  rcases List.mem_append.mp he with he | he
  · exact h e he
  · exact h' e he

theorem silent_of_within (h : Within topics events) (ht : Topic.line ∉ topics) : Silent events :=
  fun e he => ne_of_mem_of_not_mem (h e he) ht

end

namespace Controller

section

variable {c d : Controller} {events : List Event} {kind : MoveKind} {kinds : List MoveKind}

theorem noticed_eq_nil (h : c.live.debug = false) (n : Notice) : c.noticed n = [] := by
  rw [noticed, h]
  rfl

theorem silent_powerEvents (h : c.live.debug = false) : Silent c.powerEvents := by
  rw [powerEvents, noticed_eq_nil h, ite_self, List.append_nil]
  exact silent_of_within (Panel.within_powerUp _) (by decide)

theorem silent_wakeEvents (h : c.live.debug = false) : Silent c.wakeEvents := by
  rw [wakeEvents]
  split
  · exact silent_powerEvents h
  · exact silent_nil

theorem silent_touchToggled (h : c.live.debug = false) : Silent c.touchToggled.2 := by
  rw [touchToggled]
  split
  · exact silent_powerEvents h
  · exact silent_nil

theorem silent_calibrationEvents (h : c.live.debug = false) : Silent c.calibrationEvents := by
  rw [calibrationEvents, noticed_eq_nil h, ite_self, List.append_nil]
  split
  · exact silent_of_within (Panel.within_calibrate _) (by decide)
  · exact silent_nil

def debuggingKinds : List MoveKind := [.debugToggled, .edited]

/-- A device that is not debugged goes on so without a word, unless that very setting changes. -/
theorem Move.silent (hk : kind ∉ debuggingKinds) (hm : Move kind c events d)
    (h : c.live.debug = false) : d.live.debug = false ∧ Silent events := by
  have hw := hm.within
  cases hm with
  | debugToggled | edited => exact absurd (by decide) hk
  | line c n =>
    rw [noticed_eq_nil h]
    exact ⟨h, silent_nil⟩
  | loaded hc hd hdone =>
    exact ⟨Store.debug_of_loads hc _ hd h, silent_of_within hw (by decide)⟩
  | @booted _ o hd =>
    have hlive : (c.installed o o.value).live.debug = false :=
      (Store.ensures_init _ _ hd).trans h
    have hflash := within_of_onFlash (Store.emits_init _ _ _ _ hd)
    refine ⟨?_, .append (silent_of_within hflash (by decide)) (.append ?_ ?_)⟩
    · rw [woken_eq]
      exact hlive
    · exact silent_wakeEvents hlive
    · exact silent_of_within (within_syncEvents _) (by decide)
  | touchToggled c =>
    refine ⟨?_, silent_touchToggled h⟩
    rw [touchToggled_fst]
    exact h
  | panelCalibrated c => exact ⟨h, silent_calibrationEvents h⟩
  | panelTicked c now =>
    rw [panelTicked_fst]
    exact ⟨h, silent_of_within hw (by decide)⟩
  | _ => exact ⟨h, silent_of_within hw (by decide)⟩

theorem Moves.silent (hk : ∀ kind ∈ kinds, kind ∉ debuggingKinds) (hm : Moves kinds c events d)
    (h : c.live.debug = false) : d.live.debug = false ∧ Silent events := by
  induction hm with
  | refl => exact ⟨h, silent_nil⟩
  | tail _ hmem hm ih =>
    obtain ⟨hlive, hbefore⟩ := ih
    obtain ⟨hafter, hlast⟩ := hm.silent (hk _ hmem) hlive
    exact ⟨hafter, hbefore.append hlast⟩

theorem debugging_action {action : ComboAction} (h : action ≠ .toggleDebug) :
    ∀ kind ∈ action.kinds, kind ∉ debuggingKinds := by
  cases action <;> first | exact absurd rfl h | (rw [ComboAction.kinds]; decide)

theorem silent_perform {action : ComboAction} {now : UInt32} {d : Outcome Controller Unit}
    (hd : (perform action now).run c = .ok d) (h : c.live.debug = false)
    (h' : d.state.live.debug = false) : Silent d.events := by
  by_cases ha : action = .toggleDebug
  · rw [ha] at hd
    obtain rfl := Except.ok.inj ((run_toggleDebug c).symm.trans hd)
    have hon : (!c.live.debug) = false := h'
    rw [h] at hon
    exact nomatch hon
  · exact ((goes_perform c action now d hd).silent (debugging_action ha) h).2

theorem silent_call {call : ControllerCall} {d : Outcome Controller Reply}
    (hd : call.perform.run c = .ok d) (h : c.live.debug = false)
    (h' : d.state.live.debug = false) : Silent d.events := by
  have hmoves := goes_call c call d hd
  cases call with
  | toggleDebug =>
    obtain ⟨e, e', he, he', rfl⟩ := run_bind_eq_ok.mp hd
    obtain rfl := Except.ok.inj he'
    rw [List.append_nil]
    have hrun : (perform .toggleDebug 0).run c = .ok e := he
    exact silent_perform hrun h h'
  | updateSettings edit =>
    refine silent_of_within hmoves.within ?_
    rw [ControllerCall.kinds]
    decide
  | combo index pressed =>
    obtain ⟨e, e', he, he', rfl⟩ := run_bind_eq_ok.mp hd
    obtain rfl := Except.ok.inj he'
    rw [List.append_nil]
    rcases processCombo_cases he with rfl | ⟨combo, -, -, -, -, hrun⟩
    · exact silent_nil
    · exact silent_perform hrun h h'
  | key code pressed =>
    exact ((hmoves.mono (ControllerCall.kinds_key code pressed)).silent (by decide) h).2
  | _ => exact (hmoves.silent (by rw [ControllerCall.kinds]; decide) h).2

theorem silent_take {turn : Turn} {d : Outcome Controller (Reply × Option Decisions)}
    (hd : turn.take.run c = .ok d) (h : c.live.debug = false)
    (h' : d.state.live.debug = false) : Silent d.events := by
  cases turn with
  | world board reads writes =>
    obtain rfl := Except.ok.inj hd
    exact silent_nil
  | call request =>
    have hperform : request.perform.run c = .ok ⟨d.value.1, d.state, d.events⟩ := by
      rw [ControllerCall.perform_eq_told]
      exact run_bind_pure_of_ok hd Prod.fst
    exact silent_call hperform h h'

end

/-- Two sessions in which the same is done, from states that differ at most in whether the
device is being debugged, stop at the same fault or do the same at every turn but for lines on
the console, and never differ in anything else. And no turn before and after which the device is
not being debugged prints a line. -/
theorem debugging_only_prints {c c' : Controller} (h : c.SameButDebug c') {turns turns' : List Turn}
    (hturns : List.Forall₂ Turn.SameButDebug turns turns') :
    Alike (List.Forall₂ Outcome.SameButDebug) (trace turns c) (trace turns' c') ∧
    ∀ (turn : Turn) (s : Controller) (d : Outcome Controller (Reply × Option Decisions)),
      turn.take.run s = .ok d → s.live.debug = false → d.state.live.debug = false →
        Silent d.events := by
  refine ⟨?_, fun turn s d hd hs hs' => silent_take hd hs hs'⟩
  have hveiled := hturns.imp fun _ _ hturn => hturn.veiled
  exact (trace_veiled hveiled h.veiled).mono fun _ _ hd => hd.imp fun _ _ he => he.sameButDebug

/-- The device starts, a stick changes its mode and the settings are edited. -/
def evening (edit : DeviceSettings → DeviceSettings) : List Turn :=
  [.call .init, .call (.toggleStickMode .one 7), .call (.updateSettings edit)]

def factoryNew (debug : Bool) : Controller :=
  { ofBoard {} (.erased regionLength) 0 with live := { debug } }

set_option maxRecDepth 100000 in
/-- The mode is told to whoever debugs the device, until the edit puts an end to that. Nobody
else hears of it, nor of the start. -/
theorem debugging_only_prints_mode : ∃ ds ds' start,
    trace (evening ({ · with debounceMs := 9 })) (factoryNew false) = .ok ds ∧
    trace (evening ({ · with debounceMs := 9, debug := false })) (factoryNew true) = .ok ds' ∧
    List.Forall₂ Outcome.SameButDebug ds ds' ∧
    ds.map (fun d => (d.events.filter (·.topic = .line)).length) = [0, 0, 0] ∧
    ds'.map (fun d => (d.events.filter (·.topic = .line)).length) = [0, 1, 0] ∧
    (Turn.call .init).take.run (factoryNew false) = .ok start ∧
    (factoryNew false).live.debug = false ∧ start.state.live.debug = false ∧
    Silent start.events := by
  have hsame : (factoryNew false).SameButDebug (factoryNew true) := rfl
  have hedit : Turn.SameButDebug (.call (.updateSettings ({ · with debounceMs := 9 })))
      (.call (.updateSettings ({ · with debounceMs := 9, debug := false }))) := by
    refine .updateSettings fun s s' hs => ?_
    have hs : s' = { s with debug := s'.debug } := hs
    rw [hs]
    rfl
  have hturns : List.Forall₂ Turn.SameButDebug (evening ({ · with debounceMs := 9 }))
      (evening ({ · with debounceMs := 9, debug := false })) :=
    .cons (.same _ nofun) (.cons (.same _ nofun) (.cons hedit .nil))
  have hrun : (trace (evening ({ · with debounceMs := 9 })) (factoryNew false)).toOption.map
      (fun ds => ds.map fun d => (d.events.filter (·.topic = .line)).length) =
        some [0, 0, 0] := by
    decide +kernel
  have hrun' : (trace (evening ({ · with debounceMs := 9, debug := false }))
      (factoryNew true)).toOption.map
        (fun ds => ds.map fun d => (d.events.filter (·.topic = .line)).length) =
          some [0, 1, 0] := by
    decide +kernel
  have hinit : ((Turn.call .init).take.run (factoryNew false)).toOption.map
      (·.state.live.debug) = some false := by
    decide +kernel
  obtain ⟨ds, hds, hlines⟩ := Option.map_eq_some_iff.mp hrun
  obtain ⟨ds', hds', hlines'⟩ := Option.map_eq_some_iff.mp hrun'
  obtain ⟨start, hstart, hoff⟩ := Option.map_eq_some_iff.mp hinit
  have htrace := eq_ok_of_toOption hds
  have hbegun := eq_ok_of_toOption hstart
  obtain ⟨hruns, hsilent⟩ := debugging_only_prints hsame hturns
  obtain ⟨es, hes, hpairs⟩ := hruns.of_ok htrace
  obtain rfl := Except.ok.inj (hes.symm.trans (eq_ok_of_toOption hds'))
  exact ⟨ds, es, start, htrace, hes, hpairs, hlines, hlines', hbegun, rfl, hoff,
    hsilent _ _ _ hbegun rfl hoff⟩

end Controller

end TwinStick
