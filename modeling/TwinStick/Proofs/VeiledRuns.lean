import TwinStick.Proofs.ClockOrigin
import TwinStick.Proofs.VeiledController

/-! Sessions behind a veil. Two of them in which the same is done, to devices in worlds that are
the same behind the veil, stay the same behind it at every turn. -/

namespace TwinStick

open Routine

variable {v : Veil} {base : UInt32}

namespace ControllerCall

/-- The call comes with what to do. -/
def Edits : ControllerCall → Prop
  | updateSettings _ | tracker _ | store _ => True
  | _ => False

/-- The same call, or two that edit alike what can be seen. -/
inductive Veiled (v : Veil) : ControllerCall → ControllerCall → Prop
  | same (call : ControllerCall) (h : ¬call.Edits) : Veiled v call call
  | updateSettings {edit edit' : DeviceSettings → DeviceSettings}
      (h : ∀ s s', s.Veiled v s' → (edit s).Veiled v (edit' s')) :
    Veiled v (updateSettings edit) (updateSettings edit')
  | tracker {request request' : TrackerCall}
      (h : request.Paired (InputSnapshot.VeiledLook v) request') :
    Veiled v (tracker request) (tracker request')
  | store {request request' : StoreCall} (h : request.Veiled v request') :
    Veiled v (store request) (store request')

open Comparison in
theorem calls_of_veiled {call call' : ControllerCall} (h : call.Veiled v call') :
    (veiled v base).Calls call call' := by
  cases h with
  | updateSettings hedit => exact .updateSettings hedit
  | tracker hrequest =>
    exact .tracker fun c c' hc => (hc.tracker.perform TrackedInput.kept_veiled hrequest).mono
      fun _ _ hd => { hc with tracker := hd }
  | @store request request' h =>
    refine .store fun live live' hl => ?_
    have hrequest : (StoreComparison.veiled v base).Calls request request' :=
      StoreCall.calls_of_veiled h
    exact (go_veiled_onStore (StoreComparison.lawful_veiled.perform hrequest hl)).mono
      fun _ _ hd => hd.2
  | same call hcall =>
    cases call with
    | updateSettings edit | tracker request | store request => exact absurd trivial hcall
    | init => exact .init
    | tick => exact .tick go_veiled_tickTold
    | combo index pressed => exact .combo index pressed
    | key code pressed => exact .key code pressed
    | switchProfile id => exact .switchProfile id
    | toggleStickMode stick now => exact .toggleStickMode stick rfl
    | calibrate now => exact .calibrate rfl
    | toggleTouchscreen now => exact .toggleTouchscreen rfl
    | toggleCombos now => exact .toggleCombos rfl
    | toggleDebug => exact .toggleDebug
    | resetCurrent => exact .resetCurrent
    | factoryReset now => exact .factoryReset rfl
    | emergencyReset now => exact .emergencyReset rfl

end ControllerCall

namespace Turn

/-- The same turn in worlds that are the same behind the veil. -/
inductive Veiled (v : Veil) : Turn → Turn → Prop
  | world {board board' : Board} (h : board.Veiled v board') (reads writes : Gate) :
    Veiled v (.world board reads writes) (.world board' reads writes)
  | call {call call' : ControllerCall} (h : call.Veiled v call') :
    Veiled v (.call call) (.call call')

open Comparison in
theorem go_take_veiled {turn turn' : Turn} (h : turn.Veiled v turn') :
    (veiled v base).Go Eq turn.take turn'.take := by
  cases h with
  | call hcall => exact commands_veiled.told (ControllerCall.calls_of_veiled hcall)
  | world hboard reads writes =>
    refine (go_modify fun c c' hc => ?_).bind_eq fun _ => go_pure rfl
    have hflash := (hc.store.flash.askReads reads).askWrites writes
    exact { hc with
      board := hboard
      store := { hc.store with flash := hflash } }

end Turn

/-- Two turns that came to the same, as far as it is seen. -/
structure Outcome.Veiled (v : Veil) (base : UInt32) (d d' : Outcome Controller α) : Prop where
  value : d'.value = d.value
  state : d.state.Veiled v base d'.state
  events : List.Forall₂ (Event.Veiled v) (d.events.filter v.shows) (d'.events.filter v.shows)

/-- What is told of the events that are seen, by something that is seen of them, is the same. -/
theorem Outcome.Veiled.filterMap {d d' : Outcome Controller α} (h : d.Veiled v base d')
    {f : Event → Option β} (hhidden : ∀ e, v.shows e = false → f e = none)
    (hsame : ∀ e e', e.Veiled v e' → f e' = f e) :
    d'.events.filterMap f = d.events.filterMap f := by
  have hshown : ∀ events : List Event,
      (events.filter v.shows).filterMap f = events.filterMap f := by
    intro events
    rw [List.filterMap_filter]
    refine List.filterMap_congr fun e _ => ?_
    cases he : v.shows e with
    | false => exact (hhidden e he).symm
    | true => rfl
  have hevents := h.events
  rw [← hshown, ← hshown d.events]
  generalize d.events.filter v.shows = events at hevents
  generalize d'.events.filter v.shows = events' at hevents
  induction hevents with
  | nil => rfl
  | cons he _ ih => rw [List.filterMap_cons, List.filterMap_cons, hsame _ _ he, ih]

namespace Controller

/-- A session, with how each turn of it ended. -/
def trace : List Turn → Controller →
    Except Fault (List (Outcome Controller (Reply × Option Decisions)))
  | [], _ => return []
  | turn :: rest, c => do
    let d ← turn.take.run c
    return d :: (← trace rest d.state)

theorem take_veiled {turn turn' : Turn} (h : turn.Veiled v turn') {c c' : Controller}
    (hc : c.Veiled v base c') :
    Alike (Outcome.Veiled v base) (turn.take.run c) (turn'.take.run c') := by
  have htake := Turn.go_take_veiled h c c' hc
  rw [run_shown, run_shown] at htake
  generalize turn.take.run c = x at htake
  generalize turn'.take.run c' = x' at htake
  cases x with
  | error e =>
    cases x' with
    | error e' =>
      cases htake
      exact .fault e
    | ok d' => exact nomatch htake
  | ok d =>
    cases x' with
    | error e' => exact nomatch htake
    | ok d' =>
      cases htake with
      | ok hd => exact .ok ⟨hd.value.symm, hd.state, hd.events⟩

theorem trace_veiled {turns turns' : List Turn} (h : List.Forall₂ (Turn.Veiled v) turns turns')
    {c c' : Controller} (hc : c.Veiled v base c') :
    Alike (List.Forall₂ (Outcome.Veiled v base)) (trace turns c) (trace turns' c') := by
  induction h generalizing c c' with
  | nil => exact .ok .nil
  | @cons turn turn' rest rest' hturn _ ih =>
    have htake := take_veiled hturn hc
    rw [trace, trace]
    generalize turn.take.run c = x at htake
    generalize turn'.take.run c' = x' at htake
    cases htake with
    | fault e => exact .fault e
    | ok hd => exact (ih hd.state).map fun _ _ hrest => .cons hd hrest

end Controller

end TwinStick
