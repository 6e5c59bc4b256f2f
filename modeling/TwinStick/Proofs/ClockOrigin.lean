import TwinStick.Proofs.Timestamps

/-! The origin of the clock. Whether the counter starts at zero or anywhere else, and so
whenever it wraps, a device goes through the same session: it decides, answers and shows the
world the same, and only the times that it has noted down tell the two apart. -/

namespace TwinStick

open Routine

variable {k base : UInt32} {old : UInt32 → Prop}

namespace ControllerCall

/-- The call at a time that is ahead. -/
def delayed (k : UInt32) : ControllerCall → ControllerCall
  | toggleStickMode stick now => toggleStickMode stick (now + k)
  | calibrate now => calibrate (now + k)
  | toggleTouchscreen now => toggleTouchscreen (now + k)
  | toggleCombos now => toggleCombos (now + k)
  | factoryReset now => factoryReset (now + k)
  | emergencyReset now => emergencyReset (now + k)
  | store call => store (call.delayed k)
  | call => call

/-- The same call under either clock. What the tracker is shown may have been seen under the clock
that it is shown under. -/
inductive Delayed (k : UInt32) : ControllerCall → ControllerCall → Prop
  | timed (call : ControllerCall) (h : ∀ request, call ≠ tracker request) :
    Delayed k call (call.delayed k)
  | tracker {request request' : TrackerCall} (h : request.Paired (InputSnapshot.Later k) request') :
    Delayed k (tracker request) (tracker request')

open Comparison in
theorem calls_of_delayed {call call' : ControllerCall} (h : Delayed k call call') :
    (later k base old).Calls call call' := by
  cases h with
  | tracker hrequest =>
    exact .tracker fun c c' hc => (hc.tracker.perform TrackedInput.kept_later hrequest).mono
      fun _ _ hd => { hc with tracker := hd }
  | timed call hcall =>
    cases call with
    | tracker request => exact absurd rfl (hcall request)
    | init => exact .init
    | tick => exact .tick go_later_tickTold
    | combo index pressed => exact .combo index pressed
    | key code pressed => exact .key code pressed
    | switchProfile id => exact .switchProfile id
    | toggleStickMode stick now => exact .toggleStickMode stick rfl
    | calibrate now => exact .calibrate rfl
    | toggleTouchscreen now => exact .toggleTouchscreen rfl
    | toggleCombos now => exact .toggleCombos rfl
    | toggleDebug => exact .toggleDebug
    | resetCurrent => exact .resetCurrent
    | factoryReset now => exact .factoryReset rfl
    | emergencyReset now => exact .emergencyReset rfl
    | updateSettings edit => exact .updateSettings fun _ _ hs => congrArg edit hs
    | store request =>
      refine .store fun live live' hl => ?_
      have hrequest : (StoreComparison.later k base old).Calls request (request.delayed k) :=
        request.calls_delayed
      exact (go_later_onStore (StoreComparison.lawful_later.perform hrequest hl)).mono
        fun _ _ hd => hd.2

end ControllerCall

/-- What comes next in a session: the world around the device changes, the answers of its
memory included, or somebody calls on it. -/
inductive Turn where
  | world (board : Board) (reads writes : Gate)
  | call (call : ControllerCall)

namespace Turn

/-- The same turn under either clock. -/
inductive Delayed (k : UInt32) : Turn → Turn → Prop
  | world (board : Board) (reads writes : Gate) :
    Delayed k (.world board reads writes) (.world (board.later k) reads writes)
  | call {call call' : ControllerCall} (h : call.Delayed k call') :
    Delayed k (.call call) (.call call')

def take : Turn → Routine Controller (Reply × Option Controller.Decisions)
  | world board reads writes => do
    modify fun c =>
      { c with
        board
        store := { c.store with flash := { c.store.flash with reads, writes } } }
    return (.none, none)
  | call request => request.told

open Comparison in
theorem go_take {turn turn' : Turn} (h : Delayed k turn turn') :
    (later k base old).Go Eq turn.take turn'.take := by
  cases h with
  | call hcall => exact commands_later.told (ControllerCall.calls_of_delayed hcall)
  | world board reads writes =>
    refine (go_modify fun c c' hc => ?_).bind_eq fun _ => go_pure rfl
    have hflash := hc.store.flash
    exact { hc with
      board := rfl
      store := { hc.store with
        flash := ⟨rfl, rfl, hflash.capacity, hflash.others, hflash.manager⟩ } }

end Turn

/-- Two runs that differ by the times noted down and by nothing else. -/
structure Outcome.Later (k base : UInt32) (old : UInt32 → Prop) (d d' : Outcome Controller α) :
    Prop where
  value : d'.value = d.value
  state : d.state.Later k base old d'.state
  events : List.Forall₂ (Event.Later k old) d.events d'.events
  host : d'.events.filterMap Event.host? = d.events.filterMap Event.host?
  held (row col : Nat) : d'.state.matrix.heldFor row col d'.state.board.now =
    d.state.matrix.heldFor row col d.state.board.now

namespace Controller

theorem host_of_later {events events' : List Event}
    (h : List.Forall₂ (Event.Later k old) events events') :
    events'.filterMap Event.host? = events.filterMap Event.host? := by
  induction h with
  | nil => rfl
  | cons he _ ih =>
    cases he with
    | same e => rw [List.filterMap_cons, List.filterMap_cons, ih]
    | saved => exact ih

theorem later_ofBoard (board : Board) {flash : Flash} (hzero : old 0)
    (hflash : old (flash.lastSave base)) :
    Later k base old (ofBoard board flash base) (ofBoard (board.later k) flash base) where
  board := rfl
  store := {
    base_eq := rfl
    base_eq' := rfl
    flash := Flash.later_self hflash
    records := Records.later_self hzero
    dirty := rfl
    lastChange := .inr ⟨rfl, rfl, rfl⟩ }
  live := rfl
  matrix := Scanner.later_ofConfig _
  sampler := Sampler.later_ofConfig _
  tracker := Tracker.later_ofConfig _
  engines := rfl
  report := rfl
  switchCadence := rfl
  switchLevels := rfl
  touchCadence := rfl
  touchReady := rfl

/-- A session, with what each turn of it came to. -/
def play : List Turn → Routine Controller (List (Reply × Option Decisions))
  | [] => return []
  | turn :: rest => do
    let answer ← turn.take
    return answer :: (← play rest)

open Comparison in
theorem go_play {turns turns' : List Turn} (h : List.Forall₂ (Turn.Delayed k) turns turns') :
    (later k base old).Go Eq (play turns) (play turns') := by
  induction h with
  | nil => exact go_pure rfl
  | cons hturn _ ih =>
    exact (Turn.go_take hturn).bind_eq fun answer => ih.bind_eq fun _ => go_pure rfl

/-- A time from before a session: none at all, or that of the save that memory knew of. -/
def Old (flash : Flash) (base time : UInt32) : Prop := time = 0 ∨ time = flash.lastSave base

theorem play_later (k base : UInt32) (board : Board) (flash : Flash) {turns turns' : List Turn}
    (h : List.Forall₂ (Turn.Delayed k) turns turns') :
    Alike (Outcome.Later k base (Old flash base)) ((play turns).run (ofBoard board flash base))
      ((play turns').run (ofBoard (board.later k) flash base)) := by
  have hstart : Later k base (Old flash base) (ofBoard board flash base)
      (ofBoard (board.later k) flash base) := later_ofBoard board (.inl rfl) (.inr rfl)
  refine ((Comparison.go_iff rfl).mp (go_play h) _ _ hstart).mono fun d d' hd => ?_
  have hstate := hd.state
  refine ⟨hd.value.symm, hstate, hd.events, host_of_later hd.events, fun row col => ?_⟩
  rw [hstate.now]
  exact hstate.matrix.heldFor row col d.state.board.now

/-- However far ahead a clock is, a session under it stops at the same fault, or ends with the
same decisions and answers behind it, the same events at the host and the same durations. The
times that were noted down meanwhile are ahead as well, and a record that was saved is sealed
over its time; and of a session under every clock each noted time is ahead under all of them, or
is under none and from before. -/
theorem play_delayed (base : UInt32) (board : Board) (flash : Flash) :
    (∀ (k : UInt32) (turns turns' : List Turn), List.Forall₂ (Turn.Delayed k) turns turns' →
      Alike (Outcome.Later k base (Old flash base)) ((play turns).run (ofBoard board flash base))
        ((play turns').run (ofBoard (board.later k) flash base))) ∧
    ∀ turns : UInt32 → List Turn,
      (∀ j k, List.Forall₂ (Turn.Delayed (k - j)) (turns j) (turns k)) →
      ∀ d : UInt32 → Outcome Controller (List (Reply × Option Decisions)),
        (∀ k, (play (turns k)).run (ofBoard (board.later k) flash base) = .ok (d k)) →
          Stamped base (Old flash base) fun k => (d k).state := by
  refine ⟨fun k _ _ h => play_later k base board flash h, fun turns h d hd => ?_⟩
  refine stamped (fun _ ht => ht) fun j k => ?_
  -- each clock is any other one, ahead by their difference
  have hlater := play_later (k - j) base (board.later j) flash (h j k)
  rw [Board.later_sub] at hlater
  obtain ⟨d', hd', hlater⟩ := hlater.of_ok (hd j)
  obtain rfl := Except.ok.inj ((hd k).symm.trans hd')
  exact hlater.state

/-- A key is held, the first stick is pushed aside and somebody touches the panel. -/
def busy : Board where
  now := 20
  closed row col := row = 0 && col = 0
  adc := { inputs := ⟨⟨.constant 4000, .constant 2048⟩, .both (.constant 2048)⟩ }
  panel := .fitted { pending := true, touching := true }

/-- The device starts, is used, gets a new setting and is used until it saves that. -/
def morning (k : UInt32) : List Turn :=
  [.call .init, .world (busy.later k) {} {}, .call .tick, .call (.toggleCombos (20 + k)),
    .world (busy.later (k + 6000)) {} {}, .call .tick]

theorem delayed_morning (j k : UInt32) :
    List.Forall₂ (Turn.Delayed (k - j)) (morning j) (morning k) := by
  have hworld : ∀ {since now : UInt32}, now - since = k - j →
      Turn.Delayed (k - j) (.world (busy.later since) {} {}) (.world (busy.later now) {} {}) := by
    intro since now hsub
    rw [← hsub, ← Board.later_sub busy since now]
    exact .world _ _ _
  have hcall : ∀ {call : ControllerCall}, (∀ request, call ≠ .tracker request) →
      Turn.Delayed (k - j) (.call call) (.call (call.delayed (k - j))) :=
    fun h => .call (.timed _ h)
  have htoggle : 20 + j + (k - j) = 20 + k := by abel
  have hcombos : Turn.Delayed (k - j) (.call (.toggleCombos (20 + j)))
      (.call (.toggleCombos (20 + k))) := htoggle ▸ hcall fun _ => nofun
  have hinit : Turn.Delayed (k - j) (.call .init) (.call .init) := hcall fun _ => nofun
  have htick : Turn.Delayed (k - j) (.call .tick) (.call .tick) := hcall fun _ => nofun
  refine .cons hinit (.cons (hworld rfl) (.cons htick (.cons hcombos ?_)))
  exact .cons (hworld (add_sub_add_right_eq_sub _ _ _)) (.cons htick .nil)

set_option maxRecDepth 100000 in
/-- The last pass of the housekeeping has everything to do under every clock, under one also that
wraps before it. -/
theorem play_delayed_across_wrap :
    ∃ d : UInt32 → Outcome Controller (List (Reply × Option Decisions)),
      (∀ k, (play (morning k)).run (ofBoard (Board.later {} k) (.erased regionLength) 0) =
          .ok (d k) ∧
        (d k).value.getLast? = some (.none, some ⟨true, true, true, true, true⟩)) ∧
      Stamped 0 (Old (.erased regionLength) 0) (fun k => (d k).state) ∧
      (d 0).state.store.records.manager.lastSave = 6020 ∧
      (d 4294967000).state.store.records.manager.lastSave = 5724 := by
  obtain ⟨hpairs, hstamped⟩ := play_delayed 0 {} (.erased regionLength)
  have hrun : ((play (morning 0)).run (ofBoard {} (.erased regionLength) 0)).toOption.map
      (fun d => (d.value.getLast?, d.state.store.records.manager.lastSave)) =
        some (some (.none, some ⟨true, true, true, true, true⟩), 6020) := by
    decide +kernel
  have hnew : ¬Old (.erased regionLength) 0 6020 := by
    unfold Old
    decide +kernel
  obtain ⟨first, hfirst, hfacts⟩ := Option.map_eq_some_iff.mp hrun
  obtain ⟨hlast, hsave⟩ := Prod.mk.inj hfacts
  have hturns : ∀ k, List.Forall₂ (Turn.Delayed k) (morning 0) (morning k) := by
    intro k
    have hdelayed := delayed_morning 0 k
    rwa [sub_zero] at hdelayed
  choose d hd hlater using fun k =>
    (hpairs k _ _ (hturns k)).of_ok (eq_ok_of_toOption hfirst)
  have hsaves : ∀ k, (d k).state.store.records.manager.lastSave = 6020 + k := by
    intro k
    rw [(hlater k).state.store.records.manager.lastSave (hsave ▸ hnew), hsave]
  refine ⟨d, fun k => ⟨hd k, ?_⟩, hstamped morning delayed_morning d hd, hsaves 0, hsaves _⟩
  rw [(hlater k).value, hlast]

end Controller

end TwinStick
