import TwinStick.Proofs.HeldKeys
import TwinStick.Proofs.VeiledRuns

/-! The two sticks do not get in each other's way. They share the converter, the settings, the
report and the records, down to one checksum; but whatever the channels of one of them read,
all that there is of the other is the same. -/

namespace TwinStick

open Routine

/-- One stick is hidden and nothing else. -/
def Veil.over (stick : Stick) : Veil := { hides := fun other => decide (other = stick) }

/-- What a set of records has of a stick. -/
structure StickRecords where
  analog : Bool
  sensitivity : UInt8
  deadzone : UInt8
  profile : Fin maxProfiles → StickProfile

def Records.ofStick (r : Records) (stick : Stick) : StickRecords where
  analog := r.quick.analog.get stick
  sensitivity := r.quick.sensitivity.get stick
  deadzone := r.quick.deadzone.get stick
  profile slot := (r.profile slot).sticks.get stick

/-- What a device has of a stick. -/
structure StickState where
  sample : StickSample
  centre : Pair UInt16
  deadzone : UInt16
  engine : Engine
  axes : Pair Int16
  settings : StickSettings
  cached : StickRecords
  stored : StickRecords

def Controller.ofStick (c : Controller) (stick : Stick) : StickState where
  sample := c.sampler.samples.get stick
  centre := c.sampler.centres.get stick
  deadzone := c.sampler.deadzones.get stick
  engine := c.engines.get stick
  axes := c.report.get stick
  settings := c.live.sticks.get stick
  cached := c.store.records.ofStick stick
  stored := c.store.region.ofStick stick

/-- What the host hears of a stick. -/
inductive StickNews where
  | down (direction : Direction)
  | up (direction : Direction)
  | axes (position : Pair Int16)

namespace Event

def news? (stick : Stick) : Event → Option StickNews
  | host (.keyDown key) => if key.stick = stick then some (.down key.direction) else none
  | host (.keyUp key) => if key.stick = stick then some (.up key.direction) else none
  | host (.axes report) => some (.axes (report.get stick))
  | _ => none

/-- Where something was to be written, how long it was, and whether it was written. -/
def attempt? : Event → Option (UInt32 × Nat × Bool)
  | write offset bytes => some (offset, bytes.length, true)
  | writeFailed offset length => some (offset, length, false)
  | _ => none

variable {v : Veil}

theorem news?_of_hidden {stick : Stick} (hseen : v.hides stick = false) {e : Event}
    (h : v.shows e = false) : e.news? stick = none := by
  have hother : ∀ key : StickKey, v.hides key.stick = true → key.stick ≠ stick := by
    intro key hkey he
    rw [he, hseen] at hkey
    exact Bool.false_ne_true hkey
  cases e with
  | host e =>
    cases e with
    | keyDown key | keyUp key => exact if_neg (hother key (by simpa [Veil.shows] using h))
    | line text => rfl
    | axes | combos | layer | defaultLayer => exact (Bool.false_ne_true h.symm).elim
  | _ => exact (Bool.false_ne_true h.symm).elim

theorem attempt?_of_hidden {e : Event} (h : v.shows e = false) : e.attempt? = none := by
  cases e with
  | host e => rfl
  | _ => exact (Bool.false_ne_true h.symm).elim

namespace Veiled

variable {e e' : Event}

theorem news? {stick : Stick} (h : e.Veiled v e') (hseen : v.hides stick = false) :
    e'.news? stick = e.news? stick := by
  cases h with
  | same | write => rfl
  | axes hreport => exact congrArg (some ∘ StickNews.axes) (hreport stick hseen)

theorem attempt? (h : e.Veiled v e') : e'.attempt? = e.attempt? := by
  cases h with
  | same | axes => rfl
  | write offset hp => simp only [Event.attempt?, hp.length]

end Veiled

end Event

section

variable {v : Veil} {base : UInt32} {stick : Stick}

theorem Records.Veiled.ofStick {r r' : Records} (h : r.Veiled v r')
    (hseen : v.hides stick = false) : r'.ofStick stick = r.ofStick stick := by
  have hprofile : (fun slot => (r'.profile slot).sticks.get stick) =
      fun slot => (r.profile slot).sticks.get stick :=
    funext fun slot => (h.profile slot).sticks stick hseen
  rw [Records.ofStick, Records.ofStick, h.quick.analog stick hseen,
    h.quick.sensitivity stick hseen, h.quick.deadzone stick hseen, hprofile]

/-- The records in memory are the same behind the veil, as those in the copies are. -/
theorem Store.Veiled.region {s s' : Store} (h : s.Veiled v base s') :
    s.region.Veiled v s'.region := by
  have hpart : ∀ p : Part, p.Agree v (s.stored p) (s'.stored p) := by
    intro p
    rw [Store.stored, Store.stored, h.base_eq, h.base_eq']
    exact (h.flash.part p).record
  have hmanager : s'.stored .manager = s.stored .manager := hpart .manager
  refine ⟨hpart .quick, congrArg ManagerRecord.codec.read hmanager, fun slot => ?_⟩
  rw [Store.profile_region, Store.profile_region]
  exact (hpart (.profile slot)).1

theorem Controller.Veiled.ofStick {c c' : Controller} (h : c.Veiled v base c')
    (hseen : v.hides stick = false) : c'.ofStick stick = c.ofStick stick := by
  rw [Controller.ofStick, Controller.ofStick, h.sampler.samples stick hseen,
    h.sampler.centres stick hseen, h.sampler.deadzones stick hseen, h.engines stick hseen,
    h.report stick hseen, h.live.sticks stick hseen, h.store.records.ofStick hseen,
    h.store.region.ofStick hseen]

end

/-- Two turns that differ in a stick: of any other one the device has, and the host hears, the
same, and flash is written at the same places. -/
structure Outcome.Apart (stick : Stick) (d d' : Outcome Controller α) : Prop where
  value : d'.value = d.value
  state (other : Stick) (h : other ≠ stick) : d'.state.ofStick other = d.state.ofStick other
  news (other : Stick) (h : other ≠ stick) :
    d'.events.filterMap (Event.news? other) = d.events.filterMap (Event.news? other)
  attempts : d'.events.filterMap Event.attempt? = d.events.filterMap Event.attempt?
  veiled : d.Veiled (.over stick) d.state.store.base d'

theorem Outcome.ofStick_of_apart {stick : Stick} (other : Stick)
    {ds ds' : List (Outcome Controller α)}
    (h : List.Forall₂ (Outcome.Apart stick) ds ds') (hother : other ≠ stick) :
    ds'.map (·.state.ofStick other) = ds.map (·.state.ofStick other) := by
  induction h with
  | nil => rfl
  | cons hd _ ih => exact congrArg₂ List.cons (hd.state other hother) ih

theorem Outcome.Veiled.apart {base : UInt32} {stick : Stick} {d d' : Outcome Controller α}
    (h : d.Veiled (.over stick) base d') : d.Apart stick d' := by
  have hseen : ∀ {other}, other ≠ stick → (Veil.over stick).hides other = false :=
    fun hother => decide_eq_false hother
  refine ⟨h.value, fun other ho => h.state.ofStick (hseen ho), fun other ho => ?_, ?_, ?_⟩
  · exact h.filterMap (fun _ => Event.news?_of_hidden (hseen ho)) fun _ _ he => he.news? (hseen ho)
  · exact h.filterMap (fun _ => Event.attempt?_of_hidden) fun _ _ he => he.attempt?
  · rw [h.state.store.base_eq]
    exact h

namespace Controller

/-- After any session, two that go on from the same state, in worlds that differ at most in what
the channels of one stick read, stop at the same fault or end every turn apart by no more than that
stick. What is done in them is the same; an edit of the settings or of a record may do to that stick
whatever it likes, but does not itself carry over to the rest what is there. -/
theorem Session.sticks_apart {stick : Stick} {board : Board} {flash : Flash} {base : UInt32}
    {c : Controller} {past : List Event}
    (hc : Session (fun _ _ => True) (fun _ => True) (ofBoard board flash base) [] c past)
    {other : Board} (hboard : c.board.Veiled (.over stick) other) {turns turns' : List Turn}
    (hturns : List.Forall₂ (Turn.Veiled (.over stick)) turns turns') :
    Alike (List.Forall₂ (Outcome.Apart stick)) (trace turns c)
      (trace turns' { c with board := other }) := by
  have howns : (Veil.over stick).Owns c.engines := fun hidden _ => hc.holding.own hidden
  have hstart : c.Veiled (.over stick) c.store.base { c with board := other } :=
    { veiled_self howns with board := hboard }
  exact (trace_veiled hturns hstart).mono fun _ _ h => h.imp fun _ _ hd => hd.apart

/-- A world in which the second stick is found somewhere. -/
def tilted (reading : UInt16) : Board where
  now := 20
  adc := { inputs := ⟨.both (.constant 512), .both (.constant reading)⟩ }

theorem veiled_tilted (reading reading' : UInt16) :
    (tilted reading).Veiled (.over .two) (tilted reading') := by
  have hinputs : (tilted reading).adc.inputs.Veiled (.over .two) (tilted reading').adc.inputs := by
    intro stick hseen
    cases stick with
    | one => rfl
    | two => exact nomatch hseen
  exact ⟨rfl, rfl, ⟨rfl, hinputs⟩, rfl, rfl⟩

/-- The device starts, samples its sticks, is calibrated and gets a new setting. -/
def lesson (reading : UInt16) : List Turn :=
  [.call .init, .world (tilted reading) {} {}, .call .tick, .call (.calibrate 20),
    .call (.updateSettings ({ · with debounceMs := 9 })), .call .tick]

theorem veiled_lesson (reading reading' : UInt16) :
    List.Forall₂ (Turn.Veiled (.over .two)) (lesson reading) (lesson reading') := by
  have hsame : ∀ {call : ControllerCall}, ¬call.Edits →
      Turn.Veiled (.over .two) (.call call) (.call call) := fun hcall => .call (.same _ hcall)
  have hedit : Turn.Veiled (.over .two) (.call (.updateSettings ({ · with debounceMs := 9 })))
      (.call (.updateSettings ({ · with debounceMs := 9 }))) :=
    .call (.updateSettings fun _ _ hs => { hs with debounceMs := rfl })
  refine .cons (hsame id) (.cons (.world (veiled_tilted _ _) _ _) ?_)
  refine .cons (hsame id) (.cons (hsame id) (.cons hedit ?_))
  exact .cons (hsame id) .nil

set_option maxRecDepth 100000 in
/-- The centre of the second stick is another then, and so is the checksum of the record that
both sticks are in. -/
theorem sticks_apart_calibrated : ∃ ds ds',
    trace (lesson 900) (ofBoard {} (.erased regionLength) 0) = .ok ds ∧
    trace (lesson 100) (ofBoard {} (.erased regionLength) 0) = .ok ds' ∧
    List.Forall₂ (Outcome.Apart .two) ds ds' ∧
    ds.getLast?.map (fun d => (d.state.live.sticks.two.centre,
      (d.state.store.region.profile 0).checksum)) = some (⟨900, 900⟩, 29922) ∧
    ds'.getLast?.map (fun d => (d.state.live.sticks.two.centre,
      (d.state.store.region.profile 0).checksum)) = some (⟨100, 100⟩, 39303) := by
  have hrun : (trace (lesson 900) (ofBoard {} (.erased regionLength) 0)).toOption.map
      (fun ds => ds.getLast?.map fun d => (d.state.live.sticks.two.centre,
        (d.state.store.region.profile 0).checksum)) = some (some (⟨900, 900⟩, 29922)) := by
    decide +kernel
  have hrun' : (trace (lesson 100) (ofBoard {} (.erased regionLength) 0)).toOption.map
      (fun ds => ds.getLast?.map fun d => (d.state.live.sticks.two.centre,
        (d.state.store.region.profile 0).checksum)) = some (some (⟨100, 100⟩, 39303)) := by
    decide +kernel
  obtain ⟨ds, hds, hlast⟩ := Option.map_eq_some_iff.mp hrun
  obtain ⟨ds', hds', hlast'⟩ := Option.map_eq_some_iff.mp hrun'
  have htrace := eq_ok_of_toOption hds
  have htrace' := eq_ok_of_toOption hds'
  have hstart : Session (fun _ _ => True) (fun _ => True) (ofBoard {} (.erased regionLength) 0) []
      (ofBoard {} (.erased regionLength) 0) [] := .start
  have hapart := Session.sticks_apart hstart (Board.veiled_self _) (veiled_lesson 900 100)
  obtain ⟨es, hes, hpairs⟩ := hapart.of_ok htrace
  obtain rfl := Except.ok.inj (hes.symm.trans htrace')
  exact ⟨ds, es, htrace, hes, hpairs, hlast, hlast'⟩

/-- The device starts and is calibrated, and then the centre of the first stick is to be that of the
second. -/
def crossing (reading : UInt16) : List Turn :=
  [.call .init, .world (tilted reading) {} {}, .call (.calibrate 20),
    .call (.updateSettings fun s => s.withCentre .one s.sticks.two.centre)]

set_option maxRecDepth 100000 in
/-- An edit that carries a centre from one stick over to the other is enough to tell of the first
where the second was found. -/
theorem sticks_crossed : ∃ ds ds', (tilted 900).Veiled (.over .two) (tilted 100) ∧
    trace (crossing 900) (ofBoard {} (.erased regionLength) 0) = .ok ds ∧
    trace (crossing 100) (ofBoard {} (.erased regionLength) 0) = .ok ds' ∧
    ¬List.Forall₂ (Outcome.Apart .two) ds ds' ∧
    ds.getLast?.map (·.state.live.sticks.one.centre) = some ⟨900, 900⟩ ∧
    ds'.getLast?.map (·.state.live.sticks.one.centre) = some ⟨100, 100⟩ := by
  have hrun : (trace (crossing 900) (ofBoard {} (.erased regionLength) 0)).toOption.map
      (fun ds => ds.getLast?.map (·.state.live.sticks.one.centre)) = some (some ⟨900, 900⟩) := by
    decide +kernel
  have hrun' : (trace (crossing 100) (ofBoard {} (.erased regionLength) 0)).toOption.map
      (fun ds => ds.getLast?.map (·.state.live.sticks.one.centre)) = some (some ⟨100, 100⟩) := by
    decide +kernel
  obtain ⟨ds, hds, hlast⟩ := Option.map_eq_some_iff.mp hrun
  obtain ⟨ds', hds', hlast'⟩ := Option.map_eq_some_iff.mp hrun'
  refine ⟨ds, ds', veiled_tilted _ _, eq_ok_of_toOption hds, eq_ok_of_toOption hds',
    fun hapart => ?_, hlast, hlast'⟩
  have hone := congrArg (List.map (·.settings.centre))
    (Outcome.ofStick_of_apart .one hapart (by decide))
  have hcentres : ds'.map (·.state.live.sticks.one.centre) =
      ds.map (·.state.live.sticks.one.centre) := by
    rw [List.map_map, List.map_map] at hone
    exact hone
  rw [← List.getLast?_map, hcentres, List.getLast?_map, hlast] at hlast'
  exact absurd hlast' (by decide)

end Controller

end TwinStick
