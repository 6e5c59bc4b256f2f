import TwinStick.Proofs.HeldKeys
import TwinStick.Proofs.Readings

/-! Reports of the axes. There is one for each sample and none otherwise, and what it
says of a stick is told by the stick at that moment: its mode, its position, and how it is
to be scaled and turned. -/

namespace TwinStick

namespace Signal

/-- A deflection scaled by eighths toward zero, turned around if so wanted, and clamped. -/
def scaled (sensitivity : UInt8) (inverted : Bool) (v : Int) : Int :=
  max (-511) (min 511
    (if inverted then -(v * sensitivity.toNat).tdiv 8 else (v * sensitivity.toNat).tdiv 8))

theorem scaled_within (sensitivity : UInt8) (inverted : Bool) (v : Int) :
    -511 ≤ scaled sensitivity inverted v ∧ scaled sensitivity inverted v ≤ 511 := by
  unfold scaled
  omega

theorem scaled_mono (sensitivity : UInt8) {v w : Int} (h : v ≤ w) :
    scaled sensitivity false v ≤ scaled sensitivity false w ∧
      scaled sensitivity true w ≤ scaled sensitivity true v := by
  have hmul : v * sensitivity.toNat ≤ w * sensitivity.toNat :=
    Int.mul_le_mul_of_nonneg_right h (Int.natCast_nonneg _)
  have hdiv : (v * sensitivity.toNat).tdiv 8 ≤ (w * sensitivity.toNat).tdiv 8 :=
    Int.tdiv_le_tdiv (by decide) hmul
  simp only [scaled, if_true, Bool.false_eq_true, if_false]
  omega

theorem toInt_shapeAxis (sensitivity : UInt8) (inverted : Bool) (v : Int16) :
    (shapeAxis sensitivity inverted v).toInt = scaled sensitivity inverted v.toInt := by
  have hexact : shapeAxis sensitivity inverted v =
      Int16.ofInt (scaled sensitivity inverted v.toInt) := rfl
  have hwithin := scaled_within sensitivity inverted v.toInt
  rw [hexact]
  exact Int16.toInt_ofInt_of_le (by omega) (by omega)

theorem shapeAxis_zero (sensitivity : UInt8) (inverted : Bool) :
    shapeAxis sensitivity inverted 0 = 0 := by
  rw [← Int16.toInt_inj, toInt_shapeAxis, Int16.toInt_zero]
  cases inverted <;> simp [scaled]

end Signal

def Event.report? : Event → Option AxisReport
  | host (.axes r) => some r
  | _ => none

def reports (events : List Event) : List AxisReport := events.filterMap Event.report?

theorem reports_append (events events' : List Event) :
    reports (events ++ events') = reports events ++ reports events' := List.filterMap_append

theorem reports_of_within {topics : List Topic} {events : List Event} (hw : Within topics events)
    (ha : Topic.axes ∉ topics) : reports events = [] := by
  refine hw.filterMap_eq_nil fun e he => ?_
  cases e with
  | host e =>
    cases e with
    | axes r => exact absurd he ha
    | _ => rfl
  | _ => rfl

namespace Controller

open Routine

/-- What the report of a device says of a stick is what the stick is like. -/
structure Tells (m : Controller) (stick : Stick) : Prop where
  x_within : -511 ≤ (m.report.get stick).x.toInt ∧ (m.report.get stick).x.toInt ≤ 511
  y_within : -511 ≤ (m.report.get stick).y.toInt ∧ (m.report.get stick).y.toInt ≤ 511
  digital : (m.engines.get stick).mode = .digital → m.report.get stick = .zero
  analog : (m.engines.get stick).mode = .analog →
    (m.report.get stick).x.toInt = Signal.scaled (m.engines.get stick).sensitivity
        (m.engines.get stick).invert.x (m.sampler.samples.get stick).position.x.toInt ∧
      (m.report.get stick).y.toInt = Signal.scaled (m.engines.get stick).sensitivity
        (m.engines.get stick).invert.y (m.sampler.samples.get stick).position.y.toInt
  resting : (m.sampler.samples.get stick).inDeadzone = true ∨
      m.sampler.atRest stick (m.sampler.samples.get stick).position = true →
    m.report.get stick = .zero

theorem tells_reported {t : Controller} {stick : Stick} (hflat : t.sampler.Flat stick) :
    t.reported.Tells stick := by
  have hreport : t.reported.report.get stick = (t.processed stick).1 := by cases stick <;> rfl
  have hengine : t.reported.engines.get stick = (t.processed stick).2.1 := by cases stick <;> rfl
  have hmode : (t.reported.engines.get stick).mode = (t.engines.get stick).mode := by
    rw [hengine, processed, Engine.process_engine]
  cases hm : (t.engines.get stick).mode with
  | digital =>
    have hzero : t.reported.report.get stick = .zero := by
      rw [hreport, processed, Engine.process, hm]
    refine ⟨?_, ?_, fun _ => hzero, fun h => ?_, fun _ => hzero⟩
    · rw [hzero]
      decide
    · rw [hzero]
      decide
    · rw [hmode, hm] at h
      cases h
  | analog =>
    have hshape : t.reported.report.get stick = Signal.shape (t.engines.get stick).sensitivity
        (t.engines.get stick).invert (t.sampler.samples.get stick).position := by
      rw [hreport, processed, Engine.process, hm]
    have hsame : t.reported.engines.get stick = t.engines.get stick := by
      rw [hengine, processed, Engine.process, hm]
    have hsampler : t.reported.sampler = t.sampler := rfl
    refine ⟨?_, ?_, fun h => ?_, fun _ => ?_, fun h => ?_⟩
    · rw [hshape, Signal.shape, Signal.toInt_shapeAxis]
      exact Signal.scaled_within _ _ _
    · rw [hshape, Signal.shape, Signal.toInt_shapeAxis]
      exact Signal.scaled_within _ _ _
    · rw [hsame, hm] at h
      cases h
    · rw [hshape, hsame, hsampler, Signal.shape, Signal.toInt_shapeAxis, Signal.toInt_shapeAxis]
      exact ⟨rfl, rfl⟩
    · rw [hsampler, ← hflat.flag, or_self] at h
      rw [hshape, hflat.rest h, Signal.shape, Pair.zero, Pair.both, Signal.shapeAxis_zero,
        Signal.shapeAxis_zero]

/-- A pass in which the sticks are due has one report, and it is right when it is sent. -/
theorem reports_of_due_tick {c : Controller} {d : Outcome Controller Unit}
    (hd : tick.run c = .ok d) (hdue : c.sampler.cadence.due c.board.now = true) :
    ∃ (m : Controller) (before : List Event),
      (upToReport c.board.now).run c =
        .ok ⟨true, m, before ++ [.host (.axes m.report)]⟩ ∧
      before ++ [.host (.axes m.report)] <+: d.events ∧ reports d.events = [m.report] ∧
      ∀ stick, m.Tells stick := by
  obtain ⟨o, after, ho, hrun, hevents, hafter⟩ := run_of_due_tick hd hdue
  let t := c.sampledBy o
  have hsplit : o.events ++ t.reportEvents =
      o.events ++ t.reportKeys.map .host ++ [.host (.axes t.reported.report)] := by
    rw [reportEvents, List.append_assoc]
  have hreads := within_of_onConverter (Sampler.emits_tick _ _ _ _ ho)
  have hkeys : Within [.key] (t.reportKeys.map .host) := by
    rw [reportKeys, List.map_append]
    exact (Engine.within_process _ _).append (Engine.within_process _ _)
  refine ⟨t.reported, o.events ++ t.reportKeys.map .host, ?_, ?_, ?_, fun stick => ?_⟩
  · rw [hrun, hsplit]
  · rw [hevents, ← hsplit]
    exact List.prefix_append _ _
  · rw [hevents, hsplit, reports_append, reports_append, reports_append,
      reports_of_within hreads (by decide), reports_of_within hkeys (by decide),
      reports_of_within hafter (by decide)]
    rfl
  · exact tells_reported (Sampler.truthful_tick hdue ho stick).toFlat

theorem reports_of_other_call {c : Controller} {call : ControllerCall}
    {d : Outcome Controller Reply} (hd : call.perform.run c = .ok d)
    (h : ¬(call = .tick ∧ c.sampler.cadence.due c.board.now = true)) : reports d.events = [] := by
  by_cases htick : call = .tick
  · subst htick
    have hidle : c.sampler.cadence.due c.board.now = false := by simpa using h
    obtain ⟨e, e', he, he', rfl⟩ := run_bind_eq_ok.mp hd
    obtain rfl := Except.ok.inj he'
    rw [List.append_nil]
    exact reports_of_within (within_of_idle_tick he hidle) (by decide)
  · refine List.filterMap_eq_nil_iff.mpr fun e he => ?_
    cases e with
    | host e =>
      cases e with
      | axes r => exact absurd (eq_tick_of_report hd he) htick
      | _ => rfl
    | _ => rfl

theorem reports_of_call {c : Controller} {call : ControllerCall} {d : Outcome Controller Reply}
    (hd : call.perform.run c = .ok d) :
    (¬(call = .tick ∧ c.sampler.cadence.due c.board.now = true) → reports d.events = []) ∧
    (call = .tick → c.sampler.cadence.due c.board.now = true →
      ∃ (m : Controller) (before : List Event),
        (upToReport c.board.now).run c =
          .ok ⟨true, m, before ++ [.host (.axes m.report)]⟩ ∧
        before ++ [.host (.axes m.report)] <+: d.events ∧ reports d.events = [m.report] ∧
        ∀ stick, m.Tells stick) := by
  refine ⟨reports_of_other_call hd, ?_⟩
  rintro rfl hdue
  obtain ⟨e, e', he, he', rfl⟩ := run_bind_eq_ok.mp hd
  obtain rfl := Except.ok.inj he'
  rw [List.append_nil]
  exact reports_of_due_tick he hdue

/-- In any session every report ever sent was right when it was sent, and the next call sends
one exactly if it is a pass in which the sticks are due. -/
theorem Session.axis_reports {board : Board} {flash : Flash} {base : UInt32} {c : Controller}
    {past : List Event}
    (h : Session (fun _ _ => True) (fun _ => True) (ofBoard board flash base) [] c past) :
    (∀ r ∈ reports past, ∃ m : Controller, m.report = r ∧ ∀ stick, m.Tells stick) ∧
    (∀ (call : ControllerCall) (d : Outcome Controller Reply), call.perform.run c = .ok d →
      (¬(call = .tick ∧ c.sampler.cadence.due c.board.now = true) → reports d.events = []) ∧
      (call = .tick → c.sampler.cadence.due c.board.now = true →
        ∃ (m : Controller) (before : List Event),
          (upToReport c.board.now).run c =
            .ok ⟨true, m, before ++ [.host (.axes m.report)]⟩ ∧
          before ++ [.host (.axes m.report)] <+: d.events ∧ reports d.events = [m.report] ∧
          ∀ stick, m.Tells stick)) ∧
    ∀ (sensitivity : UInt8) (v w : Int), v ≤ w →
      Signal.scaled sensitivity false v ≤ Signal.scaled sensitivity false w ∧
        Signal.scaled sensitivity true w ≤ Signal.scaled sensitivity true v := by
  refine ⟨?_, fun call d hd => reports_of_call hd,
    fun sensitivity v w => Signal.scaled_mono sensitivity⟩
  refine h.invariant (P := fun _ past =>
    ∀ r ∈ reports past, ∃ m : Controller, m.report = r ∧ ∀ stick, m.Tells stick)
    (fun r hr => absurd hr List.not_mem_nil) (fun _ _ hpast => hpast) ?_
  intro c past call d _ hpast hd r hr
  rw [reports_append] at hr
  rcases List.mem_append.mp hr with hr | hr
  · exact hpast r hr
  · obtain ⟨hnone, hsent⟩ := reports_of_call hd
    by_cases hdue : call = .tick ∧ c.sampler.cadence.due c.board.now = true
    · obtain ⟨m, before, -, -, hreports, htells⟩ := hsent hdue.1 hdue.2
      rw [hreports, List.mem_singleton] at hr
      exact ⟨m, hr.symm, htells⟩
    · rw [hnone hdue] at hr
      exact absurd hr List.not_mem_nil

/-- The device is brought up, and then the first stick is held to the right. -/
def leaning : Except Fault (Controller × List Event) := do
  let board : Board := { adc := { inputs :=
    ⟨⟨.constant 912, .constant Signal.midpoint⟩, .both (.constant Signal.midpoint)⟩ } }
  let a ← ControllerCall.init.perform.run (ofBoard {} (.erased regionLength) 0)
  return (a.state.placed board a.state.store.flash, [] ++ a.events)

theorem session_leaning {c : Controller} {past : List Event} (h : leaning = .ok (c, past)) :
    Session (fun _ _ => True) (fun _ => True) (ofBoard {} (.erased regionLength) 0) [] c past := by
  obtain ⟨a, ha, h⟩ := exists_of_bind_eq_ok h
  obtain ⟨rfl, rfl⟩ := Prod.mk.inj (Except.ok.inj h)
  exact .outside (.call .start trivial ha) trivial _

/-- The first sample of a stick held at four hundred is a quarter of that. -/
theorem axis_reports_leaning :
    ∃ c past d, leaning = .ok (c, past) ∧ ControllerCall.tick.perform.run c = .ok d ∧
      c.sampler.cadence.due c.board.now = true ∧
      ∃ m : Controller, reports d.events = [m.report] ∧ (∀ stick, m.Tells stick) ∧
        m.report = ⟨⟨100, 0⟩, .zero⟩ := by
  have hrun : leaning.toOption.bind (fun (c, _) =>
      (ControllerCall.tick.perform.run c).toOption.map fun d =>
        (c.sampler.cadence.due c.board.now, reports d.events)) =
      some (true, [⟨⟨100, 0⟩, .zero⟩]) := by
    decide +kernel
  obtain ⟨⟨c, past⟩, hleaning, h⟩ := Option.bind_eq_some_iff.mp hrun
  obtain ⟨d, hd, h⟩ := Option.map_eq_some_iff.mp h
  obtain ⟨hdue, hlast⟩ := Prod.mk.inj h
  have hd := eq_ok_of_toOption hd
  have hleaning := eq_ok_of_toOption hleaning
  obtain ⟨-, hcall, -⟩ := Session.axis_reports (session_leaning hleaning)
  obtain ⟨m, -, -, -, hreports, htells⟩ := (hcall .tick d hd).2 rfl hdue
  exact ⟨c, past, d, hleaning, hd, hdue, m, hreports, htells,
    List.head_eq_of_cons_eq (hreports.symm.trans hlast)⟩

end Controller

end TwinStick
