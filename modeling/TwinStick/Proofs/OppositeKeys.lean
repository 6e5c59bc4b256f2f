import TwinStick.Proofs.HeldKeys
import TwinStick.Proofs.Readings

/-! Opposite keys of a stick. Between two samples no two of them are down. Within a sample the
directions are told one after another in a fixed order, so a stick that swings to a direction from
its opposite, if that is told later, has the new key put down just before the old one comes up. -/

namespace TwinStick

namespace Direction

def opposite : Direction → Direction
  | left => right
  | right => left
  | up => down
  | down => up

/-- Of the two directions of an axis the one that is told first. -/
def Leads (d : Direction) : Prop := d.index < d.opposite.index

instance (d : Direction) : Decidable d.Leads := inferInstanceAs (Decidable (_ < _))

theorem mem_all (d : Direction) : d ∈ all := by cases d <;> decide

/-- Its opposite is told right after it. -/
theorem Leads.all_eq {d : Direction} (hd : d.Leads) :
    ∃ first last, all = first ++ d :: d.opposite :: last := by
  cases d with
  | left => exact ⟨[], [up, down], rfl⟩
  | up => exact ⟨[left, right], [], rfl⟩
  | right | down => exact absurd hd (by decide)

theorem notMem_of_cut {d : Direction} {ds ds' : List Direction} (h : all = ds ++ ds')
    (hd : d ∈ ds') : d ∉ ds := by
  have hnodup : all.Nodup := by decide
  rw [h] at hnodup
  intro hin
  exact (List.nodup_append.mp hnodup).2.2 d hin d hd rfl

/-- A cut of the order parts the two directions of an axis only if they stand at it. -/
theorem Leads.cut {d : Direction} (hd : d.Leads) {ds ds' : List Direction}
    (h : all = ds ++ ds') :
    (d ∉ ds ∧ d.opposite ∉ ds) ∨
      (∃ first last, ds = first ++ [d] ∧ ds' = d.opposite :: last) ∨
      (d ∈ ds ∧ d.opposite ∈ ds) := by
  obtain ⟨first, last, hall⟩ := hd.all_eq
  have hd' : d ∉ first := notMem_of_cut hall (by simp)
  have hopposite : d.opposite ∉ first := notMem_of_cut hall (by simp)
  obtain ⟨mid, rfl, -⟩ | ⟨mid, rfl, hmid⟩ := List.append_eq_append_iff.mp (h.symm.trans hall)
  · simp only [List.mem_append, not_or] at hd' hopposite
    exact .inl ⟨hd'.1, hopposite.1⟩
  · cases mid with
    | nil =>
      rw [List.append_nil]
      exact .inl ⟨hd', hopposite⟩
    | cons x mid =>
      obtain ⟨rfl, hrest⟩ := List.cons.inj hmid
      cases mid with
      | nil => exact .inr (.inl ⟨first, last, rfl, hrest.symm⟩)
      | cons y mid =>
        obtain ⟨rfl, -⟩ := List.cons.inj hrest
        exact .inr (.inr (by simp))

end Direction

namespace Directions

/-- At most one direction of each axis. -/
def Exclusive (s : Directions) : Prop := ∀ d, s.has d = true → s.has d.opposite = false

theorem Exclusive.not_both {s : Directions} (h : s.Exclusive) {d : Direction}
    (hd : s.has d = true) : s.has d.opposite ≠ true := by
  rw [h d hd]
  decide

theorem Exclusive.of_opposite {s : Directions} (h : s.Exclusive) {d : Direction}
    (hd : s.has d.opposite = true) : s.has d = false := by
  cases hin : s.has d with
  | false => rfl
  | true => exact absurd hd (h.not_both hin)

theorem exclusive_empty : Exclusive {} := by
  intro d
  cases d <;> decide

theorem exclusive_ofPosition {threshold : Int16} (h : 0 ≤ threshold) {p : Pair Int16}
    {s : Directions} (hs : ofPosition threshold p = .ok s) : s.Exclusive := by
  have hpos : 0 ≤ threshold.toInt := Int16.le_iff_toInt_le.mp h
  obtain rfl := Except.ok.inj ((ofPosition_eq h p).symm.trans hs)
  intro d hd
  cases d <;> simp only [has, Direction.opposite, decide_eq_true_eq,
    decide_eq_false_iff_not] at hd ⊢ <;> omega

end Directions

/-- What can be asked of an engine. -/
inductive EngineCall
  | setMode (mode : StickMode)
  | toggleMode
  | applySettings (s : StickSettings)
  | process (s : StickSample)

/-- The directions of a sample are those of its position. -/
def EngineCall.Measured : EngineCall → Prop
  | process s => ∃ threshold : Int16, 0 ≤ threshold ∧
      Directions.ofPosition threshold s.position = .ok s.directions
  | _ => True

theorem isDown_concat (key : StickKey) (past : List Event) (e : Event) :
    isDown key (past ++ [e]) = (e.stroke? key).getD (isDown key past) := by
  rw [isDown, strokes, List.filterMap_append, getLastD_append]
  cases h : e.stroke? key <;> simp [h, isDown, strokes]

namespace Engine

def perform (e : Engine) : EngineCall → Engine × List HostEvent
  | .setMode mode => e.setMode mode
  | .toggleMode => e.toggleMode
  | .applySettings s => e.applySettings s
  | .process s => (e.process s).2

section

variable {e : Engine} {wanted : Directions} {d : Direction} {ds : List Direction}

theorem change?_eq_some {key : HostEvent} (h : e.change? wanted d = some key) :
    e.held.has d ≠ wanted.has d ∧
      key = if wanted.has d then .keyDown ⟨e.stick, d⟩ else .keyUp ⟨e.stick, d⟩ := by
  rw [change?] at h
  split at h
  · cases h
  · next hne => exact ⟨hne, (Option.some.inj h).symm⟩

theorem isDown_changes (past : List Event) :
    isDown ⟨e.stick, d⟩ (past ++ (ds.filterMap (e.change? wanted)).map .host) =
      if d ∈ ds ∧ e.held.has d ≠ wanted.has d then wanted.has d else isDown ⟨e.stick, d⟩ past := by
  induction ds generalizing past with
  | nil => simp
  | cons x ds ih =>
    cases hx : e.change? wanted x with
    | none =>
      have hsame : e.held.has x = wanted.has x := by simpa [change?] using hx
      rw [List.filterMap_cons_none hx, ih]
      by_cases hxd : x = d
      · subst hxd
        simp [hsame]
      · simp [Ne.symm hxd]
    | some key =>
      obtain ⟨hne, rfl⟩ := change?_eq_some hx
      rw [List.filterMap_cons_some hx, List.map_cons, List.append_cons, ih, isDown_concat,
        Event.stroke?_edge]
      by_cases hxd : x = d
      · subst hxd
        simp [hne]
      · simp [hxd, Ne.symm hxd]

/-- After some of the directions have been told, these are as wanted and the others as before. -/
theorem isDown_told {past : List Event} (h : isDown ⟨e.stick, d⟩ past = e.held.has d) :
    isDown ⟨e.stick, d⟩ (past ++ (ds.filterMap (e.change? wanted)).map .host) =
      if d ∈ ds then wanted.has d else e.held.has d := by
  rw [isDown_changes, h]
  by_cases hd : d ∈ ds <;> by_cases hsame : e.held.has d = wanted.has d <;> simp [hd, hsame]

theorem of_keyDown_mem (h : .keyDown ⟨e.stick, d⟩ ∈ ds.filterMap (e.change? wanted)) :
    d ∈ ds ∧ wanted.has d = true := by
  obtain ⟨x, hx, hchange⟩ := List.mem_filterMap.mp h
  obtain ⟨-, hkey⟩ := change?_eq_some hchange
  cases hw : wanted.has x <;> simp_all

theorem of_keyUp_mem (h : .keyUp ⟨e.stick, d⟩ ∈ ds.filterMap (e.change? wanted)) :
    d ∈ ds ∧ e.held.has d = true := by
  obtain ⟨x, hx, hchange⟩ := List.mem_filterMap.mp h
  obtain ⟨hne, hkey⟩ := change?_eq_some hchange
  cases hw : wanted.has x <;> simp_all

theorem change?_of_pressed (hh : e.held.has d = false) (hw : wanted.has d = true) :
    e.change? wanted d = some (.keyDown ⟨e.stick, d⟩) := by
  simp [change?, hh, hw]

theorem change?_of_released (hh : e.held.has d = true) (hw : wanted.has d = false) :
    e.change? wanted d = some (.keyUp ⟨e.stick, d⟩) := by
  simp [change?, hh, hw]

end

/-- The call takes the stick to this direction straight from the opposite one. -/
def Swings (e : Engine) (call : EngineCall) (d : Direction) : Prop :=
  ∃ s, call = .process s ∧ e.mode = .digital ∧ e.held.has d.opposite = true ∧
    s.directions.has d = true

theorem setMode_cases (e : Engine) (mode : StickMode) :
    ∃ wanted, (e.setMode mode).1.held = wanted ∧ (e.setMode mode).1.stick = e.stick ∧
      (e.setMode mode).2 = (e.hold wanted).2 ∧ (wanted = e.held ∨ wanted = {}) := by
  by_cases hsame : mode = e.mode
  · rw [setMode, if_pos hsame]
    exact ⟨e.held, rfl, rfl, by simp [hold], .inl rfl⟩
  · rw [setMode, if_neg hsame]
    cases e.mode with
    | digital => exact ⟨{}, rfl, rfl, rfl, .inr rfl⟩
    | analog => exact ⟨e.held, rfl, rfl, by simp [hold], .inl rfl⟩

/-- What a call can do to the keys. -/
theorem perform_cases (e : Engine) (call : EngineCall) :
    ∃ wanted, (e.perform call).1.held = wanted ∧ (e.perform call).1.stick = e.stick ∧
      (e.perform call).2 = (e.hold wanted).2 ∧ (wanted = e.held ∨ wanted = {} ∨
        ∃ s, call = .process s ∧ e.mode = .digital ∧ wanted = s.directions) := by
  cases call with
  | setMode mode =>
    obtain ⟨wanted, hheld, hstick, hkeys, hwanted⟩ := e.setMode_cases mode
    exact ⟨wanted, hheld, hstick, hkeys, hwanted.imp_right .inl⟩
  | toggleMode =>
    obtain ⟨wanted, hheld, hstick, hkeys, hwanted⟩ := e.setMode_cases e.mode.toggled
    exact ⟨wanted, hheld, hstick, hkeys, hwanted.imp_right .inl⟩
  | applySettings s =>
    let shaped := { e with sensitivity := s.sensitivity, invert := s.invert }
    obtain ⟨wanted, hheld, hstick, hkeys, hwanted⟩ := shaped.setMode_cases s.mode
    exact ⟨wanted, hheld, hstick, hkeys, hwanted.imp_right .inl⟩
  | process s =>
    rw [perform, process]
    cases hmode : e.mode with
    | analog => exact ⟨e.held, rfl, rfl, by simp [hold], .inl rfl⟩
    | digital => exact ⟨s.directions, rfl, rfl, rfl, .inr (.inr ⟨s, rfl, rfl, rfl⟩)⟩

/-- The calls to an engine since it was made, and what they have sent to the host. -/
inductive Played (stick : Stick) : Engine → List Event → Prop
  | made : Played stick { stick } []
  | call {e past} (h : Played stick e past) (call : EngineCall) (hm : call.Measured) :
    Played stick (e.perform call).1 (past ++ (e.perform call).2.map .host)

/-- The keys that are down are those that the engine holds, at most one on each axis. -/
structure Keeps (stick : Stick) (e : Engine) (past : List Event) : Prop where
  own : e.stick = stick
  exclusive : e.held.Exclusive
  down : ∀ d, isDown ⟨stick, d⟩ past = e.held.has d

section

variable {stick : Stick} {e : Engine} {past : List Event} {call : EngineCall} {d : Direction}

theorem exclusive_perform (h : e.held.Exclusive) (hm : call.Measured) :
    (e.perform call).1.held.Exclusive := by
  obtain ⟨wanted, hheld, -, -, rfl | rfl | ⟨s, rfl, -, rfl⟩⟩ := e.perform_cases call
  · rw [hheld]
    exact h
  · rw [hheld]
    exact Directions.exclusive_empty
  · obtain ⟨threshold, hpos, hs⟩ := hm
    rw [hheld]
    exact Directions.exclusive_ofPosition hpos hs

theorem keys_perform (e : Engine) (call : EngineCall) :
    (e.perform call).2 = Direction.all.filterMap (e.change? (e.perform call).1.held) := by
  obtain ⟨wanted, hheld, -, hkeys, -⟩ := e.perform_cases call
  rw [hkeys, hheld, events_hold]

theorem Keeps.perform (h : Keeps stick e past) (hm : call.Measured) :
    Keeps stick (e.perform call).1 (past ++ (e.perform call).2.map .host) := by
  obtain ⟨-, -, hstick, -⟩ := e.perform_cases call
  refine ⟨hstick.trans h.own, exclusive_perform h.exclusive hm, fun d => ?_⟩
  have hdown := h.down d
  rw [← h.own] at hdown
  rw [keys_perform, ← h.own, isDown_told hdown, if_pos (Direction.mem_all d)]

theorem Played.keeps (h : Played stick e past) : Keeps stick e past := by
  induction h with
  | made => exact ⟨rfl, Directions.exclusive_empty, fun d => by cases d <;> rfl⟩
  | call _ call hm ih => exact ih.perform hm

/-- A direction that is told as pressed while its opposite was held: the stick has swung. -/
theorem swings_of_told (h : e.held.Exclusive) (hnew : (e.perform call).1.held.has d = true)
    (hold : e.held.has d.opposite = true) : e.Swings call d := by
  have hout : e.held.has d ≠ true := by
    rw [h.of_opposite hold]
    decide
  obtain ⟨wanted, hheld, -, -, rfl | rfl | ⟨s, rfl, hmode, rfl⟩⟩ := e.perform_cases call
  · rw [hheld] at hnew
    exact absurd hnew hout
  · rw [hheld] at hnew
    exact absurd hnew (by cases d <;> decide)
  · rw [hheld] at hnew
    exact ⟨s, rfl, hmode, hold, hnew⟩

theorem Swings.held (h : e.Swings call d) : (e.perform call).1.held.has d = true := by
  obtain ⟨s, rfl, hmode, -, hnew⟩ := h
  rw [Engine.perform, process, hmode]
  exact hnew

theorem Swings.keys (h : e.Swings call d) (hd : d.Leads) (he : e.held.Exclusive)
    (he' : (e.perform call).1.held.Exclusive) :
    ∃ first last, (e.perform call).2 =
      first ++ .keyDown ⟨e.stick, d⟩ :: .keyUp ⟨e.stick, d.opposite⟩ :: last := by
  have hnew := h.held
  obtain ⟨s, -, -, hold, -⟩ := h
  obtain ⟨first, last, hall⟩ := hd.all_eq
  rw [keys_perform, hall, List.filterMap_append,
    List.filterMap_cons_some (change?_of_pressed (he.of_opposite hold) hnew),
    List.filterMap_cons_some (change?_of_released hold (he' d hnew))]
  exact ⟨_, _, rfl⟩

/-- With some directions told and some still to be told, two opposite ones are both as if held
only between the two events of a swing. -/
theorem both_iff_of_cut {wanted : Directions} {ds ds' : List Direction} (hd : d.Leads)
    (he : e.held.Exclusive) (hw : wanted.Exclusive) (hcut : Direction.all = ds ++ ds') :
    (if d ∈ ds then wanted.has d else e.held.has d) = true ∧
        (if d.opposite ∈ ds then wanted.has d.opposite else e.held.has d.opposite) = true ↔
      ∃ first last, ds.filterMap (e.change? wanted) = first ++ [.keyDown ⟨e.stick, d⟩] ∧
        ds'.filterMap (e.change? wanted) = .keyUp ⟨e.stick, d.opposite⟩ :: last := by
  constructor
  · rintro ⟨hboth, hboth'⟩
    obtain ⟨hout, hout'⟩ | ⟨first, last, rfl, rfl⟩ | ⟨hin, hin'⟩ := hd.cut hcut
    · rw [if_neg hout] at hboth
      rw [if_neg hout'] at hboth'
      exact absurd hboth' (he.not_both hboth)
    · have hout : d.opposite ∉ first ++ [d] := Direction.notMem_of_cut hcut (by simp)
      rw [if_pos (by simp)] at hboth
      rw [if_neg hout] at hboth'
      rw [List.filterMap_append, List.filterMap_cons_some
        (change?_of_pressed (he.of_opposite hboth') hboth),
        List.filterMap_cons_some (change?_of_released hboth' (hw d hboth))]
      exact ⟨_, _, rfl, rfl⟩
    · rw [if_pos hin] at hboth
      rw [if_pos hin'] at hboth'
      exact absurd hboth' (hw.not_both hboth)
  · rintro ⟨first, last, hpress, hrelease⟩
    obtain ⟨hin, hnew⟩ : d ∈ ds ∧ wanted.has d = true := of_keyDown_mem (by rw [hpress]; simp)
    obtain ⟨hlater, hold⟩ : d.opposite ∈ ds' ∧ e.held.has d.opposite = true :=
      of_keyUp_mem (by rw [hrelease]; simp)
    rw [if_pos hin, if_neg (Direction.notMem_of_cut hcut hlater)]
    exact ⟨hnew, hold⟩

/-- The keys of two opposite directions meet exactly when the stick swings to the one that is
told first, and then only until the next event, which is the release of the other. -/
theorem Played.opposites_meet_iff (h : Played stick e past) (hd : d.Leads) :
    ¬ (isDown ⟨stick, d⟩ past = true ∧ isDown ⟨stick, d.opposite⟩ past = true) ∧
    ∀ call : EngineCall, call.Measured →
      (e.Swings call d ↔ ∃ first last, (e.perform call).2 =
        first ++ .keyDown ⟨stick, d⟩ :: .keyUp ⟨stick, d.opposite⟩ :: last) ∧
      ∀ before after, (e.perform call).2 = before ++ after →
        (isDown ⟨stick, d⟩ (past ++ before.map .host) = true ∧
            isDown ⟨stick, d.opposite⟩ (past ++ before.map .host) = true ↔
          ∃ first last, before = first ++ [.keyDown ⟨stick, d⟩] ∧
            after = .keyUp ⟨stick, d.opposite⟩ :: last) := by
  have hkeeps := h.keeps
  obtain ⟨rfl, he, hdown⟩ := hkeeps
  refine ⟨?_, fun call hm => ?_⟩
  · rw [hdown, hdown]
    rintro ⟨hin, hin'⟩
    exact he.not_both hin hin'
  · have he' := exclusive_perform he hm
    have hkeys := e.keys_perform call
    refine ⟨⟨fun hswing => hswing.keys hd he he', ?_⟩, fun before after hcut => ?_⟩
    · rintro ⟨first, last, hsent⟩
      rw [hkeys] at hsent
      have hnew : d ∈ Direction.all ∧ (e.perform call).1.held.has d = true :=
        of_keyDown_mem (by rw [hsent]; simp)
      have hold : d.opposite ∈ Direction.all ∧ e.held.has d.opposite = true :=
        of_keyUp_mem (by rw [hsent]; simp)
      exact swings_of_told he hnew.2 hold.2
    · rw [hkeys] at hcut
      obtain ⟨ds, ds', hall, rfl, rfl⟩ := List.filterMap_eq_append_iff.mp hcut
      rw [isDown_told (hdown d), isDown_told (hdown d.opposite)]
      exact both_iff_of_cut hd he he' hall

end

/-- A stick pushed along its first axis, with the usual threshold. -/
def pushedTo (x : Int16) : StickSample :=
  { position := ⟨x, 0⟩
    directions := { left := x < -Signal.defaultThreshold, right := Signal.defaultThreshold < x } }

theorem measured_pushedTo (x : Int16) : (EngineCall.process (pushedTo x)).Measured := by
  refine ⟨Signal.defaultThreshold, by decide, ?_⟩
  rw [Directions.ofPosition, show Checked.negInt16 Signal.defaultThreshold =
    .ok (-Signal.defaultThreshold) from rfl]
  rfl

/-- A digital stick pushed to the right. -/
def heldRight : Engine × List Event :=
  ({ stick := .one, mode := .digital, held := { right := true } },
    [.host (.keyDown ⟨.one, .right⟩)])

theorem played_heldRight : Played .one heldRight.1 heldRight.2 :=
  .call (.call .made (.setMode .digital) trivial) (.process (pushedTo 400)) (measured_pushedTo 400)

theorem opposites_meet_swinging_left :
    heldRight.1.Swings (.process (pushedTo (-400))) .left ∧
    isDown ⟨.one, .left⟩ (heldRight.2 ++ [.host (.keyDown ⟨.one, .left⟩)]) = true ∧
    isDown ⟨.one, .right⟩ (heldRight.2 ++ [.host (.keyDown ⟨.one, .left⟩)]) = true := by
  have hkeys : (heldRight.1.perform (.process (pushedTo (-400)))).2 =
      [.keyDown ⟨.one, .left⟩, .keyUp ⟨.one, .right⟩] := by decide
  obtain ⟨-, hcalls⟩ := played_heldRight.opposites_meet_iff (d := .left) (by decide)
  obtain ⟨hswings, hmeet⟩ := hcalls _ (measured_pushedTo (-400))
  refine ⟨hswings.mpr ⟨[], [], hkeys⟩, ?_⟩
  exact (hmeet [.keyDown ⟨.one, .left⟩] _ hkeys).mpr ⟨[], [], rfl, rfl⟩

theorem opposites_down_together :
    ¬ ∀ (stick : Stick) (e : Engine) (past : List Event) (call : EngineCall),
      Played stick e past → call.Measured →
      ∀ before after, (e.perform call).2 = before ++ after → ∀ d : Direction,
        ¬ (isDown ⟨stick, d⟩ (past ++ before.map .host) = true ∧
          isDown ⟨stick, d.opposite⟩ (past ++ before.map .host) = true) := by
  intro h
  refine h .one _ _ _ played_heldRight (measured_pushedTo (-400)) [.keyDown ⟨.one, .left⟩]
    [.keyUp ⟨.one, .right⟩] (by decide) .left ?_
  decide

end Engine

end TwinStick
