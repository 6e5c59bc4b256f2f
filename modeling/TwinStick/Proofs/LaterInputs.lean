import TwinStick.Proofs.Debounce
import TwinStick.Proofs.PairedRuns
import TwinStick.Proofs.Touches

/-! The inputs under a clock that is ahead. Every decision about time is about the distance of
two readings, so the inputs go through the same states, but for the times that they note down:
those are ahead as well, unless nothing has been noted down yet. -/

namespace TwinStick

variable {k : UInt32}

theorem elapsed_later (since now k : UInt32) :
    elapsed (since + k) (now + k) = elapsed since now := add_sub_add_right_eq_sub _ _ _

namespace Cadence

def later (c : Cadence) (k : UInt32) : Cadence := { c with last := c.last.map (· + k) }

theorem due_later (c : Cadence) (k now : UInt32) : (c.later k).due (now + k) = c.due now := by
  rw [due, due, later]
  cases c.last with
  | none => rfl
  | some last => simp only [Option.map_some, elapsed_later]

theorem poll_later (c : Cadence) (k now : UInt32) :
    (c.later k).poll (now + k) = ((c.poll now).1, (c.poll now).2.later k) := by
  rw [poll, poll, due_later]
  cases c.due now <;> rfl

end Cadence

namespace Contact

/-- A contact and how it is under a clock that is ahead. One that was never closed has noted no
time, and one that is closed for the first time none of an opening. -/
inductive Later (k : UInt32) : Contact → Contact → Prop
  | fresh : Later k {} {}
  | held (c : Contact) (hclosed : c.closed = true) (hopened : c.releaseTime = 0) :
    Later k c { c with pressTime := c.pressTime + k }
  | opened (c : Contact) :
    Later k c { c with pressTime := c.pressTime + k, releaseTime := c.releaseTime + k }

section

variable {c c' : Contact}

theorem Later.closed (h : Later k c c') : c'.closed = c.closed := by cases h <;> rfl

theorem Later.settled (h : Later k c c') : c'.settled = c.settled := by cases h <;> rfl

theorem Later.pressTime (h : Later k c c') (hc : c.closed = true) :
    c'.pressTime = c.pressTime + k := by
  cases h with
  | fresh => exact nomatch hc
  | held | opened => rfl

theorem Later.settles (h : Later k c c') (window now : UInt32) :
    c'.settles window (now + k) = c.settles window now := by
  rw [Contact.settles, Contact.settles, h.closed, h.settled]
  cases hc : c.closed with
  | false => rfl
  | true => rw [h.pressTime hc, elapsed_later]

theorem Later.note (h : Later k c c') (closed : Bool) (now : UInt32) :
    Later k (c.note closed now) (c'.note closed (now + k)) := by
  cases h with
  | fresh =>
    cases closed with
    | false => exact .fresh
    | true => exact .held _ rfl rfl
  | held c hclosed hopened =>
    cases closed with
    | false =>
      -- the first opening, which is noted now
      simp only [Contact.note, hclosed]
      exact .opened _
    | true =>
      simp only [Contact.note, hclosed]
      exact .held _ rfl hopened
  | opened c =>
    cases closed <;> cases hc : c.closed <;> simp only [Contact.note, hc] <;> exact .opened _

theorem Later.settle (h : Later k c c') {settles : Bool} (hs : settles = true → c.closed = true) :
    Later k { c with settled := c.settled || settles }
      { c' with settled := c'.settled || settles } := by
  cases h with
  | fresh =>
    cases settles with
    | false => exact .fresh
    | true => exact nomatch hs rfl
  | held c hclosed hopened => exact .held { c with settled := _ } hclosed hopened
  | opened c => exact .opened { c with settled := _ }

theorem Later.observe (h : Later k c c') (window : UInt32) (closed : Bool) (now : UInt32) :
    Later k (c.observe window closed now) (c'.observe window closed (now + k)) := by
  have hnote := h.note closed now
  rw [Contact.observe, Contact.observe, hnote.settles]
  refine hnote.settle fun hs => ?_
  rw [Contact.settles, Bool.and_assoc, Bool.and_eq_true] at hs
  exact hs.1

end

end Contact

namespace KeyCell

structure Later (k : UInt32) (c c' : KeyCell) : Prop where
  contact : c.contact.Later k c'.contact
  newlySettled : c'.newlySettled = c.newlySettled

variable {c c' : KeyCell}

theorem Later.sweep (h : Later k c c') (window now : UInt32) (closed : Bool) :
    Later k (c.sweep window now closed) (c'.sweep window (now + k) closed) :=
  ⟨h.contact.observe window closed now, (h.contact.note closed now).settles window now⟩

theorem Later.isPressed (h : Later k c c') : c'.isPressed = c.isPressed := by
  rw [KeyCell.isPressed, KeyCell.isPressed, h.contact.closed, h.contact.settled]

theorem Later.heldFor (h : Later k c c') (now : UInt32) :
    c'.heldFor (now + k) = c.heldFor now := by
  rw [KeyCell.heldFor, KeyCell.heldFor, h.contact.closed]
  cases hc : c.contact.closed with
  | false => rfl
  | true => rw [h.contact.pressTime hc, elapsed_later]

end KeyCell

namespace Scanner

structure Later (k : UInt32) (s s' : Scanner rows cols) : Prop where
  config : s'.config = s.config
  cadence : s'.cadence = s.cadence.later k
  cells {row col : Nat} (hrow : row < rows) (hcol : col < cols) :
    s.cells[row][col].Later k s'.cells[row][col]

theorem later_ofConfig (config : ScannerConfig) :
    Later k (ofConfig config : Scanner rows cols) (ofConfig config) :=
  ⟨rfl, rfl, fun _ _ => by simpa [ofConfig] using ⟨.fresh, rfl⟩⟩

variable {s s' : Scanner rows cols}

theorem Later.withConfig (h : Later k s s') (config : ScannerConfig) :
    Later k (s.withConfig config) (s'.withConfig config) := by
  refine ⟨rfl, ?_, h.cells⟩
  rw [Scanner.withConfig, h.cadence]
  rfl

theorem Later.scan (h : Later k s s') (closed : Nat → Nat → Bool) (now : UInt32) :
    (s'.scan closed (now + k)).1 = (s.scan closed now).1 ∧
      Later k (s.scan closed now).2 (s'.scan closed (now + k)).2 := by
  have hdue := s.cadence.due_later k now
  rw [← h.cadence] at hdue
  cases hd : s.cadence.due now with
  | false =>
    rw [scan_of_not_due hd, scan_of_not_due (hdue.trans hd)]
    exact ⟨rfl, h⟩
  | true =>
    rw [scan_of_due hd, scan_of_due (hdue.trans hd)]
    refine ⟨rfl, h.config, ?_, fun hrow hcol => ?_⟩
    · rw [h.cadence]
      rfl
    · simp only [Vector.getElem_mapIdx, h.config]
      exact (h.cells hrow hcol).sweep _ _ _

/-- What is asked of one cell is the same if it is the same for cells under either clock. -/
theorem Later.map_cell? (h : Later k s s') {f f' : KeyCell → β}
    (hf : ∀ c c' : KeyCell, c.Later k c' → f' c' = f c) (row col : Nat) :
    (s'.cell? row col).map f' = (s.cell? row col).map f := by
  by_cases hrow : row < rows
  · by_cases hcol : col < cols
    · simp only [cell?, hrow, hcol, Vector.getElem?_eq_getElem, Option.bind_eq_bind,
        Option.bind_some, Option.map_some, hf _ _ (h.cells hrow hcol)]
    · simp [cell?, hrow, hcol]
  · simp [cell?, hrow]

theorem any_cell? (s : Scanner rows cols) (p : KeyCell → Bool) (row col : Nat) :
    (s.cell? row col).any p = ((s.cell? row col).map p).getD false := by
  cases s.cell? row col <;> rfl

theorem Later.isPressed (h : Later k s s') (row col : Nat) :
    s'.isPressed row col = s.isPressed row col := by
  rw [Scanner.isPressed, Scanner.isPressed, any_cell?, any_cell?,
    h.map_cell? fun _ _ hc => hc.isPressed]

theorem Later.heldFor (h : Later k s s') (row col : Nat) (now : UInt32) :
    s'.heldFor row col (now + k) = s.heldFor row col now := by
  rw [Scanner.heldFor, Scanner.heldFor, h.map_cell? fun _ _ hc => hc.heldFor now]

end Scanner

namespace TrackedInput

structure Later (k : UInt32) (i i' : TrackedInput) : Prop where
  kind : i'.kind = i.kind
  id : i'.id = i.id
  contact : i.contact.Later k i'.contact
  duration : i'.duration = i.duration

theorem later_fresh (kind : InputKind) (id : UInt8) :
    Later k { kind, id } { kind, id } := ⟨rfl, rfl, .fresh, rfl⟩

theorem Later.observe {i i' : TrackedInput} (h : Later k i i') (window : UInt32) (active : Bool)
    (now : UInt32) :
    Later k (i.observe window active now) (i'.observe window active (now + k)) := by
  refine ⟨h.kind, h.id, h.contact.observe window active now, ?_⟩
  rw [TrackedInput.observe, TrackedInput.observe, h.contact.closed]
  dsimp only
  split
  · next hreleased => rw [h.contact.pressTime (Bool.and_eq_true_iff.mp hreleased).1, elapsed_later]
  · exact h.duration

end TrackedInput

/-- The same inputs are active in both. -/
def InputSnapshot.Agrees (s s' : InputSnapshot) : Prop :=
  ∀ kind id, s'.isActive kind id = s.isActive kind id

namespace Tracker

abbrev Later (k : UInt32) : Tracker → Tracker → Prop := Paired (TrackedInput.Later k)

theorem later_ofConfig (config : ScannerConfig) : Later k (ofConfig config) (ofConfig config) :=
  ⟨rfl, rfl, rfl, fun _ => by simpa [ofConfig] using TrackedInput.later_fresh _ _⟩

end Tracker

/-- Looks that see the same, the second under a clock that is ahead. -/
def InputSnapshot.Later (k : UInt32) : LookRelation := fun s now s' now' =>
  s.Agrees s' ∧ now' = now + k

theorem TrackedInput.kept_later :
    TrackedInput.Kept (InputSnapshot.Later k) (TrackedInput.Later k) where
  fresh := later_fresh
  observe {s s' now _} ho i i' hi window := by
    obtain ⟨hs, rfl⟩ := ho
    rw [hi.kind, hi.id, hs]
    exact hi.observe _ _ now

namespace StickSample

/-- A sample and how it is under a clock that is ahead. While the stick has not moved, no time
of a movement has been noted. -/
inductive Later (k : UInt32) : StickSample → StickSample → Prop
  | still (s : StickSample) (hposition : s.position = .zero) (hmovement : s.lastMovement = 0) :
    Later k s s
  | moved (s : StickSample) : Later k s { s with lastMovement := s.lastMovement + k }

theorem later_fresh : Later k {} {} := .still {} rfl rfl

variable {s s' : StickSample}

/-- The time of the last movement is all that differs. -/
theorem Later.eq (h : Later k s s') : s' = { s with lastMovement := s'.lastMovement } := by
  cases h <;> rfl

theorem Later.next (h : Later k s s') (config : SamplerConfig) (deadzone : UInt16)
    (deflection : Pair Int16) (now : UInt32) :
    Alike (Later k) (s.next config deadzone deflection now)
      (s'.next config deadzone deflection (now + k)) := by
  have hposition : s'.position = s.position := by rw [h.eq]
  have hdirections : s'.directions = s.directions := by rw [h.eq]
  rw [StickSample.next, StickSample.next, hposition, hdirections]
  generalize Signal.flatten deadzone (config.smooth deflection s.position) = flat
  dsimp only
  cases Directions.ofPosition config.threshold flat.1 with
  | error e => exact .fault e
  | ok directions =>
    refine .ok ?_
    -- at rest no time is noted, so a stick that never moved is still where it was
    by_cases hrest : flat.1 = s.position
    · rw [if_pos hrest, if_pos hrest]
      cases h with
      | still hzero hmovement => exact .still _ (hrest.trans hzero) hmovement
      | moved => exact .moved ⟨flat.1, s.position, directions, s.directions, s.lastMovement, flat.2⟩
    · rw [if_neg hrest, if_neg hrest]
      exact .moved _

end StickSample

namespace Sampler

structure Later (k : UInt32) (s s' : Sampler) : Prop where
  centres : s'.centres = s.centres
  deadzones : s'.deadzones = s.deadzones
  config : s'.config = s.config
  cadence : s'.cadence = s.cadence.later k
  samples (stick : Stick) : (s.samples.get stick).Later k (s'.samples.get stick)

theorem later_ofConfig (config : SamplerConfig) : Later k (ofConfig config) (ofConfig config) :=
  ⟨rfl, rfl, rfl, rfl, fun stick => by
    rw [ofConfig, PerStick.get_both]
    exact StickSample.later_fresh⟩

variable {s s' : Sampler}

theorem Later.withConfig (h : Later k s s') (config : SamplerConfig) :
    Later k (s.withConfig config) (s'.withConfig config) := by
  refine ⟨h.centres, h.deadzones, rfl, ?_, h.samples⟩
  rw [Sampler.withConfig, h.cadence]
  rfl

theorem Later.withCentre (h : Later k s s') (stick : Stick) (centre : Pair UInt16) :
    Later k (s.withCentre stick centre) (s'.withCentre stick centre) :=
  ⟨congrArg (·.set stick centre) h.centres, h.deadzones, h.config, h.cadence, h.samples⟩

theorem Later.setSample (h : Later k s s') (stick : Stick) {sample sample' : StickSample}
    (hs : sample.Later k sample') :
    Later k { s with samples := s.samples.set stick sample }
      { s' with samples := s'.samples.set stick sample' } := by
  refine ⟨h.centres, h.deadzones, h.config, h.cadence, fun other => ?_⟩
  by_cases ho : stick = other
  · subst ho
    rw [PerStick.get_set_self, PerStick.get_set_self]
    exact hs
  · rw [PerStick.get_set_of_ne _ ho, PerStick.get_set_of_ne _ ho]
    exact h.samples other

theorem Later.observe (h : Later k s s') (stick : Stick) (readings : Pair UInt16) (now : UInt32) :
    Alike (Later k) (s.observe stick readings now) (s'.observe stick readings (now + k)) := by
  let deflection (s : Sampler) : Pair Int16 :=
    ⟨Signal.centred readings.x (s.centres.get stick).x,
      Signal.centred readings.y (s.centres.get stick).y⟩
  have hnext : Alike (StickSample.Later k)
      ((s.samples.get stick).next s.config (s.deadzones.get stick) (deflection s) now)
      ((s'.samples.get stick).next s'.config (s'.deadzones.get stick) (deflection s')
        (now + k)) := by
    have hdeflection : deflection s' = deflection s := by simp only [deflection, h.centres]
    rw [hdeflection, h.deadzones, h.config]
    exact (h.samples stick).next _ _ _ now
  rw [Sampler.observe, Sampler.observe]
  generalize StickSample.next (s.samples.get stick) _ _ _ _ = x at hnext
  generalize StickSample.next (s'.samples.get stick) _ _ _ _ = x' at hnext
  cases hnext with
  | fault e => exact .fault e
  | ok hs => exact .ok (h.setSample stick hs)

section

variable {E : Event → Event → Prop}

theorem Later.sample (hE : ∀ e, E e e) (h : Later k s s') (stick : Stick) (now : UInt32) :
    Routine.Paired E Eq (Later k) (s.sample stick now) (s'.sample stick (now + k)) :=
  (Routine.paired_self hE _).bind_eq fun readings =>
    Routine.paired_liftM (h.observe stick readings now)

theorem Later.tick (hE : ∀ e, E e e) (h : Later k s s') (now : UInt32) :
    Routine.Paired E Eq (fun p p' => p'.1 = p.1 ∧ p.2.Later k p'.2) (s.tick now)
      (s'.tick (now + k)) := by
  rw [Sampler.tick, Sampler.tick, h.cadence, Cadence.poll_later]
  dsimp only
  cases (s.cadence.poll now).1 with
  | false => exact Routine.paired_pure ⟨rfl, h⟩
  | true =>
    have hpolled : Later k { s with cadence := (s.cadence.poll now).2 }
        { s' with cadence := (s.cadence.poll now).2.later k } :=
      ⟨h.centres, h.deadzones, h.config, rfl, h.samples⟩
    rw [if_pos rfl, if_pos rfl]
    refine (hpolled.sample hE .one now).bind fun t t' ht => ?_
    exact (ht.sample hE .two now).bind fun u u' hu => Routine.paired_pure ⟨rfl, hu⟩

theorem Later.calibrate (hE : ∀ e, E e e) (h : Later k s s') (stick : Stick) (count : UInt16) :
    Routine.Paired E Eq (fun p p' => p'.1 = p.1 ∧ p.2.Later k p'.2) (s.calibrate stick count)
      (s'.calibrate stick count) :=
  (Routine.paired_self hE _).bind_eq fun _ =>
    Routine.paired_pure ⟨rfl, (h.withCentre stick _).setSample stick StickSample.later_fresh⟩

end

end Sampler

theorem InputSnapshot.agrees_of_later {s s' : InputSnapshot} (hm : s.matrix.Later k s'.matrix)
    (hs : s.sampler.Later k s'.sampler) (ht : s'.touching = s.touching) : s.Agrees s' := by
  have hsample : ∀ stick, ∃ time, s'.sampler.samples.get stick =
      { s.sampler.samples.get stick with lastMovement := time } :=
    fun stick => ⟨_, (hs.samples stick).eq⟩
  intro kind id
  cases kind with
  | button => exact hm.isPressed _ _
  | touch => exact ht
  | stickDirection =>
    simp only [isActive]
    split
    · next stick direction _ _ =>
      obtain ⟨time, hstick⟩ := hsample stick
      rw [hstick]
      rfl
    · rfl
  | stickDeflection =>
    simp only [isActive]
    split
    · next stick _ =>
      obtain ⟨time, hstick⟩ := hsample stick
      rw [hstick]
    · rfl

end TwinStick
