import TwinStick.Proofs.PairedRuns
import TwinStick.Proofs.Readings
import TwinStick.Proofs.Touches
import TwinStick.Controller.Basic

/-! What an onlooker sees who is not to see some of the sticks, or not to see whether the device
is being debugged. Two settings, samplers or trackers are the same behind such a veil if they
differ at most in what it hides. Nothing that is hidden from the eye gets out of there by itself:
what is made of two of a kind that are the same behind a veil is the same behind it as well. -/

namespace TwinStick

open Routine

/-- What is not to be seen. -/
structure Veil where
  hides : Stick → Bool := fun _ => false
  debug : Bool := false

/-- No stick is hidden. -/
def Veil.Bare (v : Veil) : Prop := ∀ stick, v.hides stick = false

variable {v : Veil}

namespace PerStick

/-- The same for every stick that can be seen. -/
def Veiled (v : Veil) (p p' : PerStick α) : Prop :=
  ∀ stick, v.hides stick = false → p'.get stick = p.get stick

theorem veiled_self (p : PerStick α) : p.Veiled v p := fun _ _ => rfl

section

variable {p p' : PerStick α} {stick : Stick}

theorem ext_get (h : ∀ stick, p'.get stick = p.get stick) : p' = p := by
  have hone : p'.one = p.one := h .one
  have htwo : p'.two = p.two := h .two
  cases p
  cases p'
  exact congrArg₂ mk hone htwo

theorem Veiled.eq_of_bare (h : p.Veiled v p') (hb : v.Bare) : p' = p :=
  ext_get fun stick => h stick (hb stick)

theorem Veiled.map (h : p.Veiled v p') (f : α → β) : (p.map f).Veiled v (p'.map f) := by
  intro stick hseen
  rw [get_map, get_map, h stick hseen]

theorem Veiled.set (h : p.Veiled v p') {a a' : α} (ha : v.hides stick = false → a' = a) :
    (p.set stick a).Veiled v (p'.set stick a') := by
  intro other hseen
  by_cases ho : stick = other
  · subst ho
    rw [get_set_self, get_set_self, ha hseen]
  · rw [get_set_of_ne _ ho, get_set_of_ne _ ho, h other hseen]

end

end PerStick

namespace DeviceSettings

structure Veiled (v : Veil) (s s' : DeviceSettings) : Prop where
  sticks : s.sticks.Veiled v s'.sticks
  touchEnabled : s'.touchEnabled = s.touchEnabled
  combosEnabled : s'.combosEnabled = s.combosEnabled
  profile : s'.profile = s.profile
  debug : v.debug = false → s'.debug = s.debug
  debounceMs : s'.debounceMs = s.debounceMs
  stickPollMs : s'.stickPollMs = s.stickPollMs
  touchPollMs : s'.touchPollMs = s.touchPollMs
  defaultLayer : s'.defaultLayer = s.defaultLayer

theorem veiled_self (s : DeviceSettings) : s.Veiled v s :=
  ⟨s.sticks.veiled_self, rfl, rfl, rfl, fun _ => rfl, rfl, rfl, rfl, rfl⟩

section

variable {s s' : DeviceSettings} {stick : Stick}

theorem Veiled.withMode (h : s.Veiled v s') {mode mode' : StickMode}
    (hm : v.hides stick = false → mode' = mode) :
    (s.withMode stick mode).Veiled v (s'.withMode stick mode') :=
  { h with sticks := h.sticks.set fun hseen => by rw [h.sticks stick hseen, hm hseen] }

theorem Veiled.withCentre (h : s.Veiled v s') {centre centre' : Pair UInt16}
    (hc : v.hides stick = false → centre' = centre) :
    (s.withCentre stick centre).Veiled v (s'.withCentre stick centre') :=
  { h with sticks := h.sticks.set fun hseen => by rw [h.sticks stick hseen, hc hseen] }

end

end DeviceSettings

theorem Routine.liftM_ok (a : α) : (liftM (.ok a : Except Fault α) : Routine σ α) = pure a := rfl

/-- Behind a veil two runs stop at the same fault, whatever they would else have come to. -/
theorem Alike.of_isOk {x : Except ε α} {y : Except ε β} (h : Alike (fun _ _ => True) x y)
    {P : α → β → Prop} (hP : ∀ a b, x = .ok a → y = .ok b → P a b) : Alike P x y := by
  cases h with
  | fault e => exact .fault e
  | ok => exact .ok (hP _ _ rfl rfl)

/-- Whether a reading can be rescaled depends on its width alone. -/
theorem Signal.alike_normalize (bits : UInt8) (reading reading' : UInt16) :
    Alike (fun _ _ => True) (normalize bits reading) (normalize bits reading') := by
  rw [normalize, normalize]
  split
  · rw [Checked.shiftRightUInt16, Checked.shiftRightUInt16]
    split
    · exact .ok trivial
    · exact .fault _
  · exact .ok trivial

/-- Whether directions can be told depends on the threshold alone. -/
theorem Directions.alike_ofPosition (threshold : Int16) (position position' : Pair Int16) :
    Alike (fun _ _ => True) (ofPosition threshold position) (ofPosition threshold position') := by
  rw [ofPosition, ofPosition]
  cases Checked.negInt16 threshold with
  | error e => exact .fault e
  | ok opposite => exact .ok trivial

theorem StickSample.alike_next (s s' : StickSample) (config : SamplerConfig)
    (deadzone deadzone' : UInt16) (deflection deflection' : Pair Int16) (now : UInt32) :
    Alike (fun _ _ => True) (s.next config deadzone deflection now)
      (s'.next config deadzone' deflection' now) := by
  have hdirections := Directions.alike_ofPosition config.threshold
    (Signal.flatten deadzone (config.smooth deflection s.position)).1
    (Signal.flatten deadzone' (config.smooth deflection' s'.position)).1
  rw [next, next]
  dsimp only
  generalize Directions.ofPosition config.threshold
    (Signal.flatten deadzone (config.smooth deflection s.position)).1 = x at hdirections
  generalize Directions.ofPosition config.threshold
    (Signal.flatten deadzone' (config.smooth deflection' s'.position)).1 = x' at hdirections
  cases hdirections with
  | fault e => exact .fault e
  | ok => exact .ok trivial

namespace Adc

structure Veiled (v : Veil) (a a' : Adc) : Prop where
  bits : a'.bits = a.bits
  inputs : a.inputs.Veiled v a'.inputs

theorem veiled_self (a : Adc) : a.Veiled v a := ⟨rfl, a.inputs.veiled_self⟩

section

variable {a a' : Adc}

theorem Veiled.eq_of_bare (h : a.Veiled v a') (hb : v.Bare) : a' = a := by
  have hinputs := h.inputs.eq_of_bare hb
  have hbits := h.bits
  cases a
  cases a'
  exact congrArg₂ Adc.mk hinputs hbits

theorem Veiled.reading (h : a.Veiled v a') (c : Channel) (hseen : v.hides c.stick = false) :
    (a'.input c).reading = (a.input c).reading := by
  rw [input, input, h.inputs c.stick hseen]

theorem Veiled.advance (h : a.Veiled v a') (c : Channel) : (a.advance c).Veiled v (a'.advance c) :=
  ⟨h.bits, h.inputs.set fun hseen => by rw [h.inputs c.stick hseen]⟩

end

variable {E : Event → Event → Prop} (hE : ∀ e, E e e)

include hE

theorem paired_read (c : Channel) :
    Paired E (Veiled v) (fun x x' => v.hides c.stick = false → x' = x) (read c) (read c) := by
  refine .get_bind fun a a' h => (paired_set (h.advance c)).bind_eq fun _ => ?_
  refine Paired.bind_eq (paired_emit (.cons (hE _) .nil)) fun _ => paired_liftM ?_
  rw [h.bits]
  refine (Signal.alike_normalize _ _ _).of_isOk fun x x' hx hx' => ?_
  intro hseen
  rw [h.reading c hseen, hx] at hx'
  exact (Except.ok.inj hx').symm

theorem paired_readStick (stick : Stick) :
    Paired E (Veiled v) (fun p p' => v.hides stick = false → p' = p) (readStick stick)
      (readStick stick) := by
  refine (paired_read hE _).bind fun x x' hx => (paired_read hE _).bind fun y y' hy => ?_
  exact paired_pure fun hseen => by rw [hx hseen, hy hseen]

end Adc

namespace Sampler

structure Veiled (v : Veil) (s s' : Sampler) : Prop where
  samples : s.samples.Veiled v s'.samples
  centres : s.centres.Veiled v s'.centres
  deadzones : s.deadzones.Veiled v s'.deadzones
  config : s'.config = s.config
  cadence : s'.cadence = s.cadence

theorem veiled_self (s : Sampler) : s.Veiled v s :=
  ⟨s.samples.veiled_self, s.centres.veiled_self, s.deadzones.veiled_self, rfl, rfl⟩

section

variable {s s' : Sampler} {stick : Stick}

theorem Veiled.eq_of_bare (h : s.Veiled v s') (hb : v.Bare) : s' = s := by
  have hsamples := h.samples.eq_of_bare hb
  have hcentres := h.centres.eq_of_bare hb
  have hdeadzones := h.deadzones.eq_of_bare hb
  have hconfig := h.config
  have hcadence := h.cadence
  cases s
  cases s'
  simp_all

theorem Veiled.withConfig (h : s.Veiled v s') (config : SamplerConfig) :
    (s.withConfig config).Veiled v (s'.withConfig config) := by
  refine { h with config := rfl, cadence := ?_ }
  rw [Sampler.withConfig, Sampler.withConfig, h.cadence]

theorem Veiled.withCentre (h : s.Veiled v s') {centre centre' : Pair UInt16}
    (hc : v.hides stick = false → centre' = centre) :
    (s.withCentre stick centre).Veiled v (s'.withCentre stick centre') :=
  { h with centres := h.centres.set hc }

theorem Veiled.setSample (h : s.Veiled v s') {sample sample' : StickSample}
    (hs : v.hides stick = false → sample' = sample) :
    Veiled v { s with samples := s.samples.set stick sample }
      { s' with samples := s'.samples.set stick sample' } :=
  { h with samples := h.samples.set hs }

theorem Veiled.observe (h : s.Veiled v s') {readings readings' : Pair UInt16}
    (hr : v.hides stick = false → readings' = readings) (now : UInt32) :
    Alike (Veiled v) (s.observe stick readings now) (s'.observe stick readings' now) := by
  let next (s : Sampler) (readings : Pair UInt16) :=
    (s.samples.get stick).next s.config (s.deadzones.get stick)
      ⟨Signal.centred readings.x (s.centres.get stick).x,
        Signal.centred readings.y (s.centres.get stick).y⟩ now
  have hnext : Alike (fun sample sample' => v.hides stick = false → sample' = sample)
      (next s readings) (next s' readings') := by
    have halike : Alike (fun _ _ => True) (next s readings) (next s' readings') := by
      simp only [next, h.config]
      exact StickSample.alike_next _ _ _ _ _ _ _ now
    refine halike.of_isOk fun sample sample' hs hs' => ?_
    intro hseen
    have hsame : next s' readings' = next s readings := by
      simp only [next, h.samples stick hseen, h.centres stick hseen, h.deadzones stick hseen,
        h.config, hr hseen]
    rw [hsame, hs] at hs'
    exact (Except.ok.inj hs').symm
  change Alike (Veiled v) (next s readings >>= fun sample => pure _)
    (next s' readings' >>= fun sample => pure _)
  generalize next s readings = x at hnext
  generalize next s' readings' = x' at hnext
  cases hnext with
  | fault e => exact .fault e
  | ok hs => exact .ok (h.setSample hs)

end

section

variable {E : Event → Event → Prop} (hE : ∀ e, E e e) {s s' : Sampler}

include hE

theorem paired_sum (stick : Stick) (n : Nat) {total total' : Pair UInt32} (hr : HasRoom n total)
    (hr' : HasRoom n total') (ht : v.hides stick = false → total' = total) :
    Paired E (Adc.Veiled v) (fun sum sum' => v.hides stick = false → sum' = sum)
      (sum stick n total) (sum stick n total') := by
  induction n generalizing total total' with
  | zero => exact paired_pure ht
  | succ n ih =>
    refine (Adc.paired_read hE ⟨stick, .x⟩).bind fun x x' hx => ?_
    obtain ⟨hsumX, hroomX⟩ := addUInt32_of_room hr.1 x
    obtain ⟨hsumX', hroomX'⟩ := addUInt32_of_room hr'.1 x'
    rw [hsumX, hsumX', liftM_ok, liftM_ok, pure_bind, pure_bind]
    refine (Adc.paired_read hE ⟨stick, .y⟩).bind fun y y' hy => ?_
    obtain ⟨hsumY, hroomY⟩ := addUInt32_of_room hr.2 y
    obtain ⟨hsumY', hroomY'⟩ := addUInt32_of_room hr'.2 y'
    rw [hsumY, hsumY', liftM_ok, liftM_ok, pure_bind, pure_bind]
    refine ih ⟨hroomX, hroomY⟩ ⟨hroomX', hroomY'⟩ fun hseen => ?_
    rw [ht hseen, hx hseen, hy hseen]

theorem Veiled.sample (h : s.Veiled v s') (stick : Stick) (now : UInt32) :
    Paired E (Adc.Veiled v) (Veiled v) (s.sample stick now) (s'.sample stick now) :=
  (Adc.paired_readStick hE stick).bind fun _ _ hr => paired_liftM (h.observe hr now)

theorem Veiled.tick (h : s.Veiled v s') (now : UInt32) :
    Paired E (Adc.Veiled v) (fun p p' => p'.1 = p.1 ∧ p.2.Veiled v p'.2) (s.tick now)
      (s'.tick now) := by
  rw [Sampler.tick, Sampler.tick, h.cadence]
  obtain ⟨due, cadence⟩ := s.cadence.poll now
  cases due with
  | false => exact paired_pure ⟨rfl, h⟩
  | true =>
    have hpolled : Veiled v { s with cadence } { s' with cadence } := { h with cadence := rfl }
    refine (hpolled.sample hE .one now).bind fun t t' ht => ?_
    exact (ht.sample hE .two now).bind fun u u' hu => paired_pure ⟨rfl, hu⟩

theorem Veiled.calibrate (h : s.Veiled v s') (stick : Stick) (count : UInt16) :
    Paired E (Adc.Veiled v)
      (fun p p' => (v.hides stick = false → p'.1 = p.1) ∧ p.2.Veiled v p'.2)
      (s.calibrate stick count) (s'.calibrate stick count) := by
  have hroom := hasRoom_zero (max count 1)
  refine (paired_sum hE stick _ hroom hroom fun _ => rfl).bind fun total total' ht => ?_
  have hcentre : v.hides stick = false →
      (total'.map fun t => (t / (max count 1).toUInt32).toUInt16) =
        total.map fun t => (t / (max count 1).toUInt32).toUInt16 :=
    fun hseen => by rw [ht hseen]
  exact paired_pure ⟨hcentre, (h.withCentre hcentre).setSample fun _ => rfl⟩

end

end Sampler

namespace TrackedInput

/-- The stick that an input is read from. -/
def stick? (i : TrackedInput) : Option Stick :=
  match i.kind with
  | .stickDirection => Stick.ofIndex? (i.id.toNat / 4)
  | .stickDeflection => Stick.ofIndex? i.id.toNat
  | .button | .touch => none

def Seen (v : Veil) (i : TrackedInput) : Prop := ∀ stick ∈ i.stick?, v.hides stick = false

structure Veiled (v : Veil) (i i' : TrackedInput) : Prop where
  kind : i'.kind = i.kind
  id : i'.id = i.id
  same : i.Seen v → i' = i

theorem veiled_self (i : TrackedInput) : i.Veiled v i := ⟨rfl, rfl, fun _ => rfl⟩

end TrackedInput

namespace InputSnapshot

structure Veiled (v : Veil) (s s' : InputSnapshot) : Prop where
  matrix : s'.matrix = s.matrix
  sampler : s.sampler.Veiled v s'.sampler
  touching : s'.touching = s.touching

theorem Veiled.isActive {s s' : InputSnapshot} (h : s.Veiled v s') {i : TrackedInput}
    (hseen : i.Seen v) : s'.isActive i.kind i.id = s.isActive i.kind i.id := by
  unfold TrackedInput.Seen TrackedInput.stick? at hseen
  cases hk : i.kind with
  | button => simp only [InputSnapshot.isActive, h.matrix]
  | touch => exact h.touching
  | stickDirection =>
    rw [hk] at hseen
    simp only [InputSnapshot.isActive]
    cases hs : Stick.ofIndex? (i.id.toNat / 4) with
    | none => rfl
    | some stick =>
      have hsample := h.sampler.samples stick (hseen stick hs)
      cases Direction.ofIndex? (i.id.toNat % 4) with
      | none => rfl
      | some direction => exact congrArg (·.isPushed direction) hsample
  | stickDeflection =>
    rw [hk] at hseen
    simp only [InputSnapshot.isActive]
    cases hs : Stick.ofIndex? i.id.toNat with
    | none => rfl
    | some stick =>
      have hsample := h.sampler.samples stick (hseen stick hs)
      exact congrArg (fun sample => !sample.inDeadzone) hsample

/-- Looks at one time that are the same behind the veil. -/
def VeiledLook (v : Veil) : LookRelation := fun s now s' now' => s.Veiled v s' ∧ now' = now

end InputSnapshot

/-- Inputs that are the same behind the veil stay so under looks that are. -/
theorem TrackedInput.kept_veiled : Kept (InputSnapshot.VeiledLook v) (Veiled v) where
  fresh kind id := veiled_self _
  observe {s s' now now'} ho i i' hi window := by
    obtain ⟨hs, rfl⟩ := ho
    refine ⟨hi.kind, hi.id, fun hseen => ?_⟩
    have hvisible : i.Seen v := hseen
    rw [hi.same hvisible, hs.isActive hvisible]

namespace Tracker

abbrev Veiled (v : Veil) : Tracker → Tracker → Prop := Paired (TrackedInput.Veiled v)

theorem veiled_self (t : Tracker) : t.Veiled v t := paired_self TrackedInput.veiled_self t

theorem Paired.eq_of_bare {t t' : Tracker} (h : t.Veiled v t') (hb : v.Bare) : t' = t := by
  have htable : t'.table = t.table :=
    Vector.ext fun i hi => (h.table hi).same fun stick _ => hb stick
  have hlength := h.length
  have hdebounce := h.debounce
  have hstick := h.stickDebounce
  cases t
  cases t'
  simp_all

end Tracker

end TwinStick
