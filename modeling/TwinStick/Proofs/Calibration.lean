import Mathlib.Algebra.Order.BigOperators.Group.List
import TwinStick.Proofs.Completion
import TwinStick.Proofs.DeadzoneFlag

/-! Calibration as the mean of what the converter delivers. It converts the two channels of its
stick in turn and no other, the centre is the floor of the mean, and a stick whose readings stay
the same is at its centre in every later sample. -/

namespace TwinStick

namespace Adc

/-- The reading that a channel delivers after so many more conversions of it. -/
def upcoming (a : Adc) (c : Channel) (n : Nat) : Except Fault UInt16 :=
  Signal.normalize a.bits ((a.input c).script ((a.input c).taken + n))

/-- What conversions of one stick deliver, and the converter after them. -/
structure Passes (a : Adc) (stick : Stick) (xs ys : List UInt16) (b : Adc) : Prop where
  same : ys.length = xs.length
  x : (List.range xs.length).map (a.upcoming ⟨stick, .x⟩) = xs.map .ok
  y : (List.range xs.length).map (a.upcoming ⟨stick, .y⟩) = ys.map .ok
  bits : b.bits = a.bits
  input : ∀ c, b.input c =
    if c.stick = stick then { a.input c with taken := (a.input c).taken + xs.length }
    else a.input c

/-- So many conversions of both channels of a stick, in alternation. -/
def conversions (stick : Stick) (n : Nat) : List Event :=
  (List.replicate n [.conversion ⟨stick, .x⟩, .conversion ⟨stick, .y⟩]).flatten

section

variable {a b : Adc} {stick other : Stick} {readings : Pair UInt16} {xs ys : List UInt16}

theorem exists_delivers (h : a.bits ≤ 25) (stick : Stick) :
    ∃ readings, a.Delivers stick readings := by
  obtain ⟨x, hx⟩ := Signal.exists_normalize h (a.input ⟨stick, .x⟩).reading
  obtain ⟨y, hy⟩ := Signal.exists_normalize h (a.input ⟨stick, .y⟩).reading
  exact ⟨⟨x, y⟩, hx, hy⟩

theorem input_advanceStick (a : Adc) (stick : Stick) (c : Channel) :
    (a.advanceStick stick).input c =
      if c.stick = stick then (a.input c).advance else a.input c := by
  obtain ⟨other, axis⟩ := c
  by_cases h : other = stick
  · subst h
    cases axis <;> simp [advanceStick, input, advance]
  · have hne : stick ≠ other := fun e => h e.symm
    cases axis <;> simp [advanceStick, input, advance, h, PerStick.get_set_of_ne _ hne]

theorem Passes.none (a : Adc) (stick : Stick) : a.Passes stick [] [] a :=
  ⟨rfl, rfl, rfl, rfl, fun c => by simp⟩

theorem map_upcoming_cons {axis : Axis} {n : Nat} {r : UInt16}
    (h : a.upcoming ⟨stick, axis⟩ 0 = .ok r)
    (hrest : (List.range n).map ((a.advanceStick stick).upcoming ⟨stick, axis⟩) = xs.map .ok) :
    (List.range (n + 1)).map (a.upcoming ⟨stick, axis⟩) = (r :: xs).map .ok := by
  have hnext : ∀ k, (a.advanceStick stick).upcoming ⟨stick, axis⟩ k =
      a.upcoming ⟨stick, axis⟩ (k + 1) := by
    intro k
    rw [upcoming, upcoming, input_advanceStick, if_pos rfl, AnalogInput.advance, Nat.add_assoc,
      Nat.add_comm 1 k]
    rfl
  rw [List.range_succ_eq_map, List.map_cons, List.map_map, h, List.map_cons, ← hrest]
  exact congrArg _ (List.map_congr_left fun k _ => (hnext k).symm)

theorem Passes.cons (h : a.Delivers stick readings)
    (hrest : (a.advanceStick stick).Passes stick xs ys b) :
    a.Passes stick (readings.x :: xs) (readings.y :: ys) b where
  same := congrArg (· + 1) hrest.same
  x := map_upcoming_cons h.x hrest.x
  y := map_upcoming_cons h.y hrest.y
  bits := hrest.bits
  input c := by
    rw [hrest.input c, input_advanceStick]
    by_cases hc : c.stick = stick
    · simp only [hc, if_true, AnalogInput.advance, List.length_cons]
      congr 1
      omega
    · simp only [hc, if_false]

theorem passes_advanceStick (h : a.Delivers stick readings) :
    a.Passes stick [readings.x] [readings.y] (a.advanceStick stick) :=
  .cons h (.none _ _)

theorem Steady.passes (h : a.Steady stick readings) (hp : a.Passes other xs ys b) :
    b.Steady stick readings := by
  intro n
  rw [hp.bits, hp.input, hp.input]
  by_cases hs : stick = other
  · simpa only [hs, if_true, Nat.add_assoc] using h (xs.length + n)
  · simpa only [hs, if_false] using h n

theorem eq_of_mem_upcoming {c : Channel} {n : Nat} {r : UInt16}
    (h : ∀ k, a.upcoming c k = .ok r) (hxs : (List.range n).map (a.upcoming c) = xs.map .ok) :
    ∀ x ∈ xs, x = r := by
  intro x hx
  have hmem : (.ok x : Except Fault UInt16) ∈ xs.map .ok := List.mem_map_of_mem hx
  rw [← hxs] at hmem
  obtain ⟨k, -, hk⟩ := List.mem_map.mp hmem
  exact Except.ok.inj (hk.symm.trans (h k))

/-- A stick whose readings stay the same delivers nothing else. -/
theorem Steady.eq_of_mem (h : a.Steady stick readings) (hp : a.Passes stick xs ys b) :
    (∀ x ∈ xs, x = readings.x) ∧ ∀ y ∈ ys, y = readings.y :=
  ⟨eq_of_mem_upcoming (fun k => (h k).1) hp.x, eq_of_mem_upcoming (fun k => (h k).2) hp.y⟩

end

end Adc

def readingSum (readings : List UInt16) : Nat := (readings.map UInt16.toNat).sum

/-- The floor of the mean, which lies between the least and the greatest of the readings. -/
structure IsMean (readings : List UInt16) (mean : UInt16) : Prop where
  floor : mean.toNat = readingSum readings / readings.length
  low : ∃ r ∈ readings, r ≤ mean
  high : ∃ r ∈ readings, mean ≤ r

theorem readingSum_le {readings : List UInt16} {k : Nat} (h : ∀ r ∈ readings, r.toNat ≤ k) :
    readingSum readings ≤ readings.length * k := by
  have hle := (readings.map UInt16.toNat).sum_le_card_nsmul k fun n hn => by
    obtain ⟨r, hr, rfl⟩ := List.mem_map.mp hn
    exact h r hr
  rwa [List.length_map, smul_eq_mul] at hle

theorem le_readingSum {readings : List UInt16} {k : Nat} (h : ∀ r ∈ readings, k ≤ r.toNat) :
    readings.length * k ≤ readingSum readings := by
  have hle := (readings.map UInt16.toNat).card_nsmul_le_sum k fun n hn => by
    obtain ⟨r, hr, rfl⟩ := List.mem_map.mp hn
    exact h r hr
  rwa [List.length_map, smul_eq_mul] at hle

theorem isMean_of_floor {readings : List UInt16} (h : 0 < readings.length) {mean : UInt16}
    (hmean : mean.toNat = readingSum readings / readings.length) : IsMean readings mean := by
  have hlow : readings.length * mean.toNat ≤ readingSum readings := by
    rw [hmean]
    exact Nat.mul_div_le ..
  have hhigh : readingSum readings < readings.length * (mean.toNat + 1) := by
    rw [hmean]
    exact Nat.lt_mul_div_succ _ h
  refine ⟨hmean, ?_, ?_⟩
  · by_contra hnone
    have habove : ∀ r ∈ readings, mean.toNat + 1 ≤ r.toNat := fun r hr =>
      UInt16.lt_iff_toNat_lt.mp (UInt16.not_le.mp fun hle => hnone ⟨r, hr, hle⟩)
    exact absurd (le_readingSum habove) (by omega)
  · by_contra hnone
    have hbelow : ∀ r ∈ readings, r.toNat < mean.toNat := fun r hr =>
      UInt16.lt_iff_toNat_lt.mp (UInt16.not_le.mp fun hle => hnone ⟨r, hr, hle⟩)
    obtain ⟨r, hr⟩ := List.exists_mem_of_length_pos h
    obtain ⟨k, hk⟩ := Nat.exists_eq_add_of_lt (Nat.zero_lt_of_lt (hbelow r hr))
    have hle := readingSum_le (k := k) fun r hr => by
      have hlt := hbelow r hr
      omega
    rw [hk, Nat.zero_add, Nat.mul_add, Nat.mul_one] at hlow
    omega

theorem IsMean.eq_of_forall {readings : List UInt16} {mean r : UInt16} (h : IsMean readings mean)
    (hall : ∀ x ∈ readings, x = r) : mean = r := by
  obtain ⟨low, hlow, hle⟩ := h.low
  obtain ⟨high, hhigh, hge⟩ := h.high
  rw [hall low hlow] at hle
  rw [hall high hhigh] at hge
  exact UInt16.le_antisymm hge hle

namespace Sampler

open Adc

section

variable {s t : Sampler} {a b : Adc} {stick other : Stick} {readings : Pair UInt16}

theorem toNat_add_of_room {sum : UInt32} {n : Nat}
    (h : sum.toNat + (n + 1) * 65535 < UInt32.size) (x : UInt16) :
    (sum + x.toUInt32).toNat = sum.toNat + x.toNat := by
  have hx := x.toNat_lt
  rw [UInt32.toNat_add, UInt16.toNat_toUInt32]
  exact Nat.mod_eq_of_lt (by rw [UInt32.size] at h; omega)

theorem run_sum_succ {n : Nat} {sums : Pair UInt32} {d : Outcome Adc (Pair UInt32)}
    (h : a.Delivers stick readings) (hr : HasRoom (n + 1) sums)
    (hd : (sum stick n ⟨sums.x + readings.x.toUInt32, sums.y + readings.y.toUInt32⟩).run
      (a.advanceStick stick) = .ok d) :
    (sum stick (n + 1) sums).run a = .ok ⟨d.value, d.state,
      [.conversion ⟨stick, .x⟩, .conversion ⟨stick, .y⟩] ++ d.events⟩ := by
  rw [sum, Routine.run_bind_of_ok h.run_x,
    Routine.run_bind_of_silent (Routine.run_liftM_of_ok (addUInt32_of_room hr.1 _).1 _),
    Routine.run_bind_of_ok h.run_y,
    Routine.run_bind_of_silent (Routine.run_liftM_of_ok (addUInt32_of_room hr.2 _).1 _), hd]
  rfl

/-- What a sum of readings comes to. -/
structure Sums (a : Adc) (stick : Stick) (n : Nat) (sums : Pair UInt32)
    (d : Outcome Adc (Pair UInt32)) (xs ys : List UInt16) : Prop where
  passes : a.Passes stick xs ys d.state
  length : xs.length = n
  events : d.events = conversions stick n
  x : d.value.x.toNat = sums.x.toNat + readingSum xs
  y : d.value.y.toNat = sums.y.toNat + readingSum ys

theorem exists_sums (stick : Stick) (n : Nat) (h : a.bits ≤ 25) {sums : Pair UInt32}
    (hr : HasRoom n sums) :
    ∃ d xs ys, (sum stick n sums).run a = .ok d ∧ Sums a stick n sums d xs ys := by
  induction n generalizing a sums with
  | zero => exact ⟨_, [], [], rfl, .none _ _, rfl, rfl, rfl, rfl⟩
  | succ n ih =>
    obtain ⟨readings, hreadings⟩ := exists_delivers h stick
    have hroomX := (addUInt32_of_room hr.1 readings.x).2
    have hroomY := (addUInt32_of_room hr.2 readings.y).2
    let next : Pair UInt32 := ⟨sums.x + readings.x.toUInt32, sums.y + readings.y.toUInt32⟩
    have hroom : HasRoom n next := ⟨hroomX, hroomY⟩
    have hbits : (a.advanceStick stick).bits ≤ 25 := h
    obtain ⟨d, xs, ys, hd, hsums⟩ := ih hbits hroom
    have hx : d.value.x.toNat = _ := hsums.x
    have hy : d.value.y.toNat = _ := hsums.y
    rw [toNat_add_of_room hr.1, Nat.add_assoc] at hx
    rw [toNat_add_of_room hr.2, Nat.add_assoc] at hy
    have hevents := congrArg ([.conversion ⟨stick, .x⟩, .conversion ⟨stick, .y⟩] ++ ·) hsums.events
    exact ⟨_, readings.x :: xs, readings.y :: ys, run_sum_succ hreadings hr hd,
      .cons hreadings hsums.passes, congrArg (· + 1) hsums.length, hevents, hx, hy⟩

/-- The mean of so many readings of the two channels. -/
structure Means (a : Adc) (stick : Stick) (n : Nat) (xs ys : List UInt16)
    (d : Outcome Adc (Pair UInt16 × Sampler)) : Prop where
  passes : a.Passes stick xs ys d.state
  length : xs.length = n
  events : d.events = conversions stick n
  fits : readingSum xs < UInt32.size ∧ readingSum ys < UInt32.size
  x : IsMean xs d.value.1.x
  y : IsMean ys d.value.1.y
  stored : d.value.2.centres.get stick = d.value.1

theorem toNat_mean {sum : UInt32} {count : UInt16} (h : sum.toNat ≤ count.toNat * 65535) :
    (sum / count.toUInt32).toUInt16.toNat = sum.toNat / count.toNat := by
  have hfits : sum.toNat / count.toNat < 2 ^ 16 :=
    Nat.lt_succ_of_le (Nat.div_le_of_le_mul h)
  rw [UInt32.toNat_toUInt16, UInt32.toNat_div, UInt16.toNat_toUInt32]
  exact Nat.mod_eq_of_lt hfits

theorem toNat_max_one (count : UInt16) : (max count 1).toNat = max count.toNat 1 := by
  change (if count ≤ 1 then 1 else count).toNat = _
  by_cases h : count ≤ 1
  · have hle : count.toNat ≤ 1 := UInt16.le_iff_toNat_le.mp h
    rw [if_pos h, Nat.max_eq_right hle]
    rfl
  · have hlt : 1 < count.toNat := UInt16.lt_iff_toNat_lt.mp (UInt16.not_le.mp h)
    rw [if_neg h, Nat.max_eq_left hlt.le]

theorem isMean_of_sum {readings : List UInt16} {count : UInt16} {sum : UInt32}
    (hlength : readings.length = (max count 1).toNat) (hsum : sum.toNat = readingSum readings) :
    IsMean readings (sum / (max count 1).toUInt32).toUInt16 := by
  have hpos : 0 < readings.length := by
    rw [hlength, toNat_max_one]
    omega
  have hle : readingSum readings ≤ readings.length * 65535 :=
    readingSum_le fun r _ => Nat.le_of_lt_succ r.toNat_lt
  rw [hlength, ← hsum] at hle
  refine isMean_of_floor hpos ?_
  rw [toNat_mean hle, hsum, hlength]

theorem exists_means (s : Sampler) (h : a.bits ≤ 25) (stick : Stick) (count : UInt16) :
    ∃ d xs ys, (s.calibrate stick count).run a = .ok d ∧
      Means a stick (max count.toNat 1) xs ys d := by
  obtain ⟨e, xs, ys, he, hsums⟩ := exists_sums stick (max count 1).toNat h
    (hasRoom_zero (max count 1))
  have hrun : (s.calibrate stick count).run a = _ := Routine.run_bind_of_ok he _
  have hx : e.value.x.toNat = readingSum xs := hsums.x.trans (Nat.zero_add _)
  have hy : e.value.y.toNat = readingSum ys := hsums.y.trans (Nat.zero_add _)
  have hlength := hsums.passes.same.trans hsums.length
  have hcount := toNat_max_one count
  have hevents : (e.events ++ []) = conversions stick (max count.toNat 1) := by
    rw [List.append_nil, hsums.events, hcount]
  exact ⟨_, xs, ys, hrun, hsums.passes, hsums.length.trans hcount, hevents,
    ⟨hx ▸ e.value.x.toNat_lt, hy ▸ e.value.y.toNat_lt⟩, isMean_of_sum hsums.length hx,
    isMean_of_sum hlength hy, PerStick.get_set_self ..⟩

/-- What is done with a sampler after a calibration. -/
inductive Handling
  | call (call : SamplerCall)
  | setDeadzone (stick : Stick) (radius : UInt16)
  | setConfig (config : SamplerConfig)

/-- The centre of the stick is not set by hand. -/
def Handling.Spares (stick : Stick) : Handling → Prop
  | .call (.setCentre other _) => other ≠ stick
  | _ => True

def handle (s : Sampler) : Handling → Routine Adc Sampler
  | .call call => s.perform call
  | .setDeadzone stick radius => return s.withDeadzone stick radius
  | .setConfig config => return s.withConfig config

/-- The samplers and converters that a sampler and its converter can become. -/
inductive Onward (stick : Stick) (s : Sampler) (a : Adc) : Sampler → Adc → Prop
  | refl : Onward stick s a s a
  | step {t b d} (h : Onward stick s a t b) (use : Handling) (hspares : use.Spares stick)
    (hd : (t.handle use).run b = .ok d) : Onward stick s a d.value d.state

/-- A stick whose readings stay at its centre, where it was last seen. -/
structure Centred (s : Sampler) (a : Adc) (stick : Stick) (readings : Pair UInt16) : Prop where
  bits : a.bits ≤ 25
  steady : a.Steady stick readings
  centre : s.centres.get stick = readings
  position : (s.samples.get stick).position = .zero

theorem Centred.passes {xs ys : List UInt16} (h : s.Centred a stick readings)
    (hp : a.Passes other xs ys b) (hcentre : t.centres.get stick = s.centres.get stick)
    (hposition : (t.samples.get stick).position = (s.samples.get stick).position) :
    t.Centred b stick readings where
  bits := hp.bits ▸ h.bits
  steady := h.steady.passes hp
  centre := hcentre.trans h.centre
  position := hposition.trans h.position

theorem settle_zero (hcentre : s.centres.get stick = readings) :
    s.settle stick readings .zero = .zero := by
  have hdeflection : s.deflection stick readings = .zero := by
    rw [deflection, hcentre]
    simp [Signal.centred, Pair.zero, Pair.both]
  have haverage : s.average stick readings .zero = .zero := by
    rw [average, hdeflection, SamplerConfig.smooth]
    simp [Signal.smooth, Pair.zero, Pair.both]
  rw [settle, haverage, ite_self]

/-- At its centre and in no direction. -/
structure AtCentre (s : Sampler) (stick : Stick) : Prop where
  position : (s.samples.get stick).position = .zero
  directions : (s.samples.get stick).directions = {}

/-- A sample moves the stick by one step, and its directions are those of where it then is. -/
theorem sample_of_observe {now : UInt32} (h : s.observe stick readings now = .ok t) :
    (t.samples.get stick).position = s.settle stick readings (s.samples.get stick).position ∧
      Directions.ofPosition s.config.threshold (t.samples.get stick).position =
        .ok (t.samples.get stick).directions := by
  obtain ⟨sample, hsample, ht⟩ := exists_of_bind_eq_ok h
  obtain rfl := Except.ok.inj ht
  obtain ⟨hwritten, hdirections⟩ := StickSample.next_eq_ok hsample
  rw [PerStick.get_set_self]
  refine ⟨(congrArg Prod.fst hwritten).trans ?_, hdirections⟩
  rw [settle, atRest, average, deflection, Signal.flatten]
  split <;> rfl

theorem Centred.sample (h : s.Centred a stick readings) (other : Stick) {now : UInt32}
    {d : Outcome Adc Sampler} (hd : (s.sample other now).run a = .ok d) :
    d.value.Centred d.state stick readings ∧
      (other = stick → 0 ≤ s.config.threshold → d.value.AtCentre stick) := by
  obtain ⟨⟨sample, hvalue⟩, -⟩ := truthful_sample hd
  have hcentres : d.value.centres = s.centres := by rw [hvalue]
  by_cases hother : other = stick
  · subst hother
    have hdelivers := h.steady.delivers
    rw [run_sample hdelivers] at hd
    obtain ⟨t, ht, rfl⟩ := exists_of_map_eq_ok hd
    obtain ⟨hposition, hdirections⟩ := sample_of_observe ht
    rw [h.position, settle_zero h.centre] at hposition
    rw [hposition] at hdirections
    have hstays := h.passes (t := t) (passes_advanceStick hdelivers) (by rw [hcentres])
      (hposition.trans h.position.symm)
    exact ⟨hstays, fun _ hthreshold =>
      ⟨hposition, Directions.eq_empty_of_zero hthreshold hdirections⟩⟩
  · have hkept : d.value.samples.get stick = s.samples.get stick := by
      rw [hvalue]
      exact PerStick.get_set_of_ne _ hother _
    obtain ⟨seen, hseen⟩ := exists_delivers h.bits other
    rw [run_sample hseen] at hd
    obtain ⟨t, -, rfl⟩ := exists_of_map_eq_ok hd
    have hstays := h.passes (t := t) (passes_advanceStick hseen) (by rw [hcentres])
      (congrArg StickSample.position hkept)
    exact ⟨hstays, fun e => absurd e hother⟩

theorem Centred.tick (h : s.Centred a stick readings) {now : UInt32}
    {d : Outcome Adc (Bool × Sampler)} (hd : (s.tick now).run a = .ok d) :
    d.value.2.Centred d.state stick readings ∧
      (s.cadence.due now = true → 0 ≤ s.config.threshold → d.value.2.AtCentre stick) := by
  cases hdue : s.cadence.due now with
  | false =>
    obtain rfl := Except.ok.inj ((Controller.run_sampler_idle hdue a).symm.trans hd)
    exact ⟨h, nofun⟩
  | true =>
    rw [Sampler.tick, Cadence.poll, hdue] at hd
    obtain ⟨e, e', he, he', rfl⟩ := Routine.run_bind_eq_ok.mp hd
    obtain ⟨o, o', ho, ho', rfl⟩ := Routine.run_bind_eq_ok.mp he'
    obtain rfl := Except.ok.inj ho'
    have hpolled : Centred { s with cadence := { s.cadence with last := some now } } a stick
        readings := ⟨h.bits, h.steady, h.centre, h.position⟩
    obtain ⟨hone, hfirst⟩ := hpolled.sample .one he
    obtain ⟨htwo, hsecond⟩ := hone.sample .two ho
    refine ⟨htwo, fun _ hthreshold => ?_⟩
    cases stick with
    | one =>
      obtain ⟨⟨sample, hvalue⟩, -⟩ := truthful_sample ho
      have hkept : o.value.samples.get .one = e.value.samples.get .one := by
        rw [hvalue]
        exact PerStick.get_set_of_ne _ (by decide : Stick.two ≠ .one) _
      have hcentre := hfirst rfl hthreshold
      exact ⟨hkept ▸ hcentre.position, hkept ▸ hcentre.directions⟩
    | two =>
      have hconfig := (sameSetup_sample he).config
      exact hsecond rfl (hconfig ▸ hthreshold)

theorem centred_calibrate (h : a.bits ≤ 25) (hsteady : a.Steady stick readings) (count : UInt16)
    {d : Outcome Adc (Pair UInt16 × Sampler)} (hd : (s.calibrate stick count).run a = .ok d) :
    d.value.2.Centred d.state stick readings := by
  obtain ⟨e, xs, ys, he, hmeans⟩ := exists_means s h stick count
  obtain rfl := Except.ok.inj (he.symm.trans hd)
  have hsamples := samples_of_calibrate hd
  obtain ⟨hxs, hys⟩ := hsteady.eq_of_mem hmeans.passes
  refine ⟨hmeans.passes.bits ▸ h, hsteady.passes hmeans.passes, ?_, ?_⟩
  · rw [hmeans.stored]
    have hx := hmeans.x.eq_of_forall hxs
    have hy := hmeans.y.eq_of_forall hys
    exact congrArg₂ Pair.mk hx hy
  · rw [hsamples, PerStick.get_set_self]

theorem Centred.calibrate (h : s.Centred a stick readings) (other : Stick) (count : UInt16)
    {d : Outcome Adc (Pair UInt16 × Sampler)} (hd : (s.calibrate other count).run a = .ok d) :
    d.value.2.Centred d.state stick readings := by
  by_cases hother : other = stick
  · subst hother
    exact centred_calibrate h.bits h.steady count hd
  · obtain ⟨e, xs, ys, he, hmeans⟩ := exists_means s h.bits other count
    obtain rfl := Except.ok.inj (he.symm.trans hd)
    have hcentres := (value_of_calibrate hd).centres
    have hsamples := samples_of_calibrate hd
    refine h.passes hmeans.passes ?_ ?_
    · rw [hcentres]
      exact PerStick.get_set_of_ne _ hother _
    · rw [hsamples, PerStick.get_set_of_ne _ hother]

theorem Centred.handle (h : s.Centred a stick readings) (use : Handling)
    (hspares : use.Spares stick) {d : Outcome Adc Sampler} (hd : (s.handle use).run a = .ok d) :
    d.value.Centred d.state stick readings := by
  have hsame : ∀ {t : Sampler}, t.centres.get stick = s.centres.get stick →
      t.samples = s.samples → t.Centred a stick readings := fun hcentre hsamples =>
    ⟨h.bits, h.steady, hcentre.trans h.centre, hsamples ▸ h.position⟩
  cases use with
  | call call =>
    cases call with
    | tick now =>
      obtain ⟨e, e', he, he', rfl⟩ := Routine.run_bind_eq_ok.mp hd
      obtain rfl := Except.ok.inj he'
      exact (h.tick he).1
    | sample other now => exact (h.sample other hd).1
    | calibrate other count =>
      obtain ⟨e, e', he, he', rfl⟩ := Routine.run_bind_eq_ok.mp hd
      obtain rfl := Except.ok.inj he'
      exact h.calibrate other count he
    | setCentre other centre =>
      obtain rfl := Except.ok.inj hd
      exact hsame (PerStick.get_set_of_ne _ hspares _) rfl
  | setDeadzone other radius =>
    obtain rfl := Except.ok.inj hd
    exact hsame rfl rfl
  | setConfig config =>
    obtain rfl := Except.ok.inj hd
    exact hsame rfl rfl

theorem Centred.onward (h : s.Centred a stick readings) (hl : Onward stick s a t b) :
    t.Centred b stick readings := by
  induction hl with
  | refl => exact h
  | step _ use hspares hd ih => exact ih.handle use hspares hd

theorem ne_minValue_of_nonneg {threshold : Int16} (h : 0 ≤ threshold) :
    threshold ≠ Int16.minValue := by
  rintro rfl
  exact absurd h (by decide)

theorem Centred.completes_sample (h : s.Centred a stick readings)
    (hthreshold : 0 ≤ s.config.threshold) (now : UInt32) :
    (s.sample stick now).Completes a fun t _ => t.AtCentre stick := by
  have hnegative := ne_minValue_of_nonneg hthreshold
  obtain ⟨d, hd, -⟩ := Sampler.completes_sample h.bits hnegative stick now
  exact ⟨d, hd, (h.sample stick hd).2 rfl hthreshold⟩

theorem Centred.completes_tick (h : s.Centred a stick readings)
    (hthreshold : 0 ≤ s.config.threshold) {now : UInt32} (hdue : s.cadence.due now = true) :
    (s.tick now).Completes a fun v _ => v.2.AtCentre stick := by
  have hnegative := ne_minValue_of_nonneg hthreshold
  obtain ⟨d, hd, -⟩ := Sampler.completes_tick h.bits hnegative now
  exact ⟨d, hd, (h.tick hd).2 hdue hthreshold⟩

/-- A calibration converts the two channels of its stick so many times in turn, at least once,
without its sums overflowing, and returns and keeps the floor of the mean of each. If the stick
delivers the same readings before and after, every later sample finds it at its centre. -/
theorem calibration_finds_centre (s : Sampler) (stick : Stick) (count : UInt16) {a : Adc}
    (h : a.bits ≤ 25) :
    ∃ d xs ys, (s.calibrate stick count).run a = .ok d ∧
      Means a stick (max count.toNat 1) xs ys d ∧
      ∀ readings, a.Steady stick readings → ∀ t b, Onward stick d.value.2 d.state t b →
        0 ≤ t.config.threshold → ∀ now,
          (t.sample stick now).Completes b (fun u _ => u.AtCentre stick) ∧
          (t.cadence.due now = true →
            (t.tick now).Completes b fun v _ => v.2.AtCentre stick) := by
  obtain ⟨d, xs, ys, hd, hmeans⟩ := exists_means s h stick count
  refine ⟨d, xs, ys, hd, hmeans, fun readings hsteady t b honward hthreshold now => ?_⟩
  have hcentred := (centred_calibrate h hsteady count hd).onward honward
  exact ⟨hcentred.completes_sample hthreshold now, hcentred.completes_tick hthreshold⟩

end

/-- A wide converter and a stick that rests off the middle; no reading asked for is one. -/
theorem calibration_finds_centre_wide :
    let a : Adc := { inputs := .both ⟨.constant 2400, .constant 1600⟩, bits := 12 }
    a.bits ≤ 25 ∧ a.Steady .two ⟨600, 400⟩ ∧
      ∃ d, ((ofConfig {}).calibrate .two 0).run a = .ok d ∧ d.value.1 = ⟨600, 400⟩ ∧
        d.events = conversions .two 1 ∧
        (d.value.2.sample .two 7).Completes d.state fun u _ => u.AtCentre .two := by
  intro a
  have hbits : a.bits ≤ 25 := by decide
  have hx : Signal.normalize 12 2400 = .ok 600 := by decide
  have hy : Signal.normalize 12 1600 = .ok 400 := by decide
  have hsteady : a.Steady .two ⟨600, 400⟩ := fun _ => ⟨hx, hy⟩
  obtain ⟨d, xs, ys, hd, hmeans, hrest⟩ := calibration_finds_centre (ofConfig {}) .two 0 hbits
  obtain ⟨hxs, hys⟩ := hsteady.eq_of_mem hmeans.passes
  have hcentre : d.value.1 = ⟨600, 400⟩ :=
    congrArg₂ Pair.mk (hmeans.x.eq_of_forall hxs) (hmeans.y.eq_of_forall hys)
  have hthreshold : 0 ≤ d.value.2.config.threshold := by
    rw [(value_of_calibrate hd).config]
    exact (by decide : 0 ≤ Signal.defaultThreshold)
  exact ⟨hbits, hsteady, d, hd, hcentre, hmeans.events,
    (hrest _ hsteady _ _ .refl hthreshold 7).1⟩

end Sampler

end TwinStick
