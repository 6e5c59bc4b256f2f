import TwinStick.Proofs.Access
import TwinStick.Stick.Sampler

/-! Conversions and samples told as whole values: what a reading leaves behind, when it can
be rescaled, and what a sample makes of it. The two things that can stop a sample are a
reading too wide to be shifted down and a threshold that has no negative. After a sample the
flag of the dead zone agrees with the position, and where it is set no direction is. -/

namespace TwinStick

namespace Signal

/-- Twenty-five bits are fifteen more than an axis has. -/
theorem exists_normalize {bits : UInt8} (h : bits ≤ 25) (reading : UInt16) :
    ∃ r, normalize bits reading = .ok r := by
  rw [normalize]
  by_cases hwide : axisBits < bits
  · have hplaces : bits - axisBits < 16 := by
      rw [axisBits] at hwide ⊢
      rw [UInt8.le_iff_toNat_le] at h
      rw [UInt8.lt_iff_toNat_lt, UInt8.toNat_sub_of_le _ _ (UInt8.le_of_lt hwide)]
      change bits.toNat ≤ 25 at h
      change bits.toNat - 10 < 16
      omega
    rw [if_pos hwide, Checked.shiftRightUInt16, if_pos hplaces]
    exact ⟨_, rfl⟩
  · rw [if_neg hwide]
    exact ⟨_, rfl⟩

theorem flatten_snd (radius : UInt16) (p : Pair Int16) :
    (flatten radius p).2 = inDeadzone radius p := by
  rw [flatten]
  cases inDeadzone radius p <;> rfl

theorem inDeadzone_flatten (radius : UInt16) (p : Pair Int16) :
    inDeadzone radius (flatten radius p).1 = (flatten radius p).2 ∧
      ((flatten radius p).2 = true → (flatten radius p).1 = .zero) := by
  have hcentre : inDeadzone radius .zero = true := by
    have hsquare : (0 : Int) ≤ (radius.toNat : Int) * radius.toNat :=
      Int.mul_nonneg (by omega) (by omega)
    simpa [inDeadzone, Pair.zero, Pair.both] using hsquare
  rw [flatten]
  cases hp : inDeadzone radius p with
  | true => exact ⟨hcentre, fun _ => rfl⟩
  | false => exact ⟨hp, nofun⟩

end Signal

theorem Checked.exists_negInt16 {a : Int16} (h : a ≠ Int16.minValue) :
    negInt16 a = .ok (-a) := by
  have hne : a.toInt ≠ -32768 := fun ha => h (Int16.toInt_inj.mp ha)
  have hlow := a.le_toInt
  have hhigh := a.toInt_lt
  rw [negInt16, int16, if_pos (by omega)]
  exact congrArg Except.ok (by rw [Int16.ofInt_neg, Int16.ofInt_toInt])

theorem Directions.exists_ofPosition {threshold : Int16} (h : threshold ≠ Int16.minValue)
    (p : Pair Int16) : ∃ d, ofPosition threshold p = .ok d := by
  rw [ofPosition, Checked.exists_negInt16 h]
  exact ⟨_, rfl⟩

/-- The directions in exact terms. -/
theorem Directions.ofPosition_eq {threshold : Int16} (h : 0 ≤ threshold) (p : Pair Int16) :
    ofPosition threshold p = .ok {
      left := p.x.toInt < -threshold.toInt
      right := threshold.toInt < p.x.toInt
      up := threshold.toInt < p.y.toInt
      down := p.y.toInt < -threshold.toInt } := by
  have hpos : 0 ≤ threshold.toInt := Int16.le_iff_toInt_le.mp h
  have hlt := threshold.toInt_lt
  have hneg : Checked.negInt16 threshold = .ok (Int16.ofInt (-threshold.toInt)) := by
    rw [Checked.negInt16, Checked.int16, if_pos (by omega)]
  have hopposite : (Int16.ofInt (-threshold.toInt)).toInt = -threshold.toInt :=
    Int16.toInt_ofInt_of_le (by omega) (by omega)
  rw [ofPosition, hneg]
  change Except.ok _ = _
  simp only [Int16.lt_iff_toInt_lt, hopposite]

theorem Directions.eq_empty_of_zero {threshold : Int16} (h : 0 ≤ threshold) {d : Directions}
    (hd : ofPosition threshold .zero = .ok d) : d = {} := by
  have hpos : 0 ≤ threshold.toInt := Int16.le_iff_toInt_le.mp h
  obtain rfl := Except.ok.inj ((ofPosition_eq h .zero).symm.trans hd)
  have hhigh : ¬ threshold.toInt < 0 := by omega
  simp [Pair.zero, Pair.both, hhigh]

theorem StickSample.exists_next (s : StickSample) {config : SamplerConfig}
    (h : config.threshold ≠ Int16.minValue) (deadzone : UInt16) (deflection : Pair Int16)
    (now : UInt32) :
    ∃ t, s.next config deadzone deflection now = .ok t ∧
      t.position = (Signal.flatten deadzone (config.smooth deflection s.position)).1 ∧
      t.inDeadzone = Signal.inDeadzone deadzone (config.smooth deflection s.position) := by
  obtain ⟨directions, hd⟩ := Directions.exists_ofPosition h
    (Signal.flatten deadzone (config.smooth deflection s.position)).1
  rw [next]
  dsimp only
  rw [hd]
  exact ⟨_, rfl, rfl, Signal.flatten_snd _ _⟩

/-- Position and flag are written together, and the directions are those of the position. -/
theorem StickSample.next_eq_ok {s t : StickSample} {config : SamplerConfig} {deadzone : UInt16}
    {deflection : Pair Int16} {now : UInt32} (h : s.next config deadzone deflection now = .ok t) :
    (t.position, t.inDeadzone) =
        Signal.flatten deadzone (config.smooth deflection s.position) ∧
      Directions.ofPosition config.threshold t.position = .ok t.directions := by
  obtain ⟨directions, hdirections, ht⟩ := exists_of_bind_eq_ok h
  obtain rfl := Except.ok.inj ht
  exact ⟨rfl, hdirections⟩

namespace Adc

theorem run_read (c : Channel) (a : Adc) :
    (read c).run a = (Signal.normalize a.bits (a.input c).reading).map fun r =>
      ⟨r, a.advance c, [.conversion c]⟩ := by
  rw [read, Routine.run_bind_of_silent (Routine.run_get a),
    Routine.run_bind_of_silent (Routine.run_set _ _), Routine.run_bind_of_ok (Routine.run_emit _ _),
    Routine.run_liftM]
  cases Signal.normalize a.bits (a.input c).reading <;> rfl

@[simp] theorem bits_advance (a : Adc) (c : Channel) : (a.advance c).bits = a.bits := rfl

theorem input_advance_self (a : Adc) (c : Channel) :
    (a.advance c).input c = (a.input c).advance := by
  obtain ⟨stick, axis⟩ := c
  cases axis <;> simp [advance, input]

theorem input_advance_of_ne (a : Adc) {c e : Channel} (h : c ≠ e) :
    (a.advance c).input e = a.input e := by
  obtain ⟨stick, axis⟩ := c
  obtain ⟨stick', axis'⟩ := e
  by_cases hs : stick = stick'
  · subst hs
    cases axis <;> cases axis' <;> simp_all [advance, input]
  · cases axis <;> cases axis' <;> simp [advance, input, PerStick.get_set_of_ne _ hs]

def advanceStick (a : Adc) (stick : Stick) : Adc := (a.advance ⟨stick, .x⟩).advance ⟨stick, .y⟩

/-- The next conversions of a stick deliver these readings. -/
structure Delivers (a : Adc) (stick : Stick) (readings : Pair UInt16) : Prop where
  x : Signal.normalize a.bits (a.input ⟨stick, .x⟩).reading = .ok readings.x
  y : Signal.normalize a.bits (a.input ⟨stick, .y⟩).reading = .ok readings.y

theorem Delivers.run_x {a : Adc} {stick : Stick} {readings : Pair UInt16}
    (h : a.Delivers stick readings) :
    (read ⟨stick, .x⟩).run a =
      .ok ⟨readings.x, a.advance ⟨stick, .x⟩, [.conversion ⟨stick, .x⟩]⟩ := by
  rw [run_read, h.x]
  rfl

theorem Delivers.run_y {a : Adc} {stick : Stick} {readings : Pair UInt16}
    (h : a.Delivers stick readings) :
    (read ⟨stick, .y⟩).run (a.advance ⟨stick, .x⟩) =
      .ok ⟨readings.y, a.advanceStick stick, [.conversion ⟨stick, .y⟩]⟩ := by
  rw [run_read, bits_advance, input_advance_of_ne a (by simp), h.y]
  rfl

theorem run_readStick {a : Adc} {stick : Stick} {readings : Pair UInt16}
    (h : a.Delivers stick readings) :
    (readStick stick).run a =
      .ok ⟨readings, a.advanceStick stick, [.conversion ⟨stick, .x⟩, .conversion ⟨stick, .y⟩]⟩ := by
  rw [readStick, Routine.run_bind_of_ok h.run_x, Routine.run_bind_of_ok h.run_y, Routine.run_pure]
  rfl

/-- The conversions of a stick deliver the same readings from now on. -/
def Steady (a : Adc) (stick : Stick) (readings : Pair UInt16) : Prop :=
  ∀ n, Signal.normalize a.bits
      ((a.input ⟨stick, .x⟩).script ((a.input ⟨stick, .x⟩).taken + n)) = .ok readings.x ∧
    Signal.normalize a.bits
      ((a.input ⟨stick, .y⟩).script ((a.input ⟨stick, .y⟩).taken + n)) = .ok readings.y

variable {a : Adc} {stick : Stick} {readings : Pair UInt16} (h : a.Steady stick readings)
include h

theorem Steady.delivers : a.Delivers stick readings := ⟨(h 0).1, (h 0).2⟩

theorem Steady.advanceStick : (a.advanceStick stick).Steady stick readings := by
  intro n
  have hx : (a.advanceStick stick).input ⟨stick, .x⟩ = (a.input ⟨stick, .x⟩).advance := by
    rw [Adc.advanceStick, input_advance_of_ne _ (by simp), input_advance_self]
  have hy : (a.advanceStick stick).input ⟨stick, .y⟩ = (a.input ⟨stick, .y⟩).advance := by
    rw [Adc.advanceStick, input_advance_self, input_advance_of_ne _ (by simp)]
  rw [hx, hy]
  simpa [AnalogInput.advance, Nat.add_assoc, Nat.add_comm 1 n, Adc.advanceStick] using h (n + 1)

end Adc

namespace Sampler

/-- Where a stick is, measured from its centre. -/
def deflection (s : Sampler) (stick : Stick) (readings : Pair UInt16) : Pair Int16 :=
  ⟨Signal.centred readings.x (s.centres.get stick).x,
    Signal.centred readings.y (s.centres.get stick).y⟩

/-- Where the moving average goes from a position. -/
def average (s : Sampler) (stick : Stick) (readings : Pair UInt16) : Pair Int16 → Pair Int16 :=
  s.config.smooth (s.deflection stick readings)

/-- Inside the dead zone of a stick. -/
def atRest (s : Sampler) (stick : Stick) (p : Pair Int16) : Bool :=
  Signal.inDeadzone (s.deadzones.get stick) p

/-- Where a sample puts a stick that was at a position: a step of the moving average, brought
back to the centre in the dead zone. -/
def settle (s : Sampler) (stick : Stick) (readings : Pair UInt16) (p : Pair Int16) : Pair Int16 :=
  if s.atRest stick (s.average stick readings p) then .zero else s.average stick readings p

theorem exists_observe (s : Sampler) (stick : Stick) (h : s.config.threshold ≠ Int16.minValue)
    (readings : Pair UInt16) (now : UInt32) :
    ∃ sample, s.observe stick readings now =
        .ok { s with samples := s.samples.set stick sample } ∧
      sample.position = s.settle stick readings (s.samples.get stick).position ∧
      sample.inDeadzone =
        s.atRest stick (s.average stick readings (s.samples.get stick).position) := by
  obtain ⟨sample, hs, hp, hf⟩ := (s.samples.get stick).exists_next h (s.deadzones.get stick)
    (s.deflection stick readings) now
  refine ⟨sample, ?_, ?_, hf⟩
  · rw [observe]
    exact congrArg (· >>= fun sample => pure { s with samples := s.samples.set stick sample }) hs
  · rw [hp, settle, atRest, average, Signal.flatten]
    split <;> rfl

theorem run_sample {a : Adc} {stick : Stick} {readings : Pair UInt16}
    (h : a.Delivers stick readings) (s : Sampler) (now : UInt32) :
    (s.sample stick now).run a = (s.observe stick readings now).map fun t =>
      ⟨t, a.advanceStick stick, [.conversion ⟨stick, .x⟩, .conversion ⟨stick, .y⟩]⟩ := by
  rw [sample, Routine.run_bind_of_ok (Adc.run_readStick h), Routine.run_liftM]
  cases s.observe stick readings now <;> rfl

/-- A sum that has room for so many more readings. -/
def HasRoom (n : Nat) (total : Pair UInt32) : Prop :=
  total.x.toNat + n * 65535 < UInt32.size ∧ total.y.toNat + n * 65535 < UInt32.size

theorem addUInt32_of_room {total : UInt32} {n : Nat}
    (h : total.toNat + (n + 1) * 65535 < UInt32.size) (x : UInt16) :
    Checked.addUInt32 total x.toUInt32 = .ok (total + x.toUInt32) ∧
      (total + x.toUInt32).toNat + n * 65535 < UInt32.size := by
  have hx := x.toNat_lt
  have hwide : x.toUInt32.toNat = x.toNat := UInt16.toNat_toUInt32 x
  have hfits : total.toNat + x.toUInt32.toNat < UInt32.size := by omega
  have hsum : (total + x.toUInt32).toNat = total.toNat + x.toUInt32.toNat := by
    rw [UInt32.toNat_add]
    exact Nat.mod_eq_of_lt hfits
  refine ⟨if_pos hfits, ?_⟩
  omega

theorem hasRoom_zero (count : UInt16) : HasRoom count.toNat (.both 0) := by
  have hcount := count.toNat_lt
  have hzero : (0 : UInt32).toNat + count.toNat * 65535 < UInt32.size := by
    simp only [UInt32.toNat_zero, UInt32.size]
    omega
  exact ⟨hzero, hzero⟩

/-- The flag of a stick says whether it is in the dead zone, where it has no deflection. -/
structure Flat (s : Sampler) (stick : Stick) : Prop where
  flag : (s.samples.get stick).inDeadzone = s.atRest stick (s.samples.get stick).position
  rest : (s.samples.get stick).inDeadzone = true → (s.samples.get stick).position = .zero

/-- In the dead zone no direction is set either. -/
structure Truthful (s : Sampler) (stick : Stick) : Prop extends Flat s stick where
  idle : (s.samples.get stick).inDeadzone = true → 0 ≤ s.config.threshold →
    (s.samples.get stick).directions = {}

section

variable {s t : Sampler} {stick : Stick} {now : UInt32} {a : Adc}

theorem Truthful.congr (h : s.Truthful stick)
    (hsample : t.samples.get stick = s.samples.get stick) (hconfig : t.config = s.config)
    (hdeadzones : t.deadzones = s.deadzones) : t.Truthful stick := by
  obtain ⟨⟨hflag, hrest⟩, hidle⟩ := h
  rw [atRest, ← hdeadzones] at hflag
  rw [← hsample] at hflag hrest hidle
  rw [← hconfig] at hidle
  exact ⟨⟨hflag, hrest⟩, hidle⟩

theorem truthful_observe {readings : Pair UInt16} (h : s.observe stick readings now = .ok t) :
    (∃ sample, t = { s with samples := s.samples.set stick sample }) ∧ t.Truthful stick := by
  obtain ⟨sample, hsample, ht⟩ := exists_of_bind_eq_ok h
  obtain rfl := Except.ok.inj ht
  obtain ⟨hwritten, hdirections⟩ := StickSample.next_eq_ok hsample
  obtain ⟨hflag, hrest⟩ := Signal.inDeadzone_flatten (s.deadzones.get stick)
    (s.average stick readings (s.samples.get stick).position)
  rw [average, deflection, ← hwritten] at hflag hrest
  refine ⟨⟨sample, rfl⟩, ⟨?_, ?_⟩, ?_⟩ <;> rw [PerStick.get_set_self]
  · exact hflag.symm
  · exact hrest
  · intro hin hthreshold
    have hzero : sample.position = .zero := hrest hin
    rw [hzero] at hdirections
    exact Directions.eq_empty_of_zero hthreshold hdirections

theorem truthful_sample {d : Outcome Adc Sampler} (hd : (s.sample stick now).run a = .ok d) :
    (∃ sample, d.value = { s with samples := s.samples.set stick sample }) ∧
      d.value.Truthful stick := by
  obtain ⟨e, e', -, he, rfl⟩ := Routine.run_bind_eq_ok.mp hd
  obtain ⟨t, ht, rfl⟩ := exists_of_map_eq_ok ((Routine.run_liftM _ _).symm.trans he)
  exact truthful_observe ht

/-- A tick that is due samples one stick and then the other. -/
theorem samples_of_due_tick {d : Outcome Adc (Bool × Sampler)} (hdue : s.cadence.due now = true)
    (hd : (s.tick now).run a = .ok d) :
    ∃ e o, (({ s with cadence := { s.cadence with last := some now } } : Sampler).sample
        .one now).run a = .ok e ∧
      (e.value.sample .two now).run e.state = .ok o ∧ d.value = (true, o.value) := by
  rw [tick, Cadence.poll, hdue] at hd
  obtain ⟨e, e', he, he', rfl⟩ := Routine.run_bind_eq_ok.mp hd
  obtain ⟨o, o', ho, ho', rfl⟩ := Routine.run_bind_eq_ok.mp he'
  obtain rfl := Except.ok.inj ho'
  exact ⟨e, o, he, ho, rfl⟩

theorem truthful_tick {d : Outcome Adc (Bool × Sampler)} (hdue : s.cadence.due now = true)
    (hd : (s.tick now).run a = .ok d) (stick : Stick) : d.value.2.Truthful stick := by
  obtain ⟨e, o, he, ho, hvalue⟩ := samples_of_due_tick hdue hd
  have hone := (truthful_sample he).2
  obtain ⟨⟨sample, hsecond⟩, htwo⟩ := truthful_sample ho
  rw [hvalue]
  cases stick with
  | one =>
    have hkept : (e.value.samples.set .two sample).get .one = e.value.samples.get .one :=
      PerStick.get_set_of_ne _ (by decide) _
    rw [hsecond]
    exact hone.congr hkept rfl rfl
  | two => exact htwo

end

end Sampler

end TwinStick
