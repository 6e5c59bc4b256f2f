import TwinStick.Proofs.Copies
import TwinStick.Proofs.Readings

/-! The flag of the dead zone over whole sessions of a sampler. A sample writes it together with
the position and the directions. A calibration puts all three back to what they were before the
first sample, so that a stick at its centre does not count as being there until it is sampled
again, and whoever tracks its deflection sees it active meanwhile. -/

namespace TwinStick

/-- The disc of the dead zone, its rim included. -/
def InDisc (radius : UInt16) (p : Pair Int16) : Prop :=
  p.x.toInt ^ 2 + p.y.toInt ^ 2 ≤ (radius.toNat : Int) ^ 2

theorem Signal.inDeadzone_iff {radius : UInt16} {p : Pair Int16} :
    inDeadzone radius p = true ↔ InDisc radius p := by
  rw [inDeadzone, decide_eq_true_iff, InDisc, pow_two, pow_two, pow_two]

theorem inDisc_zero (radius : UInt16) : InDisc radius .zero := by
  simp [InDisc, Pair.zero, Pair.both]

theorem Tracker.closed_of_mem_updateAll {t : Tracker} {s : InputSnapshot} {now : UInt32}
    {i : TrackedInput} (hi : i ∈ (t.updateAll s now).entries) :
    i.contact.closed = s.isActive i.kind i.id := by
  obtain ⟨n, hn, hget⟩ := (Tracker.mem_entries _).mp hi
  rw [updateAll_eq] at hn hget
  have hn : n < t.length := hn
  have hplace : n < maxTracked := Nat.lt_of_lt_of_le hn t.length_le
  rw [Vector.getElem?_eq_getElem hplace, getElem_observedTo, if_pos hn] at hget
  obtain rfl := Option.some.inj hget
  exact Contact.observe_closed ..

/-- What is done with a sampler once its configuration and its dead zones are set. -/
inductive SamplerCall
  | tick (now : UInt32)
  | sample (stick : Stick) (now : UInt32)
  | calibrate (stick : Stick) (count : UInt16)
  | setCentre (stick : Stick) (centre : Pair UInt16)

/-- What has been made of a stick so far. -/
inductive StickPast
  | unseen
  | sampled
  /-- It has been calibrated since its last sample. -/
  | recalibrated
deriving DecidableEq

def StickPast.calibrated : StickPast → StickPast
  | unseen => unseen
  | sampled | recalibrated => recalibrated

namespace Sampler

def perform (s : Sampler) : SamplerCall → Routine Adc Sampler
  | .tick now => do
    let (_, s) ← s.tick now
    return s
  | .sample stick now => s.sample stick now
  | .calibrate stick count => do
    let (_, s) ← s.calibrate stick count
    return s
  | .setCentre stick centre => return s.withCentre stick centre

def pastAfter (s : Sampler) (past : StickPast) (stick : Stick) : SamplerCall → StickPast
  | .tick now => if s.cadence.due now then .sampled else past
  | .sample other _ => if other = stick then .sampled else past
  | .calibrate other _ => if other = stick then past.calibrated else past
  | .setCentre .. => past

/-- The samplers that calls lead to, whatever the converter delivers at each of them. -/
inductive Run (config : SamplerConfig) (deadzones : PerStick UInt16) :
    Sampler → (Stick → StickPast) → Prop
  | start : Run config deadzones { ofConfig config with deadzones } fun _ => .unseen
  | call {s past} (h : Run config deadzones s past) (call : SamplerCall) {adc : Adc}
    {d : Outcome Adc Sampler} (hd : (s.perform call).run adc = .ok d) :
    Run config deadzones d.value fun stick => s.pastAfter (past stick) stick call

/-- A stick is as its last sample left it, or as if there had been none. -/
def Told (s : Sampler) (stick : Stick) : StickPast → Prop
  | .sampled => s.Truthful stick
  | .unseen | .recalibrated => s.samples.get stick = {}

section

variable {s t : Sampler} {stick : Stick} {past : StickPast} {now : UInt32} {adc : Adc}

theorem Told.congr (h : s.Told stick past) (hsample : t.samples.get stick = s.samples.get stick)
    (hconfig : t.config = s.config) (hdeadzones : t.deadzones = s.deadzones) :
    t.Told stick past := by
  cases past with
  | sampled => exact Truthful.congr h hsample hconfig hdeadzones
  | unseen | recalibrated => exact hsample.trans h

theorem told_calibrated (h : s.samples.get stick = {}) : s.Told stick past.calibrated := by
  cases past <;> exact h

theorem samples_of_calibrate {count : UInt16} {d : Outcome Adc (Pair UInt16 × Sampler)}
    (hd : (s.calibrate stick count).run adc = .ok d) :
    d.value.2.samples = s.samples.set stick {} := by
  obtain ⟨e, e', -, he', rfl⟩ := Routine.run_bind_eq_ok.mp hd
  obtain rfl := Except.ok.inj he'
  rfl

variable {call : SamplerCall} {d : Outcome Adc Sampler}

/-- No call changes the configuration or the dead zones. -/
theorem setup_perform (hd : (s.perform call).run adc = .ok d) :
    d.value.config = s.config ∧ d.value.deadzones = s.deadzones := by
  cases call with
  | tick now =>
    obtain ⟨e, e', he, he', rfl⟩ := Routine.run_bind_eq_ok.mp hd
    obtain rfl := Except.ok.inj he'
    have hsetup := sameSetup_tick he
    exact ⟨hsetup.config, hsetup.deadzones⟩
  | sample stick now =>
    have hsetup := sameSetup_sample hd
    exact ⟨hsetup.config, hsetup.deadzones⟩
  | calibrate stick count =>
    obtain ⟨e, e', he, he', rfl⟩ := Routine.run_bind_eq_ok.mp hd
    obtain rfl := Except.ok.inj he'
    have hsetup := value_of_calibrate he
    exact ⟨hsetup.config, hsetup.deadzones⟩
  | setCentre stick centre =>
    obtain rfl := Except.ok.inj hd
    exact ⟨rfl, rfl⟩

theorem Told.perform (h : s.Told stick past) (hd : (s.perform call).run adc = .ok d) :
    d.value.Told stick (s.pastAfter past stick call) := by
  obtain ⟨hconfig, hdeadzones⟩ := setup_perform hd
  cases call with
  | tick now =>
    obtain ⟨e, e', he, he', rfl⟩ := Routine.run_bind_eq_ok.mp hd
    obtain rfl := Except.ok.inj he'
    rw [pastAfter]
    cases hdue : s.cadence.due now with
    | true => exact truthful_tick hdue he stick
    | false =>
      obtain rfl := Except.ok.inj ((Controller.run_sampler_idle hdue adc).symm.trans he)
      exact h
  | sample other now =>
    obtain ⟨⟨sample, hvalue⟩, hsampled⟩ := truthful_sample hd
    rw [pastAfter]
    by_cases hother : other = stick
    · subst hother
      rw [if_pos rfl]
      exact hsampled
    · rw [if_neg hother]
      refine h.congr ?_ hconfig hdeadzones
      rw [hvalue]
      exact PerStick.get_set_of_ne _ hother _
  | calibrate other count =>
    obtain ⟨e, e', he, he', rfl⟩ := Routine.run_bind_eq_ok.mp hd
    obtain rfl := Except.ok.inj he'
    have hsamples := samples_of_calibrate he
    rw [pastAfter]
    by_cases hother : other = stick
    · subst hother
      rw [if_pos rfl]
      refine told_calibrated ?_
      rw [hsamples, PerStick.get_set_self]
    · rw [if_neg hother]
      refine h.congr ?_ hconfig hdeadzones
      rw [hsamples, PerStick.get_set_of_ne _ hother]
  | setCentre other centre =>
    obtain rfl := Except.ok.inj hd
    exact h.congr rfl rfl rfl

variable {config : SamplerConfig} {deadzones : PerStick UInt16} {pasts : Stick → StickPast}

theorem Run.told (h : Run config deadzones s pasts) :
    s.config = config ∧ s.deadzones = deadzones ∧ ∀ stick, s.Told stick (pasts stick) := by
  induction h with
  | start => exact ⟨rfl, rfl, fun stick => by cases stick <;> rfl⟩
  | call _ call hd ih =>
    obtain ⟨hconfig, hdeadzones, htold⟩ := ih
    obtain ⟨hconfig', hdeadzones'⟩ := setup_perform hd
    exact ⟨hconfig'.trans hconfig, hdeadzones'.trans hdeadzones,
      fun stick => (htold stick).perform hd⟩

theorem Told.rest (h : s.Told stick past) (hin : (s.samples.get stick).inDeadzone = true) :
    (s.samples.get stick).position = .zero ∧
      (0 ≤ s.config.threshold → (s.samples.get stick).directions = {}) := by
  cases past with
  | sampled =>
    have htruthful : s.Truthful stick := h
    exact ⟨htruthful.rest hin, htruthful.idle hin⟩
  | unseen | recalibrated =>
    have hblank : s.samples.get stick = {} := h
    rw [hblank] at hin
    exact absurd hin (by decide)

theorem Told.flag_iff (h : s.Told stick past) :
    ((s.samples.get stick).inDeadzone = true ↔
      InDisc (s.deadzones.get stick) (s.samples.get stick).position) ↔ past = .sampled := by
  cases past with
  | sampled =>
    have htruthful : s.Truthful stick := h
    rw [htruthful.flag, atRest, Signal.inDeadzone_iff]
    simp
  | unseen | recalibrated =>
    have hblank : s.samples.get stick = {} := h
    have hrest := inDisc_zero (s.deadzones.get stick)
    rw [hblank]
    simp [hrest]

theorem isActive_deflection {view : InputSnapshot} {id : UInt8} (hid : id.toNat = stick.index) :
    view.isActive .stickDeflection id = !(view.sampler.samples.get stick).inDeadzone := by
  simp only [InputSnapshot.isActive, hid, Stick.ofIndex?_index]

/-- Exactly for the sticks that have been sampled since their last calibration the flag says
whether the position is in the dead zone, and a tracked deflection is not active there. Where
the flag is set, the stick is at its centre and in no direction. -/
theorem Run.flag_truthful_iff (h : Run config deadzones s pasts) (stick : Stick) :
    let sample := s.samples.get stick
    let resting := InDisc (deadzones.get stick) sample.position
    ((sample.inDeadzone = true ↔ resting) ↔ pasts stick = .sampled) ∧
    (sample.inDeadzone = true →
      sample.position = .zero ∧ (0 ≤ config.threshold → sample.directions = {})) ∧
    ∀ (t : Tracker) (view : InputSnapshot) (now : UInt32), view.sampler = s →
      ∀ i ∈ (t.updateAll view now).entries, i.kind = .stickDeflection →
        i.id.toNat = stick.index →
        (i.contact.closed = true ∧ resting ↔ pasts stick ≠ .sampled) := by
  intro sample resting
  obtain ⟨rfl, rfl, htold⟩ := h.told
  have hflag := (htold stick).flag_iff
  have hrest := (htold stick).rest
  refine ⟨hflag, hrest, fun t view now hview i hi hkind hid => ?_⟩
  have hresting : sample.inDeadzone = true → resting := by
    intro hin
    have hzero : sample.position = .zero := (hrest hin).1
    rw [show resting = InDisc _ sample.position from rfl, hzero]
    exact inDisc_zero _
  rw [Tracker.closed_of_mem_updateAll hi, hkind, isActive_deflection hid, hview, Ne, ← hflag]
  change (!sample.inDeadzone) = true ∧ resting ↔ ¬ (sample.inDeadzone = true ↔ resting)
  cases hin : sample.inDeadzone with
  | true => simp [hresting hin]
  | false => simp

end

/-- The first stick is sampled at rest and then calibrated. -/
def recalibrated : Except Fault (Outcome Adc Sampler) := do
  let start := { ofConfig {} with deadzones := .both Signal.defaultDeadzone }
  let d ← (start.perform (.sample .one 0)).run {}
  (d.value.perform (.calibrate .one 1)).run d.state

theorem run_recalibrated {d : Outcome Adc Sampler} (h : recalibrated = .ok d) :
    ∃ pasts, Run {} (.both Signal.defaultDeadzone) d.value pasts ∧ pasts .one = .recalibrated := by
  obtain ⟨d, hsample, hd⟩ := exists_of_bind_eq_ok h
  exact ⟨_, .call (.call .start _ hsample) _ hd, rfl⟩

/-- The deflection of the first stick, tracked over two updates. -/
def trackedDeflection (s : Sampler) : Tracker :=
  let view : InputSnapshot := { matrix := .ofConfig {}, sampler := s, touching := false }
  let t := ((Tracker.ofConfig {}).track .stickDeflection 0).2.updateAll view 10
  t.updateAll view 100

theorem recalibrated_tracked :
    ∃ d, recalibrated = .ok d ∧ (d.value.samples.get .one).inDeadzone = false ∧
      (d.value.samples.get .one).position = .zero ∧
      (trackedDeflection d.value).isActive ⟨0⟩ = true := by
  have hrun : recalibrated.toOption.map (fun d => ((d.value.samples.get .one).inDeadzone,
      (d.value.samples.get .one).position, (trackedDeflection d.value).isActive ⟨0⟩)) =
        some (false, .zero, true) := by
    decide +kernel
  obtain ⟨d, hd, h⟩ := Option.map_eq_some_iff.mp hrun
  simp only [Prod.mk.injEq] at h
  exact ⟨d, eq_ok_of_toOption hd, h⟩

/-- At its centre, not flagged as being there, and reported as deflected. -/
theorem flag_truthful_recalibrated :
    ∃ d pasts, recalibrated = .ok d ∧ Run {} (.both Signal.defaultDeadzone) d.value pasts ∧
      pasts .one = .recalibrated ∧ (d.value.samples.get .one).position = .zero ∧
      ¬ ((d.value.samples.get .one).inDeadzone = true ↔
        InDisc Signal.defaultDeadzone (d.value.samples.get .one).position) ∧
      (∀ i ∈ (trackedDeflection d.value).entries, i.kind = .stickDeflection → i.id = 0 →
        i.contact.closed = true) ∧
      (trackedDeflection d.value).isActive ⟨0⟩ = true := by
  obtain ⟨d, hd, -, hzero, hactive⟩ := recalibrated_tracked
  obtain ⟨pasts, hrun, hpast⟩ := run_recalibrated hd
  obtain ⟨hflag, -, htracked⟩ := hrun.flag_truthful_iff .one
  have hstale : pasts .one ≠ .sampled := by
    rw [hpast]
    decide
  refine ⟨d, pasts, hd, hrun, hpast, hzero, fun h => hstale (hflag.mp h), ?_, hactive⟩
  intro i hi hkind hid
  have hindex : i.id.toNat = Stick.one.index := by
    rw [hid]
    rfl
  exact ((htracked _ _ _ rfl i hi hkind hindex).mpr hstale).1

theorem flag_not_truthful :
    ¬ ∀ (config : SamplerConfig) (deadzones : PerStick UInt16) (s : Sampler)
      (pasts : Stick → StickPast) (stick : Stick), Run config deadzones s pasts →
      pasts stick ≠ .unseen → ((s.samples.get stick).inDeadzone = true ↔
        InDisc (deadzones.get stick) (s.samples.get stick).position) := by
  intro h
  obtain ⟨d, hd, hflag, hzero, -⟩ := recalibrated_tracked
  obtain ⟨pasts, hrun, hpast⟩ := run_recalibrated hd
  have hseen : pasts .one ≠ .unseen := by
    rw [hpast]
    decide
  have hiff := h _ _ _ _ .one hrun hseen
  rw [hzero, hflag] at hiff
  exact absurd (hiff.mpr (inDisc_zero _)) (by decide)

end Sampler

end TwinStick
