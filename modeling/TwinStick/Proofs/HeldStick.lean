import TwinStick.Proofs.Readings
import TwinStick.Proofs.Smoothing

/-! A stick that is held still while it is sampled. The moving average goes on from the last
position, which the dead zone may have put back to the centre, so there are two ends: the
average stays out of the dead zone and comes to rest near the deflection, or it is caught
there, and then only a first step from the centre that leaves the dead zone sets it free. -/

namespace TwinStick

namespace Sampler

section

variable {s : Sampler} {stick : Stick} {readings : Pair UInt16} {p : Pair Int16}

theorem settle_of_atRest (h : s.atRest stick (s.average stick readings p) = true) :
    s.settle stick readings p = .zero := by
  rw [settle, if_pos h]

theorem settle_of_not_atRest (h : s.atRest stick (s.average stick readings p) = false) :
    s.settle stick readings p = s.average stick readings p := by
  rw [settle, h]
  rfl

/-- As long as the average stays outside, the dead zone does nothing. -/
theorem iterate_settle_of_not_atRest {n : Nat}
    (h : ∀ k < n, s.atRest stick ((s.average stick readings)^[k + 1] p) = false) :
    (s.settle stick readings)^[n] p = (s.average stick readings)^[n] p := by
  induction n with
  | zero => rfl
  | succ n ih =>
    have hn := h n (Nat.lt_succ_self n)
    rw [Function.iterate_succ_apply'] at hn
    rw [Function.iterate_succ_apply', Function.iterate_succ_apply',
      ih fun k hk => h k (Nat.lt_succ_of_lt hk), settle_of_not_atRest hn]

/-- The first step from the centre is the deflection divided by the factor. -/
theorem not_atRest_first_iff (h : s.config.Smooths) :
    s.atRest stick (s.average stick readings .zero) = false ↔
      ((s.deadzones.get stick).toNat : Int) * (s.deadzones.get stick).toNat <
        (s.deflection stick readings).x.toInt.tdiv s.config.factor.toNat *
            (s.deflection stick readings).x.toInt.tdiv s.config.factor.toNat +
          (s.deflection stick readings).y.toInt.tdiv s.config.factor.toNat *
            (s.deflection stick readings).y.toInt.tdiv s.config.factor.toNat := by
  have hzero : (Pair.zero.x : Int16).toInt = 0 ∧ (Pair.zero.y : Int16).toInt = 0 := ⟨rfl, rfl⟩
  rw [atRest, average, Signal.inDeadzone, decide_eq_false_iff_not, SamplerConfig.smooth,
    if_pos h.on]
  simp only [Signal.toInt_smooth h.pos h.le, hzero, zero_mul, zero_add, not_le]

end

/-- From a number of samples on, the stick is at a position, in the dead zone or not. -/
def ComesToRest (s : Sampler) (stick : Stick) (a : Adc) (p : Pair Int16) (inDeadzone : Bool) :
    Prop :=
  ∃ n, ∀ times : List UInt32, n ≤ times.length →
    ∃ d, (times.foldlM (·.sample stick ·) s : Routine Adc Sampler).run a = .ok d ∧
      (d.value.samples.get stick).position = p ∧
      (d.value.samples.get stick).inDeadzone = inDeadzone

/-- The stick comes to rest outside the dead zone, and so near a deflection that the rounding
accounts for the rest. -/
def SeenForGood (s : Sampler) (stick : Stick) (a : Adc) (deflection : Pair Int16) : Prop :=
  ∃ p, s.ComesToRest stick a p false ∧
    (p.x.toInt - deflection.x.toInt).natAbs ≤ s.config.factor.toNat - 1 ∧
    (p.y.toInt - deflection.y.toInt).natAbs ≤ s.config.factor.toNat - 1

theorem ComesToRest.unique {s : Sampler} {stick : Stick} {a : Adc} {p p' : Pair Int16} {b b' : Bool}
    (h : s.ComesToRest stick a p b) (h' : s.ComesToRest stick a p' b') : b = b' := by
  obtain ⟨n, hn⟩ := h
  obtain ⟨n', hn'⟩ := h'
  let times : List UInt32 := List.replicate (n + n') 0
  obtain ⟨d, hd, -, hb⟩ := hn times (by simp [times])
  obtain ⟨d', hd', -, hb'⟩ := hn' times (by simp [times])
  obtain rfl := Except.ok.inj (hd.symm.trans hd')
  exact hb.symm.trans hb'

section

variable {s : Sampler} {stick : Stick} {a : Adc} {readings : Pair UInt16} {n : Nat} {p : Pair Int16}
  (hthreshold : s.config.threshold ≠ Int16.minValue) (hsteady : a.Steady stick readings)
include hthreshold hsteady

theorem exists_samples (times : List UInt32) :
    ∃ d, (times.foldlM (·.sample stick ·) s : Routine Adc Sampler).run a = .ok d ∧
      (d.value.samples.get stick).position =
        (s.settle stick readings)^[times.length] (s.samples.get stick).position ∧
      ∀ n, times.length = n + 1 → (d.value.samples.get stick).inDeadzone =
        s.atRest stick (s.average stick readings
          ((s.settle stick readings)^[n] (s.samples.get stick).position)) := by
  induction times generalizing s a with
  | nil => exact ⟨_, rfl, rfl, fun n hn => nomatch hn⟩
  | cons now times ih =>
    obtain ⟨sample, hs, hposition, hflag⟩ := s.exists_observe stick hthreshold readings now
    have hrun := s.run_sample hsteady.delivers now
    rw [hs] at hrun
    obtain ⟨d, hd, hp, hf⟩ := ih (s := { s with samples := s.samples.set stick sample }) hthreshold
      hsteady.advanceStick
    simp only [PerStick.get_set_self, hposition] at hp hf
    rw [List.foldlM_cons, Routine.run_bind_of_ok hrun, hd]
    refine ⟨_, rfl, hp, fun n hn => ?_⟩
    cases n with
    | zero =>
      obtain rfl := List.length_eq_zero_iff.mp (Nat.succ.inj hn)
      obtain rfl := Except.ok.inj hd
      exact (congrArg StickSample.inDeadzone (PerStick.get_set_self _ _ _)).trans hflag
    | succ n => exact hf n (Nat.succ.inj hn)

/-- The rest of a stick is that of the sequence of its positions. -/
theorem comesToRest_of_iterate
    (hn : ∀ m ≥ n, (s.settle stick readings)^[m] (s.samples.get stick).position = p) :
    s.ComesToRest stick a p (s.atRest stick (s.average stick readings p)) := by
  refine ⟨n + 1, fun times hlength => ?_⟩
  obtain ⟨d, hd, hposition, hflag⟩ := exists_samples hthreshold hsteady times
  obtain ⟨m, hm⟩ := Nat.exists_eq_succ_of_ne_zero (Nat.ne_zero_of_lt hlength)
  refine ⟨d, hd, hposition.trans (hn _ (by omega)), ?_⟩
  rw [hflag m hm, hn m (by omega)]

/-- A stick whose average stays out of the dead zone from some position on is seen. -/
theorem seenForGood_of_outside (hsmooths : s.config.Smooths)
    (hp : (s.settle stick readings)^[n] (s.samples.get stick).position = p)
    (hout : ∀ k, s.atRest stick ((s.average stick readings)^[k + 1] p) = false) :
    s.SeenForGood stick a (s.deflection stick readings) := by
  obtain ⟨rest, hrest⟩ := hsmooths.exists_rest (s.deflection stick readings) p
  refine ⟨(s.average stick readings)^[rest] p, ?_, hsmooths.near_of_rest hrest⟩
  have hlater : ∀ m ≥ rest + n, (s.settle stick readings)^[m] (s.samples.get stick).position =
      (s.average stick readings)^[rest] p := by
    intro m hm
    obtain ⟨k, rfl⟩ := Nat.exists_eq_add_of_le' (Nat.le_of_add_left_le hm)
    rw [Function.iterate_add_apply, hp, iterate_settle_of_not_atRest fun k _ => hout k]
    exact iterate_eq_of_isFixedPt hrest (by omega)
  have hflag := hout rest
  rw [Function.iterate_succ_apply'] at hflag
  exact hflag ▸ comesToRest_of_iterate hthreshold hsteady hlater

/-- A stick at the centre whose first step does not leave the dead zone stays there. -/
theorem comesToRest_zero
    (hzero : (s.settle stick readings)^[n] (s.samples.get stick).position = .zero)
    (hfirst : s.atRest stick (s.average stick readings .zero) = true) :
    s.ComesToRest stick a .zero true := by
  have hfix : Function.IsFixedPt (s.settle stick readings) .zero := settle_of_atRest hfirst
  have hlater : ∀ m ≥ n,
      (s.settle stick readings)^[m] (s.samples.get stick).position = .zero := by
    intro m hm
    rw [iterate_eq_of_isFixedPt (hzero ▸ hfix) hm, hzero]
  exact hfirst ▸ comesToRest_of_iterate hthreshold hsteady hlater

/-- A stick held still is seen for good exactly if the first step from the centre leaves the dead
zone or the average never enters it on its way. Any other stick ends at the centre, however far
outside the dead zone it is held. -/
theorem held_stick_seen_iff (hsmooths : s.config.Smooths) :
    (s.SeenForGood stick a (s.deflection stick readings) ↔
      ((s.deadzones.get stick).toNat : Int) * (s.deadzones.get stick).toNat <
          (s.deflection stick readings).x.toInt.tdiv s.config.factor.toNat *
              (s.deflection stick readings).x.toInt.tdiv s.config.factor.toNat +
            (s.deflection stick readings).y.toInt.tdiv s.config.factor.toNat *
              (s.deflection stick readings).y.toInt.tdiv s.config.factor.toNat ∨
        ∀ n, s.atRest stick
          ((s.average stick readings)^[n + 1] (s.samples.get stick).position) = false) ∧
    (¬s.SeenForGood stick a (s.deflection stick readings) →
      s.ComesToRest stick a .zero true) := by
  rw [← not_atRest_first_iff hsmooths]
  by_cases hout : ∀ n, s.atRest stick
      ((s.average stick readings)^[n + 1] (s.samples.get stick).position) = false
  · have hseen := seenForGood_of_outside hthreshold hsteady hsmooths
      (Function.iterate_zero_apply _ _) hout
    exact ⟨iff_of_true hseen (.inr hout), absurd hseen⟩
  -- The first time that the average is inside, the stick is put back to the centre.
  · obtain ⟨n, hzero⟩ : ∃ n,
        (s.settle stick readings)^[n] (s.samples.get stick).position = .zero := by
      have hcaught : ∃ n, s.atRest stick
          ((s.average stick readings)^[n + 1] (s.samples.get stick).position) = true := by
        simpa only [not_forall, Bool.not_eq_false] using hout
      have hbefore := iterate_settle_of_not_atRest (n := Nat.find hcaught)
        fun k hk => Bool.not_eq_true _ ▸ Nat.find_min hcaught hk
      have hinside := Nat.find_spec hcaught
      rw [Function.iterate_succ_apply', ← hbefore] at hinside
      refine ⟨Nat.find hcaught + 1, ?_⟩
      rw [Function.iterate_succ_apply', settle_of_atRest hinside]
    cases hfirst : s.atRest stick (s.average stick readings .zero) with
    | false =>
      have hseen := seenForGood_of_outside hthreshold hsteady hsmooths hzero
        (hsmooths.outside_of_first _ hfirst)
      exact ⟨iff_of_true hseen (.inl rfl), absurd hseen⟩
    | true =>
      have hrest := comesToRest_zero hthreshold hsteady hzero hfirst
      have hunseen : ¬s.SeenForGood stick a (s.deflection stick readings) := by
        rintro ⟨p, hp, -⟩
        exact absurd (hp.unique hrest) (by decide)
      exact ⟨iff_of_false hunseen (not_or.mpr ⟨nofun, hout⟩), fun _ => hrest⟩

end

/-- A stick held at four hundred from its centre is seen at the default settings: a quarter of
that is outside. -/
theorem held_stick_seen_at_four_hundred :
    (ofConfig {}).config.threshold ≠ Int16.minValue ∧
      Adc.Steady { inputs := .both ⟨.constant 912, .constant 512⟩ } .one ⟨912, 512⟩ ∧
      (ofConfig {}).config.Smooths ∧
      (ofConfig {}).SeenForGood .one { inputs := .both ⟨.constant 912, .constant 512⟩ }
        ((ofConfig {}).deflection .one ⟨912, 512⟩) := by
  have hthreshold : (ofConfig {}).config.threshold ≠ Int16.minValue := by decide
  have hsteady : Adc.Steady { inputs := .both ⟨.constant 912, .constant 512⟩ } .one ⟨912, 512⟩ :=
    fun _ => ⟨rfl, rfl⟩
  have hsmooths : (ofConfig {}).config.Smooths := ⟨rfl, by decide, by decide⟩
  exact ⟨hthreshold, hsteady, hsmooths,
    (held_stick_seen_iff hthreshold hsteady hsmooths).1.mpr (.inl (by decide))⟩

/-- A stick held at a hundred from its centre is twice as far out as the default dead zone
reaches, and is never seen: a quarter of a hundred is inside. -/
theorem not_seenForGood_past_rim :
    (ofConfig {}).config.Smooths ∧
      Adc.Steady { inputs := .both ⟨.constant 612, .constant 512⟩ } .one ⟨612, 512⟩ ∧
      (((ofConfig {}).deadzones.get .one).toNat + 2 * (ofConfig {}).config.factor.toNat : Int) ^ 2 <
        ((ofConfig {}).deflection .one ⟨612, 512⟩).x.toInt ^ 2 +
          ((ofConfig {}).deflection .one ⟨612, 512⟩).y.toInt ^ 2 ∧
      ¬(ofConfig {}).SeenForGood .one { inputs := .both ⟨.constant 612, .constant 512⟩ }
        ((ofConfig {}).deflection .one ⟨612, 512⟩) := by
  have hsteady : Adc.Steady { inputs := .both ⟨.constant 612, .constant 512⟩ } .one ⟨612, 512⟩ :=
    fun _ => ⟨rfl, rfl⟩
  refine ⟨⟨rfl, by decide, by decide⟩, hsteady, by decide, ?_⟩
  have hrest := comesToRest_zero (s := ofConfig {}) (n := 0) (by decide) hsteady rfl (by decide)
  rintro ⟨p, hp, -⟩
  exact absurd (hp.unique hrest) (by decide)

end Sampler

end TwinStick
