import Mathlib.Data.Int.Order.Basic
import Mathlib.Dynamics.FixedPoints.Basic
import Mathlib.Tactic.Linarith
import TwinStick.Stick.Sampler

/-! The moving average on a value that stays the same. Each step goes toward that
value and never past it, the average comes to rest after finitely many steps, and it
rests less than the factor away. From zero it only ever moves outward, so its first
step is the one nearest to the centre. -/

namespace TwinStick

namespace Signal

/-- `q` lies between `p` and `c`, where a walk from `p` to `c` passes. -/
def Toward (c p q : Int) : Prop := (p ≤ q ∧ q ≤ c) ∨ (c ≤ q ∧ q ≤ p)

theorem Toward.refl (c p : Int) : Toward c p p := by
  rcases le_total p c with h | h
  · exact .inl ⟨le_rfl, h⟩
  · exact .inr ⟨h, le_rfl⟩

theorem Toward.trans {c p q r : Int} (h : Toward c p q) (h' : Toward c q r) : Toward c p r := by
  unfold Toward at *
  omega

theorem Toward.natAbs_lt {c p q : Int} (h : Toward c p q) (hne : q ≠ p) :
    (c - q).natAbs < (c - p).natAbs := by
  unfold Toward at h
  omega

theorem Toward.natAbs_le {c p q : Int} (h : Toward c p q) : (c - q).natAbs ≤ (c - p).natAbs := by
  unfold Toward at h
  omega

/-- A value on the way from zero is no nearer to zero than an earlier one on that way. -/
theorem Toward.mul_self_le {c p q : Int} (hp : Toward c 0 p) (h : Toward c p q) :
    p * p ≤ q * q := by
  unfold Toward at *
  rcases le_total 0 c with hc | hc
  · have : 0 ≤ p := by omega
    exact mul_self_le_mul_self this (by omega)
  · rw [← neg_mul_neg p, ← neg_mul_neg q]
    exact mul_self_le_mul_self (by omega) (by omega)

/-- The weighted mean lies between the two values, however it is rounded toward zero. -/
theorem toward_mean {f : Int} (hf : 1 ≤ f) (c p : Int) : Toward c p ((p * (f - 1) + c).tdiv f) := by
  have hcancel (a : Int) : (a * f).tdiv f = a := Int.mul_tdiv_cancel a (by omega)
  have hlower {a n : Int} (h : a * f ≤ n) : a ≤ n.tdiv f :=
    (hcancel a).symm.trans_le (Int.tdiv_le_tdiv (by omega) h)
  have hupper {a n : Int} (h : n ≤ a * f) : n.tdiv f ≤ a :=
    (Int.tdiv_le_tdiv (by omega) h).trans_eq (hcancel a)
  rcases le_total p c with h | h
  · exact .inl ⟨hlower (by linarith), hupper (by nlinarith)⟩
  · exact .inr ⟨hlower (by nlinarith), hupper (by linarith)⟩

section

variable {factor : UInt8} (hpos : 1 ≤ factor) (hle : factor ≤ 8)
include hpos

theorem one_le_toNat : 1 ≤ (factor.toNat : Int) :=
  Int.ofNat_le.mpr (UInt8.le_iff_toNat_le.mp hpos)

include hle

/-- No step leaves the words: it ends between two of them. -/
theorem toInt_smooth (c p : Int16) :
    (smooth c p factor).toInt =
      (p.toInt * ((factor.toNat : Int) - 1) + c.toInt).tdiv factor.toNat := by
  have hne : ¬(factor = 0 ∨ 8 < factor) := by
    rintro (rfl | h)
    · exact absurd hpos (by decide)
    · exact UInt8.not_lt.mpr hle h
  rw [smooth, if_neg hne]
  have hmean := toward_mean (one_le_toNat hpos) c.toInt p.toInt
  have hc := c.toInt_lt
  have hc' := c.le_toInt
  have hp := p.toInt_lt
  have hp' := p.le_toInt
  unfold Toward at hmean
  exact Int16.toInt_ofInt_of_le (by omega) (by omega)

theorem toward_smooth (c p : Int16) : Toward c.toInt p.toInt (smooth c p factor).toInt := by
  rw [toInt_smooth hpos hle]
  exact toward_mean (one_le_toNat hpos) c.toInt p.toInt

/-- Where a step moves nothing, the rest of the way is lost in the rounding. -/
theorem natAbs_sub_of_smooth_eq {c p : Int16} (h : smooth c p factor = p) :
    (p.toInt - c.toInt).natAbs ≤ factor.toNat - 1 := by
  have hf := one_le_toNat hpos
  have hquotient := toInt_smooth hpos hle c p
  rw [h] at hquotient
  have hsplit := Int.mul_tdiv_add_tmod (p.toInt * ((factor.toNat : Int) - 1) + c.toInt) factor.toNat
  rw [← hquotient] at hsplit
  have hrest : c.toInt - p.toInt =
      (p.toInt * ((factor.toNat : Int) - 1) + c.toInt).tmod factor.toNat := by linarith
  have hlt : (c.toInt - p.toInt).natAbs < factor.toNat := by
    rw [hrest, Int.natAbs_tmod]
    exact Nat.mod_lt _ (by omega)
  omega

end

end Signal

/-- Steps that lessen a measure wherever they move come to rest. -/
theorem exists_isFixedPt_iterate {step : α → α} {m : α → Nat}
    (hstep : ∀ a, step a ≠ a → m (step a) < m a) (a : α) :
    ∃ n, Function.IsFixedPt step (step^[n] a) := by
  induction hk : m a using Nat.strong_induction_on generalizing a with
  | _ k ih =>
    by_cases hfix : step a = a
    · exact ⟨0, hfix⟩
    · obtain ⟨n, hn⟩ := ih _ (hk ▸ hstep a hfix) (step a) rfl
      exact ⟨n + 1, by rwa [Function.iterate_succ_apply]⟩

theorem iterate_eq_of_isFixedPt {step : α → α} {a : α} {n m : Nat}
    (h : Function.IsFixedPt step (step^[n] a)) (hm : n ≤ m) : step^[m] a = step^[n] a := by
  obtain ⟨k, rfl⟩ := Nat.exists_eq_add_of_le' hm
  rw [Function.iterate_add_apply]
  exact h.iterate k

namespace SamplerConfig

/-- Smoothing is on, with a factor that means something. -/
structure Smooths (config : SamplerConfig) : Prop where
  on : config.smoothing = true
  pos : 1 ≤ config.factor
  le : config.factor ≤ 8

variable {config : SamplerConfig} (h : config.Smooths) (deflection : Pair Int16)
include h

theorem Smooths.toward_x (p : Pair Int16) :
    Signal.Toward deflection.x.toInt p.x.toInt (config.smooth deflection p).x.toInt := by
  rw [smooth, if_pos h.on]
  exact Signal.toward_smooth h.pos h.le _ _

theorem Smooths.toward_y (p : Pair Int16) :
    Signal.Toward deflection.y.toInt p.y.toInt (config.smooth deflection p).y.toInt := by
  rw [smooth, if_pos h.on]
  exact Signal.toward_smooth h.pos h.le _ _

theorem Smooths.toward_iterate (p : Pair Int16) (n : Nat) :
    Signal.Toward deflection.x.toInt p.x.toInt ((config.smooth deflection)^[n] p).x.toInt ∧
      Signal.Toward deflection.y.toInt p.y.toInt ((config.smooth deflection)^[n] p).y.toInt := by
  induction n with
  | zero => exact ⟨.refl _ _, .refl _ _⟩
  | succ n ih =>
    rw [Function.iterate_succ_apply']
    exact ⟨ih.1.trans (h.toward_x deflection _), ih.2.trans (h.toward_y deflection _)⟩

theorem Smooths.exists_rest (p : Pair Int16) :
    ∃ n, Function.IsFixedPt (config.smooth deflection) ((config.smooth deflection)^[n] p) := by
  let distance (p : Pair Int16) : Nat :=
    (deflection.x.toInt - p.x.toInt).natAbs + (deflection.y.toInt - p.y.toInt).natAbs
  suffices hless : ∀ p, config.smooth deflection p ≠ p →
      distance (config.smooth deflection p) < distance p from exists_isFixedPt_iterate hless p
  intro p hmoves
  have hx := h.toward_x deflection p
  have hy := h.toward_y deflection p
  by_cases hxne : (config.smooth deflection p).x.toInt = p.x.toInt
  · have hyne : (config.smooth deflection p).y.toInt ≠ p.y.toInt := by
      intro hyeq
      refine hmoves ?_
      rw [Int16.toInt_inj] at hxne hyeq
      exact congrArg₂ Pair.mk hxne hyeq
    exact Nat.add_lt_add_of_le_of_lt hx.natAbs_le (hy.natAbs_lt hyne)
  · exact Nat.add_lt_add_of_lt_of_le (hx.natAbs_lt hxne) hy.natAbs_le

theorem Smooths.near_of_rest {deflection p : Pair Int16}
    (hp : Function.IsFixedPt (config.smooth deflection) p) :
    (p.x.toInt - deflection.x.toInt).natAbs ≤ config.factor.toNat - 1 ∧
      (p.y.toInt - deflection.y.toInt).natAbs ≤ config.factor.toNat - 1 := by
  have hstill : config.smooth deflection p = p := hp
  rw [smooth, if_pos h.on] at hstill
  exact ⟨Signal.natAbs_sub_of_smooth_eq h.pos h.le (congrArg Pair.x hstill),
    Signal.natAbs_sub_of_smooth_eq h.pos h.le (congrArg Pair.y hstill)⟩

/-- From rest no later step is nearer to the centre than the first one. -/
theorem Smooths.outside_of_first {radius : UInt16}
    (hfirst : Signal.inDeadzone radius (config.smooth deflection .zero) = false) (n : Nat) :
    Signal.inDeadzone radius ((config.smooth deflection)^[n + 1] .zero) = false := by
  have hx := h.toward_x deflection .zero
  have hy := h.toward_y deflection .zero
  obtain ⟨hnx, hny⟩ := h.toward_iterate deflection (config.smooth deflection .zero) n
  have hgrowx := hx.mul_self_le hnx
  have hgrowy := hy.mul_self_le hny
  rw [Function.iterate_succ_apply]
  rw [Signal.inDeadzone, decide_eq_false_iff_not] at hfirst ⊢
  omega

end SamplerConfig

end TwinStick
