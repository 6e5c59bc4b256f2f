import Mathlib
import TwinStick.Proofs.Smoothing

/-! The moving average of a value that stays the same, step by step from any start. It goes
toward the value and never past it, it moves until it stands still, and it stands still
exactly between zero and the value, less than the factor away from the value. -/

namespace TwinStick

namespace Signal

/-- Where the average of a value may rest: on the same side of zero, no further out than the
value, and less than the factor short of it. -/
structure Rests (factor : UInt8) (c p : Int16) : Prop where
  near : (c.toInt.natAbs : Int) - factor.toNat < p.toInt.natAbs
  within : p.toInt.natAbs ≤ c.toInt.natAbs
  side : p = 0 ∨ p.toInt.sign = c.toInt.sign

/-- A sequence that goes toward a value without passing it, and stays where it stops. -/
structure Approaches (c : Int) (p : Nat → Int) : Prop where
  rises : p 0 ≤ c → Monotone p ∧ ∀ n, p n ≤ c
  falls : c ≤ p 0 → Antitone p ∧ ∀ n, c ≤ p n
  stays : ∀ n, p (n + 1) = p n → ∀ m ≥ n, p m = p n

theorem mean_neg (f c p : Int) :
    (-p * (f - 1) + -c).tdiv f = -(p * (f - 1) + c).tdiv f := by
  rw [← Int.neg_tdiv]
  congr 1
  ring

/-- Where the value is not below zero, the weighted mean stands still exactly where the rounding
loses the rest of the way. -/
theorem mean_eq_iff_of_nonneg {f : Int} (hf : 1 ≤ f) {c : Int} (hc : 0 ≤ c) (p : Int) :
    (p * (f - 1) + c).tdiv f = p ↔ 0 ≤ p ∧ p ≤ c ∧ c - f < p := by
  have hsplit : p * (f - 1) + c = p * f + (c - p) := by ring
  rcases le_or_gt 0 (p * (f - 1) + c) with hn | hn
  · rw [Int.tdiv_eq_ediv_of_nonneg hn]
    have hquotient : 0 ≤ (p * (f - 1) + c) / f := Int.ediv_nonneg hn (by omega)
    have hiff : (p * (f - 1) + c) / f = p ↔ p ≤ c ∧ c - f < p := by
      rw [Int.ediv_eq_iff_of_pos (by omega), hsplit]
      omega
    exact ⟨fun h => ⟨h ▸ hquotient, hiff.mp h⟩, fun h => hiff.mpr h.2⟩
  · have hp : p < 0 := by
      by_contra hp
      have : 0 ≤ p * (f - 1) := mul_nonneg (by omega) (by omega)
      omega
    refine iff_of_false (fun hstill => ?_) (by omega)
    -- below zero the quotient is rounded up, which would put the value below it
    have hneg : 0 ≤ -(p * (f - 1) + c) := by omega
    have hup : -(p * (f - 1) + c) / f = -p := by
      rw [← Int.tdiv_eq_ediv_of_nonneg hneg, Int.neg_tdiv, hstill]
    rw [Int.ediv_eq_iff_of_pos (by omega), hsplit, neg_mul] at hup
    omega

theorem sign_eq_iff {c p : Int} :
    p = 0 ∨ p.sign = c.sign ↔ p = 0 ∨ 0 < p ∧ 0 < c ∨ p < 0 ∧ c < 0 := by
  rcases lt_trichotomy p 0 with hp | rfl | hp
  · rw [Int.sign_eq_neg_one_of_neg hp, eq_comm (a := -1), Int.sign_eq_neg_one_iff_neg]
    omega
  · simp
  · rw [Int.sign_eq_one_of_pos hp, eq_comm (a := 1), Int.sign_eq_one_iff_pos]
    omega

theorem mean_eq_iff {f : Int} (hf : 1 ≤ f) (c p : Int) :
    (p * (f - 1) + c).tdiv f = p ↔
      (c.natAbs : Int) - f < p.natAbs ∧ p.natAbs ≤ c.natAbs ∧ (p = 0 ∨ p.sign = c.sign) := by
  rw [sign_eq_iff]
  rcases le_total 0 c with hc | hc
  · rw [mean_eq_iff_of_nonneg hf hc]
    omega
  · have hmirrored := mean_eq_iff_of_nonneg hf (show 0 ≤ -c by omega) (-p)
    rw [mean_neg, neg_inj] at hmirrored
    rw [hmirrored]
    omega

section

variable {c : Int} {p : Nat → Int} (h : ∀ n, Toward c (p n) (p (n + 1)))
include h

theorem le_of_toward (h0 : p 0 ≤ c) (n : Nat) : p n ≤ p (n + 1) ∧ p (n + 1) ≤ c := by
  have hn := h n
  unfold Toward at hn
  cases n with
  | zero => omega
  | succ n =>
    have := le_of_toward h0 n
    omega

theorem ge_of_toward (h0 : c ≤ p 0) (n : Nat) : p (n + 1) ≤ p n ∧ c ≤ p (n + 1) := by
  have hn := h n
  unfold Toward at hn
  cases n with
  | zero => omega
  | succ n =>
    have := ge_of_toward h0 n
    omega

end

section

variable {factor : UInt8} (hpos : 1 ≤ factor) (hle : factor ≤ 8) (c : Int16)
include hpos hle

theorem smooth_eq_iff (p : Int16) : smooth c p factor = p ↔ Rests factor c p := by
  rw [← Int16.toInt_inj, toInt_smooth hpos hle, mean_eq_iff (one_le_toNat hpos)]
  have hzero : p = 0 ↔ p.toInt = 0 := Int16.toInt_inj.symm
  rw [← hzero]
  exact ⟨fun ⟨hnear, hwithin, hside⟩ => ⟨hnear, hwithin, hside⟩,
    fun h => ⟨h.near, h.within, h.side⟩⟩

theorem approaches_smooth (p : Int16) :
    Approaches c.toInt fun n => ((smooth c · factor)^[n] p).toInt := by
  have hstep (n : Nat) : Toward c.toInt ((smooth c · factor)^[n] p).toInt
      ((smooth c · factor)^[n + 1] p).toInt := by
    rw [Function.iterate_succ_apply']
    exact toward_smooth hpos hle c _
  refine ⟨fun hp => ?_, fun hp => ?_, fun n hn m hm => ?_⟩
  · have hrises := le_of_toward hstep hp
    exact ⟨monotone_nat_of_le_succ fun n => (hrises n).1, fun n => (hrises n).1.trans (hrises n).2⟩
  · have hfalls := ge_of_toward hstep hp
    exact ⟨antitone_nat_of_succ_le fun n => (hfalls n).1, fun n => (hfalls n).2.trans (hfalls n).1⟩
  · have hstill : Function.IsFixedPt (smooth c · factor) ((smooth c · factor)^[n] p) := by
      rw [Function.iterate_succ_apply', Int16.toInt_inj] at hn
      exact hn
    exact congrArg Int16.toInt (iterate_eq_of_isFixedPt hstill hm)

theorem exists_rest (p : Int16) :
    ∃ n q, Rests factor c q ∧ ∀ m ≥ n, (smooth c · factor)^[m] p = q := by
  let distance (p : Int16) : Nat := (c.toInt - p.toInt).natAbs
  have hless (p : Int16) (hmoves : smooth c p factor ≠ p) :
      distance (smooth c p factor) < distance p :=
    (toward_smooth hpos hle c p).natAbs_lt fun h => hmoves (Int16.toInt_inj.mp h)
  obtain ⟨n, hn⟩ : ∃ n, Function.IsFixedPt (smooth c · factor) ((smooth c · factor)^[n] p) :=
    exists_isFixedPt_iterate hless p
  exact ⟨n, _, (smooth_eq_iff hpos hle c _).mp hn, fun m hm => iterate_eq_of_isFixedPt hn hm⟩

end

theorem smooth_of_off {factor : UInt8} (h : factor = 0 ∨ 8 < factor) (c p : Int16) :
    smooth c p factor = c := if_pos h

/-- The average of a value that stays the same goes toward it from any start, comes to rest, and
rests exactly where rounding loses what is left of the way; no exact quotient on the way is too
wide for its word. Without smoothing it is the value from the first step on. -/
theorem smoothing_converges (c p : Int16) (factor : UInt8) :
    (1 ≤ factor ∧ factor ≤ 8 →
      (∀ q, (smooth c q factor).toInt =
        (q.toInt * ((factor.toNat : Int) - 1) + c.toInt).tdiv factor.toNat) ∧
      Approaches c.toInt (fun n => ((smooth c · factor)^[n] p).toInt) ∧
      (∃ n q, Rests factor c q ∧ ∀ m ≥ n, (smooth c · factor)^[m] p = q) ∧
      ∀ q, smooth c q factor = q ↔ Rests factor c q) ∧
    (factor = 0 ∨ 8 < factor → ∀ n, (smooth c · factor)^[n + 1] p = c) := by
  refine ⟨fun ⟨hpos, hle⟩ => ⟨?_, ?_, ?_, ?_⟩, fun hoff n => ?_⟩
  · exact toInt_smooth hpos hle c
  · exact approaches_smooth hpos hle c p
  · exact exists_rest hpos hle c p
  · exact smooth_eq_iff hpos hle c
  · rw [Function.iterate_succ_apply']
    exact smooth_of_off hoff c _

/-- From one end of the words to the other the average stops seven short of the value. -/
theorem smoothing_converges_across :
    (∃ n, ∀ m ≥ n, (smooth (-32768) · 8)^[m] 32767 = -32761) ∧
      (smooth (-32768) · 9)^[1] 32767 = -32768 := by
  obtain ⟨hsmooths, -⟩ := smoothing_converges (-32768) 32767 8
  obtain ⟨-, hoff⟩ := smoothing_converges (-32768) 32767 9
  obtain ⟨-, happroaches, ⟨n, q, -, hrest⟩, -⟩ := hsmooths (by decide)
  refine ⟨⟨n, fun m hm => ?_⟩, hoff (by decide) 0⟩
  have hstill : ((smooth (-32768) · 8)^[81] 32767).toInt = -32761 ∧
      ((smooth (-32768) · 8)^[80] 32767).toInt = -32761 := by
    decide +kernel
  have hlate := happroaches.stays 80 (hstill.1.trans hstill.2.symm) (n + 80) (by omega)
  rw [hrest m hm, ← hrest (n + 80) (by omega), ← Int16.toInt_inj]
  exact hlate.trans hstill.2

end Signal

end TwinStick
