import TwinStick.Uptime

/-! Time that does not wrap. The counter shows the milliseconds since some origin only up to
a multiple of its range, but that much is enough to tell whether a period has passed, as long
as one asks before it can have come round unnoticed. -/

namespace TwinStick

/-- What the counter shows at a time. -/
def uptime (time : Nat) : UInt32 := .ofNat time

/-- The counter's range in milliseconds. -/
def wrap : Nat := UInt32.size

theorem toNat_elapsed {since now : Nat} (h : since ≤ now) :
    (elapsed (uptime since) (uptime now)).toNat = (now - since) % wrap := by
  rw [elapsed, uptime, uptime, ← UInt32.ofNat_sub h, UInt32.toNat_ofNat']
  rfl

/-- A period that is zero, or is asked about before the counter has come round, is recognised. -/
theorem le_elapsed_iff {period : UInt32} {since now : Nat} (h : since ≤ now)
    (hsoon : now < since + wrap ∨ period.toNat = 0) :
    period ≤ elapsed (uptime since) (uptime now) ↔ since + period.toNat ≤ now := by
  rw [UInt32.le_iff_toNat_le, toNat_elapsed h]
  rcases hsoon with hsoon | hzero
  · rw [Nat.mod_eq_of_lt (by omega)]
    omega
  · omega

namespace Cadence

theorem due_none {c : Cadence} (h : c.last = none) (now : UInt32) : c.due now = true := by
  rw [due, h]

theorem due_iff {c : Cadence} {since now : Nat} (hlast : c.last = some (uptime since))
    (h : since ≤ now) (hsoon : now < since + wrap ∨ c.period.toNat = 0) :
    c.due (uptime now) = true ↔ since + c.period.toNat ≤ now := by
  rw [due, hlast, ← le_elapsed_iff h hsoon, decide_eq_true_iff]

theorem poll_of_due {c : Cadence} {now : UInt32} (h : c.due now = true) :
    c.poll now = (true, { c with last := some now }) := if_pos h

theorem poll_of_not_due {c : Cadence} {now : UInt32} (h : c.due now = false) :
    c.poll now = (false, c) := by
  rw [poll, h]
  rfl

end Cadence

end TwinStick
