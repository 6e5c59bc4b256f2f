import Mathlib.Data.List.Chain
import TwinStick.Proofs.TrueTime

/-! The rate gate in unbounded time. Whatever the counter shows, and however the period is
changed, the gate answers as one would that knew the time itself, as long as it is polled before
a period can have come round unnoticed.

Requests have the newest first. -/

namespace TwinStick

namespace Cadence

inductive Request
  | poll (time : Nat)
  | setPeriod (period : UInt32)

/-- A gate that is told the time itself. -/
structure Ideal where
  period : Nat
  last : Option Nat := none

namespace Ideal

def due (g : Ideal) (time : Nat) : Bool :=
  match g.last with
  | none => true
  | some last => last + g.period ≤ time

def poll (g : Ideal) (time : Nat) : Bool × Ideal :=
  if g.due time then (true, { g with last := some time }) else (false, g)

def withPeriod (g : Ideal) (period : Nat) : Ideal := { g with period }

def after (start : UInt32) : List Request → Ideal
  | [] => { period := start.toNat }
  | .poll time :: earlier => ((after start earlier).poll time).2
  | .setPeriod period :: earlier => (after start earlier).withPeriod period.toNat

end Ideal

/-- The gate after the requests, which sees of each time what the counter shows. -/
def after (start : UInt32) : List Request → Cadence
  | [] => { period := start }
  | .poll time :: earlier => ((after start earlier).poll (uptime time)).2
  | .setPeriod period :: earlier => (after start earlier).withPeriod period

def Opens (start : UInt32) (earlier : List Request) (time : Nat) : Prop :=
  ((after start earlier).poll (uptime time)).1 = true

instance (start : UInt32) (earlier : List Request) (time : Nat) :
    Decidable (Opens start earlier time) := inferInstanceAs (Decidable (_ = true))

/-- When the gate was polled. -/
def polls : List Request → List Nat
  | [] => []
  | .poll time :: earlier => time :: polls earlier
  | .setPeriod _ :: earlier => polls earlier

/-- When it was polled and opened. -/
def openings (start : UInt32) : List Request → List Nat
  | [] => []
  | .poll time :: earlier =>
    if Opens start earlier time then time :: openings start earlier else openings start earlier
  | .setPeriod _ :: earlier => openings start earlier

def inForce (start : UInt32) : List Request → UInt32
  | [] => start
  | .poll _ :: earlier => inForce start earlier
  | .setPeriod period :: _ => period

/-- Time does not go back. No period is longer than `longest`, and each poll comes at least that
much sooner after the one before than the counter comes round. -/
structure Paced (longest : Nat) (start : UInt32) (requests : List Request) : Prop where
  start : start.toNat ≤ longest
  set (period : UInt32) : .setPeriod period ∈ requests → period.toNat ≤ longest
  spaced : (polls requests).IsChain fun later earlier =>
    earlier ≤ later ∧ later + longest ≤ earlier + wrap

/-- Since the gate last opened less than `longest` has passed, or nothing has. -/
def Recent (longest last latest : Nat) : Prop :=
  last ≤ latest ∧ (latest = last ∨ latest < last + longest)

section

variable {longest : Nat} {start : UInt32} {request : Request} {earlier requests : List Request}
  {time last latest : Nat} {older rest : List Nat}

theorem opens_iff_due :
    Opens start earlier time ↔ (after start earlier).due (uptime time) = true := by
  cases hdue : (after start earlier).due (uptime time) with
  | false => rw [Opens, poll_of_not_due hdue]
  | true => rw [Opens, poll_of_due hdue]

/-- Of all that was asked of it the gate knows the period in force and what the counter showed
when it last opened. -/
theorem after_eq (start : UInt32) (requests : List Request) : after start requests =
    ⟨inForce start requests, (openings start requests).head?.map uptime⟩ := by
  induction requests with
  | nil => rfl
  | cons request earlier ih =>
    cases request with
    | setPeriod period =>
      rw [after, ih]
      rfl
    | poll time =>
      rw [after, inForce, openings]
      by_cases ho : Opens start earlier time
      · rw [poll_of_due (opens_iff_due.mp ho), if_pos ho, ih]
        rfl
      · rw [poll_of_not_due (Bool.eq_false_iff.mpr (mt opens_iff_due.mpr ho)), if_neg ho, ih]

theorem openings_sublist (start : UInt32) (requests : List Request) :
    (openings start requests).Sublist (polls requests) := by
  induction requests with
  | nil => exact .slnil
  | cons request earlier ih =>
    cases request with
    | setPeriod period => exact ih
    | poll time =>
      rw [openings, polls]
      split
      · exact ih.cons_cons time
      · exact ih.cons time

theorem openings_eq_nil (h : polls requests = []) : openings start requests = [] :=
  List.sublist_nil.mp (h ▸ openings_sublist start requests)

theorem opens_of_fresh (h : openings start earlier = []) (time : Nat) :
    Opens start earlier time := by
  have hfresh : (after start earlier).last = none := by
    rw [after_eq, h, List.head?_nil, Option.map_none]
  exact opens_iff_due.mpr (due_none hfresh _)

theorem opens_iff_of_last (hlast : openings start earlier = last :: older) (hle : last ≤ time)
    (hsoon : time < last + wrap ∨ (inForce start earlier).toNat = 0) :
    Opens start earlier time ↔ last + (inForce start earlier).toNat ≤ time := by
  have hafter : after start earlier = ⟨inForce start earlier, some (uptime last)⟩ := by
    rw [after_eq, hlast, List.head?_cons, Option.map_some]
  rw [opens_iff_due, hafter, due_iff rfl hle hsoon]

theorem Paced.tail (h : Paced longest start (request :: earlier)) :
    Paced longest start earlier where
  start := h.start
  set period hperiod := h.set period (List.mem_cons_of_mem _ hperiod)
  spaced := by
    have hspaced := h.spaced
    cases request with
    | poll time => exact hspaced.of_cons
    | setPeriod period => exact hspaced

theorem Paced.inForce_le (h : Paced longest start requests) :
    (inForce start requests).toNat ≤ longest := by
  induction requests with
  | nil => exact h.start
  | cons request earlier ih =>
    cases request with
    | poll time => exact ih h.tail
    | setPeriod period => exact h.set period List.mem_cons_self

theorem Paced.le_last (h : Paced longest start requests)
    (hlast : openings start requests = last :: older) {opened : Nat}
    (hopened : opened ∈ openings start requests) : opened ≤ last := by
  have hpolls : (polls requests).IsChain (· ≥ ·) := h.spaced.imp fun _ _ hstep => hstep.1
  have hsorted := hpolls.pairwise.sublist (openings_sublist start requests)
  rw [hlast] at hsorted hopened
  rcases List.mem_cons.mp hopened with rfl | hmem
  · exact Nat.le_refl _
  · exact List.rel_of_pairwise_cons hsorted hmem

theorem Recent.soon (h : Recent longest last latest) (hpolls : polls earlier = latest :: rest)
    (hp : Paced longest start (.poll time :: earlier)) :
    last ≤ time ∧ (time < last + wrap ∨ (inForce start earlier).toNat = 0) := by
  have hperiod := hp.tail.inForce_le
  have hspaced := hp.spaced
  rw [polls, hpolls] at hspaced
  obtain ⟨hnext, -⟩ := List.isChain_cons_cons.mp hspaced
  unfold Recent at h
  -- only if all periods are zero can a whole round have passed since the gate opened
  omega

/-- At each poll the gate opens, or it last did less than `longest` before. -/
theorem Paced.recent (h : Paced longest start requests) (hpolls : polls requests = latest :: rest) :
    ∃ last older, openings start requests = last :: older ∧ Recent longest last latest := by
  induction requests generalizing latest rest with
  | nil => nomatch hpolls
  | cons request earlier ih =>
    cases request with
    | setPeriod period => exact ih h.tail hpolls
    | poll time =>
      obtain ⟨rfl, -⟩ := List.cons.inj hpolls
      by_cases ho : Opens start earlier time
      · exact ⟨time, openings start earlier, if_pos ho, Nat.le_refl _, .inl rfl⟩
      · cases hearlier : polls earlier with
        | nil => exact absurd (opens_of_fresh (openings_eq_nil hearlier) time) ho
        | cons previous _ =>
          obtain ⟨last, older, hlast, hrecent⟩ := ih h.tail hearlier
          obtain ⟨hle, hsoon⟩ := hrecent.soon hearlier h
          -- the period that has not passed may be changed later, but none is longer than `longest`
          have hshort := mt (opens_iff_of_last hlast hle hsoon).mpr ho
          have hperiod := h.tail.inForce_le
          exact ⟨last, older, (if_neg ho).trans hlast, hle, .inr (by omega)⟩

theorem Paced.first_or_later (h : Paced longest start (.poll time :: earlier)) :
    (polls earlier = [] ∧ openings start earlier = [] ∧ Opens start earlier time) ∨
      ∃ last older, polls earlier ≠ [] ∧ openings start earlier = last :: older ∧
        (Opens start earlier time ↔ last + (inForce start earlier).toNat ≤ time) := by
  cases hearlier : polls earlier with
  | nil =>
    have hnone : openings start earlier = [] := openings_eq_nil hearlier
    exact .inl ⟨rfl, hnone, opens_of_fresh hnone time⟩
  | cons latest rest =>
    obtain ⟨last, older, hlast, hrecent⟩ := h.tail.recent hearlier
    obtain ⟨hle, hsoon⟩ := hrecent.soon hearlier h
    exact .inr ⟨last, older, List.cons_ne_nil _ _, hlast, opens_iff_of_last hlast hle hsoon⟩

theorem Paced.opens_iff_last (h : Paced longest start (.poll time :: earlier)) :
    Opens start earlier time ↔ polls earlier = [] ∨
      ∃ last, (openings start earlier).head? = some last ∧
        last + (inForce start earlier).toNat ≤ time := by
  rcases h.first_or_later with ⟨hpolls, -, ho⟩ | ⟨last, older, hpolls, hlast, hiff⟩
  · exact iff_of_true ho (.inl hpolls)
  · rw [hiff, hlast]
    simp [hpolls]

theorem Paced.opens_iff_all (h : Paced longest start (.poll time :: earlier)) :
    Opens start earlier time ↔
      ∀ opened ∈ openings start earlier, opened + (inForce start earlier).toNat ≤ time := by
  rcases h.first_or_later with ⟨-, hnone, ho⟩ | ⟨last, older, -, hlast, hiff⟩
  · rw [hnone]
    exact iff_of_true ho nofun
  · rw [hiff]
    constructor
    · intro hlong opened hopened
      have hle := h.tail.le_last hlast hopened
      omega
    · intro hall
      refine hall last ?_
      rw [hlast]
      exact List.mem_cons_self

theorem Paced.opens_iff_ideal (h : Paced longest start (.poll time :: earlier)) :
    Opens start earlier time ↔
      Ideal.due ⟨(inForce start earlier).toNat, (openings start earlier).head?⟩ time = true := by
  rcases h.first_or_later with ⟨-, hnone, ho⟩ | ⟨last, older, -, hlast, hiff⟩
  · rw [hnone]
    exact iff_of_true ho rfl
  · rw [hiff, hlast]
    exact decide_eq_true_iff.symm

/-- The ideal gate goes by the same openings. -/
theorem Paced.ideal_after (h : Paced longest start requests) : Ideal.after start requests =
    ⟨(inForce start requests).toNat, (openings start requests).head?⟩ := by
  induction requests with
  | nil => rfl
  | cons request earlier ih =>
    have hearlier := ih h.tail
    cases request with
    | setPeriod period =>
      rw [Ideal.after, hearlier]
      rfl
    | poll time =>
      rw [Ideal.after, hearlier, Ideal.poll, openings]
      by_cases ho : Opens start earlier time
      · rw [if_pos ho, if_pos (h.opens_iff_ideal.mp ho)]
        rfl
      · rw [if_neg ho, if_neg (mt h.opens_iff_ideal.mpr ho)]
        rfl

/-- A poll is answered as the ideal gate answers it. It opens the gate if it is the first, or if
the period in force has passed since the last one that did; so no two that do are closer than
that, and none that is due is missed. -/
theorem opens_in_true_time (h : Paced longest start (.poll time :: earlier)) :
    ((after start earlier).poll (uptime time)).1 = ((Ideal.after start earlier).poll time).1 ∧
    (Opens start earlier time ↔ polls earlier = [] ∨
      ∃ last, (openings start earlier).head? = some last ∧
        last + (inForce start earlier).toNat ≤ time) ∧
    (Opens start earlier time ↔
      ∀ opened ∈ openings start earlier, opened + (inForce start earlier).toNat ≤ time) := by
  refine ⟨?_, h.opens_iff_last, h.opens_iff_all⟩
  rw [h.tail.ideal_after, Ideal.poll]
  by_cases ho : Opens start earlier time
  · rw [if_pos (h.opens_iff_ideal.mp ho)]
    exact ho
  · rw [if_neg (mt h.opens_iff_ideal.mpr ho)]
    exact Bool.eq_false_iff.mpr ho

/-- The counter wraps twice, and the period is made shorter and longer again. -/
def wrappedTwice : List Request :=
  [.poll 8589934600, .setPeriod 50, .poll 8589934570, .poll 4294967330, .setPeriod 40,
    .poll 4294967300, .poll 4294967290]

theorem opens_in_true_time_wrapped_twice :
    openings 50 wrappedTwice = [8589934570, 4294967330, 4294967290] ∧
      Opens 50 wrappedTwice 8589934620 ∧
      ((Ideal.after 50 wrappedTwice).poll 8589934620).1 = true := by
  have hpaced : Paced 50 50 (.poll 8589934620 :: wrappedTwice) := by
    refine ⟨by decide, fun period hperiod => ?_, ?_⟩
    · simp only [wrappedTwice, List.mem_cons, List.not_mem_nil, or_false, reduceCtorEq, false_or,
        Request.setPeriod.injEq] at hperiod
      obtain rfl | rfl := hperiod <;> decide
    · simp only [wrappedTwice, polls, List.isChain_cons_cons, List.isChain_singleton]
      decide
  obtain ⟨hideal, -, hall⟩ := opens_in_true_time hpaced
  have hopenings : openings 50 wrappedTwice = [8589934570, 4294967330, 4294967290] := by
    decide +kernel
  have hopen : Opens 50 wrappedTwice 8589934620 := by
    rw [hall, hopenings]
    decide
  exact ⟨hopenings, hopen, hideal.symm.trans hopen⟩

end

end Cadence

end TwinStick
