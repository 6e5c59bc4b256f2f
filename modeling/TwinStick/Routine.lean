import TwinStick.Fault
import TwinStick.Hardware.Event

/-! Computations on a part `σ` of the device. A routine changes that part, emits
events in order, and may stop at a fault; what was done before a fault is lost
with it. Events only go out, so a routine cannot depend on earlier ones. -/

namespace TwinStick

/-- What a routine leaves behind when no fault stops it. -/
structure Outcome (σ α : Type) where
  value : α
  state : σ
  events : List Event

def Routine (σ α : Type) : Type := σ → Except Fault (Outcome σ α)

namespace Routine

def run (r : Routine σ α) (s : σ) : Except Fault (Outcome σ α) := r s

instance : Monad (Routine σ) where
  pure a := fun s => .ok ⟨a, s, []⟩
  bind r f := fun s =>
    match r s with
    | .error e => .error e
    | .ok d =>
      match f d.value d.state with
      | .error e => .error e
      | .ok d' => .ok ⟨d'.value, d'.state, d.events ++ d'.events⟩

instance : MonadStateOf σ (Routine σ) where
  get := fun s => .ok ⟨s, s, []⟩
  set s := fun _ => .ok ⟨(), s, []⟩
  modifyGet f := fun s => .ok ⟨(f s).1, (f s).2, []⟩

instance : MonadLift (Except Fault) (Routine σ) where
  monadLift x := fun s => x.map fun a => ⟨a, s, []⟩

def emit (events : List Event) : Routine σ Unit := fun s => .ok ⟨(), s, events⟩

/-- Runs a routine on a part of a larger state and leaves the rest as it is. -/
def onPart (view : τ → σ) (put : σ → τ → τ) (r : Routine σ α) : Routine τ α := fun t =>
  (r (view t)).map fun d => ⟨d.value, put d.state t, d.events⟩

@[simp] theorem run_pure (a : α) (s : σ) : run (pure a) s = .ok ⟨a, s, []⟩ := rfl

theorem run_bind (r : Routine σ α) (f : α → Routine σ β) (s : σ) :
    run (r >>= f) s =
      (run r s).bind fun d =>
        (run (f d.value) d.state).map fun d' =>
          ⟨d'.value, d'.state, d.events ++ d'.events⟩ := by
  show (match r s with | .error e => _ | .ok d => _) = _
  cases h : r s with
  | error e => simp [run, h, Except.bind]
  | ok d =>
    simp only [run, h, Except.bind]
    cases f d.value d.state <;> rfl

/-- A sequence ends well exactly when both parts do, the second from where the
first ended; its events are those of the first and then those of the second. -/
theorem run_bind_eq_ok {r : Routine σ α} {f : α → Routine σ β} {s : σ} {d : Outcome σ β} :
    run (r >>= f) s = .ok d ↔
      ∃ d₁ d₂, run r s = .ok d₁ ∧ run (f d₁.value) d₁.state = .ok d₂ ∧
        d = ⟨d₂.value, d₂.state, d₁.events ++ d₂.events⟩ := by
  rw [run_bind]
  cases hr : run r s with
  | error e => simp [Except.bind]
  | ok d₁ =>
    cases hf : run (f d₁.value) d₁.state with
    | error e => simp [Except.bind, Except.map, hf]
    | ok d₂ => simp [Except.bind, Except.map, hf, eq_comm]

@[simp] theorem run_get (s : σ) : run (get : Routine σ σ) s = .ok ⟨s, s, []⟩ := rfl

@[simp] theorem run_set (s s' : σ) : run (set s' : Routine σ PUnit) s = .ok ⟨⟨⟩, s', []⟩ := rfl

@[simp] theorem run_modify (f : σ → σ) (s : σ) :
    run (modify f : Routine σ PUnit) s = .ok ⟨⟨⟩, f s, []⟩ := rfl

@[simp] theorem run_emit (events : List Event) (s : σ) :
    run (emit events) s = .ok ⟨(), s, events⟩ := rfl

instance : LawfulMonad (Routine σ) :=
  LawfulMonad.mk' _
    (fun r => by
      funext s
      show (match r s with | .error e => _ | .ok d => _) = _
      cases r s with
      | error e => rfl
      | ok d => exact congrArg Except.ok (by simp))
    (fun a f => by
      funext s
      show (match f a s with | .error e => _ | .ok d => _) = _
      cases f a s <;> simp)
    (fun r f g => by
      funext s
      simp only [bind]
      cases r s with
      | error e => rfl
      | ok d =>
        dsimp only
        cases f d.value d.state with
        | error e => rfl
        | ok d' =>
          dsimp only
          cases g d'.value d'.state <;> simp)

end Routine

end TwinStick
