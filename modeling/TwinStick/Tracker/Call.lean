import TwinStick.Tracker

/-! The operations of the tracker as values, so that all that is asked of it can be written down
as a list. -/

namespace TwinStick

inductive TrackerCall where
  | track (kind : InputKind) (id : UInt8)
  | untrack (h : Handle)
  | update (h : Handle) (s : InputSnapshot) (now : UInt32)
  | updateAll (s : InputSnapshot) (now : UInt32)
  | configure (config : ScannerConfig)
  | clear
  | get (h : Handle)
  | isActive (h : Handle)
  | entries
  | length

inductive TrackerAnswer where
  | done
  /-- The place that was given out, if there was one. -/
  | place (place : Option Nat)
  | flag (flag : Bool)
  | input (input : Option TrackedInput)
  | inputs (inputs : List TrackedInput)
  | count (count : Nat)
deriving DecidableEq

namespace Tracker

def perform (t : Tracker) : TrackerCall → Except Fault (TrackerAnswer × Tracker)
  | .track kind id =>
    let (h, t) := t.track kind id
    return (.place h.place?, t)
  | .untrack h => do
    let (found, t) ← t.release h
    return (.flag found, t)
  | .update h s now =>
    let (found, t) := t.update h s now
    return (.flag found, t)
  | .updateAll s now => return (.done, t.updateAll s now)
  | .configure config => return (.done, t.withConfig config)
  | .clear => return (.done, t.clear)
  | .get h => return (.input (t.get? h), t)
  | .isActive h => return (.flag (t.isActive h), t)
  | .entries => return (.inputs t.entries, t)
  | .length => return (.count t.length, t)

theorem perform_untrack (t : Tracker) (h : Handle) :
    t.perform (.untrack h) = .ok (.flag (t.untrack h).1, (t.untrack h).2) := by
  rw [perform, release_eq_untrack]
  rfl

theorem exists_perform (t : Tracker) (call : TrackerCall) : ∃ d, t.perform call = .ok d := by
  cases call with
  | untrack h => exact ⟨_, t.perform_untrack h⟩
  | _ => exact ⟨_, rfl⟩

end Tracker

end TwinStick
