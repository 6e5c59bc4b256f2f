import TwinStick.Proofs.Access
import TwinStick.Controller.Call

/-! What holds after every run of a routine that no fault stops. Most routines of
the controller are quiet: they touch neither the store nor the settings in force. -/

namespace TwinStick

namespace Routine

/-- Every run from a state that no fault stops ends in this. -/
def Ensures (r : Routine σ α) (s : σ) (Q : α → σ → Prop) : Prop :=
  ∀ d, r.run s = .ok d → Q d.value d.state

variable {r : Routine σ α} {f : α → Routine σ β} {s : σ} {P : α → σ → Prop} {Q : β → σ → Prop}

theorem Ensures.bind (hr : r.Ensures s P) (hf : ∀ a t, P a t → (f a).Ensures t Q) :
    (r >>= f).Ensures s Q := by
  intro d hd
  obtain ⟨e, e', he, he', rfl⟩ := run_bind_eq_ok.mp hd
  exact hf e.value e.state (hr e he) e' he'

/-- Whatever comes first, the rest sees to it. -/
theorem Ensures.bind_any (hf : ∀ a t, (f a).Ensures t Q) : (r >>= f).Ensures s Q :=
  .bind (P := fun _ _ => True) (fun _ _ => trivial) fun a t _ => hf a t

theorem Ensures.mono {P' : α → σ → Prop} (hr : r.Ensures s P) (h : ∀ a t, P a t → P' a t) :
    r.Ensures s P' := fun d hd => h _ _ (hr d hd)

theorem Ensures.of_run {d : Outcome σ α} (h : r.run s = .ok d) (hP : P d.value d.state) :
    r.Ensures s P := by
  intro e he
  obtain rfl := Except.ok.inj (h.symm.trans he)
  exact hP

theorem Ensures.bind_of_run {d : Outcome σ α} (h : r.run s = .ok d)
    (hf : (f d.value).Ensures d.state Q) : (r >>= f).Ensures s Q := by
  intro e he
  obtain ⟨d', e', hd', he', rfl⟩ := run_bind_eq_ok.mp he
  obtain rfl := Except.ok.inj (h.symm.trans hd')
  exact hf e' he'

theorem Ensures.of_pure {a : α} (h : P a s) : (pure a : Routine σ α).Ensures s P :=
  .of_run (run_pure a s) h

theorem Ensures.get_bind {f : σ → Routine σ β} (h : (f s).Ensures s Q) :
    (get >>= f).Ensures s Q := by
  intro d hd
  rw [run_bind_of_silent (run_get s)] at hd
  exact h d hd

theorem Ensures.of_set {P : PUnit → σ → Prop} {t : σ} (h : P ⟨⟩ t) :
    (set t : Routine σ PUnit).Ensures s P := .of_run (run_set s t) h

theorem Ensures.of_modify {P : PUnit → σ → Prop} {g : σ → σ} (h : P ⟨⟩ (g s)) :
    (modify g : Routine σ PUnit).Ensures s P := .of_run (run_modify g s) h

theorem Ensures.of_emit {P : Unit → σ → Prop} {events : List Event} (h : P () s) :
    (emit events).Ensures s P := .of_run (run_emit events s) h

theorem Ensures.of_liftM {x : Except Fault α} (h : ∀ a, x = .ok a → P a s) :
    (liftM x : Routine σ α).Ensures s P := by
  intro d hd
  cases hx : x with
  | error e =>
    rw [run_liftM, hx] at hd
    exact nomatch hd
  | ok a =>
    obtain rfl := Except.ok.inj ((run_liftM_of_ok hx s).symm.trans hd)
    exact h a hx

theorem Ensures.of_onPart {view : τ → σ} {put : σ → τ → τ} {P : α → τ → Prop} {t : τ}
    (h : r.Ensures (view t) fun a s => P a (put s t)) : (onPart view put r).Ensures t P := by
  intro d hd
  cases hr : r.run (view t) with
  | error e =>
    have hrun : (onPart view put r).run t = .error e := congrArg (Except.map _) hr
    exact nomatch hrun.symm.trans hd
  | ok e =>
    have hrun : (onPart view put r).run t = .ok ⟨e.value, put e.state t, e.events⟩ :=
      congrArg (Except.map _) hr
    obtain rfl := Except.ok.inj (hrun.symm.trans hd)
    exact h e hr

end Routine

namespace Controller

open Routine

/-- The store and the settings in force are the same as before. -/
structure Untouched (c d : Controller) : Prop where
  store : d.store = c.store
  live : d.live = c.live

theorem Untouched.refl (c : Controller) : Untouched c c := ⟨rfl, rfl⟩

theorem Untouched.trans {c d e : Controller} (h : Untouched c d) (h' : Untouched d e) :
    Untouched c e := ⟨h'.store.trans h.store, h'.live.trans h.live⟩

def Quiet (r : Routine Controller α) : Prop := ∀ c, r.Ensures c fun _ d => Untouched c d

section Quiet

variable {r : Routine Controller α} {f : α → Routine Controller β}

theorem Quiet.bind (hr : Quiet r) (hf : ∀ a, Quiet (f a)) : Quiet (r >>= f) := fun c =>
  (hr c).bind fun a d hd => (hf a d).mono fun _ _ he => hd.trans he

theorem Quiet.get_bind {f : Controller → Routine Controller β}
    (h : ∀ c, (f c).Ensures c fun _ d => Untouched c d) : Quiet (get >>= f) :=
  fun c => .get_bind (h c)

theorem Untouched.then {c d : Controller} (h : Untouched c d) (hr : Quiet r) :
    r.Ensures d fun _ e => Untouched c e := (hr d).mono fun _ _ he => h.trans he

theorem quiet_pure (a : α) : Quiet (pure a) := fun c => .of_pure (.refl c)

theorem quiet_emit (events : List Event) : Quiet (emit events) := fun c => .of_emit (.refl c)

theorem quiet_liftM (x : Except Fault α) : Quiet (liftM x) :=
  fun c => .of_liftM fun _ _ => .refl c

theorem quiet_modify {g : Controller → Controller} (h : ∀ c, Untouched c (g c)) :
    Quiet (modify g) := fun c => .of_modify (h c)

theorem quiet_onAdc (r : Routine Adc α) : Quiet (onAdc r) :=
  fun _ => .of_onPart fun _ _ => ⟨rfl, rfl⟩

theorem quiet_tell (events : List HostEvent) : Quiet (tell events) := quiet_emit _

theorem quiet_notify (n : Notice) : Quiet (notify n) := by
  refine .get_bind fun c => ?_
  split
  · split
    · exact quiet_tell _ c
    · exact quiet_pure _ c
  · exact quiet_pure _ c

theorem quiet_onEngine (stick : Stick) (f : Engine → Engine × List HostEvent) :
    Quiet (onEngine stick f) := by
  refine .get_bind fun c => ?_
  exact .bind (.of_set (P := fun _ d => Untouched c d) ⟨rfl, rfl⟩) fun _ _ hd =>
    hd.then (quiet_tell _)

theorem quiet_syncStick (stick : Stick) : Quiet (syncStick stick) := by
  rw [syncStick]
  refine .bind (quiet_modify fun _ => ⟨rfl, rfl⟩) fun _ => .get_bind fun c => ?_
  exact quiet_onEngine _ _ c

theorem quiet_sync : Quiet sync := by
  rw [sync]
  refine .bind (quiet_modify fun _ => ⟨rfl, rfl⟩) fun _ => ?_
  refine .bind (quiet_syncStick _) fun _ => .bind (quiet_syncStick _) fun _ => ?_
  exact .get_bind fun c => quiet_tell _ c

theorem quiet_startTouchscreen : Quiet startTouchscreen := by
  refine .get_bind fun c => ?_
  refine ((quiet_emit _).bind fun _ => ?_) c
  split
  · exact quiet_modify fun _ => ⟨rfl, rfl⟩
  · exact .bind (quiet_modify fun _ => ⟨rfl, rfl⟩) fun _ => quiet_notify _

theorem quiet_calibrateTouchscreen : Quiet calibrateTouchscreen := by
  refine .get_bind fun c => ?_
  split
  · obtain ⟨calibrated, events⟩ := c.board.panel.calibrate
    refine Quiet.bind (quiet_emit events) (fun _ => ?_) c
    cases calibrated with
    | true => exact quiet_pure _
    | false => exact quiet_notify _
  · exact quiet_pure _ c

theorem quiet_processStick (stick : Stick) : Quiet (processStick stick) := by
  refine .get_bind fun c => ?_
  exact .bind (.of_set (P := fun _ d => Untouched c d) ⟨rfl, rfl⟩) fun _ _ hd =>
    hd.then (quiet_tell _)

theorem quiet_sampleSticks (now : UInt32) : Quiet (sampleSticks now) := by
  refine .get_bind fun c => ?_
  refine Quiet.bind (quiet_onAdc _) (fun _ => ?_) c
  exact .bind (quiet_modify fun _ => ⟨rfl, rfl⟩) fun _ => quiet_pure _

theorem quiet_tickSticks (now : UInt32) : Quiet (tickSticks now) := by
  refine .bind (quiet_sampleSticks now) fun sampled => ?_
  split
  · refine .bind (quiet_processStick _) fun _ => .bind (quiet_processStick _) fun _ => ?_
    exact .get_bind fun c => Quiet.bind (quiet_tell _) (fun _ => quiet_pure _) c
  · exact quiet_pure _

theorem quiet_tickMatrix (now : UInt32) : Quiet (tickMatrix now) := by
  refine .get_bind fun c => ?_
  exact .bind (.of_set (P := fun _ d => Untouched c d) ⟨rfl, rfl⟩) fun _ _ hd =>
    hd.then (quiet_pure _)

theorem quiet_tickPanel (now : UInt32) : Quiet (tickPanel now) := by
  refine .get_bind fun c => ?_
  split
  · refine .bind (.of_set (P := fun _ d => Untouched c d) ⟨rfl, rfl⟩) fun _ d hd => ?_
    split
    · exact hd.then (.bind (quiet_modify fun _ => ⟨rfl, rfl⟩) fun _ => quiet_emit _)
    · exact hd.then (quiet_pure _)
  · exact quiet_pure _ c

end Quiet

end Controller

end TwinStick
