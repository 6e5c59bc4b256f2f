import TwinStick.Proofs.Bootable
import TwinStick.Proofs.Ensures
import TwinStick.Proofs.Readings

/-! Routines that end. A reading ends unless the converter is too wide, a sample unless its
threshold has no negative, and a call of the store unless the active slot does not exist or a
record has no address. How much memory there is and which accesses are refused does not matter. -/

namespace TwinStick

namespace Routine

/-- The routine ends, with a value and in a state of which this holds. -/
def Completes (r : Routine σ α) (s : σ) (Q : α → σ → Prop) : Prop :=
  ∃ d, r.run s = .ok d ∧ Q d.value d.state

section

variable {r : Routine σ α} {f : α → Routine σ β} {s : σ} {P : α → σ → Prop} {Q : β → σ → Prop}

theorem Completes.of_run {d : Outcome σ α} (h : r.run s = .ok d) (hP : P d.value d.state) :
    r.Completes s P := ⟨d, h, hP⟩

theorem Completes.bind (hr : r.Completes s P) (hf : ∀ a t, P a t → (f a).Completes t Q) :
    (r >>= f).Completes s Q := by
  obtain ⟨d, hd, hP⟩ := hr
  obtain ⟨e, he, hQ⟩ := hf d.value d.state hP
  have hboth : (r >>= f).run s = .ok ⟨e.value, e.state, d.events ++ e.events⟩ :=
    run_bind_eq_ok.mpr ⟨d, e, hd, he, rfl⟩
  exact ⟨_, hboth, hQ⟩

theorem Completes.mono {P' : α → σ → Prop} (hr : r.Completes s P) (h : ∀ a t, P a t → P' a t) :
    r.Completes s P' := by
  obtain ⟨d, hd, hP⟩ := hr
  exact ⟨d, hd, h _ _ hP⟩

theorem Completes.of_pure {a : α} (h : P a s) : (pure a : Routine σ α).Completes s P :=
  .of_run (run_pure a s) h

theorem Completes.get_bind {f : σ → Routine σ β} (h : (f s).Completes s Q) :
    (get >>= f).Completes s Q := by
  obtain ⟨d, hd, hQ⟩ := h
  have hrun := run_bind_of_silent (run_get s) f
  exact ⟨d, hrun.trans hd, hQ⟩

theorem Completes.liftM_bind {x : Except Fault α} {a : α} (hx : x = .ok a)
    (h : (f a).Completes s Q) : (liftM x >>= f).Completes s Q := by
  obtain ⟨d, hd, hQ⟩ := h
  have hrun := run_bind_of_silent (run_liftM_of_ok hx s) f
  exact ⟨d, hrun.trans hd, hQ⟩

theorem Completes.of_map {r' : Routine τ β} {t : τ} {P' : β → τ → Prop}
    {g : Outcome τ β → Outcome σ α} (h : r.run s = (r'.run t).map g) (hr : r'.Completes t P')
    (hg : ∀ d, P' d.value d.state → P (g d).value (g d).state) : r.Completes s P := by
  obtain ⟨d, hd, hP⟩ := hr
  have hrun : r.run s = .ok (g d) := by
    rw [h, hd]
    rfl
  exact ⟨g d, hrun, hg d hP⟩

theorem Completes.of_bind_pure {g : α → β} {P : σ → Prop}
    (h : (r >>= fun a => pure (g a)).Completes s fun _ t => P t) :
    r.Completes s fun _ t => P t := by
  obtain ⟨d, hd, hP⟩ := h
  obtain ⟨e, e', he, he', rfl⟩ := run_bind_eq_ok.mp hd
  obtain rfl := Except.ok.inj he'
  exact ⟨e, he, hP⟩

theorem Completes.ensures (hr : r.Completes s P) : r.Ensures s P := by
  obtain ⟨d, hd, hP⟩ := hr
  exact .of_run hd hP

theorem Completes.and {P' : α → σ → Prop} (hr : r.Completes s P) (h : r.Ensures s P') :
    r.Completes s fun a t => P a t ∧ P' a t := by
  obtain ⟨d, hd, hP⟩ := hr
  exact ⟨d, hd, hP, h d hd⟩

end

end Routine

open Routine

theorem Adc.completes_read {a : Adc} (h : a.bits ≤ 25) (c : Channel) :
    (read c).Completes a fun _ b => b.bits ≤ 25 := by
  obtain ⟨r, hr⟩ := Signal.exists_normalize h (a.input c).reading
  have hrun : (read c).run a = .ok ⟨r, a.advance c, [.conversion c]⟩ := by
    rw [run_read, hr]
    rfl
  refine .of_run hrun ?_
  rw [bits_advance]
  exact h

theorem Adc.completes_readStick {a : Adc} (h : a.bits ≤ 25) (stick : Stick) :
    (readStick stick).Completes a fun _ b => b.bits ≤ 25 :=
  (completes_read h ⟨stick, .x⟩).bind fun _ _ hb =>
    (completes_read hb ⟨stick, .y⟩).bind fun _ _ hc => .of_pure hc

namespace Sampler

variable {s : Sampler} {a : Adc}

theorem completes_sum (stick : Stick) (n : Nat) (h : a.bits ≤ 25) {total : Pair UInt32}
    (hr : HasRoom n total) : (sum stick n total).Completes a fun _ b => b.bits ≤ 25 := by
  induction n generalizing a total with
  | zero => exact .of_pure h
  | succ n ih =>
    refine (Adc.completes_read h ⟨stick, .x⟩).bind fun x b hb => ?_
    obtain ⟨hsumX, hroomX⟩ := addUInt32_of_room hr.1 x
    refine .liftM_bind hsumX ?_
    refine (Adc.completes_read hb ⟨stick, .y⟩).bind fun y c hc => ?_
    obtain ⟨hsumY, hroomY⟩ := addUInt32_of_room hr.2 y
    exact .liftM_bind hsumY (ih hc ⟨hroomX, hroomY⟩)

theorem completes_calibrate (h : a.bits ≤ 25) (stick : Stick) (count : UInt16) :
    (s.calibrate stick count).Completes a fun v b => b.bits ≤ 25 ∧ v.2.config = s.config := by
  have hroom := hasRoom_zero (max count 1)
  exact (completes_sum stick _ h hroom).bind fun _ b hb => .of_pure ⟨hb, rfl⟩

theorem completes_sample (h : a.bits ≤ 25) (ht : s.config.threshold ≠ Int16.minValue)
    (stick : Stick) (now : UInt32) :
    (s.sample stick now).Completes a fun t b => b.bits ≤ 25 ∧ t.config = s.config := by
  refine (Adc.completes_readStick h stick).bind fun readings b hb => ?_
  obtain ⟨sample, hs, -⟩ := s.exists_observe stick ht readings now
  exact .of_run (run_liftM_of_ok hs b) ⟨hb, rfl⟩

theorem completes_tick (h : a.bits ≤ 25) (ht : s.config.threshold ≠ Int16.minValue)
    (now : UInt32) :
    (s.tick now).Completes a fun v b => b.bits ≤ 25 ∧ v.2.config = s.config := by
  rw [tick]
  obtain ⟨due, cadence⟩ := s.cadence.poll now
  cases due with
  | false => exact .of_pure ⟨h, rfl⟩
  | true =>
    have hone := completes_sample (s := { s with cadence }) h ht .one now
    refine hone.bind fun t b hsampled => ?_
    obtain ⟨hb, hconfig⟩ := hsampled
    have hthreshold : t.config.threshold ≠ Int16.minValue := by
      rw [hconfig]
      exact ht
    refine (completes_sample hb hthreshold .two now).bind fun u c hu => .of_pure ?_
    obtain ⟨hc, hsame⟩ := hu
    exact ⟨hc, hsame.trans hconfig⟩

end Sampler

theorem Records.profile_bootLive_lt {r : Records} (h : r.manager.active.toNat < maxProfiles)
    (slot : Fin maxProfiles) (live : DeviceSettings) :
    (r.bootLive slot live).profile.toNat < maxProfiles := by
  rw [bootLive]
  cases r.manager.autoLoad with
  | true => exact h
  | false => exact Nat.zero_lt_succ 3

namespace Store

/-- What a store needs so that no call stops at a fault. -/
structure Fit (s : Store) : Prop where
  aimed : s.records.Aimed
  addressed : s.Addressed

variable {s : Store} {live : DeviceSettings}

theorem Fit.markDirty (h : s.Fit) (now : UInt32) : (s.markDirty now).Fit :=
  ⟨h.aimed, h.addressed⟩

theorem Fit.exists_activeRecord (h : s.Fit) : ∃ p, s.activeRecord = .ok p := by
  obtain ⟨slot, hslot⟩ := h.aimed.exists_activeSlot
  exact ⟨_, activeRecord_eq hslot⟩

theorem Fit.exists_isComboEnabled (h : s.Fit) (combo : Combo) :
    ∃ on, s.isComboEnabled combo = .ok on := by
  obtain ⟨p, hp⟩ := h.exists_activeRecord
  rw [isComboEnabled, hp]
  exact ⟨_, rfl⟩

theorem Fit.completes (hs : s.Fit) {r : Routine Store α} (h : Aims r s) :
    r.Completes s fun _ t => t.Fit := by
  obtain ⟨d, hd⟩ := h.ends hs.addressed
  exact ⟨d, hd, h.post d hd, (h.orderly d hd).addressed hs.addressed⟩

theorem Fit.completes_call (hs : s.Fit) (call : StoreCall) (live : DeviceSettings) :
    (call.perform live).Completes s fun _ t => t.Fit :=
  hs.completes (aims_call hs.aimed call)

theorem Fit.completes_saveCurrent (hs : s.Fit) (now : UInt32) :
    (saveCurrent live now).Completes s fun _ t => t.Fit :=
  (hs.completes_call (.save now) live).of_bind_pure

theorem Fit.completes_task (hs : s.Fit) (now : UInt32) :
    (task live now).Completes s fun _ t => t.Fit :=
  (hs.completes_call (.task now) live).of_bind_pure

theorem Fit.completes_init (hs : s.Fit) (now : UInt32) :
    (init live now).Completes s fun live t => t.Fit ∧ live.profile.toNat < maxProfiles := by
  refine (hs.completes (aims_init now)).and ?_
  intro d hd
  rw [init_eq] at hd
  obtain ⟨e, e', he, he', rfl⟩ := run_bind_eq_ok.mp hd
  have haimed := (aims_takeOver now).post e he
  obtain ⟨slot, hslot⟩ := haimed.exists_activeSlot
  obtain rfl := Except.ok.inj ((run_putInForce hslot live now).symm.trans he')
  exact Records.profile_bootLive_lt haimed.active_lt slot live

theorem Fit.completes_switchProfile (hs : s.Fit) (id : UInt8) :
    (switchProfile id live).Completes s fun v t =>
      t.Fit ∧ (v.1 = true → id.toNat < maxProfiles ∧ v.2.profile = id) := by
  refine (hs.completes (aims_switchProfile hs.aimed id)).and ?_
  cases ht : s.target id with
  | none => exact .of_run (run_switchProfile_of_none ht live) nofun
  | some slot =>
    intro d hd _
    rw [run_switchProfile_of_some ht] at hd
    obtain ⟨e, e', -, he', rfl⟩ := run_bind_eq_ok.mp hd
    rw [run_enter_eq] at he'
    obtain ⟨o, -, rfl⟩ := exists_of_map_eq_ok he'
    have hid := Records.toNat_of_slot? (slot_of_target ht)
    exact ⟨hid ▸ slot.isLt, rfl⟩

theorem Fit.completes_resetCurrent (hs : s.Fit) :
    (resetCurrent live).Completes s fun v t => t.Fit ∧ v.2.profile = live.profile := by
  refine (hs.completes_call .resetCurrent live).of_bind_pure.and ?_
  obtain ⟨slot, hslot⟩ := hs.aimed.exists_activeSlot
  intro d hd
  rw [run_resetCurrent_eq hslot] at hd
  obtain ⟨e, -, rfl⟩ := exists_of_map_eq_ok hd
  rfl

theorem Fit.completes_factoryReset (hs : s.Fit) (now : UInt32) :
    (factoryReset now).Completes s fun live t => t.Fit ∧ live.profile = 0 := by
  refine (hs.completes_call (.factoryReset now) {}).of_bind_pure.and ?_
  intro d hd
  rw [run_factoryReset_eq] at hd
  obtain ⟨e, -, rfl⟩ := exists_of_map_eq_ok hd
  rfl

end Store

end TwinStick
