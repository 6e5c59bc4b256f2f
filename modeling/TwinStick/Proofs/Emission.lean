import TwinStick.Proofs.Ensures
import TwinStick.Proofs.Orderly

/-! What routines let the world see. The store only writes to flash and the converter
only converts, so neither of them says anything to the host. -/

namespace TwinStick

namespace Routine

/-- All events of a run, from any state, are of one kind. -/
def Emits (r : Routine σ α) (p : Event → Prop) : Prop :=
  ∀ s d, r.run s = .ok d → ∀ e ∈ d.events, p e

section

variable {r : Routine σ α} {f : α → Routine σ β} {p : Event → Prop}

theorem Emits.bind (hr : r.Emits p) (hf : ∀ a, (f a).Emits p) : (r >>= f).Emits p := by
  intro s d hd e he
  obtain ⟨d₁, d₂, h₁, h₂, rfl⟩ := run_bind_eq_ok.mp hd
  rcases List.mem_append.mp he with he | he
  · exact hr s d₁ h₁ e he
  · exact hf d₁.value d₁.state d₂ h₂ e he

theorem Emits.of_silent (h : ∀ s d, r.run s = .ok d → d.events = []) : r.Emits p := by
  intro s d hd e he
  simp [h s d hd] at he

theorem emits_pure (a : α) : (pure a : Routine σ α).Emits p :=
  .of_silent fun s d hd => by
    obtain rfl := Except.ok.inj hd
    rfl

theorem Emits.get_bind {f : σ → Routine σ β} (h : ∀ s, (f s).Emits p) :
    (get >>= f).Emits p := by
  intro s d hd
  rw [run_bind_of_silent (run_get s)] at hd
  exact h s s d hd

theorem emits_set (t : σ) : (set t : Routine σ PUnit).Emits p :=
  .of_silent fun s d hd => by
    obtain rfl := Except.ok.inj hd
    rfl

theorem emits_modify (g : σ → σ) : (modify g : Routine σ PUnit).Emits p :=
  .of_silent fun s d hd => by
    obtain rfl := Except.ok.inj hd
    rfl

theorem emits_liftM (x : Except Fault α) : (liftM x : Routine σ α).Emits p :=
  .of_silent fun s d hd => by
    rw [run_liftM] at hd
    cases x with
    | error e => exact nomatch hd
    | ok a =>
      obtain rfl := Except.ok.inj hd
      rfl

theorem emits_emit {events : List Event} (h : ∀ e ∈ events, p e) :
    (emit events : Routine σ Unit).Emits p := by
  intro s d hd
  obtain rfl := Except.ok.inj hd
  exact h

theorem Emits.onPart {view : τ → σ} {put : σ → τ → τ} (h : r.Emits p) :
    (Routine.onPart view put r).Emits p := by
  intro t d hd
  have hrun : (Routine.onPart view put r).run t =
      (r.run (view t)).map fun d => ⟨d.value, put d.state t, d.events⟩ := rfl
  rw [hrun] at hd
  cases hr : r.run (view t) with
  | error e =>
    rw [hr] at hd
    exact nomatch hd
  | ok d' =>
    rw [hr] at hd
    obtain rfl := Except.ok.inj hd
    exact h _ d' hr

end

end Routine

open Routine

def Event.OnFlash : Event → Prop
  | .write .. | .writeFailed .. => True
  | _ => False

def Event.OnConverter : Event → Prop
  | .conversion _ => True
  | _ => False

/-- What an event is about. -/
inductive Topic where
  | key
  | axes
  | combos
  | layer
  | defaultLayer
  | line
  | flash
  | panelPower
  | panelService
  | panelCalibration
  | converter
deriving DecidableEq

def HostEvent.topic : HostEvent → Topic
  | keyDown _ | keyUp _ => .key
  | axes _ => .axes
  | combos _ => .combos
  | layer _ => .layer
  | defaultLayer _ => .defaultLayer
  | line _ => .line

def Event.topic : Event → Topic
  | host e => e.topic
  | write .. | writeFailed .. => .flash
  | delay _ | panelReset _ | panelProbe => .panelPower
  | panelHandle => .panelService
  | panelCalibrate => .panelCalibration
  | conversion _ => .converter

def Within (topics : List Topic) (events : List Event) : Prop := ∀ e ∈ events, e.topic ∈ topics

section

variable {topics topics' : List Topic} {events events' : List Event}

theorem within_nil : Within topics [] := nofun

theorem Within.append (h : Within topics events) (h' : Within topics events') :
    Within topics (events ++ events') := by
  intro e he
  rcases List.mem_append.mp he with he | he
  · exact h e he
  · exact h' e he

theorem Within.mono (h : Within topics events) (hsub : topics ⊆ topics') :
    Within topics' events := fun e he => hsub (h e he)

theorem within_singleton {e : Event} (h : e.topic ∈ topics) : Within topics [e] := by
  intro e' he
  obtain rfl := List.mem_singleton.mp he
  exact h

theorem within_of_onFlash (h : ∀ e ∈ events, e.OnFlash) : Within [.flash] events := by
  intro e he
  have hf := h e he
  cases e <;> first | exact .head _ | exact hf.elim

theorem within_of_onConverter (h : ∀ e ∈ events, e.OnConverter) : Within [.converter] events := by
  intro e he
  have hf := h e he
  cases e <;> first | exact .head _ | exact hf.elim

theorem Within.filterMap_eq_nil (h : Within topics events) {f : Event → Option α}
    (hf : ∀ e, e.topic ∈ topics → f e = none) : events.filterMap f = [] :=
  List.filterMap_eq_nil_iff.mpr fun e he => hf e (h e he)

end

namespace Flash

theorem emits_read (offset : UInt32) (length : Nat) :
    (Flash.read offset length).Emits Event.OnFlash := by
  refine .of_silent fun f d hd => ?_
  obtain ⟨e, he, hsilent, -⟩ := run_read_always f offset length
  obtain rfl := Except.ok.inj (hd.symm.trans he)
  exact hsilent

theorem emits_write (offset : UInt32) (bytes : List UInt8) :
    (Flash.write offset bytes).Emits Event.OnFlash := by
  intro f d hd
  obtain ⟨e, he, -, -, hcases⟩ := run_write_always f offset bytes
  obtain rfl := Except.ok.inj (hd.symm.trans he)
  rcases hcases with ⟨h, -⟩ | ⟨h, -⟩ <;> simp [h, Event.OnFlash]

end Flash

namespace Adc

theorem emits_read (c : Channel) : (Adc.read c).Emits Event.OnConverter := by
  refine .get_bind fun a => (emits_set _).bind fun _ => ?_
  exact (emits_emit (by simp [Event.OnConverter])).bind fun _ => emits_liftM _

theorem emits_readStick (s : Stick) : (readStick s).Emits Event.OnConverter :=
  (emits_read _).bind fun _ => (emits_read _).bind fun _ => emits_pure _

end Adc

namespace Sampler

theorem emits_sample (s : Sampler) (stick : Stick) (now : UInt32) :
    (s.sample stick now).Emits Event.OnConverter :=
  (Adc.emits_readStick stick).bind fun _ => emits_liftM _

theorem emits_tick (s : Sampler) (now : UInt32) : (s.tick now).Emits Event.OnConverter := by
  rw [tick]
  dsimp only
  split
  · exact (emits_sample _ _ _).bind fun _ => (emits_sample _ _ _).bind fun _ => emits_pure _
  · exact emits_pure _

theorem emits_sum (stick : Stick) (n : Nat) (total : Pair UInt32) :
    (sum stick n total).Emits Event.OnConverter := by
  induction n generalizing total with
  | zero => exact emits_pure _
  | succ n ih =>
    refine (Adc.emits_read _).bind fun x => (emits_liftM _).bind fun _ => ?_
    exact (Adc.emits_read _).bind fun y => (emits_liftM _).bind fun _ => ih _

theorem emits_calibrate (s : Sampler) (stick : Stick) (count : UInt16) :
    (s.calibrate stick count).Emits Event.OnConverter :=
  (emits_sum _ _ _).bind fun _ => emits_pure _

end Sampler

namespace Store

theorem emits_fetch (part : Part) (codec : Codec α) :
    (fetch part codec).Emits Event.OnFlash := by
  refine .get_bind fun s => (emits_liftM _).bind fun address => ?_
  refine (Flash.emits_read _ _).onPart.bind fun found => ?_
  cases found <;> exact emits_pure _

theorem emits_persist (part : Part) : (persist part).Emits Event.OnFlash :=
  .get_bind fun _ => (emits_liftM _).bind fun _ =>
    (Flash.emits_write _ _).onPart.bind fun _ => emits_pure _

theorem emits_commit (parts : List Part) : (commit parts).Emits Event.OnFlash := by
  induction parts with
  | nil => exact emits_pure _
  | cons part rest ih =>
    refine (emits_persist part).bind fun written => ?_
    cases written with
    | ok _ => exact ih
    | error _ => exact emits_pure _

theorem emits_modifyRecords {p : Event → Prop} (f : Records → Records) :
    (modifyRecords f).Emits p := emits_modify _

theorem emits_loadProfiles (slots : List (Fin maxProfiles)) :
    (loadProfiles slots).Emits Event.OnFlash := by
  induction slots with
  | nil => exact emits_pure _
  | cons slot rest ih =>
    refine (emits_fetch _ _).bind fun found => ?_
    cases found with
    | error e => exact emits_pure _
    | ok profile =>
      dsimp only
      cases profile.isIntact with
      | true => exact (emits_modifyRecords _).bind fun _ => ih
      | false =>
        refine (emits_modifyRecords _).bind fun _ => (emits_commit _).bind fun repaired => ?_
        cases repaired with
        | true => exact ih
        | false => exact emits_pure _

theorem emits_load : load.Emits Event.OnFlash := by
  rw [load_eq]
  refine (emits_fetch _ _).bind fun found => ?_
  cases found with
  | error e => exact emits_pure _
  | ok manager =>
    dsimp only
    cases manager.isValid with
    | false => exact emits_pure _
    | true =>
      refine (emits_fetch _ _).bind fun found => ?_
      cases found with
      | error e => exact emits_pure _
      | ok quick => exact (emits_modifyRecords _).bind fun _ => emits_loadProfiles _

theorem emits_restoreDefaults (now : UInt32) : (restoreDefaults now).Emits Event.OnFlash :=
  (emits_modifyRecords _).bind fun _ => (emits_commit _).bind fun _ => emits_pure _

theorem emits_init (live : DeviceSettings) (now : UInt32) :
    (init live now).Emits Event.OnFlash := by
  rw [init_eq, takeOver, putInForce]
  refine .bind (emits_load.bind fun loaded => ?_) fun _ => ?_
  · cases loaded with
    | true => exact emits_pure _
    | false => exact emits_restoreDefaults now
  · refine (emits_modifyRecords _).bind fun _ => .get_bind fun s => ?_
    dsimp only
    split
    · exact (emits_liftM _).bind fun _ => (emits_modify _).bind fun _ => emits_pure _
    · refine (emits_modifyRecords _).bind fun _ => ?_
      exact (emits_pure _).bind fun _ => (emits_modify _).bind fun _ => emits_pure _

theorem emits_saveCurrent (live : DeviceSettings) (now : UInt32) :
    (saveCurrent live now).Emits Event.OnFlash := by
  refine .get_bind fun s => (emits_liftM _).bind fun slot => ?_
  refine (emits_modifyRecords _).bind fun _ => (emits_commit _).bind fun saved => ?_
  exact (emits_modify _).bind fun _ => emits_pure _

theorem emits_task (live : DeviceSettings) (now : UInt32) :
    (task live now).Emits Event.OnFlash := by
  refine .get_bind fun s => ?_
  split
  · refine (emits_liftM _).bind fun wanted => ?_
    split
    · split
      · exact (emits_saveCurrent _ _).bind fun _ => emits_pure _
      · exact emits_pure _
    · exact emits_pure _
  · exact emits_pure _

theorem emits_flush (live : DeviceSettings) : (flush live).Emits Event.OnFlash := by
  refine .get_bind fun s => ?_
  split
  · exact .get_bind fun t => (emits_saveCurrent _ _).bind fun _ => emits_pure _
  · exact emits_pure _

theorem emits_enter (slot : Fin maxProfiles) (id : UInt8) (live : DeviceSettings) :
    (enter slot id live).Emits Event.OnFlash :=
  .get_bind fun _ => (emits_modifyRecords _).bind fun _ => (emits_commit _).bind fun _ =>
    emits_pure _

theorem emits_switchProfile (id : UInt8) (live : DeviceSettings) :
    (switchProfile id live).Emits Event.OnFlash := by
  intro s d hd
  cases ht : s.target id with
  | none =>
    rw [run_switchProfile_of_none ht] at hd
    obtain rfl := Except.ok.inj hd
    simp
  | some slot =>
    rw [run_switchProfile_of_some ht] at hd
    exact (emits_flush live).bind (fun _ => emits_enter slot id live) s d hd

theorem emits_factoryReset (now : UInt32) : (factoryReset now).Emits Event.OnFlash :=
  (emits_restoreDefaults now).bind fun _ => (emits_modify _).bind fun _ =>
    .get_bind fun _ => emits_liftM _

theorem emits_putProfile (slot : Fin maxProfiles) (p : ProfileRecord) :
    (putProfile slot p).Emits Event.OnFlash :=
  (emits_modifyRecords _).bind fun _ => emits_commit _

theorem emits_withSlot (id : UInt8) {f : Fin maxProfiles → Routine Store Bool}
    (h : ∀ slot, (f slot).Emits Event.OnFlash) : (withSlot id f).Emits Event.OnFlash := by
  rw [withSlot]
  cases Records.slot? id with
  | none => exact emits_pure _
  | some slot => exact h slot

theorem emits_resetCurrent (live : DeviceSettings) :
    (resetCurrent live).Emits Event.OnFlash := by
  refine .get_bind fun s => (emits_liftM _).bind fun slot => ?_
  refine (emits_putProfile _ _).bind fun reset => .get_bind fun t => ?_
  refine (emits_modifyRecords _).bind fun _ => (emits_modify _).bind fun _ => ?_
  cases reset with
  | true => exact (emits_commit _).bind fun _ => emits_pure _
  | false => exact emits_pure _

theorem emits_changeMask (f : UInt16 → UInt16) : (changeMask f).Emits Event.OnFlash :=
  .get_bind fun _ => (emits_liftM _).bind fun _ => .get_bind fun _ => emits_putProfile _ _

theorem emits_changeManager (f : ManagerRecord → ManagerRecord) :
    (changeManager f).Emits Event.OnFlash :=
  (emits_modifyRecords _).bind fun _ => emits_commit _

theorem emits_copyProfile (source target : UInt8) :
    (copyProfile source target).Emits Event.OnFlash := by
  refine emits_withSlot _ fun source => emits_withSlot _ fun target => ?_
  split
  · exact emits_pure _
  · exact .get_bind fun _ => emits_putProfile _ _

theorem emits_importProfile (id : UInt8) (bytes : List UInt8) :
    (importProfile id bytes).Emits Event.OnFlash := by
  refine emits_withSlot _ fun slot => ?_
  split
  · exact emits_pure _
  · split
    · exact emits_putProfile _ _
    · exact emits_pure _

theorem emits_verify_profiles (slots : List (Fin maxProfiles)) :
    (verify.profiles slots).Emits Event.OnFlash := by
  induction slots with
  | nil => exact emits_pure _
  | cons slot rest ih =>
    refine (emits_fetch _ _).bind fun found => ?_
    cases found with
    | error e => exact emits_pure _
    | ok profile =>
      dsimp only
      cases profile.isIntact with
      | true => exact ih
      | false => exact emits_pure _

theorem emits_verify : verify.Emits Event.OnFlash := by
  refine (emits_fetch _ _).bind fun found => ?_
  cases found with
  | error e => exact emits_pure _
  | ok manager =>
    dsimp only
    cases manager.isIntact with
    | true => exact emits_verify_profiles _
    | false => exact emits_pure _

/-- Whatever the store is asked to do, all that can be seen of it are writes. -/
theorem emits_perform (live : DeviceSettings) (call : StoreCall) :
    (call.perform live).Emits Event.OnFlash := by
  cases call with
  | init now => exact (emits_init _ _).bind fun _ => emits_pure _
  | switchProfile id => exact (emits_switchProfile _ _).bind fun _ => emits_pure _
  | save now => exact (emits_saveCurrent _ _).bind fun _ => emits_pure _
  | markDirty now => exact (emits_modify _).bind fun _ => emits_pure _
  | task now => exact (emits_task _ _).bind fun _ => emits_pure _
  | factoryReset now | emergencyReset now =>
    exact (emits_factoryReset _).bind fun _ => emits_pure _
  | resetProfile id =>
    exact (emits_withSlot _ fun _ => emits_putProfile _ _).bind fun _ => emits_pure _
  | resetCurrent => exact (emits_resetCurrent _).bind fun _ => emits_pure _
  | rename id _ | saveProfile id =>
    exact (emits_withSlot _ fun _ => .get_bind fun _ => emits_putProfile _ _).bind
      fun _ => emits_pure _
  | copyProfile source target => exact (emits_copyProfile _ _).bind fun _ => emits_pure _
  | enableCombo combo | disableCombo combo =>
    exact (emits_changeMask _).bind fun _ => emits_pure _
  | setAutoSave on | setAutoLoad on | setSwitching on =>
    exact (emits_changeManager _).bind fun _ => emits_pure _
  | importProfile id bytes => exact (emits_importProfile _ _).bind fun _ => emits_pure _
  | saveAll =>
    exact ((emits_modifyRecords _).bind fun _ => emits_commit _).bind fun _ => emits_pure _
  | verify => exact emits_verify.bind fun _ => emits_pure _
  | editProfile id edit =>
    refine .get_bind fun s => ?_
    cases s.editProfile? id edit with
    | none => exact emits_pure _
    | some t => exact (emits_set _).bind fun _ => emits_pure _

end Store

end TwinStick
