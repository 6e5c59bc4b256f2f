import TwinStick.Proofs.Repair
import TwinStick.Proofs.Saving
import TwinStick.Store.Call

/-! Calls as attempts. Nearly every call of the store changes some copies and then
attempts to write them in turn, so what it does can be told from the copies before
it. Only booting and switching take more than one attempt. -/

namespace TwinStick

/-- The copies as a call leaves them, those that it attempts to write in turn, and
the settings in force after it. -/
structure Attempt where
  records : Records
  parts : List Part
  live : DeviceSettings

def Records.allSealed (r : Records) : Records :=
  { r.modifyManager id with profiles := r.profiles.map ProfileRecord.sealed }

theorem Records.profile_allSealed (r : Records) (slot : Fin maxProfiles) :
    r.allSealed.profile slot = (r.profile slot).sealed := by
  simp [allSealed, profile]

namespace Attempt

def profile (r : Records) (live : DeviceSettings) (slot : Fin maxProfiles) (p : ProfileRecord) :
    Attempt where
  records := r.withProfile slot p
  parts := [.profile slot]
  live

def manager (r : Records) (live : DeviceSettings) (f : ManagerRecord → ManagerRecord) :
    Attempt where
  records := r.modifyManager f
  parts := [.manager]
  live

def save (r : Records) (live : DeviceSettings) (slot : Fin maxProfiles) (now : UInt32) :
    Attempt where
  records := r.saved slot live now
  parts := [.quick, .manager, .profile slot]
  live

def replace (now : UInt32) : Attempt where
  records := .builtIn now
  parts := Part.all
  live := Store.builtInLive

def reset (r : Records) (live : DeviceSettings) (slot : Fin maxProfiles) : Attempt where
  records := r.reset slot live
  parts := [.profile slot, .quick]
  live := (ProfileRecord.template slot).apply live

def mask (r : Records) (live : DeviceSettings) (slot : Fin maxProfiles) (f : UInt16 → UInt16) :
    Attempt :=
  let p := r.profile slot
  profile r live slot { p with combo := { p.combo with mask := f p.combo.mask } }.sealed

def all (r : Records) (live : DeviceSettings) : Attempt where
  records := r.allSealed
  parts := Part.all
  live

/-- The six kinds of attempts. A profile that is put somewhere is undamaged, and a
change of the manager record leaves alone what makes it loadable. -/
inductive Shape (r : Records) (active : Fin maxProfiles) (live : DeviceSettings) : Attempt → Prop
  | profile (slot : Fin maxProfiles) (p : ProfileRecord) (h : p.isIntact = true) :
      Shape r active live (.profile r live slot p)
  | manager (f : ManagerRecord → ManagerRecord)
      (h : ∀ m, (f m).active = m.active ∧ (f m).version = m.version) :
      Shape r active live (.manager r live f)
  | save (now : UInt32) : Shape r active live (.save r live active now)
  | reset : Shape r active live (.reset r live active)
  | replace (now : UInt32) : Shape r active live (.replace now)
  | all : Shape r active live (.all r live)

end Attempt

/-- An attempt writes everything that it changes. -/
theorem Attempt.Shape.frame {a : Attempt} {r : Records} {active : Fin maxProfiles}
    {live : DeviceSettings} (h : a.Shape r active live) {p : Part} (hp : p ∉ a.parts) :
    a.records.Same r p := by
  cases h with
  | profile slot q _ => exact r.same_withProfile q (by simpa [Attempt.profile] using hp)
  | manager f _ =>
    cases p with
    | manager => simp [Attempt.manager] at hp
    | quick => rfl
    | profile slot => rfl
  | save now => exact r.same_saved hp
  | reset => exact r.same_reset hp
  | replace now => exact absurd p.mem_all hp
  | all => exact absurd p.mem_all hp

namespace StoreCall

/-- What a call attempts, if it attempts anything. -/
def attempt (s : Store) (active : Fin maxProfiles) (live : DeviceSettings) :
    StoreCall → Option Attempt
  | save now => some (.save s.records live active now)
  | task now => if s.due active now then some (.save s.records live active now) else none
  | factoryReset now | emergencyReset now => some (.replace now)
  | resetProfile id => (Records.slot? id).map fun slot =>
    .profile s.records live slot (.template slot)
  | resetCurrent => some (.reset s.records live active)
  | rename id text => (Records.slot? id).map fun slot =>
    .profile s.records live slot ((s.records.profile slot).withName text).sealed
  | copyProfile source target => do
    let source ← Records.slot? source
    let target ← Records.slot? target
    if source = target then none
    else
      let copy := { s.records.profile source with name := (s.records.profile target).name }
      some (.profile s.records live target copy.sealed)
  | enableCombo combo => some (.mask s.records live active (· ||| combo.bit))
  | disableCombo combo => some (.mask s.records live active (· &&& ~~~combo.bit))
  | setAutoSave on => some (.manager s.records live ({ · with autoSave := on }))
  | setAutoLoad on => some (.manager s.records live ({ · with autoLoad := on }))
  | setSwitching on => some (.manager s.records live ({ · with switching := on }))
  | importProfile id bytes => do
    let slot ← Records.slot? id
    match ProfileRecord.codec.unpack bytes with
    | .error _ => none
    | .ok p => if p.isIntact then some (.profile s.records live slot p) else none
  | saveProfile id => (Records.slot? id).map fun slot =>
    .profile s.records live slot (s.records.profile slot).sealed
  | saveAll => some (.all s.records live)
  | init _ | switchProfile _ | markDirty _ | verify | editProfile _ _ => none

/-- The calls that are a single attempt. -/
def Single : StoreCall → Prop
  | init _ | switchProfile _ | markDirty _ | verify | editProfile _ _ => False
  | _ => True

theorem shape_of_attempt {s : Store} {active : Fin maxProfiles} {live : DeviceSettings}
    {call : StoreCall} {a : Attempt} (h : call.attempt s active live = some a) :
    a.Shape s.records active live := by
  cases call with
  | save now =>
    obtain rfl := Option.some.inj h
    exact .save now
  | task now =>
    rw [attempt] at h
    split at h
    · obtain rfl := Option.some.inj h
      exact .save now
    · exact nomatch h
  | factoryReset now | emergencyReset now =>
    obtain rfl := Option.some.inj h
    exact .replace now
  | resetProfile id =>
    obtain ⟨slot, -, rfl⟩ := Option.map_eq_some_iff.mp h
    exact .profile slot _ (ProfileRecord.isIntact_template slot)
  | resetCurrent =>
    obtain rfl := Option.some.inj h
    exact .reset
  | rename id text =>
    obtain ⟨slot, -, rfl⟩ := Option.map_eq_some_iff.mp h
    exact .profile slot _ (ProfileRecord.isIntact_sealed _)
  | copyProfile source target =>
    obtain ⟨source, -, h⟩ := Option.bind_eq_some_iff.mp h
    obtain ⟨target, -, h⟩ := Option.bind_eq_some_iff.mp h
    split at h
    · exact nomatch h
    · obtain rfl := Option.some.inj h
      exact .profile target _ (ProfileRecord.isIntact_sealed _)
  | enableCombo combo | disableCombo combo =>
    obtain rfl := Option.some.inj h
    exact .profile active _ (ProfileRecord.isIntact_sealed _)
  | setAutoSave on | setAutoLoad on | setSwitching on =>
    obtain rfl := Option.some.inj h
    exact .manager _ fun m => ⟨rfl, rfl⟩
  | importProfile id bytes =>
    obtain ⟨slot, -, h⟩ := Option.bind_eq_some_iff.mp h
    split at h
    · exact nomatch h
    · split at h
      · next hi =>
        obtain rfl := Option.some.inj h
        exact .profile slot _ hi
      · exact nomatch h
  | saveProfile id =>
    obtain ⟨slot, -, rfl⟩ := Option.map_eq_some_iff.mp h
    exact .profile slot _ (ProfileRecord.isIntact_sealed _)
  | saveAll =>
    obtain rfl := Option.some.inj h
    exact .all
  | _ => exact nomatch h

/-- The records that a single call writes if it attempts anything. -/
def parts (active : Fin maxProfiles) : StoreCall → List Part
  | save _ | task _ => [.quick, .manager, .profile active]
  | factoryReset _ | emergencyReset _ | saveAll => Part.all
  | resetCurrent => [.profile active, .quick]
  | enableCombo _ | disableCombo _ => [.profile active]
  | setAutoSave _ | setAutoLoad _ | setSwitching _ => [.manager]
  | resetProfile id | rename id _ | copyProfile _ id | importProfile id _ | saveProfile id =>
    ((Records.slot? id).map Part.profile).toList
  | init _ | switchProfile _ | markDirty _ | verify | editProfile _ _ => []

theorem parts_of_attempt {s : Store} {active : Fin maxProfiles} {live : DeviceSettings}
    {call : StoreCall} {a : Attempt} (h : call.attempt s active live = some a) :
    a.parts = call.parts active := by
  cases call with
  | save now | factoryReset now | emergencyReset now | resetCurrent | enableCombo combo
  | disableCombo combo | setAutoSave on | setAutoLoad on | setSwitching on | saveAll =>
    obtain rfl := Option.some.inj h
    rfl
  | task now =>
    rw [attempt] at h
    split at h
    · obtain rfl := Option.some.inj h
      rfl
    · exact nomatch h
  | resetProfile id | rename id text | saveProfile id =>
    obtain ⟨slot, hid, rfl⟩ := Option.map_eq_some_iff.mp h
    rw [parts, hid]
    rfl
  | copyProfile source target =>
    obtain ⟨source, -, h⟩ := Option.bind_eq_some_iff.mp h
    obtain ⟨slot, hid, h⟩ := Option.bind_eq_some_iff.mp h
    split at h
    · exact nomatch h
    · obtain rfl := Option.some.inj h
      rw [parts, hid]
      rfl
  | importProfile id bytes =>
    obtain ⟨slot, hid, h⟩ := Option.bind_eq_some_iff.mp h
    split at h
    · exact nomatch h
    · split at h
      · obtain rfl := Option.some.inj h
        rw [parts, hid]
        rfl
      · exact nomatch h
  | _ => exact nomatch h

end StoreCall

namespace Store

section

variable {s : Store}

theorem carried_of_commit {r : Routine Store α} {records : Records} {parts : List Part}
    (hs : s.Placed) {g : Bool → α} {finish : Bool → Store → Store}
    (hfin : ∀ b t, (finish b t).flash = t.flash ∧ (finish b t).base = t.base ∧
      (finish b t).records = t.records)
    (h : r.run s = ((commit parts).run { s with records }).map fun d =>
      ⟨g d.value, finish d.value d.state, d.events⟩) :
    ∃ d b, r.run s = .ok d ∧ d.value = g b ∧ Carried s d.state records parts := by
  obtain ⟨d, hd, hc⟩ := run_commit (hs.congr (t := { s with records }) rfl rfl) parts
  rw [hd] at h
  obtain ⟨hflash, hbase, hrec⟩ := hfin d.value d.state
  have hrecords : (finish d.value d.state).records = records := by rw [hrec, hc.state]
  have hplace : (finish d.value d.state).base = s.base := by rw [hbase, hc.state]
  exact ⟨_, d.value, h, rfl, hc.carried hflash hplace hrecords⟩

theorem reached_of_free (hw : s.flash.writes.Free) (parts : List Part) :
    s.reached parts = parts := by
  rw [reached, hw.streak, List.take_length]

end

/-- The routine does nothing but make this attempt, or nothing at all. What it does
to the dirty flag afterwards is left open. -/
def Performs (r : Routine Store (DeviceSettings × Option Bool)) (s : Store)
    (live : DeviceSettings) : Option Attempt → Prop
  | none => ∃ answer, r.run s = .ok ⟨(live, answer), s, []⟩
  | some a => ∃ (answer : Bool → Option Bool) (finish : Bool → Store → Store),
      (∀ b t, (finish b t).flash = t.flash ∧ (finish b t).base = t.base ∧
        (finish b t).records = t.records) ∧
      r.run s = ((commit a.parts).run { s with records := a.records }).map fun d =>
        ⟨(a.live, answer d.value), finish d.value d.state, d.events⟩

section

variable {s : Store} {live : DeviceSettings}

theorem Performs.of_commit {r : Routine Store Bool} {a : Attempt} (ha : a.live = live)
    (h : r.run s = (commit a.parts).run { s with records := a.records }) :
    Performs (r >>= fun b => pure (live, some b)) s live (some a) := by
  refine ⟨some, fun _ t => t, fun _ _ => ⟨rfl, rfl, rfl⟩, ?_⟩
  rw [Routine.run_bind_pure, h, ha]

theorem performs_withSlot (id : UInt8) {f : Fin maxProfiles → Routine Store Bool}
    {g : Fin maxProfiles → Option Attempt}
    (h : ∀ slot, Performs (f slot >>= fun b => pure (live, some b)) s live (g slot)) :
    Performs (withSlot id f >>= fun b => pure (live, some b)) s live
      ((Records.slot? id).bind g) := by
  rw [withSlot]
  cases Records.slot? id with
  | none => exact ⟨some false, rfl⟩
  | some slot => exact h slot

theorem performs_putProfile (slot : Fin maxProfiles) (p : ProfileRecord) :
    Performs (putProfile slot p >>= fun b => pure (live, some b)) s live
      (some (.profile s.records live slot p)) :=
  .of_commit rfl (Routine.run_bind_of_silent (run_modifyRecords _ _) _)

theorem performs_putProfile_get (slot : Fin maxProfiles) (f : Records → ProfileRecord) :
    Performs ((do putProfile slot (f (← get).records)) >>= fun b => pure (live, some b)) s live
      (some (.profile s.records live slot (f s.records))) := by
  refine .of_commit rfl ?_
  rw [Routine.run_bind_of_silent (Routine.run_get _)]
  exact Routine.run_bind_of_silent (run_modifyRecords _ _) _

theorem performs_changeManager (f : ManagerRecord → ManagerRecord) :
    Performs (changeManager f >>= fun b => pure (live, some b)) s live
      (some (.manager s.records live f)) :=
  .of_commit rfl (Routine.run_bind_of_silent (run_modifyRecords _ _) _)

variable {active : Fin maxProfiles}

theorem performs_changeMask (hslot : s.records.activeSlot = .ok active) (f : UInt16 → UInt16) :
    Performs (changeMask f >>= fun b => pure (live, some b)) s live
      (some (.mask s.records live active f)) := by
  refine .of_commit rfl ?_
  rw [changeMask, Routine.run_bind_of_silent (Routine.run_get _),
    Routine.run_bind_of_silent (Routine.run_liftM_of_ok hslot _),
    Routine.run_bind_of_silent (Routine.run_get _)]
  exact Routine.run_bind_of_silent (run_modifyRecords _ _) _

theorem Performs.carried {r : Routine Store (DeviceSettings × Option Bool)} {a : Attempt}
    (h : Performs r s live (some a)) (hs : s.Placed) :
    ∃ d, r.run s = .ok d ∧ d.value.1 = a.live ∧ Carried s d.state a.records a.parts := by
  obtain ⟨answer, finish, hfin, hrun⟩ := h
  obtain ⟨d, b, hd, hv, hc⟩ := carried_of_commit (g := fun b => (a.live, answer b)) hs hfin hrun
  refine ⟨d, hd, ?_, hc⟩
  rw [hv]

/-- Whatever becomes of the writes, the copies and the settings are those of the attempt. -/
theorem Performs.result {r : Routine Store (DeviceSettings × Option Bool)}
    {attempt : Option Attempt} (h : Performs r s live attempt)
    {d : Outcome Store (DeviceSettings × Option Bool)} (hd : r.run s = .ok d) :
    (attempt = none ∧ d.state.records = s.records ∧ d.value.1 = live) ∨
      ∃ a, attempt = some a ∧ d.state.records = a.records ∧ d.value.1 = a.live := by
  cases attempt with
  | none =>
    obtain ⟨answer, hrun⟩ := h
    obtain rfl := Except.ok.inj (hrun.symm.trans hd)
    exact .inl ⟨rfl, rfl, rfl⟩
  | some a =>
    obtain ⟨answer, finish, hfin, hrun⟩ := h
    rw [hrun] at hd
    obtain ⟨e, he, rfl⟩ := exists_of_map_eq_ok hd
    refine .inr ⟨a, rfl, ?_, rfl⟩
    rw [(hfin e.value e.state).2.2, state_of_run_commit he]

theorem tidy_settle (now : UInt32) (saved : Bool) (t : Store) :
    (t.settle now saved).flash = t.flash ∧ (t.settle now saved).base = t.base ∧
      (t.settle now saved).records = t.records :=
  ⟨flash_settle t now saved, base_settle t now saved, records_settle t now saved⟩

theorem performs_saveCurrent (hslot : s.records.activeSlot = .ok active) (now : UInt32) :
    Performs (saveCurrent live now >>= fun b => pure (live, some b)) s live
      (some (.save s.records live active now)) :=
  ⟨some, fun b t => t.settle now b, tidy_settle now,
    Routine.run_bind_pure_of_map (run_saveCurrent_eq hslot live now) _⟩

theorem performs_factoryReset (now : UInt32) :
    Performs (factoryReset now >>= fun live => pure (live, none)) s live
      (some (.replace now)) :=
  ⟨fun _ => none, fun _ t => { t with dirty := false, lastChange := now },
    fun _ _ => ⟨rfl, rfl, rfl⟩, Routine.run_bind_pure_of_map (run_factoryReset_eq now) _⟩

theorem performs_task (hslot : s.records.activeSlot = .ok active) (now : UInt32) :
    Performs (task live now >>= fun _ => pure (live, none)) s live
      ((StoreCall.task now).attempt s active live) := by
  have ht := run_task hslot live now
  rw [StoreCall.attempt]
  cases hdue : s.due active now with
  | false =>
    rw [hdue] at ht
    exact ⟨none, Routine.run_bind_pure_of_ok ht _⟩
  | true =>
    rw [hdue, if_pos rfl] at ht
    have hrun := Routine.run_bind_pure_of_map ht fun _ => (live, (none : Option Bool))
    rw [run_saveCurrent_eq hslot] at hrun
    refine ⟨fun _ => none, fun b t => t.settle now b, tidy_settle now, hrun.trans ?_⟩
    change Except.map _ (Except.map _ ((commit (Attempt.save s.records live active now).parts).run
      { s with records := (Attempt.save s.records live active now).records })) = _
    cases (commit (Attempt.save s.records live active now).parts).run
      { s with records := (Attempt.save s.records live active now).records } <;> rfl

theorem performs_resetCurrent (hslot : s.records.activeSlot = .ok active) :
    Performs (StoreCall.resetCurrent.perform live) s live
      (StoreCall.resetCurrent.attempt s active live) :=
  ⟨some, fun _ t => { t with dirty := false }, fun _ _ => ⟨rfl, rfl, rfl⟩,
    Routine.run_bind_pure_of_map (run_resetCurrent_eq hslot live) _⟩

theorem performs_copyProfile (source target : UInt8) :
    Performs ((StoreCall.copyProfile source target).perform live) s live
      ((StoreCall.copyProfile source target).attempt s active live) := by
  rw [StoreCall.perform, copyProfile, StoreCall.attempt]
  refine performs_withSlot source fun source => ?_
  refine performs_withSlot target fun target => ?_
  by_cases h : source = target
  · simp only [h, if_true]
    exact ⟨some true, rfl⟩
  · simp only [h, if_false]
    exact performs_putProfile_get target fun r =>
      ({ r.profile source with name := (r.profile target).name } : ProfileRecord).sealed

theorem performs_importProfile (id : UInt8) (bytes : List UInt8) :
    Performs ((StoreCall.importProfile id bytes).perform live) s live
      ((StoreCall.importProfile id bytes).attempt s active live) := by
  rw [StoreCall.perform, importProfile, StoreCall.attempt]
  refine performs_withSlot id fun slot => ?_
  cases ProfileRecord.codec.unpack bytes with
  | error e => exact ⟨some false, rfl⟩
  | ok p =>
    dsimp only
    cases p.isIntact with
    | false => exact ⟨some false, rfl⟩
    | true => exact performs_putProfile slot p

/-- A single call is the attempt that can be told from the copies. -/
theorem performs_call (hslot : s.records.activeSlot = .ok active) {call : StoreCall}
    (hc : call.Single) : Performs (call.perform live) s live (call.attempt s active live) := by
  cases call with
  | save now => exact performs_saveCurrent hslot now
  | task now => exact performs_task hslot now
  | factoryReset now => exact performs_factoryReset now
  | emergencyReset now => exact performs_factoryReset now
  | resetProfile id =>
    rw [StoreCall.attempt, Option.map_eq_bind]
    exact performs_withSlot id fun slot => performs_putProfile slot _
  | resetCurrent => exact performs_resetCurrent hslot
  | rename id text =>
    rw [StoreCall.attempt, Option.map_eq_bind]
    exact performs_withSlot id fun slot =>
      performs_putProfile_get slot fun r => ((r.profile slot).withName text).sealed
  | copyProfile source target => exact performs_copyProfile source target
  | enableCombo combo => exact performs_changeMask hslot _
  | disableCombo combo => exact performs_changeMask hslot _
  | setAutoSave on => exact performs_changeManager _
  | setAutoLoad on => exact performs_changeManager _
  | setSwitching on => exact performs_changeManager _
  | importProfile id bytes => exact performs_importProfile id bytes
  | saveProfile id =>
    rw [StoreCall.attempt, Option.map_eq_bind]
    exact performs_withSlot id fun slot =>
      performs_putProfile_get slot fun r => (r.profile slot).sealed
  | saveAll =>
    exact .of_commit (a := .all s.records live) rfl
      (Routine.run_bind_of_silent (run_modifyRecords _ _) _)
  | _ => exact hc.elim

end

end Store

end TwinStick
