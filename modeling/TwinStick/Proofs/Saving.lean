import TwinStick.Proofs.Recovery
import TwinStick.Store.Edit

/-! The operations that carry settings to flash. Each changes some copies and then
writes exactly these, so that all of them come down to attempts to write a few
records in turn. -/

namespace TwinStick

namespace Records

def saved (r : Records) (slot : Fin maxProfiles) (live : DeviceSettings) (now : UInt32) :
    Records :=
  let r := r.modifyManager ({ · with lastSave := now })
  { r.withProfile slot ((r.profile slot).capture live) with
    quick := { r.quick.capture live with active := r.manager.active } }

def switched (r : Records) (id : UInt8) (live : DeviceSettings) : Records :=
  { r.modifyManager ({ · with active := id }) with quick := r.quick.capture live }

def reset (r : Records) (slot : Fin maxProfiles) (live : DeviceSettings) : Records :=
  { r.withProfile slot (.template slot) with
    quick := r.quick.capture ((ProfileRecord.template slot).apply live) }

theorem profile_saved_self (r : Records) (slot : Fin maxProfiles) (live : DeviceSettings)
    (now : UInt32) : (r.saved slot live now).profile slot = (r.profile slot).capture live :=
  profile_withProfile_self _ _ _

theorem profile_saved_of_ne (r : Records) {slot other : Fin maxProfiles} (live : DeviceSettings)
    (now : UInt32) (h : other ≠ slot) :
    (r.saved slot live now).profile other = r.profile other :=
  profile_withProfile_of_ne _ _ h

theorem profile_reset_self (r : Records) (slot : Fin maxProfiles) (live : DeviceSettings) :
    (r.reset slot live).profile slot = .template slot :=
  profile_withProfile_self _ _ _

theorem profile_reset_of_ne (r : Records) {slot other : Fin maxProfiles} (live : DeviceSettings)
    (h : other ≠ slot) : (r.reset slot live).profile other = r.profile other :=
  profile_withProfile_of_ne _ _ h

/-- The same record in both. -/
def Same (r r' : Records) : Part → Prop
  | .quick => r.quick = r'.quick
  | .manager => r.manager = r'.manager
  | .profile slot => r.profile slot = r'.profile slot

theorem Same.image {r r' : Records} {p : Part} (h : r.Same r' p) : r.image p = r'.image p := by
  cases p with
  | quick => exact congrArg QuickWord.codec.pack h
  | manager => exact congrArg ManagerRecord.codec.pack h
  | profile slot => exact congrArg ProfileRecord.codec.pack h

theorem same_withProfile (r : Records) {slot : Fin maxProfiles} (p : ProfileRecord) {q : Part}
    (h : q ≠ .profile slot) : (r.withProfile slot p).Same r q := by
  cases q with
  | quick => rfl
  | manager => rfl
  | profile other =>
    have hne : other ≠ slot := by simpa using h
    exact profile_withProfile_of_ne r p hne

theorem same_saved (r : Records) {slot : Fin maxProfiles} {live : DeviceSettings} {now : UInt32}
    {p : Part} (h : p ∉ [.quick, .manager, .profile slot]) :
    (r.saved slot live now).Same r p := by
  simp only [List.mem_cons, List.not_mem_nil, or_false, not_or] at h
  cases p with
  | quick => exact absurd rfl h.1
  | manager => exact absurd rfl h.2.1
  | profile other => exact r.same_withProfile _ h.2.2

theorem same_switched (r : Records) {id : UInt8} {live : DeviceSettings} {p : Part}
    (h : p ∉ [.quick, .manager]) : (r.switched id live).Same r p := by
  cases p with
  | quick => simp at h
  | manager => simp at h
  | profile other => rfl

theorem same_reset (r : Records) {slot : Fin maxProfiles} {live : DeviceSettings} {p : Part}
    (h : p ∉ [.profile slot, .quick]) : (r.reset slot live).Same r p := by
  simp only [List.mem_cons, List.not_mem_nil, or_false, not_or] at h
  cases p with
  | quick => exact absurd rfl h.2
  | manager => rfl
  | profile other => exact r.same_withProfile _ h.1

theorem toNat_of_slot? {id : UInt8} {slot : Fin maxProfiles} (h : slot? id = some slot) :
    id.toNat = slot := by
  rw [slot?] at h
  split at h
  · exact congrArg Fin.val (Option.some.inj h)
  · exact nomatch h

theorem toNat_of_activeSlot {r : Records} {slot : Fin maxProfiles} (h : r.activeSlot = .ok slot) :
    r.manager.active.toNat = slot := by
  rw [activeSlot, Records.slot] at h
  split at h
  · exact congrArg Fin.val (Except.ok.inj h)
  · exact nomatch h

theorem activeSlot_switched {r : Records} {id : UInt8} {slot : Fin maxProfiles}
    (h : slot? id = some slot) (live : DeviceSettings) :
    (r.switched id live).activeSlot = .ok slot := by
  have hid := toNat_of_slot? h
  have hlt : (r.switched id live).manager.active.toNat < maxProfiles := hid ▸ slot.isLt
  rw [activeSlot_of_lt hlt]
  exact congrArg Except.ok (Fin.ext hid)

end Records

namespace Store

/-- A write depends on the region, the gate and the copy of that record alone. -/
theorem run_persist_congr {s t : Store} {p : Part} (hf : t.flash = s.flash)
    (hb : t.base = s.base) (hi : t.records.image p = s.records.image p) :
    (persist p).run t = ((persist p).run s).map fun d =>
      ⟨d.value, { t with flash := d.state.flash }, d.events⟩ := by
  have ha : t.address p = s.address p := by
    rw [address, address, hb]
  rw [persist, Routine.run_bind_of_silent (Routine.run_get _),
    Routine.run_bind_of_silent (Routine.run_get _)]
  cases h : s.address p with
  | error e => simp [ha, h, Routine.run_bind, Routine.run_liftM, Except.map, Except.bind]
  | ok a =>
    simp only [ha, h, Routine.run_bind, Routine.run_liftM, Except.map, Except.bind, run_onFlash,
      hf, hi]
    cases (Flash.write a (s.records.image p)).run s.flash with
    | error e => rfl
    | ok d => rfl

theorem state_of_run_persist {s : Store} {p : Part} {d : Outcome Store (Except StoreError Unit)}
    (h : (persist p).run s = .ok d) : d.state = { s with flash := d.state.flash } := by
  have hc := run_persist_congr (s := s) (t := s) (p := p) rfl rfl rfl
  rw [h] at hc
  exact congrArg Outcome.state (Except.ok.inj hc)

theorem run_commit_congr (parts : List Part) {s t : Store} (hf : t.flash = s.flash)
    (hb : t.base = s.base) (hi : ∀ p ∈ parts, t.records.image p = s.records.image p) :
    (commit parts).run t = ((commit parts).run s).map fun d =>
      ⟨d.value, { t with flash := d.state.flash }, d.events⟩ := by
  induction parts generalizing s t with
  | nil =>
    rw [commit, Routine.run_pure, Routine.run_pure, Except.map, ← hf]
  | cons p rest ih =>
    rw [commit, Routine.run_bind, Routine.run_bind,
      run_persist_congr hf hb (hi p List.mem_cons_self)]
    cases h : (persist p).run s with
    | error e => rfl
    | ok d =>
      have hs := state_of_run_persist h
      simp only [Except.map, Except.bind]
      cases d.value with
      | error e => rfl
      | ok u =>
        have hrest := ih (s := d.state) (t := { t with flash := d.state.flash }) rfl
          (by rw [hs]; exact hb) (by
            intro q hq
            rw [hs]
            exact hi q (List.mem_cons_of_mem p hq))
        simp only [hrest]
        cases (commit rest).run d.state with
        | error e => rfl
        | ok e => rfl

theorem state_of_run_commit {s : Store} {parts : List Part} {d : Outcome Store Bool}
    (h : (commit parts).run s = .ok d) : d.state = { s with flash := d.state.flash } := by
  have hc := run_commit_congr parts (s := s) (t := s) rfl rfl fun _ _ => rfl
  rw [h] at hc
  exact congrArg Outcome.state (Except.ok.inj hc)

theorem commit_cons (p : Part) (rest : List Part) :
    commit (p :: rest) = commit [p] >>= fun written =>
      if written then commit rest else pure false := by
  rw [commit, commit, bind_assoc]
  refine congrArg _ (funext fun result => ?_)
  cases result with
  | error e => simp
  | ok u => simp [commit]

/-- What an attempt to write some of the changed copies in turn leaves behind, but
for the dirty flag. -/
structure Carried (s t : Store) (r : Records) (parts : List Part) : Prop where
  records : t.records = r
  base : t.base = s.base
  reads : t.flash.reads = s.flash.reads
  writes : t.flash.writes = s.flash.writes.after parts.length
  capacity : t.flash.capacity = s.flash.capacity
  written : ∀ p ∈ s.reached parts, t.stored p = r.image p
  kept : ∀ p ∉ s.reached parts, t.stored p = s.stored p

theorem Committed.carried {s t : Store} {r : Records} {parts : List Part} {d : Outcome Store Bool}
    (hc : Committed { s with records := r } parts d) (hf : t.flash = d.state.flash)
    (hb : t.base = s.base) (hr : t.records = r) : Carried s t r parts := by
  have hs : ∀ p, t.stored p = d.state.stored p := by
    intro p
    have hbase : d.state.base = s.base := by rw [hc.state]
    rw [stored, stored, hf, hb, hbase]
  refine ⟨hr, hb, ?_, ?_, ?_, ?_, ?_⟩
  · rw [hf]
    exact hc.reads
  · rw [hf]
    exact hc.writes
  · rw [hf]
    exact hc.capacity
  · intro p hp
    exact (hs p).trans (hc.written p hp)
  · intro p hp
    exact (hs p).trans (hc.kept p hp)

theorem Carried.placed {s t : Store} {r : Records} {parts : List Part} (hc : Carried s t r parts)
    (h : s.Placed) : t.Placed := h.congr hc.base hc.capacity

/-- All of these records can be written. -/
def Grants (s : Store) (parts : List Part) : Prop :=
  s.flash.writes.streak parts.length = parts.length

instance (s : Store) (parts : List Part) : Decidable (s.Grants parts) :=
  inferInstanceAs (Decidable (_ = _))

section Operations

variable {s : Store} {slot : Fin maxProfiles}

/-- What is left to do with the flag once saving has been attempted. -/
def settle (now : UInt32) (saved : Bool) (s : Store) : Store :=
  if saved then { s with dirty := false } else s.markDirty now

@[simp] theorem flash_settle (s : Store) (now : UInt32) (saved : Bool) :
    (s.settle now saved).flash = s.flash := by cases saved <;> rfl

@[simp] theorem base_settle (s : Store) (now : UInt32) (saved : Bool) :
    (s.settle now saved).base = s.base := by cases saved <;> rfl

@[simp] theorem records_settle (s : Store) (now : UInt32) (saved : Bool) :
    (s.settle now saved).records = s.records := by cases saved <;> rfl

@[simp] theorem dirty_settle (s : Store) (now : UInt32) (saved : Bool) :
    (s.settle now saved).dirty = !saved := by cases saved <;> rfl

theorem run_saveCurrent_eq (hslot : s.records.activeSlot = .ok slot) (live : DeviceSettings)
    (now : UInt32) :
    (saveCurrent live now).run s =
      ((commit [.quick, .manager, .profile slot]).run
        { s with records := s.records.saved slot live now }).map fun d =>
          ⟨d.value, d.state.settle now d.value, d.events⟩ := by
  rw [saveCurrent, Routine.run_bind_of_silent (Routine.run_get _),
    Routine.run_bind_of_silent (Routine.run_liftM_of_ok hslot _),
    Routine.run_bind_of_silent (run_modifyRecords _ _)]
  exact Routine.run_bind_silent (fun _ _ => rfl) _ _

theorem run_saveCurrent (h : s.Placed) (hslot : s.records.activeSlot = .ok slot)
    (live : DeviceSettings) (now : UInt32) :
    ∃ d, (saveCurrent live now).run s = .ok d ∧
      d.value = decide (s.Grants [.quick, .manager, .profile slot]) ∧
      d.state.dirty = !d.value ∧
      Carried s d.state (s.records.saved slot live now) [.quick, .manager, .profile slot] := by
  let t : Store := { s with records := s.records.saved slot live now }
  obtain ⟨d, hd, hc⟩ := run_commit (h.congr (t := t) rfl rfl) [.quick, .manager, .profile slot]
  have hrun := run_saveCurrent_eq hslot live now
  rw [hd] at hrun
  have hrec : d.state.records = s.records.saved slot live now := by rw [hc.state]
  have hbase : d.state.base = s.base := by rw [hc.state]
  refine ⟨_, hrun, hc.value, dirty_settle _ _ _, hc.carried (flash_settle _ _ _) ?_ ?_⟩
  · rw [base_settle, hbase]
  · rw [records_settle, hrec]

/-- Whatever becomes of the writes, the copies have the settings. -/
theorem records_of_run_saveCurrent (hslot : s.records.activeSlot = .ok slot)
    {live : DeviceSettings} {now : UInt32} {d : Outcome Store Bool}
    (hd : (saveCurrent live now).run s = .ok d) :
    d.state.records = s.records.saved slot live now := by
  rw [run_saveCurrent_eq hslot] at hd
  obtain ⟨e, he, rfl⟩ := exists_of_map_eq_ok hd
  rw [records_settle, state_of_run_commit he]

/-- Unsaved settings are to be saved now. -/
def due (s : Store) (slot : Fin maxProfiles) (now : UInt32) : Bool :=
  s.dirty && (s.records.manager.autoSave && (s.records.profile slot).features.autoSave) &&
    quietMs ≤ elapsed s.lastChange now

theorem autoSaves_eq (hslot : s.records.activeSlot = .ok slot) :
    s.autoSaves =
      .ok (s.records.manager.autoSave && (s.records.profile slot).features.autoSave) := by
  rw [autoSaves, activeRecord_eq hslot]
  cases s.records.manager.autoSave <;> rfl

theorem run_task (hslot : s.records.activeSlot = .ok slot) (live : DeviceSettings)
    (now : UInt32) :
    (task live now).run s =
      if s.due slot now then ((saveCurrent live now).run s).map fun d => ⟨(), d.state, d.events⟩
      else .ok ⟨(), s, []⟩ := by
  rw [task, Routine.run_bind_of_silent (Routine.run_get _), due]
  cases s.dirty with
  | false => rfl
  | true =>
    rw [if_pos rfl, Routine.run_bind_of_silent (Routine.run_liftM_of_ok (autoSaves_eq hslot) _)]
    cases s.records.manager.autoSave && (s.records.profile slot).features.autoSave with
    | false => rfl
    | true =>
      by_cases hq : quietMs ≤ elapsed s.lastChange now
      · rw [if_pos rfl, if_pos hq, if_pos (by simp [hq])]
        exact Routine.run_bind_pure _ _ s
      · rw [if_pos rfl, if_neg hq, if_neg (by simp [hq])]
        rfl

def liveOf (s : Store) (slot : Fin maxProfiles) (id : UInt8) (live : DeviceSettings) :
    DeviceSettings :=
  { (s.records.profile slot).apply live with profile := id }

/-- Saves what would be lost by leaving the active profile. -/
def flush (live : DeviceSettings) : Routine Store Unit := do
  if (← get).dirty then
    let _ ← saveCurrent live (← get).lastChange

/-- Makes a slot the active one and puts it in force. -/
def enter (slot : Fin maxProfiles) (id : UInt8) (live : DeviceSettings) :
    Routine Store (Bool × DeviceSettings) := do
  let live := liveOf (← get) slot id live
  modifyRecords (·.switched id live)
  let _ ← commit [.quick, .manager]
  return (true, live)

theorem run_flush_of_clean (h : s.dirty = false) (live : DeviceSettings) :
    (flush live).run s = .ok ⟨(), s, []⟩ := by
  rw [flush, Routine.run_bind_of_silent (Routine.run_get _), h]
  rfl

theorem run_flush_of_dirty (h : s.dirty = true) (live : DeviceSettings) :
    (flush live).run s =
      ((saveCurrent live s.lastChange).run s).map fun d => ⟨(), d.state, d.events⟩ := by
  rw [flush, Routine.run_bind_of_silent (Routine.run_get _), h, if_pos rfl,
    Routine.run_bind_of_silent (Routine.run_get _)]
  exact Routine.run_bind_pure _ _ s

/-- The slot that a switch leads to, if it is not refused. -/
def target (s : Store) (id : UInt8) : Option (Fin maxProfiles) :=
  if s.records.manager.switching then Records.slot? id else none

theorem slot_of_target {id : UInt8} (h : s.target id = some slot) :
    Records.slot? id = some slot := by
  rw [target] at h
  split at h
  · exact h
  · exact nomatch h

theorem target_eq_none {id : UInt8} (h : Records.slot? id = none) (s : Store) :
    s.target id = none := by
  rw [target, h, ite_self]

theorem run_switchProfile_of_some {id : UInt8} (h : s.target id = some slot)
    (live : DeviceSettings) :
    (switchProfile id live).run s = (flush live >>= fun _ => enter slot id live).run s := by
  have hs : s.records.manager.switching = true := by
    by_contra hs
    simp [target, hs] at h
  have hid : Records.slot? id = some slot := by simpa [target, hs] using h
  rw [switchProfile, hid, flush, bind_assoc]
  dsimp only
  rw [Routine.run_bind_of_silent (Routine.run_get _),
    Routine.run_bind_of_silent (Routine.run_get _), hs, if_neg (by decide),
    Routine.run_bind_of_silent (Routine.run_get _)]
  cases s.dirty with
  | false =>
    rw [if_neg (by decide), if_neg (by decide), pure_bind]
    rfl
  | true =>
    rw [if_pos rfl, if_pos rfl]
    simp only [bind_assoc, pure_bind]
    rfl

theorem run_switchProfile_of_flush {id : UInt8} (h : s.target id = some slot)
    {live : DeviceSettings} {d : Outcome Store Unit} (hd : (flush live).run s = .ok d)
    {e : Outcome Store (Bool × DeviceSettings)} (he : (enter slot id live).run d.state = .ok e) :
    (switchProfile id live).run s = .ok ⟨e.value, e.state, d.events ++ e.events⟩ := by
  rw [run_switchProfile_of_some h, Routine.run_bind_of_ok hd, he]
  rfl

theorem run_switchProfile_of_none {id : UInt8} (h : s.target id = none) (live : DeviceSettings) :
    (switchProfile id live).run s = .ok ⟨(false, live), s, []⟩ := by
  rw [switchProfile]
  cases hid : Records.slot? id with
  | none => rfl
  | some slot =>
    have hs : s.records.manager.switching = false := by
      by_contra hs
      simp [target, hs, hid] at h
    dsimp only
    rw [Routine.run_bind_of_silent (Routine.run_get _), hs]
    rfl

theorem run_enter_eq (slot : Fin maxProfiles) (id : UInt8) (live : DeviceSettings) :
    (enter slot id live).run s =
      ((commit [.quick, .manager]).run
        { s with records := s.records.switched id (s.liveOf slot id live) }).map fun d =>
          ⟨(true, s.liveOf slot id live), d.state, d.events⟩ := by
  rw [enter, Routine.run_bind_of_silent (Routine.run_get _),
    Routine.run_bind_of_silent (run_modifyRecords _ _)]
  exact Routine.run_bind_pure _ _ _

theorem run_enter (h : s.Placed) (slot : Fin maxProfiles) (id : UInt8) (live : DeviceSettings) :
    ∃ d, (enter slot id live).run s = .ok d ∧ d.value = (true, s.liveOf slot id live) ∧
      d.state.dirty = s.dirty ∧
      Carried s d.state (s.records.switched id (s.liveOf slot id live)) [.quick, .manager] := by
  let t : Store := { s with records := s.records.switched id (s.liveOf slot id live) }
  obtain ⟨d, hd, hc⟩ := run_commit (h.congr (t := t) rfl rfl) [.quick, .manager]
  have hrun := run_enter_eq (s := s) slot id live
  rw [hd] at hrun
  refine ⟨_, hrun, rfl, ?_, ?_⟩
  · rw [hc.state]
  · have hrec : d.state.records = s.records.switched id (s.liveOf slot id live) := by rw [hc.state]
    have hbase : d.state.base = s.base := by rw [hc.state]
    exact hc.carried rfl hbase hrec

theorem entered_of_run_enter {id : UInt8} {live : DeviceSettings}
    {d : Outcome Store (Bool × DeviceSettings)} (hd : (enter slot id live).run s = .ok d) :
    d.value = (true, s.liveOf slot id live) ∧
      d.state.records = s.records.switched id (s.liveOf slot id live) := by
  rw [run_enter_eq] at hd
  obtain ⟨e, he, rfl⟩ := exists_of_map_eq_ok hd
  refine ⟨rfl, ?_⟩
  rw [state_of_run_commit he]

theorem run_putProfile (slot : Fin maxProfiles) (profile : ProfileRecord) {t : Store}
    (hf : t.flash = s.flash) (hb : t.base = s.base) (hp : t.records.profile slot = profile) :
    (putProfile slot profile).run s = ((commit [.profile slot]).run t).map fun d =>
      ⟨d.value, { s with flash := d.state.flash, records := s.records.withProfile slot profile },
        d.events⟩ := by
  rw [putProfile, Routine.run_bind_of_silent (run_modifyRecords _ _)]
  refine run_commit_congr [.profile slot] hf.symm hb.symm ?_
  intro p hm
  obtain rfl := List.mem_singleton.mp hm
  rw [Records.image, Records.image, Records.profile_withProfile_self, hp]

theorem run_resetCurrent_eq (hslot : s.records.activeSlot = .ok slot) (live : DeviceSettings) :
    (resetCurrent live).run s =
      ((commit [.profile slot, .quick]).run { s with records := s.records.reset slot live }).map
        fun d => ⟨(d.value, (ProfileRecord.template slot).apply live),
          { d.state with dirty := false }, d.events⟩ := by
  -- the quick word is changed only after the profile was written, which does not look at it
  let t : Store := { s with records := s.records.reset slot live }
  have hput := run_putProfile (s := s) slot (.template slot) (t := t) rfl rfl
    (Records.profile_reset_self _ _ _)
  rw [resetCurrent, Routine.run_bind_of_silent (Routine.run_get _),
    Routine.run_bind_of_silent (Routine.run_liftM_of_ok hslot _), commit_cons (.profile slot)]
  change _ = Except.map _ ((commit [.profile slot] >>= _).run t)
  cases he : (commit [.profile slot]).run t with
  | error fault =>
    rw [he] at hput
    rw [Routine.run_bind, hput, Routine.run_bind, he]
    rfl
  | ok e =>
    rw [he] at hput
    have hstate := state_of_run_commit he
    rw [Routine.run_bind_of_ok hput, Routine.run_bind_of_ok he,
      Routine.run_bind_of_silent (Routine.run_get _),
      Routine.run_bind_of_silent (run_modifyRecords _ _),
      Routine.run_bind_of_silent (Routine.run_modify _ _), Records.profile_withProfile_self]
    cases e.value with
    | false =>
      rw [hstate]
      rfl
    | true =>
      let w : Store := { t with flash := e.state.flash, dirty := false }
      have hw := run_commit_congr [.quick] (s := e.state) (t := w) rfl (by rw [hstate])
        (fun p _ => by rw [hstate])
      rw [if_pos rfl, if_pos rfl]
      change Except.map _ ((commit [.quick] >>= fun reset => pure (reset, _)).run w) = _
      rw [Routine.run_bind_pure, hw]
      cases hf : (commit [.quick]).run e.state with
      | error fault => rfl
      | ok f =>
        have hlast := state_of_run_commit hf
        rw [hstate] at hlast
        simp only [Except.map]
        rw [hlast]

theorem run_resetCurrent (h : s.Placed) (hslot : s.records.activeSlot = .ok slot)
    (live : DeviceSettings) :
    ∃ d, (resetCurrent live).run s = .ok d ∧
      d.value = (decide (s.Grants [.profile slot, .quick]),
        (ProfileRecord.template slot).apply live) ∧
      d.state.dirty = false ∧
      Carried s d.state (s.records.reset slot live) [.profile slot, .quick] := by
  let t : Store := { s with records := s.records.reset slot live }
  obtain ⟨d, hd, hc⟩ := run_commit (h.congr (t := t) rfl rfl) [.profile slot, .quick]
  have hrec : d.state.records = s.records.reset slot live := by rw [hc.state]
  have hbase : d.state.base = s.base := by rw [hc.state]
  have hrun := run_resetCurrent_eq hslot live
  rw [hd] at hrun
  exact ⟨_, hrun, congrArg (·, _) hc.value, rfl, hc.carried rfl hbase hrec⟩

/-- The settings that the built-in contents put in force. -/
def builtInLive : DeviceSettings :=
  (ProfileRecord.template 0).applyExtended (Records.default.quick.apply {})

theorem run_factoryReset_eq (now : UInt32) :
    (factoryReset now).run s =
      ((commit Part.all).run { s with records := .builtIn now }).map fun d =>
        ⟨builtInLive, { d.state with dirty := false, lastChange := now }, d.events⟩ := by
  rw [factoryReset, Routine.run_bind, run_restoreDefaults_eq]
  cases hd : (commit Part.all).run { s with records := .builtIn now } with
  | error e => rfl
  | ok d =>
    let t : Store := { d.state with dirty := false, lastChange := now }
    have hrec : t.records = .builtIn now := by
      have hs := state_of_run_commit hd
      exact congrArg Store.records hs
    have hslot : t.records.activeSlot = .ok 0 := by
      rw [hrec]
      rfl
    have hlive : (t.records.profile 0).applyExtended (t.records.quick.apply {}) = builtInLive := by
      rw [hrec, Records.profile_builtIn]
      rfl
    have hboot := bootSettings_eq hslot {}
    rw [hlive] at hboot
    simp only [Except.map, Except.bind]
    rw [Routine.run_bind_of_silent (Routine.run_modify _ _),
      Routine.run_bind_of_silent (Routine.run_get _), Routine.run_liftM_of_ok hboot]
    simp

theorem run_factoryReset (h : s.Placed) (now : UInt32) :
    ∃ d, (factoryReset now).run s = .ok d ∧ d.value = builtInLive ∧
      d.state.dirty = false ∧ Carried s d.state (.builtIn now) Part.all := by
  let t : Store := { s with records := .builtIn now }
  obtain ⟨d, hd, hc⟩ := run_commit (h.congr (t := t) rfl rfl) Part.all
  have hrun := run_factoryReset_eq (s := s) now
  rw [hd] at hrun
  have hrec : d.state.records = .builtIn now := by rw [hc.state]
  have hbase : d.state.base = s.base := by rw [hc.state]
  exact ⟨_, hrun, rfl, rfl, hc.carried rfl hbase hrec⟩

end Operations

end Store

end TwinStick
