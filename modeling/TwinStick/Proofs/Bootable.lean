import TwinStick.Proofs.Orderly

/-! The region stays bootable. Every operation writes in an orderly way, whichever
reads and writes are refused, so a region from which the device can boot stays one
throughout, and booting from it again takes it over as it is. -/

namespace TwinStick

namespace Store

/-- The device can boot from the region without a repair. -/
structure Bootable (s : Store) : Prop where
  placed : s.Placed
  manager : s.region.manager.isValid = true
  intact (slot : Fin maxProfiles) : (s.region.profile slot).isIntact = true

section

variable {s t : Store}

theorem Bootable.accepts (h : s.Bootable) (p : Part) : p.Accepts (s.stored p) := by
  refine ⟨h.placed.length_stored p, ?_, ?_⟩
  · rintro rfl
    exact h.manager
  · rintro slot rfl
    have hi := h.intact slot
    rw [profile_region] at hi
    exact hi

theorem Placed.bootable (h : s.Placed) (ha : ∀ p : Part, p.Accepts (s.stored p)) :
    s.Bootable := by
  refine ⟨h, (ha .manager).manager rfl, fun slot => ?_⟩
  rw [profile_region]
  exact (ha (.profile slot)).profile slot rfl

theorem Bootable.congr (h : s.Bootable) (hb : t.base = s.base)
    (hf : t.flash.bytes = s.flash.bytes) : t.Bootable := by
  refine (h.placed.congr hb (by rw [Flash.capacity, Flash.capacity, hf])).bootable fun p => ?_
  rw [stored_congr hf hb]
  exact h.accepts p

theorem Bootable.apply (h : s.Bootable) {e : Event}
    (he : e.InPlace s.base.toNat s.flash.capacity) :
    ({ s with flash := s.flash.apply e } : Store).Bootable := by
  let t : Store := { s with flash := s.flash.apply e }
  have hplaced : t.Placed := h.placed.congr rfl (Flash.capacity_apply he)
  refine hplaced.bootable fun q => ?_
  cases e with
  | write offset bytes =>
    obtain ⟨p, ho, hp, hroom⟩ := he
    have hstored : t.stored q =
        (s.flash.overwrite offset.toNat bytes).slice (s.base.toNat + q.offset) q.length := rfl
    rw [hstored]
    by_cases hq : q = p
    · subst hq
      rw [← ho, ← hp.length, Flash.slice_overwrite_self hroom]
      exact hp
    · have hd := Part.disjoint_of_ne (Ne.symm hq)
      have hl := hp.length
      rw [Flash.slice_overwrite_of_disjoint hroom (by omega)]
      exact h.accepts q
  | _ => exact h.accepts q

/-- The region stays bootable if only some of the writes get to flash, as when the
power is cut between two of them. -/
theorem Bootable.replay (h : s.Bootable) {events : List Event}
    (he : ∀ e ∈ events, e.InPlace s.base.toNat s.flash.capacity) :
    ({ s with flash := s.flash.replay events } : Store).Bootable := by
  induction events generalizing s with
  | nil => exact h
  | cons e events ih =>
    have hhead := he e List.mem_cons_self
    have hrest : ∀ e' ∈ events, e'.InPlace s.base.toNat (s.flash.apply e).capacity := by
      intro e' hm
      rw [Flash.capacity_apply hhead]
      exact he e' (List.mem_cons_of_mem e hm)
    exact ih (h.apply hhead) hrest

/-- What is left if the power is cut after some of the events of an operation. -/
def cutAfter (s : Store) (events : List Event) (k : Nat) : Store :=
  { s with flash := s.flash.replay (events.take k) }

theorem Orderly.bootable_cut {d : Outcome Store α} (ho : Orderly s d) (h : s.Bootable) (k : Nat) :
    (s.cutAfter d.events k).Bootable :=
  h.replay fun e hm => ho.inPlace e (List.mem_of_mem_take hm)

theorem Orderly.bootable {d : Outcome Store α} (ho : Orderly s d) (h : s.Bootable) :
    d.state.Bootable := (h.replay ho.inPlace).congr ho.base ho.bytes

theorem Bootable.holds (h : s.Bootable) (hr : s.flash.reads.Free) : s.Holds s.region where
  placed := h.placed
  reads := hr
  sound := {
    manager := h.manager
    intact := h.intact
    fits_quick := Codec.fits_read QuickWord.codec_lawful _
    fits_manager := Codec.fits_read ManagerRecord.codec_lawful _
    fits_profile := fun slot => by
      rw [profile_region]
      exact Codec.fits_read ProfileRecord.codec_lawful _ }
  stored p := (image_region h.placed p).symm

/-- Any store set up on this storage whose reads work boots with what is there and
writes nothing. -/
def TakenOver (s : Store) : Prop :=
  ∀ t : Store, t.base = s.base → t.flash.bytes = s.flash.bytes → t.flash.reads.Free →
    ∀ live now, ∃ d, (init live now).run t = .ok d ∧ d.events = [] ∧
      d.state.flash.bytes = s.flash.bytes ∧ d.state.records = s.region.booted live

theorem Bootable.takenOver (h : s.Bootable) : s.TakenOver := by
  intro t hb hf hr live now
  have hregion := region_congr hf hb
  obtain ⟨d, hd, he, hbytes, -, hrec⟩ := ((h.congr hb hf).holds hr).run_init live now
  rw [hregion] at hrec
  exact ⟨d, hd, he, hbytes.trans hf, hrec⟩

end

section Operations

variable {s : Store} {live : DeviceSettings}

/-- The routine works on flash in an orderly way and leaves the copy of the manager
record aimed. -/
def Aims (r : Routine Store α) (s : Store) : Prop := Conforms r s fun _ t => t.records.Aimed

theorem aims_of_run {r : Routine Store α} {a : α} {t : Store} (hr : r.run s = .ok ⟨a, t, []⟩)
    (hb : t.base = s.base) (hf : t.flash = s.flash) (ht : t.records.Aimed) : Aims r s :=
  .of_run hr (.of_silent hb hf rfl) ht

theorem aims_of_commit {r : Routine Store α} {records : Records} {parts : List Part}
    (ha : records.Accepted parts) {g : Bool → α} {k : Bool → Store → Store}
    (hk : ∀ b t, (k b t).flash = t.flash ∧ (k b t).base = t.base ∧ (k b t).records = t.records)
    (h : r.run s = ((commit parts).run { s with records }).map fun d =>
      ⟨g d.value, k d.value d.state, d.events⟩) : Aims r s := by
  let t : Store := { s with records }
  have hc : Conforms (commit parts) t fun b u => (k b u).records.Aimed := by
    refine (conforms_commit (s := t) ha.accepts).mono fun b u hu => ?_
    rw [(hk b u).2.2, hu]
    exact ha.aimed
  exact .of_map (t := t) rfl rfl (fun b u => ⟨(hk b u).1, (hk b u).2.1⟩) h hc

theorem Performs.aims {r : Routine Store (DeviceSettings × Option Bool)} {active : Fin maxProfiles}
    {attempt : Option Attempt} (h : Performs r s live attempt) (hs : s.records.Aimed)
    (ha : ∀ a, attempt = some a → a.Shape s.records active live) : Aims r s := by
  cases attempt with
  | none =>
    obtain ⟨answer, hrun⟩ := h
    exact aims_of_run hrun rfl rfl hs
  | some a =>
    obtain ⟨answer, finish, hfin, hrun⟩ := h
    exact aims_of_commit (g := fun b => (a.live, answer b)) ((ha a rfl).accepted hs) hfin hrun

theorem aims_single (hs : s.records.Aimed) {call : StoreCall} (hc : call.Single) :
    Aims (call.perform live) s := by
  obtain ⟨active, hslot⟩ := hs.exists_activeSlot
  exact (performs_call hslot hc).aims hs fun a ha => StoreCall.shape_of_attempt ha

theorem aims_flush (hs : s.records.Aimed) : Aims (flush live) s := by
  obtain ⟨active, hslot⟩ := hs.exists_activeSlot
  cases hdirty : s.dirty with
  | false => exact aims_of_run (run_flush_of_clean hdirty live) rfl rfl hs
  | true =>
    have hsave : Aims (saveCurrent live s.lastChange) s :=
      aims_of_commit (g := id) (hs.accepted_saved s.lastChange)
        (tidy_settle s.lastChange) (run_saveCurrent_eq hslot live s.lastChange)
    exact .of_map (g := fun _ => ()) (k := fun _ t => t) rfl rfl (fun _ _ => ⟨rfl, rfl⟩)
      (run_flush_of_dirty hdirty live) hsave

theorem aims_enter (hs : s.records.Aimed) {id : UInt8} {slot : Fin maxProfiles}
    (hid : Records.slot? id = some slot) : Aims (enter slot id live) s :=
  aims_of_commit (g := fun _ => (true, s.liveOf slot id live)) (k := fun _ t => t)
    (hs.accepted_switched hid) (fun _ _ => ⟨rfl, rfl, rfl⟩) (run_enter_eq slot id live)

theorem aims_switchProfile (hs : s.records.Aimed) (id : UInt8) :
    Aims (switchProfile id live) s := by
  cases ht : s.target id with
  | none => exact aims_of_run (run_switchProfile_of_none ht live) rfl rfl hs
  | some slot =>
    have hid := slot_of_target ht
    exact .of_eq (run_switchProfile_of_some ht live)
      ((aims_flush hs).bind fun _ t ht => aims_enter ht hid)

theorem aims_loadProfiles (slots : List (Fin maxProfiles)) (hs : s.records.Aimed) :
    Aims (loadProfiles slots) s := by
  -- the loop changes copies of profiles only, so the manager record stays aimed
  induction slots generalizing s with
  | nil => exact .of_pure hs
  | cons slot rest ih =>
    refine (conforms_fetch ProfileRecord.codec).bind fun found t ht => ?_
    have haimed : t.records.Aimed := by
      rw [ht]
      exact hs
    cases found with
    | error e => exact .of_pure haimed
    | ok p =>
      dsimp only
      cases hi : p.isIntact with
      | true =>
        exact .modifyRecords_bind (ih ⟨haimed.active_lt, haimed.version⟩)
      | false =>
        let u : Store := { t with records := t.records.withProfile slot (.template slot) }
        have ha : u.records.Accepted [.profile slot] :=
          haimed.accepted_withProfile (ProfileRecord.isIntact_template slot)
        refine .modifyRecords_bind ((conforms_commit (s := u) ha.accepts).bind fun b v hv => ?_)
        have hnext : v.records.Aimed := by
          rw [hv]
          exact ha.aimed
        cases b with
        | true => exact ih hnext
        | false => exact .of_pure hnext

theorem conforms_load : Conforms load s fun loaded t => loaded = true → t.records.Aimed := by
  rw [load_eq]
  refine (conforms_fetch ManagerRecord.codec).bind fun found t _ => ?_
  cases found with
  | error e => exact .of_pure nofun
  | ok manager =>
    dsimp only
    cases hv : manager.isValid with
    | false => exact .of_pure nofun
    | true =>
      refine (conforms_fetch QuickWord.codec).bind fun found u _ => ?_
      cases found with
      | error e => exact .of_pure nofun
      | ok quick =>
        let v : Store := { u with records := { u.records with quick, manager } }
        have hv' : v.records.Aimed := Records.aimed_of_isValid hv
        exact .modifyRecords_bind ((aims_loadProfiles _ hv').mono fun _ _ hw _ => hw)

theorem aims_restoreDefaults (now : UInt32) : Aims (restoreDefaults now) s :=
  aims_of_commit (g := fun _ => ()) (k := fun _ t => t) (Records.accepted_builtIn now)
    (fun _ _ => ⟨rfl, rfl, rfl⟩) (run_restoreDefaults_eq s now)

theorem aims_putInForce (hs : s.records.Aimed) (now : UInt32) :
    Aims (putInForce live now) s := by
  obtain ⟨active, hslot⟩ := hs.exists_activeSlot
  exact aims_of_run (run_putInForce hslot live now) rfl rfl (hs.booted live)

/-- Whatever was known about the copies, they are aimed after boot. -/
theorem aims_takeOver (now : UInt32) : Aims (takeOver now) s := by
  refine conforms_load.bind fun loaded t ht => ?_
  cases loaded with
  | true => exact .of_pure (ht rfl)
  | false => exact aims_restoreDefaults now

theorem aims_init (now : UInt32) : Aims (init live now) s := by
  rw [init_eq]
  exact (aims_takeOver now).bind fun _ t ht => aims_putInForce ht now

theorem conforms_verify_profiles (slots : List (Fin maxProfiles)) :
    Conforms (verify.profiles slots) s fun _ t => t.records = s.records := by
  induction slots generalizing s with
  | nil => exact .of_pure rfl
  | cons slot rest ih =>
    refine (conforms_fetch ProfileRecord.codec).bind fun found t ht => ?_
    cases found with
    | error e => exact .of_pure ht
    | ok p =>
      dsimp only
      cases p.isIntact with
      | false => exact .of_pure ht
      | true => exact ih.mono fun _ u hu => hu.trans ht

theorem aims_verify (hs : s.records.Aimed) : Aims verify s := by
  refine (conforms_fetch ManagerRecord.codec).bind fun found t ht => ?_
  rw [← ht] at hs
  cases found with
  | error e => exact .of_pure hs
  | ok manager =>
    dsimp only
    cases manager.isIntact with
    | false => exact .of_pure hs
    | true =>
      refine (conforms_verify_profiles _).mono fun _ u hu => ?_
      rw [hu]
      exact hs

theorem aims_editProfile (hs : s.records.Aimed) (id : UInt8)
    (edit : ProfileRecord → ProfileRecord) :
    Aims ((StoreCall.editProfile id edit).perform live) s := by
  refine .get_bind ?_
  rw [editProfile?]
  cases Records.slot? id with
  | none => exact .of_pure hs
  | some slot =>
    have hnext : (s.records.withProfile slot (edit (s.records.profile slot))).Aimed :=
      ⟨hs.active_lt, hs.version⟩
    exact aims_of_run rfl rfl rfl hnext

/-- No call writes to flash but in an orderly way, and none lets the copy of the
manager record name a slot that does not exist. -/
theorem aims_call (hs : s.records.Aimed) (call : StoreCall) : Aims (call.perform live) s := by
  cases call with
  | init now => exact (aims_init now).bind fun _ t ht => .of_pure ht
  | switchProfile id => exact (aims_switchProfile hs id).bind fun _ t ht => .of_pure ht
  | markDirty now => exact aims_of_run rfl rfl rfl hs
  | verify => exact (aims_verify hs).bind fun _ t ht => .of_pure ht
  | editProfile id edit => exact aims_editProfile hs id edit
  | _ => exact aims_single hs trivial

end Operations

/-- The ways in which a store comes about: it is set up on some storage, the storage
may become any other, and calls are made that no fault stops. -/
inductive Reached : Store → Prop
  | new (flash : Flash) (base : UInt32) : Reached (ofFlash flash base)
  | storage {s : Store} (h : Reached s) (flash : Flash) : Reached { s with flash }
  | call {s : Store} (h : Reached s) (call : StoreCall) {live : DeviceSettings}
      {d : Outcome Store (DeviceSettings × Option Bool)} (hd : (call.perform live).run s = .ok d) :
      Reached d.state

/-- How a store gets on from here: reads and writes are granted or refused in any
pattern, and any calls are made with any settings. -/
inductive Course (s : Store) : Store → Prop
  | start : Course s s
  | gates {t : Store} (h : Course s t) (reads writes : Gate) :
      Course s { t with flash := { t.flash with reads, writes } }
  | call {t : Store} (h : Course s t) (call : StoreCall) {live : DeviceSettings}
      {d : Outcome Store (DeviceSettings × Option Bool)} (hd : (call.perform live).run t = .ok d) :
      Course s d.state

section

variable {s t : Store}

theorem Reached.aimed (h : Reached s) : s.records.Aimed := by
  induction h with
  | new flash base => exact Records.aimed_default
  | storage _ flash ih => exact ih
  | call _ call hd ih => exact (aims_call ih call).post _ hd

theorem Course.safe (hs : s.records.Aimed) (hb : s.Bootable) (h : Course s t) :
    t.records.Aimed ∧ t.Bootable := by
  induction h with
  | start => exact ⟨hs, hb⟩
  | gates _ reads writes ih => exact ⟨ih.1, ih.2.congr rfl rfl⟩
  | @call t _ call live d hd ih =>
    have hc : Aims (call.perform live) t := aims_call ih.1 call
    exact ⟨hc.post _ hd, (hc.orderly _ hd).bootable ih.2⟩

/-- Once the device can boot from the region, nothing that a store does to it takes
that away, whichever accesses are refused and wherever the power is cut; and no call
stops at a fault. -/
theorem Course.stays_bootable (hs : Reached s) (hb : s.Bootable) (h : Course s t) :
    t.Bootable ∧ t.TakenOver ∧ t.active.toNat < maxProfiles ∧ (∃ p, t.activeRecord = .ok p) ∧
      ∀ (call : StoreCall) (live : DeviceSettings), ∃ d, (call.perform live).run t = .ok d ∧
        d.state.flash.bytes = (t.flash.replay d.events).bytes ∧
        ∀ k, (t.cutAfter d.events k).Bootable ∧ (t.cutAfter d.events k).TakenOver := by
  obtain ⟨haimed, hboot⟩ := h.safe hs.aimed hb
  obtain ⟨active, hslot⟩ := haimed.exists_activeSlot
  refine ⟨hboot, hboot.takenOver, haimed.active_lt, ⟨_, activeRecord_eq hslot⟩, ?_⟩
  intro call live
  have hc : Aims (call.perform live) t := aims_call haimed call
  obtain ⟨d, hd⟩ := hc.total hboot.placed
  have ho := hc.orderly d hd
  have hcut := ho.bootable_cut hboot
  exact ⟨d, hd, ho.bytes, fun k => ⟨hcut k, (hcut k).takenOver⟩⟩

theorem Holds.bootable {r : Records} (h : s.Holds r) : s.Bootable := by
  have hregion := region_eq_of_stored h.sound h.stored
  refine ⟨h.placed, ?_, fun slot => ?_⟩
  · rw [hregion]
    exact h.sound.manager
  · rw [hregion]
    exact h.sound.intact slot

theorem run_perform_init {live : DeviceSettings} {now : UInt32}
    {d : Outcome Store DeviceSettings} (hd : (init live now).run s = .ok d) :
    ((StoreCall.init now).perform live).run s = .ok ⟨(d.value, none), d.state, d.events⟩ :=
  Routine.run_bind_pure_of_ok hd _

/-- A store booted on erased memory, after a factory reset during which the power
failed at the third write. -/
theorem stays_bootable_cut_short :
    ∃ d, ((StoreCall.init 0).perform {}).run (ofFlash (.erased regionLength) 0) = .ok d ∧
      ∃ e, ((StoreCall.factoryReset 9).perform {}).run d.state = .ok e ∧
        (d.state.cutAfter e.events 2).Bootable := by
  obtain ⟨d, hd, hbooted⟩ := run_init_of_free placed_erased Gate.free_default Gate.free_default {} 0
  have hrun := run_perform_init hd
  obtain ⟨-, -, -, -, hcalls⟩ :=
    Course.stays_bootable (.call (.new _ _) (.init 0) hrun) hbooted.holds.bootable .start
  obtain ⟨e, he, -, hcut⟩ := hcalls (.factoryReset 9) {}
  exact ⟨_, hrun, e, he, (hcut 2).1⟩

end

end Store

end TwinStick
