import TwinStick.Proofs.Access
import TwinStick.Store.Boot

/-! Taking over the region at boot. The loop over the slots repairs the damaged
ones until a repair is refused; every record that is not damaged stays in flash as
it is. -/

namespace TwinStick

namespace Records

/-- A profile as it is loaded: a damaged one is replaced by its template. -/
def repaired (r : Records) (slot : Fin maxProfiles) : ProfileRecord :=
  if (r.profile slot).isIntact then r.profile slot else .template slot

def mended (r : Records) : Records := { r with profiles := .ofFn r.repaired }

def damaged (r : Records) (slots : List (Fin maxProfiles)) : List (Fin maxProfiles) :=
  slots.filter fun slot => !(r.profile slot).isIntact

@[simp] theorem profile_mended (r : Records) (slot : Fin maxProfiles) :
    r.mended.profile slot = r.repaired slot := by
  simp [mended, profile]

@[simp] theorem quick_mended (r : Records) : r.mended.quick = r.quick := rfl

@[simp] theorem manager_mended (r : Records) : r.mended.manager = r.manager := rfl

theorem repaired_of_intact {r : Records} {slot : Fin maxProfiles}
    (h : (r.profile slot).isIntact = true) : r.repaired slot = r.profile slot := if_pos h

theorem repaired_of_damaged {r : Records} {slot : Fin maxProfiles}
    (h : (r.profile slot).isIntact = false) : r.repaired slot = .template slot := by
  simp [repaired, h]

theorem isIntact_repaired (r : Records) (slot : Fin maxProfiles) :
    (r.repaired slot).isIntact = true := by
  unfold repaired
  split
  · assumption
  · exact ProfileRecord.isIntact_template slot

theorem mem_damaged {r : Records} {slots : List (Fin maxProfiles)} {slot : Fin maxProfiles} :
    slot ∈ r.damaged slots ↔ slot ∈ slots ∧ (r.profile slot).isIntact = false := by
  simp [damaged]

theorem damaged_cons (r : Records) (slot : Fin maxProfiles) (rest : List (Fin maxProfiles)) :
    r.damaged (slot :: rest) =
      if (r.profile slot).isIntact then r.damaged rest else slot :: r.damaged rest := by
  cases h : (r.profile slot).isIntact <;> simp [damaged, h]

theorem damaged_congr {r r' : Records} {slots : List (Fin maxProfiles)}
    (h : ∀ slot ∈ slots, r'.profile slot = r.profile slot) :
    r'.damaged slots = r.damaged slots :=
  List.filter_congr fun slot hs => by rw [h slot hs]

end Records

namespace Store

/-- What the loop over some slots leaves behind. Only damaged slots are written,
and the loop gets through exactly when each of their repairs is granted. -/
structure Mending (s : Store) (slots : List (Fin maxProfiles)) (d : Outcome Store Bool) :
    Prop where
  value : d.value = decide
    (s.flash.writes.streak (s.region.damaged slots).length = (s.region.damaged slots).length)
  state : d.state = { s with
    flash := d.state.flash
    records := { s.records with profiles := d.state.records.profiles } }
  reads : d.state.flash.reads.Free
  writes : d.state.flash.writes = s.flash.writes.after (s.region.damaged slots).length
  capacity : d.state.flash.capacity = s.flash.capacity
  kept : ∀ p ∉ (s.region.damaged slots).map .profile, d.state.stored p = s.stored p
  copied : d.value = true → ∀ slot ∈ slots,
    d.state.records.profile slot = s.region.repaired slot
  written : d.value = true → ∀ slot ∈ s.region.damaged slots,
    d.state.stored (.profile slot) = ProfileRecord.codec.pack (.template slot)
  others : ∀ slot ∉ slots, d.state.records.profile slot = s.records.profile slot
  silent : s.region.damaged slots = [] → d.events = [] ∧ d.state.flash.bytes = s.flash.bytes

theorem run_modifyRecords (f : Records → Records) (s : Store) :
    (modifyRecords f).run s = .ok ⟨(), { s with records := f s.records }, []⟩ := rfl

def withCopy (s : Store) (slot : Fin maxProfiles) (p : ProfileRecord) : Store :=
  { s with records := s.records.withProfile slot p }

theorem Mending.of_withReads {s : Store} {g : Gate} {slots : List (Fin maxProfiles)}
    {d : Outcome Store Bool} (hd : Mending (s.withReads g) slots d) : Mending s slots d :=
  ⟨hd.value, hd.state, hd.reads, hd.writes, hd.capacity, hd.kept, hd.copied, hd.written, hd.others,
    hd.silent⟩

theorem Mending.cons_intact {s : Store} {g : Gate} {slot : Fin maxProfiles}
    {rest : List (Fin maxProfiles)} {d : Outcome Store Bool} (hslot : slot ∉ rest)
    (hi : (s.region.profile slot).isIntact = true)
    (hd : Mending ((s.withReads g).withCopy slot (s.region.profile slot)) rest d) :
    Mending s (slot :: rest) d := by
  have hdam : s.region.damaged (slot :: rest) = s.region.damaged rest := by
    rw [Records.damaged_cons, if_pos hi]
  refine ⟨?_, hd.state, hd.reads, ?_, hd.capacity, ?_, ?_, ?_, ?_, ?_⟩
  · rw [hdam]
    exact hd.value
  · rw [hdam]
    exact hd.writes
  · rw [hdam]
    exact hd.kept
  · intro hv other ho
    rcases List.mem_cons.mp ho with rfl | ho
    · rw [hd.others other hslot, Records.repaired_of_intact hi]
      exact Records.profile_withProfile_self _ _ _
    · exact hd.copied hv other ho
  · rw [hdam]
    exact hd.written
  · intro other ho
    obtain ⟨hne, ho⟩ := not_or.mp (mt List.mem_cons.mpr ho)
    rw [hd.others other ho]
    exact Records.profile_withProfile_of_ne _ _ hne
  · rw [hdam]
    exact hd.silent

section Repair

variable {s : Store} {g : Gate} {slot : Fin maxProfiles} {rest : List (Fin maxProfiles)}
  {d : Outcome Store Bool}

theorem damaged_cons_of_damaged (rest : List (Fin maxProfiles))
    (hi : (s.region.profile slot).isIntact = false) :
    s.region.damaged (slot :: rest) = slot :: s.region.damaged rest := by
  rw [Records.damaged_cons, hi]
  rfl

theorem Mending.cons_refused (hg : g.Free)
    (hi : (s.region.profile slot).isIntact = false)
    (hc : Committed ((s.withReads g).withCopy slot (.template slot)) [.profile slot] d)
    (hv : d.value = false) : Mending s (slot :: rest) ⟨false, d.state, d.events⟩ := by
  have hdam := damaged_cons_of_damaged rest hi
  have hask : s.flash.writes.ask.1 = false := hc.value_singleton.symm.trans hv
  refine ⟨?_, ?_, ?_, ?_, hc.capacity, ?_, ?_, ?_, ?_, ?_⟩
  · rw [hdam, List.length_cons, Gate.streak_succ_of_refused _ hask]
    exact (decide_eq_false (by omega)).symm
  · rw [hc.state]
    rfl
  · rw [hc.reads]
    exact hg
  · rw [hdam, List.length_cons, Gate.after_succ_of_refused _ hask]
    exact hc.writes_singleton
  · intro p _
    exact hc.kept_of_refused hv p
  · simp
  · simp
  · intro other ho
    obtain ⟨hne, -⟩ := not_or.mp (mt List.mem_cons.mpr ho)
    rw [hc.state]
    exact Records.profile_withProfile_of_ne _ _ hne
  · rw [hdam]
    simp

theorem region_of_others {t : Store} (hslot : slot ∉ rest)
    (h : ∀ p, p ≠ .profile slot → t.stored p = s.stored p) :
    ∀ other ∈ rest, t.region.profile other = s.region.profile other := by
  intro other ho
  have hne : Part.profile other ≠ .profile slot := by
    rintro ⟨⟩
    exact hslot ho
  rw [profile_region, profile_region, h _ hne]

theorem Mending.cons_repaired {e : Outcome Store Bool} (hslot : slot ∉ rest)
    (hi : (s.region.profile slot).isIntact = false)
    (hc : Committed ((s.withReads g).withCopy slot (.template slot)) [.profile slot] d)
    (hv : d.value = true) (hd : Mending d.state rest e) :
    Mending s (slot :: rest) ⟨e.value, e.state, d.events ++ e.events⟩ := by
  have hdam := damaged_cons_of_damaged rest hi
  have hask : s.flash.writes.ask.1 = true := hc.value_singleton.symm.trans hv
  have hkept : ∀ p, p ≠ .profile slot → d.state.stored p = s.stored p := fun p hp =>
    hc.kept_of_ne hp
  have hregion := region_of_others hslot hkept
  have hsame : d.state.region.damaged rest = s.region.damaged rest :=
    Records.damaged_congr hregion
  have hgate : d.state.flash.writes = s.flash.writes.ask.2 := hc.writes_singleton
  refine ⟨?_, ?_, hd.reads, ?_, hd.capacity.trans hc.capacity, ?_, ?_, ?_, ?_, ?_⟩
  · have hv' := hd.value
    rw [hsame] at hv'
    rw [hdam, List.length_cons, Gate.streak_succ_of_granted _ hask, ← hgate, hv']
    simp
  · have hs := hd.state
    rw [hc.state] at hs
    exact hs
  · have hw := hd.writes
    rw [hsame, hgate] at hw
    rw [hdam, List.length_cons, Gate.after_succ_of_granted _ hask, hw]
  · intro p hp
    rw [hdam, List.map_cons, List.mem_cons, not_or] at hp
    rw [hd.kept p (by rw [hsame]; exact hp.2), hkept p hp.1]
  · intro hv' other ho
    rcases List.mem_cons.mp ho with rfl | ho
    · rw [hd.others other hslot, hc.state, Records.repaired_of_damaged hi]
      exact Records.profile_withProfile_self _ _ _
    · rw [hd.copied hv' other ho, Records.repaired, Records.repaired, hregion other ho]
  · intro hv' other ho
    rw [hdam] at ho
    rcases List.mem_cons.mp ho with rfl | ho
    · have hnd : Part.profile other ∉ (d.state.region.damaged rest).map .profile := by
        simp [Records.mem_damaged, hslot]
      rw [hd.kept _ hnd, hc.written_singleton hv]
      exact congrArg ProfileRecord.codec.pack (Records.profile_withProfile_self _ _ _)
    · exact hd.written hv' other (by rwa [hsame])
  · intro other ho
    obtain ⟨hne, ho⟩ := not_or.mp (mt List.mem_cons.mpr ho)
    rw [hd.others other ho, hc.state]
    exact Records.profile_withProfile_of_ne _ _ hne
  · rw [hdam]
    simp

end Repair

theorem run_loadProfiles {s : Store} (h : s.Placed) (hr : s.flash.reads.Free)
    {slots : List (Fin maxProfiles)} (hnd : slots.Nodup) :
    ∃ d, (loadProfiles slots).run s = .ok d ∧ Mending s slots d := by
  -- a repair leaves the slots behind it as they were, so `Mending` can speak of the region
  -- at the start of the loop throughout
  induction slots generalizing s with
  | nil =>
    exact ⟨⟨true, s, []⟩, rfl, rfl, rfl, hr, rfl, rfl, fun _ _ => rfl,
      fun _ _ hs => absurd hs List.not_mem_nil, fun _ _ hs => absurd hs List.not_mem_nil,
      fun _ _ => rfl, fun _ => ⟨rfl, rfl⟩⟩
  | cons slot rest ih =>
    obtain ⟨hslot, hrest⟩ := List.nodup_cons.mp hnd
    have hf := run_fetch h hr (.profile slot) ProfileRecord.codec rfl
    rw [← profile_region] at hf
    rw [loadProfiles, Routine.run_bind_of_silent hf]
    dsimp only
    cases hi : (s.region.profile slot).isIntact with
    | true =>
      let t := (s.withReads s.flash.reads.ask.2).withCopy slot (s.region.profile slot)
      obtain ⟨d, hd, hm⟩ := ih (h.congr (t := t) rfl rfl) hr.ask hrest
      refine ⟨d, ?_, hm.cons_intact hslot hi⟩
      rw [if_pos rfl]
      exact (Routine.run_bind_of_silent (run_modifyRecords _ _) _).trans hd
    | false =>
      let t := (s.withReads s.flash.reads.ask.2).withCopy slot (.template slot)
      obtain ⟨d, hd, hc⟩ := run_commit (h.congr (t := t) rfl rfl) [.profile slot]
      rw [if_neg Bool.false_ne_true, Routine.run_bind_of_silent (run_modifyRecords _ _)]
      change ∃ e, (commit [.profile slot] >>= _).run t = .ok e ∧ _
      rw [Routine.run_bind_of_ok hd]
      cases hv : d.value with
      | false =>
        exact ⟨⟨false, d.state, d.events⟩, by simp [Except.map],
          .cons_refused hr.ask hi hc hv⟩
      | true =>
        have hreads : d.state.flash.reads.Free := by
          rw [hc.reads]
          exact hr.ask
        obtain ⟨e, he, hm⟩ := ih (hc.placed (h.congr rfl rfl)) hreads hrest
        exact ⟨⟨e.value, e.state, d.events ++ e.events⟩, by simp [he, Except.map],
          .cons_repaired hslot hi hc hv hm⟩

theorem load_eq : load =
    fetch .manager ManagerRecord.codec >>= fun
      | .error _ => pure false
      | .ok manager =>
        if manager.isValid then
          fetch .quick QuickWord.codec >>= fun
            | .error _ => pure false
            | .ok quick =>
              modifyRecords ({ · with quick, manager }) >>= fun _ =>
                loadProfiles (List.finRange maxProfiles)
        else pure false := by
  refine congrArg _ (funext fun found => ?_)
  cases found with
  | error e => rfl
  | ok manager =>
    dsimp only
    cases manager.isValid <;> rfl

/-- A region with a valid manager record is taken over, any other is left alone. -/
theorem run_load {s : Store} (h : s.Placed) (hr : s.flash.reads.Free) :
    ∃ d, load.run s = .ok d ∧
      if s.region.manager.isValid then
        Mending { s with records :=
          { s.records with quick := s.region.quick, manager := s.region.manager } }
          (List.finRange maxProfiles) d
      else ∃ g : Gate, g.Free ∧ d = ⟨false, s.withReads g, []⟩ := by
  have hm := run_fetch h hr .manager ManagerRecord.codec rfl
  have hread : ManagerRecord.codec.read (s.stored .manager) = s.region.manager := rfl
  let t := s.withReads s.flash.reads.ask.2
  rw [load_eq, Routine.run_bind_of_silent hm]
  dsimp only
  rw [hread]
  cases hv : s.region.manager.isValid with
  | false => exact ⟨⟨false, t, []⟩, rfl, _, hr.ask, rfl⟩
  | true =>
    have hq := run_fetch (h.congr (t := t) rfl rfl) hr.ask .quick QuickWord.codec rfl
    let u : Store := { t.withReads t.flash.reads.ask.2 with records :=
      { s.records with quick := s.region.quick, manager := s.region.manager } }
    obtain ⟨d, hd, hmend⟩ := run_loadProfiles (h.congr (t := u) rfl rfl) hr.ask.ask
      (List.nodup_finRange maxProfiles)
    refine ⟨d, ?_, hmend.of_withReads⟩
    rw [if_pos rfl, Routine.run_bind_of_silent hq]
    exact (Routine.run_bind_of_silent (run_modifyRecords _ _) _).trans hd

/-- The part of boot after which the copies and flash are as they will be used. -/
def takeOver (now : UInt32) : Routine Store Unit := do
  if !(← load) then restoreDefaults now

/-- The part of boot that puts the copies in force. -/
def putInForce (live : DeviceSettings) (now : UInt32) : Routine Store DeviceSettings := do
  modifyRecords fun r => { r with quick := { r.quick with active := r.manager.active } }
  let s ← get
  let live ←
    if s.records.manager.autoLoad then
      s.bootSettings live
    else do
      let live := { (s.records.profile 0).apply live with profile := 0 }
      modifyRecords fun r =>
        { r.modifyManager ({ · with active := 0 }) with quick := r.quick.capture live }
      pure live
  modify ({ · with dirty := false, lastChange := now })
  return live

theorem init_eq (live : DeviceSettings) (now : UInt32) :
    init live now = takeOver now >>= fun _ => putInForce live now := by
  rw [init, takeOver, bind_assoc]
  refine congrArg _ (funext fun b => ?_)
  cases b with
  | false => rfl
  | true => simp only [Bool.not_true, Bool.false_eq_true, if_false, pure_bind]; rfl

end Store

end TwinStick
