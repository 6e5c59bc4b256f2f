import TwinStick.Proofs.Recovery

/-! What survives a boot. With all accesses granted it mends or replaces the region
and settles it for good. When a repair is refused it replaces undamaged records
too, so that only a region that holds nothing of its own survives that. -/

namespace TwinStick

theorem Part.mem_all (p : Part) : p ∈ Part.all := by
  cases p with
  | quick => simp [all]
  | manager => simp [all]
  | profile slot => simp [all, profiles]

theorem Part.profile_mem_map {slots : List (Fin maxProfiles)} {slot : Fin maxProfiles} :
    Part.profile slot ∈ slots.map Part.profile ↔ slot ∈ slots := by
  simp

namespace Store

theorem quick_not_damaged (s : Store) :
    Part.quick ∉ (s.region.damaged (List.finRange maxProfiles)).map .profile := by
  simp

theorem manager_not_damaged (s : Store) :
    Part.manager ∉ (s.region.damaged (List.finRange maxProfiles)).map .profile := by
  simp

theorem intact_not_damaged {s : Store} {slot : Fin maxProfiles}
    (h : (s.region.profile slot).isIntact = true) :
    Part.profile slot ∉ (s.region.damaged (List.finRange maxProfiles)).map .profile := by
  intro hm
  have hd := (Records.mem_damaged.mp (Part.profile_mem_map.mp hm)).2
  rw [h] at hd
  exact Bool.noConfusion hd

theorem sound_mended {s : Store} (hv : s.region.manager.isValid = true) :
    s.region.mended.Sound where
  manager := hv
  intact slot := by
    rw [Records.profile_mended]
    exact Records.isIntact_repaired _ _
  fits_quick := Codec.fits_read QuickWord.codec_lawful _
  fits_manager := Codec.fits_read ManagerRecord.codec_lawful _
  fits_profile slot := by
    rw [Records.profile_mended, Records.repaired]
    split
    · rw [profile_region]
      exact Codec.fits_read ProfileRecord.codec_lawful _
    · exact ProfileRecord.fits_template slot

theorem Loaded.stored_eq {s : Store} {d : Outcome Store Unit} (h : s.Placed) (hd : Loaded s d)
    (p : Part) : d.state.stored p = s.region.mended.image p := by
  cases p with
  | quick =>
    rw [hd.kept _ s.quick_not_damaged, Records.image, Records.quick_mended]
    exact (image_region h .quick).symm
  | manager =>
    rw [hd.kept _ s.manager_not_damaged, Records.image, Records.manager_mended]
    exact (image_region h .manager).symm
  | profile slot =>
    rw [Records.image, Records.profile_mended]
    cases hi : (s.region.profile slot).isIntact with
    | true =>
      rw [Records.repaired_of_intact hi, hd.kept _ (intact_not_damaged hi)]
      exact (image_region h (.profile slot)).symm
    | false =>
      rw [Records.repaired_of_damaged hi]
      exact hd.written slot hi

/-- Sound records in flash are taken over without a write, whatever the gate for
writing would have said. -/
theorem run_takeOver_of_sound {s : Store} {r : Records} (h : s.Placed) (hr : s.flash.reads.Free)
    (hsound : r.Sound) (hs : ∀ p, s.stored p = r.image p) (now : UInt32) :
    ∃ d, (takeOver now).run s = .ok d ∧ d.state.records = r ∧ d.events = [] ∧
      d.state.flash.bytes = s.flash.bytes := by
  have hregion := region_eq_of_stored hsound hs
  have hn : s.repairs = 0 := by
    rw [repairs, hregion, hsound.damaged_eq_nil]
    rfl
  have hl : s.Loadable := by
    refine ⟨?_, ?_⟩
    · rw [hregion]
      exact hsound.manager
    · rw [hn]
      rfl
  obtain ⟨d, hd, hloaded⟩ := run_takeOver_of_loadable h hr hl now
  refine ⟨d, hd, ?_, hloaded.silent hn⟩
  rw [hloaded.state, hregion]
  exact hsound.mended

theorem run_verify_profiles {s : Store} (h : s.Placed) (hr : s.flash.reads.Free)
    (slots : List (Fin maxProfiles)) :
    ∃ g : Gate, (verify.profiles slots).run s =
      .ok ⟨slots.all fun slot => (s.region.profile slot).isIntact, s.withReads g, []⟩ := by
  induction slots generalizing s with
  | nil => exact ⟨s.flash.reads, rfl⟩
  | cons slot rest ih =>
    have hf := run_fetch h hr (.profile slot) ProfileRecord.codec rfl
    rw [← profile_region] at hf
    rw [verify.profiles, Routine.run_bind_of_silent hf]
    dsimp only
    cases hi : (s.region.profile slot).isIntact with
    | false =>
      refine ⟨s.flash.reads.ask.2, ?_⟩
      rw [List.all_cons, hi, Bool.false_and]
      rfl
    | true =>
      obtain ⟨g, hg⟩ := ih (h.congr (t := s.withReads s.flash.reads.ask.2) rfl rfl) hr.ask
      rw [region_withReads] at hg
      refine ⟨g, ?_⟩
      rw [if_pos rfl, List.all_cons, hi, Bool.true_and]
      exact hg

theorem run_verify {s : Store} (h : s.Placed) (hr : s.flash.reads.Free) :
    ∃ g : Gate, verify.run s = .ok ⟨s.region.manager.isIntact &&
      (List.finRange maxProfiles).all fun slot => (s.region.profile slot).isIntact,
      s.withReads g, []⟩ := by
  have hm := run_fetch h hr .manager ManagerRecord.codec rfl
  have hread : ManagerRecord.codec.read (s.stored .manager) = s.region.manager := rfl
  rw [verify, Routine.run_bind_of_silent hm]
  dsimp only
  rw [hread]
  cases s.region.manager.isIntact with
  | false => exact ⟨s.flash.reads.ask.2, rfl⟩
  | true =>
    obtain ⟨g, hg⟩ := run_verify_profiles (h.congr (t := s.withReads s.flash.reads.ask.2) rfl rfl)
      hr.ask (List.finRange maxProfiles)
    rw [region_withReads] at hg
    refine ⟨g, ?_⟩
    rw [if_pos rfl, Bool.true_and]
    exact hg

/-- Flash holds these sound records and can be read. -/
structure Holds (s : Store) (r : Records) : Prop where
  placed : s.Placed
  reads : s.flash.reads.Free
  sound : r.Sound
  stored (p : Part) : s.stored p = r.image p

/-- What boot makes of the region when nothing is refused. -/
def recovered (s : Store) (now : UInt32) : Records :=
  if s.region.manager.isValid then s.region.mended else .builtIn now

theorem writesAfterLoad_free {s : Store} (hw : s.flash.writes.Free) : s.writesAfterLoad.Free := by
  unfold writesAfterLoad
  split
  · exact hw.after _
  · exact hw

theorem run_takeOver_of_free {s : Store} (h : s.Placed) (hr : s.flash.reads.Free)
    (hw : s.flash.writes.Free) (now : UInt32) :
    ∃ d, (takeOver now).run s = .ok d ∧ d.state.Holds (s.recovered now) ∧
      d.state = { s with flash := d.state.flash, records := s.recovered now } ∧
      d.state.flash.writes.Free := by
  by_cases hv : s.region.manager.isValid = true
  · obtain ⟨d, hd, hl⟩ := run_takeOver_of_loadable h hr ⟨hv, hw.streak _⟩ now
    rw [recovered, if_pos hv]
    have hplaced : d.state.Placed := h.congr (by rw [hl.state]) hl.capacity
    refine ⟨d, hd, ⟨hplaced, hl.reads, sound_mended hv, hl.stored_eq h⟩, hl.state, ?_⟩
    rw [hl.writes]
    exact writesAfterLoad_free hw
  · obtain ⟨d, hd, hn⟩ := run_takeOver_of_not_loadable h hr (fun hl => hv hl.1) now
    have hfree := writesAfterLoad_free hw
    rw [recovered, if_neg hv]
    have hplaced : d.state.Placed := h.congr (by rw [hn.state]) hn.capacity
    refine ⟨d, hd, ⟨hplaced, hn.reads, Records.sound_builtIn now, ?_⟩, hn.state, ?_⟩
    · intro p
      refine hn.written p ?_
      rw [hfree.streak, List.take_length]
      exact p.mem_all
    · rw [hn.writes]
      exact hfree.after _

/-- Booting with sound records in flash writes nothing. -/
theorem Holds.run_init {s : Store} {r : Records} (h : s.Holds r) (live : DeviceSettings)
    (now : UInt32) :
    ∃ d, (init live now).run s = .ok d ∧ d.events = [] ∧ d.state.flash.bytes = s.flash.bytes ∧
      d.value = r.bootLive ⟨r.manager.active.toNat, h.sound.active_lt⟩ live ∧
      d.state.records = r.booted live := by
  obtain ⟨d, hd, hrec, he, hb⟩ := run_takeOver_of_sound h.placed h.reads h.sound h.stored now
  have hslot : d.state.records.activeSlot = .ok ⟨r.manager.active.toNat, h.sound.active_lt⟩ := by
    rw [hrec]
    exact Records.activeSlot_of_lt h.sound.active_lt
  refine ⟨_, Store.run_init hd hslot live, he, hb, ?_, ?_⟩
  · rw [hrec]
  · rw [hrec]

theorem stored_congr {s t : Store} (hb : t.flash.bytes = s.flash.bytes) (ha : t.base = s.base)
    (p : Part) : t.stored p = s.stored p := by
  rw [stored, stored, Flash.slice, Flash.slice, hb, ha]

theorem region_congr {s t : Store} (hb : t.flash.bytes = s.flash.bytes) (ha : t.base = s.base) :
    t.region = s.region := by
  simp only [region, stored_congr hb ha]

theorem Holds.congr {s t : Store} {r : Records} (h : s.Holds r)
    (hb : t.flash.bytes = s.flash.bytes) (ha : t.base = s.base) (hr : t.flash.reads.Free) :
    t.Holds r where
  placed := h.placed.congr ha (by rw [Flash.capacity, Flash.capacity, hb])
  reads := hr
  sound := h.sound
  stored p := (stored_congr hb ha p).trans (h.stored p)

theorem Holds.run_verify {s : Store} {r : Records} (h : s.Holds r) :
    ∃ g : Gate, verify.run s = .ok ⟨true, s.withReads g, []⟩ := by
  obtain ⟨g, hg⟩ := Store.run_verify h.placed h.reads
  rw [region_eq_of_stored h.sound h.stored, ((ManagerRecord.isValid_iff _).mp h.sound.manager).2.2,
    Bool.true_and, List.all_eq_true.mpr fun slot _ => h.sound.intact slot] at hg
  exact ⟨g, hg⟩

/-- A region that boot has dealt with, seen from before: a valid one is mended slot
by slot, any other is replaced as a whole. -/
structure Recovered (s : Store) (now : UInt32) (t : Store) : Prop where
  slots : s.region.manager.isValid = true → ∀ slot,
    t.records.profile slot = s.region.repaired slot ∧
      t.stored (.profile slot) = ProfileRecord.codec.pack (s.region.repaired slot)
  kept : s.region.manager.isValid = true →
    t.stored .quick = s.stored .quick ∧ t.stored .manager = s.stored .manager ∧
      ∀ slot, (s.region.profile slot).isIntact = true →
        t.stored (.profile slot) = s.stored (.profile slot)
  replaced : s.region.manager.isValid = false →
    t.records = .builtIn now ∧ ∀ p, t.stored p = (Records.builtIn now).image p

theorem Recovered.of_stored {s t : Store} {now : UInt32} (h : s.Placed) (live : DeviceSettings)
    (hs : ∀ p, t.stored p = (s.recovered now).image p)
    (hr : t.records = (s.recovered now).booted live) : s.Recovered now t := by
  refine ⟨?_, ?_, ?_⟩
  · intro hv slot
    have hrec : s.recovered now = s.region.mended := if_pos hv
    refine ⟨?_, ?_⟩
    · rw [hr, Records.profile_booted, hrec, Records.profile_mended]
    · rw [hs, hrec, Records.image, Records.profile_mended]
  · intro hv
    have hrec : s.recovered now = s.region.mended := if_pos hv
    refine ⟨?_, ?_, ?_⟩
    · rw [hs, hrec, Records.image, Records.quick_mended]
      exact image_region h .quick
    · rw [hs, hrec, Records.image, Records.manager_mended]
      exact image_region h .manager
    · intro slot hi
      rw [hs, hrec, Records.image, Records.profile_mended, Records.repaired_of_intact hi]
      exact image_region h (.profile slot)
  · intro hv
    have hrec : s.recovered now = .builtIn now := if_neg (by rw [hv]; exact Bool.false_ne_true)
    rw [hrec] at hs hr
    exact ⟨hr.trans (Records.booted_builtIn now live), hs⟩

structure Booted (s : Store) (live : DeviceSettings) (now : UInt32)
    (d : Outcome Store DeviceSettings) : Prop where
  holds : d.state.Holds (s.recovered now)
  writes : d.state.flash.writes.Free
  base : d.state.base = s.base
  records : d.state.records = (s.recovered now).booted live
  dirty : d.state.dirty = false
  value : ∀ slot, (s.recovered now).activeSlot = .ok slot →
    d.value = (s.recovered now).bootLive slot live

theorem run_init_of_free {s : Store} (h : s.Placed) (hr : s.flash.reads.Free)
    (hw : s.flash.writes.Free) (live : DeviceSettings) (now : UInt32) :
    ∃ d, (init live now).run s = .ok d ∧ Booted s live now d := by
  obtain ⟨d, hd, hholds, hs, hwrites⟩ := run_takeOver_of_free h hr hw now
  have hrec : d.state.records = s.recovered now := by rw [hs]
  have hbase : d.state.base = s.base := by rw [hs]
  have hslot : d.state.records.activeSlot = .ok ⟨_, hholds.sound.active_lt⟩ := by
    rw [hrec]
    exact Records.activeSlot_of_lt hholds.sound.active_lt
  refine ⟨_, Store.run_init hd hslot live, hholds.congr rfl rfl hholds.reads, hwrites, hbase, ?_,
    rfl, ?_⟩
  · rw [hrec]
  · intro slot hslot'
    rw [← hrec, hslot] at hslot'
    rw [Except.ok.inj hslot', hrec]

theorem recovered_of_invalid {s : Store} (hv : s.region.manager.isValid = false) (now : UInt32) :
    s.recovered now = .builtIn now := if_neg (by rw [hv]; exact Bool.false_ne_true)

/-- Formatting a region leaves the built-in contents everywhere and in force. -/
theorem Booted.formatted {s : Store} {live : DeviceSettings} {now : UInt32}
    {d : Outcome Store DeviceSettings} (hb : Booted s live now d)
    (hv : s.region.manager.isValid = false) :
    d.state.Holds (.builtIn now) ∧ d.state.records = .builtIn now ∧
      d.value = (Records.builtIn now).bootLive 0 live := by
  have hrec := recovered_of_invalid hv now
  have hholds := hb.holds
  have hrecords := hb.records
  have hvalue := hb.value 0 (by rw [hrec]; rfl)
  rw [hrec] at hholds hrecords hvalue
  exact ⟨hholds, hrecords.trans (Records.booted_builtIn now live), hvalue⟩

/-- With nothing refused boot recovers every region, whatever is in it, and leaves
flash such that booting again changes nothing any more. -/
theorem init_recovers {s : Store} (h : s.Placed) (hr : s.flash.reads.Free)
    (hw : s.flash.writes.Free) (live : DeviceSettings) (now : UInt32) :
    ∃ d, (init live now).run s = .ok d ∧ s.Recovered now d.state ∧
      (∃ e, verify.run d.state = .ok e ∧ e.value = true) ∧
      d.state.active.toNat < maxProfiles ∧
      ∀ flash : Flash, flash.bytes = d.state.flash.bytes → flash.reads.Free → ∀ later,
        ∃ e, (init live later).run (ofFlash flash s.base) = .ok e ∧
          e.events = [] ∧ e.state.flash.bytes = flash.bytes ∧
          e.value = d.value ∧ e.state.records = d.state.records := by
  obtain ⟨d, hd, hb⟩ := run_init_of_free h hr hw live now
  have hlt := hb.holds.sound.active_lt
  refine ⟨d, hd, .of_stored h live hb.holds.stored hb.records, ?_, ?_, ?_⟩
  · obtain ⟨g, hg⟩ := hb.holds.run_verify
    exact ⟨_, hg, rfl⟩
  · rw [active, hb.records]
    exact Records.active_booted_lt hlt live
  · intro flash hbytes hfree later
    obtain ⟨e, he, hev, hsame, hvalue, hrecords⟩ :=
      (hb.holds.congr (t := ofFlash flash s.base) hbytes hb.base.symm hfree).run_init live later
    refine ⟨e, he, hev, hsame, ?_, hrecords.trans hb.records.symm⟩
    rw [hvalue, hb.value _ (Records.activeSlot_of_lt hlt)]

set_option maxRecDepth 100000 in
/-- Erased memory is no region yet. -/
theorem init_recovers_erased :
    ∃ d, (init {} 7).run (ofFlash (.erased regionLength) 0) = .ok d ∧
      d.state.records = .builtIn 7 := by
  have hroom : (0 : UInt32).toNat + regionLength ≤ (Flash.erased regionLength).capacity := by
    decide +kernel
  have hv : (ofFlash (.erased regionLength) 0).region.manager.isValid = false := by
    decide +kernel
  obtain ⟨d, hd, hrec, -⟩ := init_recovers (s := ofFlash (.erased regionLength) 0)
    (.of_room (by decide) hroom) ⟨rfl, fun _ _ => rfl⟩ ⟨rfl, fun _ _ => rfl⟩ {} 7
  exact ⟨d, hd, (hrec.replaced hv).1⟩

/-- Boot replaced damaged profiles and spared everything else. -/
structure Spared (s t : Store) : Prop where
  cached (slot : Fin maxProfiles) : t.records.profile slot = s.region.repaired slot
  kept (slot : Fin maxProfiles) : (s.region.profile slot).isIntact = true →
    t.stored (.profile slot) = s.stored (.profile slot)
  manager : t.stored .manager = s.stored .manager
  autoSave : t.records.manager.autoSave = s.region.manager.autoSave
  switching : t.records.manager.switching = s.region.manager.switching

/-- The region holds nothing that the built-in contents do not hold as well, at
least where they will be written over it. -/
structure Disposable (s : Store) (now : UInt32) : Prop where
  template (slot : Fin maxProfiles) : (s.region.profile slot).isIntact = true →
    s.region.profile slot = .template slot
  autoSave : s.region.manager.autoSave = true
  switching : s.region.manager.switching = true
  manager : .manager ∈ Part.all.take (s.writesAfterLoad.streak Part.all.length) →
    s.stored .manager = (Records.builtIn now).image .manager

theorem Loaded.spared {s : Store} {d : Outcome Store Unit} {t : Store} (hl : Loaded s d)
    (hs : ∀ p, t.stored p = d.state.stored p) {live : DeviceSettings}
    (hr : t.records = d.state.records.booted live) : Spared s t := by
  have hrec : d.state.records = s.region.mended := by rw [hl.state]
  refine ⟨?_, ?_, ?_, ?_, ?_⟩
  · intro slot
    rw [hr, Records.profile_booted, hrec, Records.profile_mended]
  · intro slot hi
    exact (hs _).trans (hl.kept _ (intact_not_damaged hi))
  · exact (hs _).trans (hl.kept _ s.manager_not_damaged)
  · rw [hr, Records.autoSave_booted, hrec, Records.manager_mended]
  · rw [hr, Records.switching_booted, hrec, Records.manager_mended]

section

variable {s t : Store} {now : UInt32} {d : Outcome Store Unit} {live : DeviceSettings}

theorem Replaced.disposable (hd : Replaced s now d) (hs : ∀ p, t.stored p = d.state.stored p)
    (hr : t.records = .builtIn now) (ht : Spared s t) : s.Disposable now := by
  refine ⟨?_, ?_, ?_, ?_⟩
  · intro slot hi
    rw [← Records.repaired_of_intact hi, ← ht.cached slot, hr, Records.profile_builtIn]
  · rw [← ht.autoSave, hr]
    rfl
  · rw [← ht.switching, hr]
    rfl
  · intro hm
    rw [← ht.manager, hs, hd.written _ hm]

theorem Replaced.spared (h : s.Placed) (hd : Replaced s now d)
    (hs : ∀ p, t.stored p = d.state.stored p) (hr : t.records = .builtIn now)
    (ht : s.Disposable now) : Spared s t := by
  refine ⟨?_, ?_, ?_, ?_, ?_⟩
  · intro slot
    rw [hr, Records.profile_builtIn]
    cases hi : (s.region.profile slot).isIntact with
    | true => rw [Records.repaired_of_intact hi, ht.template slot hi]
    | false => rw [Records.repaired_of_damaged hi]
  · intro slot hi
    rw [hs]
    by_cases hm : Part.profile slot ∈ Part.all.take (s.writesAfterLoad.streak Part.all.length)
    · rw [hd.written _ hm, ← image_region h, Records.image, Records.image,
        Records.profile_builtIn, ht.template slot hi]
    · exact hd.kept _ (intact_not_damaged hi) hm
  · rw [hs]
    by_cases hm : Part.manager ∈ Part.all.take (s.writesAfterLoad.streak Part.all.length)
    · rw [hd.written _ hm, ht.manager hm]
    · exact hd.kept _ s.manager_not_damaged hm
  · rw [hr, ht.autoSave]
    rfl
  · rw [hr, ht.switching]
    rfl

theorem Replaced.spared_iff (h : s.Placed) (hd : Replaced s now d)
    (hs : ∀ p, t.stored p = d.state.stored p) (hr : t.records = d.state.records.booted live) :
    Spared s t ↔ s.Disposable now := by
  have hrec : t.records = .builtIn now := by
    rw [hr, hd.state]
    exact Records.booted_builtIn now live
  exact ⟨hd.disposable hs hrec, hd.spared h hs hrec⟩

end

/-- Repairing damaged profiles spares the rest of a valid region exactly if every
repair is granted, or if the region held nothing of its own anyway. -/
theorem init_spares_iff {s : Store} (h : s.Placed) (hr : s.flash.reads.Free)
    (hv : s.region.manager.isValid = true) (live : DeviceSettings) (now : UInt32) :
    ∃ d, (init live now).run s = .ok d ∧
      (Spared s d.state ↔
        s.flash.writes.streak s.repairs = s.repairs ∨ s.Disposable now) := by
  by_cases hk : s.flash.writes.streak s.repairs = s.repairs
  · obtain ⟨d, hd, hl⟩ := run_takeOver_of_loadable h hr ⟨hv, hk⟩ now
    have hslot : d.state.records.activeSlot = .ok ⟨_, (sound_mended hv).active_lt⟩ := by
      rw [hl.state]
      exact Records.activeSlot_of_lt (sound_mended hv).active_lt
    have hs := hl.spared (t := { d.state with
      records := d.state.records.booted live, dirty := false, lastChange := now })
      (fun _ => rfl) rfl
    exact ⟨_, Store.run_init hd hslot live, fun _ => .inl hk, fun _ => hs⟩
  · obtain ⟨d, hd, hn⟩ := run_takeOver_of_not_loadable h hr (fun hl => hk hl.2) now
    have hslot : d.state.records.activeSlot =
        .ok ⟨_, (Records.sound_builtIn now).active_lt⟩ := by
      rw [hn.state]
      exact Records.activeSlot_of_lt (Records.sound_builtIn now).active_lt
    have hs := hn.spared_iff h (t := { d.state with
      records := d.state.records.booted live, dirty := false, lastChange := now })
      (fun _ => rfl) rfl
    exact ⟨_, Store.run_init hd hslot live, fun ht => .inr (hs.mp ht),
      fun ht => hs.mpr (ht.resolve_left hk)⟩

/-- A renamed profile next to a damaged one. -/
def renamedBesideDamaged (writes : Gate) : Store :=
  let renamed := (ProfileRecord.template 0).withName "Mine"
  let r := Records.default.withProfile 0 renamed.sealed
  let damaged := r.withProfile 1 { ProfileRecord.template 1 with checksum := 0 }
  ofFlash { bytes := damaged.bytes, writes } 0

theorem placed_renamedBesideDamaged (writes : Gate) : (renamedBesideDamaged writes).Placed := by
  have hroom : (0 : UInt32).toNat + regionLength ≤
      (renamedBesideDamaged {}).flash.bytes.length := by
    decide +kernel
  have hend : (0 : UInt32).toNat + regionLength ≤ UInt32.size := by decide
  exact .of_room hend hroom

set_option maxRecDepth 100000 in
theorem init_spares_renamed :
    ∃ d, (init {} 0).run (renamedBesideDamaged {}) = .ok d ∧
      Spared (renamedBesideDamaged {}) d.state := by
  have hfree : Gate.Free {} := ⟨rfl, fun _ _ => rfl⟩
  obtain ⟨d, hd, hs⟩ := init_spares_iff (placed_renamedBesideDamaged {}) hfree
    (by decide +kernel) {} 0
  exact ⟨d, hd, hs.mpr (.inl (hfree.streak _))⟩

set_option maxRecDepth 100000 in
/-- The renamed profile falls back to its template because another one could not be
repaired. -/
theorem init_loses_renamed :
    ∃ s : Store, s = renamedBesideDamaged { isOpen := false } ∧ s.Placed ∧ s.flash.reads.Free ∧
      s.region.manager.isValid = true ∧
      ∃ d, (init {} 0).run s = .ok d ∧ (s.region.profile 0).isIntact = true ∧
        d.state.records.profile 0 ≠ s.region.profile 0 ∧ ¬ Spared s d.state := by
  have hrun : ∃ d, (init {} 0).run (renamedBesideDamaged { isOpen := false }) = .ok d ∧
      d.state.records.profile 0 = .template 0 := by
    have hr : ((init {} 0).run (renamedBesideDamaged { isOpen := false })).toOption.map
        (fun d => d.state.records.profile 0) = some (.template 0) := by
      decide +kernel
    cases hd : (init {} 0).run (renamedBesideDamaged { isOpen := false }) with
    | error e => simp [hd, Except.toOption] at hr
    | ok d => exact ⟨d, rfl, by simpa [hd, Except.toOption] using hr⟩
  have hi : ((renamedBesideDamaged { isOpen := false }).region.profile 0).isIntact = true := by
    decide +kernel
  have hne : .template 0 ≠ (renamedBesideDamaged { isOpen := false }).region.profile 0 := by
    decide +kernel
  obtain ⟨d, hd, hrec⟩ := hrun
  refine ⟨_, rfl, placed_renamedBesideDamaged _, ⟨rfl, fun _ _ => rfl⟩, by decide +kernel, d, hd,
    hi, ?_, ?_⟩
  · rw [hrec]
    exact hne
  · intro hs
    have hc := hs.cached 0
    rw [hrec, Records.repaired_of_intact hi] at hc
    exact hne hc

end Store

end TwinStick
