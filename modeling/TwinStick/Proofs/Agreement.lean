import TwinStick.Proofs.WriteThrough

/-! Two records of the active profile. It is kept twice in flash, in the quick word and
in the manager record, and boot takes the settings of one profile from both. Operations
that write only one of the two keep them in agreement exactly as long as flash names the
profile that is active; booting with loading turned off is what makes flash name
another. -/

namespace TwinStick

/-- The calls that write one of the records that name the active profile, but not the
other. -/
def StoreCall.OneSided : StoreCall → Prop
  | resetCurrent | setAutoSave _ | setAutoLoad _ | setSwitching _ => True
  | _ => False

theorem StoreCall.oneSided_iff (active : Fin maxProfiles) (call : StoreCall) :
    call.OneSided ↔ ¬ (.quick ∈ call.parts active ↔ .manager ∈ call.parts active) := by
  cases call <;> simp [OneSided, parts, Part.all]

theorem StoreCall.attempts_of_oneSided {s : Store} {active : Fin maxProfiles}
    {live : DeviceSettings} {call : StoreCall} (h : call.OneSided) :
    call.attempt s active live ≠ none := by
  cases call with
  | resetCurrent | setAutoSave on | setAutoLoad on | setSwitching on => exact nofun
  | _ => exact h.elim

theorem and_three_of_lt {n : UInt8} (h : n.toNat < maxProfiles) : n &&& 3 = n := by
  apply UInt8.toNat_inj.mp
  have hm := Nat.and_two_pow_sub_one_eq_mod n.toNat 2
  rw [UInt8.toNat_and]
  exact hm.trans (Nat.mod_eq_of_lt h)

namespace Records

/-- The copies and the settings in force name the same profile. -/
structure Coherent (r : Records) (live : DeviceSettings) : Prop where
  aimed : r.Aimed
  quick : r.quick.active = r.manager.active
  live : live.profile = r.manager.active

section

variable {r : Records} {live : DeviceSettings}

theorem Coherent.capture (h : r.Coherent live) :
    (r.quick.capture live).active = r.manager.active := by
  have hlt : live.profile.toNat < maxProfiles := by
    rw [h.live]
    exact h.aimed.active_lt
  exact (and_three_of_lt hlt).trans h.live

theorem Coherent.attempted {a : Attempt} {active : Fin maxProfiles} (h : r.Coherent live)
    (hs : a.Shape r active live) : a.records.Coherent a.live := by
  have haimed := (hs.accepted h.aimed).aimed
  cases hs with
  | profile slot p hp => exact ⟨haimed, h.quick, h.live⟩
  | manager f hf =>
    have hactive : (r.modifyManager f).manager.active = r.manager.active :=
      (ManagerRecord.active_sealed _).trans (hf r.manager).1
    exact ⟨haimed, h.quick.trans hactive.symm, h.live.trans hactive.symm⟩
  | save now => exact ⟨haimed, rfl, h.live⟩
  | reset => exact ⟨haimed, h.capture, h.live⟩
  | replace now => exact ⟨haimed, rfl, rfl⟩
  | all => exact ⟨haimed, h.quick, h.live⟩

theorem Aimed.coherent_switched (hr : r.Aimed) {id : UInt8} {slot : Fin maxProfiles}
    (hid : slot? id = some slot) (hl : live.profile = id) :
    (r.switched id live).Coherent live := by
  have hlt : id.toNat < maxProfiles := toNat_of_slot? hid ▸ slot.isLt
  refine ⟨(hr.accepted_switched hid).aimed, ?_, hl⟩
  change live.profile &&& 3 = id
  rw [hl]
  exact and_three_of_lt hlt

theorem coherent_booted (h : r.Aimed) (slot : Fin maxProfiles) (live : DeviceSettings) :
    (r.booted live).Coherent (r.bootLive slot live) := by
  refine ⟨h.booted live, ?_, ?_⟩
  · unfold booted
    split
    · rfl
    · exact and_three_of_lt (Nat.zero_lt_succ 3)
  · unfold booted bootLive
    split <;> rfl

end

end Records

/-- Only an attempt that writes both records may make another profile active. -/
theorem Attempt.Shape.active_eq {a : Attempt} {r : Records} {active : Fin maxProfiles}
    {live : DeviceSettings} (h : a.Shape r active live)
    (hp : .quick ∉ a.parts ∨ .manager ∉ a.parts) :
    a.records.manager.active = r.manager.active := by
  cases h with
  | manager f hf => exact (ManagerRecord.active_sealed _).trans (hf r.manager).1
  | replace now => exact absurd hp (by simp [Attempt.replace, Part.all])
  | profile | save | reset | all => rfl

namespace Store

/-- Both records in flash name the same profile. -/
def Agrees (s : Store) : Prop := s.region.quick.active = s.region.manager.active

/-- Both records in flash name the profile that is active. -/
structure Named (s : Store) : Prop where
  quick : s.region.quick.active = s.active
  manager : s.region.manager.active = s.active

/-- Boot will put the first profile in force though flash names another one. -/
def Strays (s : Store) : Prop :=
  s.region.manager.autoLoad = false ∧ s.region.manager.active ≠ 0

section

variable {s t : Store} {r : Records} {parts : List Part} {live : DeviceSettings}

theorem Named.agrees (h : s.Named) : s.Agrees := h.quick.trans h.manager.symm

theorem Carried.region_quick (hc : Carried s t r parts) (hw : s.flash.writes.Free)
    (hr : r.Coherent live) :
    t.region.quick.active =
      if .quick ∈ parts then r.manager.active else s.region.quick.active := by
  have hreached := reached_of_free hw parts
  have hlt : r.quick.active.toNat < maxProfiles := by
    rw [hr.quick]
    exact hr.aimed.active_lt
  split
  · next hp =>
    have hstored := hc.written .quick (by rwa [hreached])
    rw [region, hstored, Records.image, Codec.read_pack QuickWord.codec_whole,
      QuickWord.reread_codec, ← hr.quick]
    exact Codec.reread_uint8_of_lt hlt
  · next hp =>
    rw [region, hc.kept .quick (by rwa [hreached]), region]

theorem Carried.region_manager (hc : Carried s t r parts) (hw : s.flash.writes.Free) :
    t.region.manager.active =
      if .manager ∈ parts then r.manager.active else s.region.manager.active := by
  have hreached := reached_of_free hw parts
  split
  · next hp =>
    have hstored := hc.written .manager (by rwa [hreached])
    rw [region, hstored, Records.image, Codec.read_pack ManagerRecord.codec_whole,
      ManagerRecord.reread_codec]
  · next hp =>
    rw [region, hc.kept .manager (by rwa [hreached]), region]

theorem Carried.named_of_both (hc : Carried s t r parts) (hw : s.flash.writes.Free)
    (hr : r.Coherent live) (hq : .quick ∈ parts) (hm : .manager ∈ parts) : t.Named := by
  have hactive : t.active = r.manager.active := congrArg (·.manager.active) hc.records
  refine ⟨?_, ?_⟩
  · rw [hc.region_quick hw hr, if_pos hq, hactive]
  · rw [hc.region_manager hw, if_pos hm, hactive]

/-- An attempt to write one record alone keeps both in agreement exactly if it finds
the active profile named. Any other attempt keeps them so in any case. -/
theorem Carried.names (hc : Carried s t r parts) (hw : s.flash.writes.Free)
    (hr : r.Coherent live)
    (hsame : .quick ∉ parts ∨ .manager ∉ parts → r.manager.active = s.active) :
    (s.Named → t.Named) ∧
      (s.Agrees → (t.Agrees ↔ (¬ (.quick ∈ parts ↔ .manager ∈ parts) → s.Named))) := by
  have hactive : t.active = r.manager.active := congrArg (·.manager.active) hc.records
  have hquick := hc.region_quick hw hr
  have hmanager := hc.region_manager hw
  -- only if one record is written without the other does it matter what flash names before
  by_cases hq : .quick ∈ parts <;> by_cases hm : .manager ∈ parts
  · have hnamed := hc.named_of_both hw hr hq hm
    exact ⟨fun _ => hnamed, fun _ => ⟨fun _ hn => absurd (iff_of_true hq hm) hn,
      fun _ => hnamed.agrees⟩⟩
  · rw [if_pos hq, hsame (.inr hm)] at hquick
    rw [if_neg hm] at hmanager
    rw [hsame (.inr hm)] at hactive
    refine ⟨fun hn => ⟨hquick.trans hactive.symm, ?_⟩, fun ha => ⟨fun ht _ => ?_, fun hn => ?_⟩⟩
    · rw [hmanager, hactive, hn.manager]
    · have hname : s.region.manager.active = s.active := by
        rw [← hmanager, ← hquick]
        exact ht.symm
      exact ⟨ha.trans hname, hname⟩
    · have hname := (hn fun h => hm (h.mp hq)).manager
      rw [Agrees, hquick, hmanager, hname]
  · rw [if_neg hq] at hquick
    rw [if_pos hm, hsame (.inl hq)] at hmanager
    rw [hsame (.inl hq)] at hactive
    refine ⟨fun hn => ⟨?_, hmanager.trans hactive.symm⟩, fun ha => ⟨fun ht _ => ?_, fun hn => ?_⟩⟩
    · rw [hquick, hactive, hn.quick]
    · have hname : s.region.quick.active = s.active := by
        rw [← hmanager, ← hquick]
        exact ht
      exact ⟨hname, ha.symm.trans hname⟩
    · have hname := (hn fun h => hq (h.mpr hm)).quick
      rw [Agrees, hquick, hmanager, hname]
  · rw [if_neg hq] at hquick
    rw [if_neg hm] at hmanager
    rw [hsame (.inl hq)] at hactive
    refine ⟨fun hn => ⟨?_, ?_⟩, fun ha => ⟨fun _ hn => absurd (iff_of_false hq hm) hn, fun _ => ?_⟩⟩
    · rw [hquick, hactive, hn.quick]
    · rw [hmanager, hactive, hn.manager]
    · rw [Agrees, hquick, hmanager]
      exact ha

end

/-- The device runs on a region that it can boot from, with every access granted and
with settings that belong to the active profile. -/
structure Tracks (s : Store) (live : DeviceSettings) : Prop where
  bootable : s.Bootable
  reads : s.flash.reads.Free
  writes : s.flash.writes.Free
  coherent : s.records.Coherent live

section

variable {s : Store} {live : DeviceSettings}

theorem Tracks.of_orderly {d : Outcome Store α} (h : s.Tracks live) (ho : Orderly s d)
    {live' : DeviceSettings} (hc : d.state.records.Coherent live') : d.state.Tracks live' :=
  ⟨ho.bootable h.bootable, ho.reads h.reads, ho.writes h.writes, hc⟩

/-- What a call does to the names in flash. -/
structure NamesAfter (s t : Store) (call : StoreCall) : Prop where
  named : s.Named → t.Named
  agrees : s.Agrees → (t.Agrees ↔ (call.OneSided → s.Named))

theorem namesAfter_of_same {t : Store} {call : StoreCall} (hr : t.region = s.region)
    (ha : t.active = s.active) (h : ¬ call.OneSided) : s.NamesAfter t call := by
  refine ⟨fun hn => ⟨?_, ?_⟩, fun hagrees => ⟨fun _ ho => absurd ho h, fun _ => ?_⟩⟩
  · rw [hr, ha, hn.quick]
  · rw [hr, ha, hn.manager]
  · rw [Agrees, hr]
    exact hagrees

def Runs (call : StoreCall) (s : Store) (live : DeviceSettings) : Prop :=
  ∃ d, (call.perform live).run s = .ok d ∧ d.state.records.Coherent d.value.1 ∧
    s.NamesAfter d.state call

theorem Tracks.single (h : s.Tracks live) {call : StoreCall} (hc : call.Single) :
    Runs call s live := by
  obtain ⟨active, hslot⟩ := h.coherent.aimed.exists_activeSlot
  have hperforms : Performs (call.perform live) s live _ := performs_call hslot hc
  cases ha : call.attempt s active live with
  | none =>
    rw [ha] at hperforms
    obtain ⟨answer, hrun⟩ := hperforms
    exact ⟨_, hrun, h.coherent,
      namesAfter_of_same rfl rfl fun ho => StoreCall.attempts_of_oneSided ho ha⟩
  | some a =>
    rw [ha] at hperforms
    have hshape := StoreCall.shape_of_attempt ha
    have hcoherent := h.coherent.attempted hshape
    obtain ⟨d, hd, hlive, hcar⟩ := hperforms.carried h.bootable.placed
    obtain ⟨hnamed, hagrees⟩ := hcar.names h.writes hcoherent fun hp => hshape.active_eq hp
    refine ⟨d, hd, ?_, hnamed, ?_⟩
    · rw [hcar.records, hlive]
      exact hcoherent
    · rw [StoreCall.oneSided_iff active, ← StoreCall.parts_of_attempt ha]
      exact hagrees

theorem Tracks.switchProfile (h : s.Tracks live) (id : UInt8) :
    Runs (.switchProfile id) s live := by
  cases ht : s.target id with
  | none =>
    have hrun := run_switchProfile_of_none ht live
    exact ⟨_, Routine.run_bind_pure_of_ok hrun fun d => (d.2, some d.1), h.coherent,
      namesAfter_of_same rfl rfl fun ho => ho⟩
  | some slot =>
    -- entering writes both records, whatever leaving the old profile has written
    have haims : Aims (flush live) s := aims_flush h.coherent.aimed
    obtain ⟨d, hd⟩ := haims.total h.bootable.placed
    have ho := haims.orderly d hd
    obtain ⟨e, he, hv, -, hcar⟩ := run_enter (ho.placed h.bootable.placed) slot id live
    let after := d.state.liveOf slot id live
    have hcoherent : (d.state.records.switched id after).Coherent after :=
      (haims.post d hd).coherent_switched (slot_of_target ht) rfl
    have hnamed := hcar.named_of_both (ho.writes h.writes) hcoherent (by simp) (by simp)
    have hrun := run_switchProfile_of_flush ht hd he
    refine ⟨_, Routine.run_bind_pure_of_ok hrun fun d => (d.2, some d.1), ?_, fun _ => hnamed,
      fun _ => ⟨fun _ hn => hn.elim, fun _ => hnamed.agrees⟩⟩
    rw [hcar.records, hv]
    exact hcoherent

theorem Tracks.call (h : s.Tracks live) {call : StoreCall} (hc : call.WritesThrough) :
    ∃ d, (call.perform live).run s = .ok d ∧ d.state.Tracks d.value.1 ∧
      s.NamesAfter d.state call := by
  have hruns : Runs call s live := by
    cases call with
    | switchProfile id => exact h.switchProfile id
    | markDirty now =>
      exact ⟨⟨(live, none), s.markDirty now, []⟩, rfl, h.coherent,
        namesAfter_of_same rfl rfl fun ho => ho⟩
    | init now | verify | editProfile id edit => exact hc.elim
    | _ => exact h.single trivial
  obtain ⟨d, hd, hcoherent, hnames⟩ := hruns
  exact ⟨d, hd, h.of_orderly ((aims_call h.coherent.aimed call).orderly d hd) hcoherent, hnames⟩

/-- Booting again leaves flash alone, and takes the names of the active profile from
there if it is allowed to. -/
theorem Tracks.reboot (h : s.Tracks live) {flash : Flash} (hb : flash.bytes = s.flash.bytes)
    (hr : flash.reads.Free) (hw : flash.writes.Free) (found : DeviceSettings) (now : UInt32) :
    ∃ d, (init found now).run (ofFlash flash s.base) = .ok d ∧ d.state.Tracks d.value ∧
      d.state.region = s.region ∧ d.state.records = s.region.booted found ∧
      ∃ slot : Fin maxProfiles, s.region.manager.active.toNat = slot ∧
        d.value = s.region.bootLive slot found := by
  let t := ofFlash flash s.base
  have hboot : t.Bootable := h.bootable.congr rfl hb
  have hregion : t.region = s.region := region_congr hb rfl
  have hholds := hboot.holds hr
  rw [hregion] at hholds
  obtain ⟨d, hd, -, hbytes, hvalue, hrec⟩ := hholds.run_init found now
  have ho := (aims_init now).orderly d hd
  have hregion' := region_congr (hbytes.trans hb) ho.base
  have haimed : s.region.Aimed := Records.aimed_of_isValid hholds.sound.manager
  refine ⟨d, hd, ⟨ho.bootable hboot, ho.reads hr, ho.writes hw, ?_⟩, hregion', hrec,
    ⟨_, haimed.active_lt⟩, rfl, hvalue⟩
  rw [hrec, hvalue]
  exact Records.coherent_booted haimed _ found

end

/-- A life of the device from the formatting of its region on, with every access granted
and one value of the settings in force throughout. Goes with the current state, those
after all earlier operations, and whether every one-sided call found flash naming the
active profile. -/
inductive Lifetime : Store → List Store → DeviceSettings → Prop → Prop
  | format {s : Store} {live : DeviceSettings} {now : UInt32} {d : Outcome Store DeviceSettings}
      (h : s.Placed) (hr : s.flash.reads.Free) (hw : s.flash.writes.Free)
      (hv : s.region.manager.isValid = false) (hd : (init live now).run s = .ok d) :
      Lifetime d.state [] d.value True
  | edit {s : Store} {past : List Store} {live : DeviceSettings} {heeded : Prop}
      (h : Lifetime s past live heeded) {live' : DeviceSettings}
      (hl : live'.profile = live.profile) : Lifetime s past live' heeded
  | call {s : Store} {past : List Store} {live : DeviceSettings} {heeded : Prop}
      (h : Lifetime s past live heeded) {call : StoreCall} (hc : call.WritesThrough)
      {d : Outcome Store (DeviceSettings × Option Bool)} (hd : (call.perform live).run s = .ok d) :
      Lifetime d.state (s :: past) d.value.1 (heeded ∧ (call.OneSided → s.Named))
  | reboot {s : Store} {past : List Store} {live : DeviceSettings} {heeded : Prop}
      (h : Lifetime s past live heeded) {flash : Flash} (hb : flash.bytes = s.flash.bytes)
      (hr : flash.reads.Free) (hw : flash.writes.Free) {found : DeviceSettings} {now : UInt32}
      {d : Outcome Store DeviceSettings}
      (hd : (init found now).run (ofFlash flash s.base) = .ok d) :
      Lifetime d.state (s :: past) d.value heeded

section

variable {s : Store} {past : List Store} {live : DeviceSettings} {heeded : Prop}

theorem tracks_format {now : UInt32} {d : Outcome Store DeviceSettings} (h : s.Placed)
    (hr : s.flash.reads.Free) (hw : s.flash.writes.Free) (hv : s.region.manager.isValid = false)
    (hd : (init live now).run s = .ok d) : d.state.Tracks d.value ∧ d.state.Named := by
  obtain ⟨e, he, hb⟩ := run_init_of_free h hr hw live now
  obtain rfl := Except.ok.inj (hd.symm.trans he)
  obtain ⟨hholds, hrecords, hvalue⟩ := hb.formatted hv
  have haimed : (Records.builtIn now).Aimed := Records.aimed_of_isValid hholds.sound.manager
  have hregion := region_eq_of_stored hholds.sound hholds.stored
  have hactive : d.state.active = 0 := by
    rw [active, hrecords]
    rfl
  refine ⟨⟨hholds.bootable, hholds.reads, hb.writes, ?_⟩, ?_, ?_⟩
  · have hcoherent := Records.coherent_booted haimed 0 live
    rw [Records.booted_builtIn] at hcoherent
    rw [hrecords, hvalue]
    exact hcoherent
  · rw [hregion, hactive]
    rfl
  · rw [hregion, hactive]
    rfl

theorem Lifetime.tracks (h : Lifetime s past live heeded) :
    s.Tracks live ∧ ((∀ t ∈ s :: past, t.Agrees) ↔ heeded) := by
  induction h with
  | format h hr hw hv hd =>
    obtain ⟨htracks, hnamed⟩ := tracks_format h hr hw hv hd
    refine ⟨htracks, iff_of_true (fun t ht => ?_) trivial⟩
    obtain rfl := List.mem_singleton.mp ht
    exact hnamed.agrees
  | edit _ hl ih =>
    obtain ⟨⟨hboot, hr, hw, hc⟩, hagrees⟩ := ih
    exact ⟨⟨hboot, hr, hw, hc.aimed, hc.quick, hl.trans hc.live⟩, hagrees⟩
  | @call s past live heeded _ call hc d hd ih =>
    obtain ⟨e, he, htracks, hnames⟩ := ih.1.call hc
    obtain rfl := Except.ok.inj (hd.symm.trans he)
    refine ⟨htracks, ?_⟩
    rw [List.forall_mem_cons, ← ih.2]
    constructor
    · intro ⟨hnow, hpast⟩
      exact ⟨hpast, (hnames.agrees (hpast s List.mem_cons_self)).mp hnow⟩
    · intro ⟨hpast, hone⟩
      exact ⟨(hnames.agrees (hpast s List.mem_cons_self)).mpr hone, hpast⟩
  | @reboot s past live heeded _ flash hb hr hw found now d hd ih =>
    obtain ⟨e, he, htracks, hregion, -⟩ := ih.1.reboot hb hr hw found now
    obtain rfl := Except.ok.inj (hd.symm.trans he)
    refine ⟨htracks, ?_⟩
    rw [List.forall_mem_cons, ← ih.2]
    refine and_iff_right_of_imp fun hpast => ?_
    rw [Agrees, hregion]
    exact hpast s List.mem_cons_self

theorem named_reboot {t : Store} {found : DeviceSettings} (hn : s.Named)
    (hregion : t.region = s.region) (hrec : t.records = s.region.booted found) :
    t.Named ↔ ¬ s.Strays := by
  have hagrees : s.region.quick.active = s.region.manager.active := hn.agrees
  have hnamed : t.Named ↔ s.region.manager.active = t.active := by
    refine ⟨fun ht => ?_, fun ht => ⟨?_, ?_⟩⟩
    · rw [← hregion]
      exact ht.manager
    · rw [hregion, hagrees, ht]
    · rw [hregion, ht]
  rw [hnamed, active, hrec, Records.booted, Strays]
  cases s.region.manager.autoLoad with
  | true => exact iff_of_true rfl fun h => Bool.noConfusion h.1
  | false => simp [Records.modifyManager, ManagerRecord.sealed]

/-- The two records have agreed on the active profile after every operation exactly if
each call that writes only one of them found flash naming that profile. Flash names it as
long as no boot strays from it, and while the records agree a boot that loads takes its
settings from one profile only. -/
theorem Lifetime.agrees_iff (h : Lifetime s past live heeded) :
    ((∀ t ∈ s :: past, t.Agrees) ↔ heeded) ∧
    (∀ call : StoreCall, call.WritesThrough → ∃ d, (call.perform live).run s = .ok d ∧
      (s.Named → d.state.Named) ∧
      (s.Agrees → (d.state.Agrees ↔ (call.OneSided → s.Named)))) ∧
    ∀ (flash : Flash) (found : DeviceSettings) (now : UInt32), flash.bytes = s.flash.bytes →
      flash.reads.Free → flash.writes.Free →
      ∃ d, (init found now).run (ofFlash flash s.base) = .ok d ∧
        (d.state.Agrees ↔ s.Agrees) ∧ (s.Named → (d.state.Named ↔ ¬ s.Strays)) ∧
        (s.Agrees → s.region.manager.autoLoad = true →
          ∃ slot : Fin maxProfiles, s.region.quick.active.toNat = slot ∧
            d.value = (s.region.profile slot).applyExtended (s.region.quick.apply found)) := by
  obtain ⟨htracks, hagrees⟩ := h.tracks
  refine ⟨hagrees, fun call hc => ?_, fun flash found now hb hr hw => ?_⟩
  · obtain ⟨d, hd, -, hnames⟩ := htracks.call hc
    exact ⟨d, hd, hnames.named, hnames.agrees⟩
  · obtain ⟨d, hd, -, hregion, hrec, slot, hslot, hvalue⟩ := htracks.reboot hb hr hw found now
    refine ⟨d, hd, ?_, fun hn => named_reboot hn hregion hrec, fun ha hauto => ⟨slot, ?_, ?_⟩⟩
    · rw [Agrees, Agrees, hregion]
    · rw [ha]
      exact hslot
    · rw [hvalue, Records.bootLive, if_pos hauto, Records.synced_of_agrees ha]

theorem lifetime_erased :
    ∃ d, (init {} 0).run (ofFlash (.erased regionLength) 0) = .ok d ∧
      Lifetime d.state [] d.value True ∧ d.state.Named := by
  have hv := isValid_erased
  have hfree := Gate.free_default
  obtain ⟨d, hd, -⟩ := run_init_of_free placed_erased hfree hfree {} 0
  exact ⟨d, hd, .format placed_erased hfree hfree hv hd,
    (tracks_format placed_erased hfree hfree hv hd).2⟩

theorem agrees_iff_erased :
    ∃ d, (init {} 0).run (ofFlash (.erased regionLength) 0) = .ok d ∧ d.state.Agrees ∧
      ∃ e, ((StoreCall.setAutoSave false).perform d.value).run d.state = .ok e ∧
        e.state.Agrees := by
  obtain ⟨d, hd, hlife, hnamed⟩ := lifetime_erased
  obtain ⟨hpast, hcalls, -⟩ := Lifetime.agrees_iff hlife
  have hagrees := hpast.mpr trivial d.state List.mem_cons_self
  obtain ⟨e, he, -, hiff⟩ := hcalls (.setAutoSave false) trivial
  exact ⟨d, hd, hagrees, e, he, (hiff hagrees).mpr fun _ => hnamed⟩

/-- The device is switched to the second profile and told not to load at boot; after
that boot, which goes to the first profile, it is told to load again, and booted once
more. -/
def strayed : Except Fault (Store × Outcome Store DeviceSettings) := do
  let a ← (init {} 0).run (ofFlash (.erased regionLength) 0)
  let b ← ((StoreCall.switchProfile 1).perform a.value).run a.state
  let c ← ((StoreCall.setAutoLoad false).perform b.value.1).run b.state
  let d ← (init {} 0).run (ofFlash { bytes := c.state.flash.bytes } c.state.base)
  let e ← ((StoreCall.setAutoLoad true).perform d.value).run d.state
  let f ← (init {} 0).run (ofFlash { bytes := e.state.flash.bytes } e.state.base)
  return (e.state, f)

set_option maxRecDepth 100000 in
/-- The quick word still names the second profile then, the manager record the first,
and the last boot puts the modes of the one in force as those of the other. -/
theorem agreement_lost :
    ∃ s past live heeded, Lifetime s past live heeded ∧ ¬ s.Agrees ∧
      ∃ f, (init {} 0).run (ofFlash { bytes := s.flash.bytes } s.base) = .ok f ∧
        f.value.profile = 0 ∧ f.value.sticks.one.mode = .digital ∧
        (s.region.profile 0).sticks.one.analog = true := by
  have hrun : strayed.toOption.map (fun (s, f) =>
      (s.region.quick.active, s.region.manager.active, f.value.profile,
        f.value.sticks.one.mode, (s.region.profile 0).sticks.one.analog)) =
        some (1, 0, 0, .digital, true) := by
    decide +kernel
  obtain ⟨⟨s, f⟩, hs, hfacts⟩ := Option.map_eq_some_iff.mp hrun
  obtain ⟨a, ha, h⟩ := exists_of_bind_eq_ok (eq_ok_of_toOption hs)
  obtain ⟨b, hb, h⟩ := exists_of_bind_eq_ok h
  obtain ⟨c, hc, h⟩ := exists_of_bind_eq_ok h
  obtain ⟨d, hd, h⟩ := exists_of_bind_eq_ok h
  obtain ⟨e, he, h⟩ := exists_of_bind_eq_ok h
  obtain ⟨f, hf, h⟩ := exists_of_bind_eq_ok h
  obtain ⟨rfl, rfl⟩ := Prod.mk.inj (Except.ok.inj h)
  obtain ⟨a₀, ha₀, hlife, -⟩ := lifetime_erased
  obtain rfl := Except.ok.inj (ha₀.symm.trans ha)
  have hswitch : (StoreCall.switchProfile 1).WritesThrough := trivial
  have hforbid : (StoreCall.setAutoLoad false).WritesThrough := trivial
  have hallow : (StoreCall.setAutoLoad true).WritesThrough := trivial
  have hfree := Gate.free_default
  let kept : Flash := { bytes := c.state.flash.bytes }
  have hbytes : kept.bytes = c.state.flash.bytes := rfl
  have hoff := (hlife.call hswitch hb).call hforbid hc
  have hlast := (hoff.reboot hbytes hfree hfree hd).call hallow he
  simp only [Prod.mk.injEq] at hfacts
  obtain ⟨hquick, hmanager, hprofile, hmode, hanalog⟩ := hfacts
  refine ⟨e.state, _, _, _, hlast, ?_, f, hf, hprofile, hmode, hanalog⟩
  rw [Agrees, hquick, hmanager]
  decide

end

end Store

end TwinStick
