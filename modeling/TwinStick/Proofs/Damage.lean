import TwinStick.Proofs.Burst
import TwinStick.Proofs.Bootable
import TwinStick.Proofs.Ensures

/-! Damage does not get through. Whichever reads and writes are refused, a record that is
not intact is never taken over at boot, never vouched for and never imported; in
particular one that a burst has hit since it was sealed. -/

namespace TwinStick

namespace Store

open Routine

/-- Verification ends without a word to the flash, and vouches for intact records only. -/
theorem run_verify_profiles_gated {s : Store} (h : s.Placed) (slots : List (Fin maxProfiles)) :
    ∃ v g, (verify.profiles slots).run s = .ok ⟨v, s.withReads g, []⟩ ∧
      (v = true → ∀ slot ∈ slots, (s.region.profile slot).isIntact = true) := by
  have hfalse : ∀ {p : Prop}, false = true → p := fun hv => absurd hv Bool.false_ne_true
  induction slots generalizing s with
  | nil => exact ⟨true, s.flash.reads, rfl, by simp⟩
  | cons slot rest ih =>
    have hf := run_fetch_gated h (.profile slot) ProfileRecord.codec rfl
    rw [← profile_region] at hf
    rw [verify.profiles, run_bind_of_silent hf]
    cases s.flash.reads.ask.1 with
    | false => exact ⟨false, s.flash.reads.ask.2, rfl, hfalse⟩
    | true =>
      rw [if_pos rfl]
      dsimp only
      cases hi : (s.region.profile slot).isIntact with
      | false => exact ⟨false, s.flash.reads.ask.2, rfl, hfalse⟩
      | true =>
        obtain ⟨v, g, hg, hv⟩ := ih (h.congr (t := s.withReads s.flash.reads.ask.2) rfl rfl)
        refine ⟨v, g, hg, fun hvouched => ?_⟩
        rw [List.forall_mem_cons]
        exact ⟨hi, hv hvouched⟩

theorem run_verify_gated {s : Store} (h : s.Placed) :
    ∃ v g, verify.run s = .ok ⟨v, s.withReads g, []⟩ ∧
      (v = true → s.region.manager.isIntact = true ∧
        ∀ slot, (s.region.profile slot).isIntact = true) := by
  have hfalse : ∀ {p : Prop}, false = true → p := fun hv => absurd hv Bool.false_ne_true
  have hm := run_fetch_gated h .manager ManagerRecord.codec rfl
  have hread : ManagerRecord.codec.read (s.stored .manager) = s.region.manager := rfl
  rw [verify, run_bind_of_silent hm]
  cases s.flash.reads.ask.1 with
  | false => exact ⟨false, s.flash.reads.ask.2, rfl, hfalse⟩
  | true =>
    rw [if_pos rfl, hread]
    dsimp only
    cases hi : s.region.manager.isIntact with
    | false => exact ⟨false, s.flash.reads.ask.2, rfl, hfalse⟩
    | true =>
      obtain ⟨v, g, hg, hv⟩ := run_verify_profiles_gated
        (h.congr (t := s.withReads s.flash.reads.ask.2) rfl rfl) (List.finRange maxProfiles)
      exact ⟨v, g, hg, fun hvouched => ⟨rfl, fun slot => hv hvouched slot (List.mem_finRange _)⟩⟩

/-- What the loop over some slots does to the copies, whatever is refused. -/
structure Screened (s : Store) (slots : List (Fin maxProfiles)) (loaded : Bool) (t : Store) :
    Prop where
  placed : t.Placed
  others : loaded = true → ∀ slot ∉ slots, t.records.profile slot = s.records.profile slot
  copied : loaded = true → ∀ slot ∈ slots, t.records.profile slot = s.region.repaired slot

theorem Screened.refused {s t : Store} (h : t.Placed) (slots : List (Fin maxProfiles)) :
    Screened s slots false t := ⟨h, nofun, nofun⟩

theorem Screened.cons {s u t : Store} {slot : Fin maxProfiles} {rest : List (Fin maxProfiles)}
    {loaded : Bool} (hslot : slot ∉ rest)
    (hcopy : u.records = s.records.withProfile slot (s.region.repaired slot))
    (hregion : ∀ other ∈ rest, u.region.profile other = s.region.profile other)
    (h : Screened u rest loaded t) : Screened s (slot :: rest) loaded t := by
  refine ⟨h.placed, fun hv other ho => ?_, fun hv other ho => ?_⟩
  · obtain ⟨hne, ho⟩ := not_or.mp (mt List.mem_cons.mpr ho)
    rw [h.others hv other ho, hcopy]
    exact Records.profile_withProfile_of_ne _ _ hne
  · rcases List.mem_cons.mp ho with rfl | ho
    · rw [h.others hv other hslot, hcopy]
      exact Records.profile_withProfile_self _ _ _
    · rw [h.copied hv other ho, Records.repaired, Records.repaired, hregion other ho]

theorem ensures_loadProfiles {s : Store} (h : s.Placed) {slots : List (Fin maxProfiles)}
    (hn : slots.Nodup) : (loadProfiles slots).Ensures s (Screened s slots) := by
  induction slots generalizing s with
  | nil => exact .of_pure ⟨h, fun _ _ _ => rfl, by simp⟩
  | cons slot rest ih =>
    obtain ⟨hslot, hrest⟩ := List.nodup_cons.mp hn
    have hf := run_fetch_gated h (.profile slot) ProfileRecord.codec rfl
    rw [← profile_region] at hf
    let t := s.withReads s.flash.reads.ask.2
    have ht : t.Placed := h.congr rfl rfl
    cases hg : s.flash.reads.ask.1 with
    | false =>
      rw [hg] at hf
      exact .bind_of_run hf (.of_pure (.refused ht _))
    | true =>
      rw [hg, if_pos rfl] at hf
      refine .bind_of_run hf ?_
      dsimp only
      cases hi : (s.region.profile slot).isIntact with
      | true =>
        let u := t.withCopy slot (s.region.profile slot)
        have hcopy : u.records = s.records.withProfile slot (s.region.repaired slot) := by
          rw [Records.repaired_of_intact hi]
          rfl
        have hu : u.Placed := h.congr rfl rfl
        refine .bind_of_run (run_modifyRecords _ t) ((ih hu hrest).mono fun _ _ hv => ?_)
        exact Screened.cons hslot hcopy (fun _ _ => rfl) hv
      | false =>
        let u := t.withCopy slot (.template slot)
        obtain ⟨d, hd, hc⟩ := run_commit (s := u) (h.congr rfl rfl) [.profile slot]
        have hd' := hc.placed (h.congr rfl rfl)
        refine .bind_of_run (run_modifyRecords _ t) (.bind_of_run hd ?_)
        cases d.value with
        | false => exact .of_pure (.refused hd' _)
        | true =>
          have hcopy : d.state.records = s.records.withProfile slot (s.region.repaired slot) := by
            rw [hc.state, Records.repaired_of_damaged hi]
            rfl
          -- the repair of one slot leaves the others as they were in flash
          refine (ih hd' hrest).mono fun _ _ hv => Screened.cons hslot hcopy ?_ hv
          exact region_of_others hslot fun p hp => hc.kept_of_ne hp

/-- What becomes of a region at boot, whatever is refused: it gives way to the built-in
contents, or its manager record is valid and of its profiles the intact ones are taken over. -/
def Screens (s : Store) (now : UInt32) (r : Records) : Prop :=
  r = .builtIn now ∨
    s.region.manager.isValid = true ∧ ∀ slot, r.profile slot = s.region.repaired slot

theorem ensures_load {s : Store} (h : s.Placed) :
    load.Ensures s fun loaded t => t.Placed ∧ (loaded = true →
      s.region.manager.isValid = true ∧
        ∀ slot, t.records.profile slot = s.region.repaired slot) := by
  have hm := run_fetch_gated h .manager ManagerRecord.codec rfl
  have hread : ManagerRecord.codec.read (s.stored .manager) = s.region.manager := rfl
  rw [hread] at hm
  let t := s.withReads s.flash.reads.ask.2
  have ht : t.Placed := h.congr rfl rfl
  rw [load_eq]
  cases hg : s.flash.reads.ask.1 with
  | false =>
    rw [hg] at hm
    exact .bind_of_run hm (.of_pure ⟨ht, nofun⟩)
  | true =>
    rw [hg, if_pos rfl] at hm
    refine .bind_of_run hm ?_
    dsimp only
    cases hv : s.region.manager.isValid with
    | false => exact .of_pure ⟨ht, nofun⟩
    | true =>
      have hq := run_fetch_gated ht .quick QuickWord.codec rfl
      rw [if_pos rfl]
      cases hg : t.flash.reads.ask.1 with
      | false =>
        rw [hg] at hq
        exact .bind_of_run hq (.of_pure ⟨ht.congr rfl rfl, nofun⟩)
      | true =>
        rw [hg, if_pos rfl] at hq
        let u : Store := { t.withReads t.flash.reads.ask.2 with records :=
          { s.records with quick := s.region.quick, manager := s.region.manager } }
        have hu : u.Placed := h.congr rfl rfl
        refine .bind_of_run hq (.bind_of_run (run_modifyRecords _ _) ?_)
        refine (ensures_loadProfiles hu (List.nodup_finRange maxProfiles)).mono fun _ _ hs => ?_
        exact ⟨hs.placed, fun hl => ⟨rfl, fun slot => hs.copied hl slot (List.mem_finRange slot)⟩⟩

theorem ensures_takeOver {s : Store} (h : s.Placed) (now : UInt32) :
    (takeOver now).Ensures s fun _ t => s.Screens now t.records := by
  refine (ensures_load h).bind fun loaded t ⟨ht, hl⟩ => ?_
  cases loaded with
  | true => exact .of_pure (.inr (hl rfl))
  | false =>
    obtain ⟨d, hd, hc⟩ := run_restoreDefaults ht now
    refine .of_run hd (.inl ?_)
    rw [hc.state]

theorem Screens.booted {s : Store} {now : UInt32} {r : Records} (h : s.Screens now r)
    (live : DeviceSettings) : s.Screens now (r.booted live) := by
  rcases h with rfl | ⟨hv, hp⟩
  · exact .inl (Records.booted_builtIn now live)
  · exact .inr ⟨hv, fun slot => (Records.profile_booted r live slot).trans (hp slot)⟩

/-- Boot ends, and no damaged record is among the copies after it. -/
theorem run_init_gated {s : Store} (h : s.Placed) (live : DeviceSettings) (now : UInt32) :
    ∃ d, (init live now).run s = .ok d ∧ s.Screens now d.state.records := by
  obtain ⟨e, he⟩ := (aims_takeOver now).total h
  obtain ⟨active, hslot⟩ := ((aims_takeOver now).post e he).exists_activeSlot
  exact ⟨_, run_init he hslot live, (ensures_takeOver h now e he).booted live⟩

theorem importProfile_of_damaged {bytes : List UInt8} {p : ProfileRecord}
    (hp : ProfileRecord.codec.unpack bytes = .ok p) (hi : p.isIntact = false) (id : UInt8)
    (s : Store) : (importProfile id bytes).run s = .ok ⟨false, s, []⟩ := by
  rw [importProfile, withSlot]
  cases Records.slot? id with
  | none => rfl
  | some slot =>
    dsimp only
    rw [hp]
    dsimp only
    rw [hi]
    rfl

/-- The manager record in flash is not trusted: verification fails, and boot replaces the whole
region. -/
structure ManagerDiscarded (s : Store) : Prop where
  verify : ∃ g, verify.run s = .ok ⟨false, s.withReads g, []⟩
  boot (live : DeviceSettings) (now : UInt32) : ∃ d, (init live now).run s = .ok d ∧
    d.state.records = .builtIn now ∧ (s.flash.reads.Free → s.flash.writes.Free →
      ∀ p, d.state.stored p = (Records.builtIn now).image p)

/-- A profile in flash is not trusted: verification fails, and boot puts the template of its
slot in its place. -/
structure ProfileDiscarded (s : Store) (slot : Fin maxProfiles) : Prop where
  verify : ∃ g, verify.run s = .ok ⟨false, s.withReads g, []⟩
  boot (live : DeviceSettings) (now : UInt32) : ∃ d, (init live now).run s = .ok d ∧
    d.state.records.profile slot = .template slot ∧
      (s.flash.reads.Free → s.flash.writes.Free →
        d.state.stored (.profile slot) = ProfileRecord.codec.pack (.template slot))

theorem verify_of_damaged {s : Store} (h : s.Placed)
    (hd : s.region.manager.isIntact = true →
      ∃ slot, (s.region.profile slot).isIntact = false) :
    ∃ g, verify.run s = .ok ⟨false, s.withReads g, []⟩ := by
  obtain ⟨v, g, hg, hv⟩ := run_verify_gated h
  cases v with
  | false => exact ⟨g, hg⟩
  | true =>
    obtain ⟨hm, hp⟩ := hv rfl
    obtain ⟨slot, hslot⟩ := hd hm
    exact absurd (hslot.symm.trans (hp slot)) Bool.false_ne_true

theorem managerDiscarded {s : Store} (h : s.Placed) (hm : s.region.manager.isIntact = false) :
    s.ManagerDiscarded := by
  have hinvalid : s.region.manager.isValid = false := by
    rw [ManagerRecord.isValid, hm, Bool.and_false]
  refine ⟨verify_of_damaged h fun hi => absurd (hm.symm.trans hi) Bool.false_ne_true, ?_⟩
  intro live now
  obtain ⟨d, hd, hs⟩ := run_init_gated h live now
  refine ⟨d, hd, hs.resolve_right fun hv => ?_, fun hr hw p => ?_⟩
  · exact Bool.false_ne_true (hinvalid.symm.trans hv.1)
  -- what boot leaves in flash is only known if nothing is refused
  · obtain ⟨e, he, hb⟩ := run_init_of_free h hr hw live now
    obtain rfl := Except.ok.inj (hd.symm.trans he)
    exact (hb.formatted hinvalid).1.stored p

theorem profileDiscarded {s : Store} (h : s.Placed) {slot : Fin maxProfiles}
    (hp : (s.region.profile slot).isIntact = false) : s.ProfileDiscarded slot := by
  refine ⟨verify_of_damaged h fun _ => ⟨slot, hp⟩, fun live now => ?_⟩
  obtain ⟨d, hd, hs⟩ := run_init_gated h live now
  refine ⟨d, hd, ?_, fun hr hw => ?_⟩
  · rcases hs with hreplaced | ⟨-, hcopied⟩
    · rw [hreplaced, Records.profile_builtIn]
    · rw [hcopied, Records.repaired_of_damaged hp]
  · obtain ⟨e, he, hb⟩ := run_init_of_free h hr hw live now
    obtain rfl := Except.ok.inj (hd.symm.trans he)
    rw [hb.holds.stored, Records.image, recovered]
    split
    · rw [Records.profile_mended, Records.repaired_of_damaged hp]
    · rw [Records.profile_builtIn]

/-- A burst is found out in every string that was sealed before it, and a record that was intact
before it, as every sealed one is, is treated as damaged wherever records come in. -/
theorem burst_caught :
    (∀ body after, Bytes.Burst (body ++ Bytes.ofNat 2 (checksum body).toNat) after →
      ¬Bytes.Sealed after) ∧
    (∀ (m : ManagerRecord) (after : List UInt8), m.isIntact = true →
      Bytes.Burst (ManagerRecord.codec.pack m) after →
        (∃ m', ManagerRecord.codec.unpack after = .ok m' ∧ m'.isIntact = false) ∧
        ∀ s : Store, s.Placed → s.stored .manager = after → s.ManagerDiscarded) ∧
    (∀ (p : ProfileRecord) (after : List UInt8), p.isIntact = true →
      Bytes.Burst (ProfileRecord.codec.pack p) after →
        (∃ p', ProfileRecord.codec.unpack after = .ok p' ∧ p'.isIntact = false) ∧
        (∀ (s : Store) (id : UInt8), (importProfile id after).run s = .ok ⟨false, s, []⟩) ∧
        ∀ (s : Store) (slot : Fin maxProfiles), s.Placed → s.stored (.profile slot) = after →
          s.ProfileDiscarded slot) := by
  refine ⟨fun body after h => (Bytes.sealed_append_checksum body).not_burst h, ?_, ?_⟩
  · intro m after hm h
    obtain ⟨hread, hdamaged⟩ := ManagerRecord.damaged_read hm h
    refine ⟨⟨_, hread, hdamaged⟩, fun s hs hstored => managerDiscarded hs ?_⟩
    rw [region, hstored, hdamaged]
  · intro p after hp h
    obtain ⟨hread, hdamaged⟩ := ProfileRecord.damaged_read hp h
    refine ⟨⟨_, hread, hdamaged⟩, fun s id => importProfile_of_damaged hread hdamaged id s,
      fun s slot hs hstored => profileDiscarded hs ?_⟩
    rw [profile_region, hstored, hdamaged]

set_option maxRecDepth 100000 in
/-- Where the built-in manager record names the first profile, a stray byte names another. -/
theorem burst_caught_stray_active :
    ∃ flash : Flash, flash.bytes = Records.default.bytes.set Part.manager.offset 3 ∧
      ∃ d, (init {} 7).run (ofFlash flash 0) = .ok d ∧ d.state.records = .builtIn 7 := by
  let flash : Flash := { bytes := Records.default.bytes.set Part.manager.offset 3 }
  let rest := (ManagerRecord.codec.pack .default).drop 1
  have hold : ManagerRecord.codec.pack .default = [] ++ ([0] ++ rest) := by decide +kernel
  have hburst : Bytes.Burst (ManagerRecord.codec.pack .default) ([] ++ ([3] ++ rest)) := by
    rw [hold]
    exact .of_neighbours [] rest rfl (by decide) (by decide)
  have hstored : (ofFlash flash 0).stored .manager = [] ++ ([3] ++ rest) := by decide +kernel
  have hplaced : (ofFlash flash 0).Placed := .of_room (by decide) (by decide +kernel)
  have hintact : ManagerRecord.default.isIntact = true := ManagerRecord.isIntact_sealed _
  obtain ⟨-, hdiscarded⟩ := burst_caught.2.1 .default _ hintact hburst
  obtain ⟨d, hd, hrecords, -⟩ := (hdiscarded _ hplaced hstored).boot {} 7
  exact ⟨flash, rfl, d, hd, hrecords⟩

end Store

end TwinStick
