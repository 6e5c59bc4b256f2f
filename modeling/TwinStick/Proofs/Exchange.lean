import TwinStick.Proofs.Burst
import TwinStick.Proofs.Bootable
import TwinStick.Proofs.Ensures
import TwinStick.Proofs.Refusals

/-! Exchanging profiles. What is imported is exactly what could have been exported: packed
profiles with the right checksum. Unless a copy is edited in place, every slot holds one. -/

namespace TwinStick

namespace ProfileRecord

/-- As many bytes as a profile has, the last two of which spell the checksum of the others. -/
structure Portable (bytes : List UInt8) : Prop where
  length : bytes.length = 71
  checksum : Bytes.toNat (bytes.drop 69) = (TwinStick.checksum (bytes.take 69)).toNat

variable {bytes : List UInt8}

theorem portable_iff : Portable bytes ↔ bytes.length = 71 ∧ Bytes.Sealed bytes := by
  constructor
  · intro h
    have hlength : (bytes.drop 69).length = 2 := by
      rw [List.length_drop, h.length]
    have hspelt := Bytes.ofNat_toNat (bytes.drop 69)
    rw [hlength, h.checksum] at hspelt
    refine ⟨h.length, ?_⟩
    rw [Bytes.Sealed, h.length]
    exact hspelt.symm
  · rintro ⟨hlength, hsealed⟩
    rw [Bytes.Sealed, hlength] at hsealed
    refine ⟨hlength, ?_⟩
    have hspelt := congrArg Bytes.toNat hsealed
    rw [Bytes.toNat_ofNat_uint16] at hspelt
    exact hspelt

theorem isIntact_read_iff (h : bytes.length = 71) :
    (codec.read bytes).isIntact = true ↔ Portable bytes := by
  -- the checksum is compared after the bytes were unpacked, which loses none of them
  have hpack := Codec.pack_read codec_lawful codec_whole h
  rw [← sealed_pack_iff, hpack, portable_iff]
  exact ⟨fun hsealed => ⟨h, hsealed⟩, fun hportable => hportable.2⟩

theorem portable_pack {p : ProfileRecord} (h : p.isIntact = true) : Portable (codec.pack p) := by
  have hlength : (codec.pack p).length = 71 := codec.length_pack p
  have hsealed := (sealed_pack_iff p).mpr h
  exact portable_iff.mpr ⟨hlength, hsealed⟩

end ProfileRecord

namespace Records

/-- Every copy of a profile has the right checksum. -/
def Intact (r : Records) : Prop := ∀ slot, (r.profile slot).isIntact = true

theorem Intact.withProfile {r : Records} (h : r.Intact) {slot : Fin maxProfiles}
    {p : ProfileRecord} (hp : p.isIntact = true) : (r.withProfile slot p).Intact := by
  intro other
  by_cases heq : other = slot
  · rw [heq, profile_withProfile_self]
    exact hp
  · rw [profile_withProfile_of_ne r p heq]
    exact h other

theorem intact_builtIn (now : UInt32) : (builtIn now).Intact := (sound_builtIn now).intact

theorem Intact.saved {r : Records} (h : r.Intact) {slot : Fin maxProfiles}
    {live : DeviceSettings} (now : UInt32) : (r.saved slot live now).Intact :=
  Intact.withProfile (r := r) h (ProfileRecord.isIntact_sealed _)

theorem Intact.attempted {r : Records} (h : r.Intact) {active : Fin maxProfiles}
    {live : DeviceSettings} {a : Attempt} (ha : a.Shape r active live) : a.records.Intact := by
  cases ha with
  | profile slot p hp => exact h.withProfile hp
  | manager f hf => exact h
  | save now => exact h.saved now
  | reset => exact Intact.withProfile (r := r) h (ProfileRecord.isIntact_template active)
  | replace now => exact intact_builtIn now
  | all =>
    intro slot
    change (r.allSealed.profile slot).isIntact = true
    rw [profile_allSealed, ProfileRecord.isIntact_sealed]

end Records

/-- The call does not edit a copy in place. -/
def StoreCall.Sealing : StoreCall → Prop
  | editProfile _ _ => False
  | _ => True

namespace Store

section

variable {s : Store} {slot : Fin maxProfiles} {id : UInt8} {bytes : List UInt8}

theorem slot?_of_lt (h : id.toNat < maxProfiles) : Records.slot? id = some ⟨id.toNat, h⟩ :=
  dif_pos h

theorem exportProfile_of_slot (hid : Records.slot? id = some slot) :
    s.exportProfile id = some (ProfileRecord.codec.pack (s.records.profile slot)) := by
  rw [exportProfile, profile?, hid]
  rfl

/-- What an import of these bytes into a slot leaves behind: the slot holds them, and one write
of them was issued, which succeeded or left flash alone. -/
structure Imported (s : Store) (slot : Fin maxProfiles) (bytes : List UInt8)
    (d : Outcome Store Bool) : Prop where
  state : d.state = { s with
    flash := d.state.flash
    records := s.records.withProfile slot (ProfileRecord.codec.read bytes) }
  exported : ∀ id, Records.slot? id = some slot → d.state.exportProfile id = some bytes
  write : ∃ a : UInt32, a.toNat = s.base.toNat + (Part.profile slot).offset ∧
    (d.value = true ∧ d.events = [.write a bytes] ∧
        d.state.flash.bytes = (s.flash.overwrite a.toNat bytes).bytes ∧
        d.state.stored (.profile slot) = bytes ∨
      d.value = false ∧ d.events = [.writeFailed a 71] ∧
        d.state.flash.bytes = s.flash.bytes)

theorem run_importProfile (h : s.Addressed) (hid : Records.slot? id = some slot)
    (hbytes : ProfileRecord.Portable bytes) :
    ∃ d, (importProfile id bytes).run s = .ok d ∧ s.Imported slot bytes d := by
  let p := ProfileRecord.codec.read bytes
  let t : Store := { s with records := s.records.withProfile slot p }
  have hunpack : ProfileRecord.codec.unpack bytes = .ok p := Codec.unpack_eq hbytes.length
  have hintact : p.isIntact = true :=
    (ProfileRecord.isIntact_read_iff hbytes.length).mpr hbytes
  have hput : (importProfile id bytes).run s = (commit [.profile slot]).run t := by
    rw [importProfile, withSlot, hid]
    dsimp only
    rw [hunpack]
    dsimp only
    rw [if_pos hintact, putProfile, Routine.run_bind_of_silent (run_modifyRecords _ _)]
  have hpack : ProfileRecord.codec.pack p = bytes :=
    Codec.pack_read ProfileRecord.codec_lawful ProfileRecord.codec_whole hbytes.length
  have himage : t.records.image (.profile slot) = bytes := by
    rw [Records.image, Records.profile_withProfile_self, hpack]
  have hexported : ∀ flash : Flash, ∀ id, Records.slot? id = some slot →
      ({ t with flash } : Store).exportProfile id = some bytes := by
    intro flash id hid
    rw [exportProfile_of_slot hid, Records.profile_withProfile_self, hpack]
  obtain ⟨a, f, hplace, hcases⟩ := run_persist_cases (s := t) h (.profile slot)
  rw [himage] at hcases
  rw [hput, commit]
  rcases hcases with ⟨hrun, hroom, hwritten⟩ | ⟨hrun, hkept⟩
  · obtain ⟨hstored, -⟩ := stored_of_overwritten (s := t) hplace hbytes.length hroom hwritten
    rw [Routine.run_bind_of_ok hrun]
    exact ⟨_, rfl, rfl, hexported f, a, hplace, .inl ⟨rfl, rfl, hwritten, hstored⟩⟩
  · rw [Routine.run_bind_of_ok hrun]
    exact ⟨_, rfl, rfl, hexported f, a, hplace, .inr ⟨rfl, rfl, hkept⟩⟩

theorem run_importProfile_of_not (hnot : ¬ (id.toNat < 4 ∧ ProfileRecord.Portable bytes)) :
    (importProfile id bytes).run s = .ok ⟨false, s, []⟩ := by
  rw [importProfile, withSlot]
  cases hid : Records.slot? id with
  | none => rfl
  | some slot =>
    have hlt : id.toNat < 4 := by
      rw [Records.toNat_of_slot? hid]
      exact slot.isLt
    dsimp only
    by_cases hlength : bytes.length = 71
    · have hbroken : (ProfileRecord.codec.read bytes).isIntact = false := by
        rw [← Bool.not_eq_true, ProfileRecord.isIntact_read_iff hlength]
        exact fun hbytes => hnot ⟨hlt, hbytes⟩
      rw [Codec.unpack_eq hlength]
      dsimp only
      rw [hbroken]
      rfl
    · have hunpack : ProfileRecord.codec.unpack bytes =
          .error (.bufferSizeMismatch 71 bytes.length) :=
        if_neg hlength
      rw [hunpack]
      rfl

end

section Keeping

variable {s : Store} {live : DeviceSettings}

/-- The routine leaves every copy of a profile with the right checksum if it finds them so. -/
def KeepsIntact (r : Routine Store α) : Prop :=
  ∀ s : Store, s.records.Intact → r.Ensures s fun _ t => t.records.Intact

theorem KeepsIntact.bind {r : Routine Store α} {f : α → Routine Store β} (hr : KeepsIntact r)
    (hf : ∀ a, KeepsIntact (f a)) : KeepsIntact (r >>= f) :=
  fun s hs => (hr s hs).bind fun a t ht => hf a t ht

theorem keepsIntact_pure (a : α) : KeepsIntact (pure a) := fun _ hs => .of_pure hs

theorem keepsIntact_of_same {r : Routine Store α}
    (h : ∀ s, r.Ensures s fun _ t => t.records = s.records) : KeepsIntact r := by
  intro s hs
  refine (h s).mono fun _ t ht => ?_
  rw [ht]
  exact hs

theorem keepsIntact_fetch (p : Part) (codec : Codec α) : KeepsIntact (fetch p codec) :=
  keepsIntact_of_same fun _ => (conforms_fetch codec).post

theorem keepsIntact_commit (parts : List Part) : KeepsIntact (commit parts) :=
  keepsIntact_of_same fun s d hd => by rw [state_of_run_commit hd]

theorem keepsIntact_modifyRecords {g : Records → Records}
    (h : ∀ r : Records, r.Intact → (g r).Intact) : KeepsIntact (modifyRecords g) :=
  fun s hs => .of_run (run_modifyRecords g s) (h _ hs)

theorem keepsIntact_loadProfiles (slots : List (Fin maxProfiles)) :
    KeepsIntact (loadProfiles slots) := by
  induction slots with
  | nil => exact keepsIntact_pure true
  | cons slot rest ih =>
    refine (keepsIntact_fetch _ _).bind fun found => ?_
    cases found with
    | error e => exact keepsIntact_pure false
    | ok p =>
      dsimp only
      cases hp : p.isIntact with
      | true =>
        have hcopied : ∀ r : Records, r.Intact → (r.withProfile slot p).Intact :=
          fun r hr => hr.withProfile hp
        exact (keepsIntact_modifyRecords hcopied).bind fun _ => ih
      | false =>
        have hrepaired : ∀ r : Records, r.Intact → (r.withProfile slot (.template slot)).Intact :=
          fun r hr => hr.withProfile (ProfileRecord.isIntact_template slot)
        refine (keepsIntact_modifyRecords hrepaired).bind fun _ => ?_
        refine (keepsIntact_commit _).bind fun written => ?_
        cases written with
        | true => exact ih
        | false => exact keepsIntact_pure false

theorem keepsIntact_load : KeepsIntact load := by
  rw [load_eq]
  refine (keepsIntact_fetch _ _).bind fun found => ?_
  cases found with
  | error e => exact keepsIntact_pure false
  | ok manager =>
    dsimp only
    cases manager.isValid with
    | false => exact keepsIntact_pure false
    | true =>
      refine (keepsIntact_fetch _ _).bind fun found => ?_
      cases found with
      | error e => exact keepsIntact_pure false
      | ok quick =>
        have hheads : ∀ r : Records, r.Intact → ({ r with quick, manager } : Records).Intact :=
          fun r hr => hr
        exact (keepsIntact_modifyRecords hheads).bind fun _ => keepsIntact_loadProfiles _

theorem keepsIntact_restoreDefaults (now : UInt32) : KeepsIntact (restoreDefaults now) :=
  (keepsIntact_modifyRecords fun _ _ => Records.intact_builtIn now).bind fun _ =>
    (keepsIntact_commit _).bind fun _ => keepsIntact_pure ()

theorem keepsIntact_verify_profiles (slots : List (Fin maxProfiles)) :
    KeepsIntact (verify.profiles slots) :=
  keepsIntact_of_same fun _ => (conforms_verify_profiles slots).post

theorem keepsIntact_verify : KeepsIntact verify := by
  refine (keepsIntact_fetch _ _).bind fun found => ?_
  cases found with
  | error e => exact keepsIntact_pure false
  | ok manager =>
    dsimp only
    cases manager.isIntact with
    | false => exact keepsIntact_pure false
    | true => exact keepsIntact_verify_profiles _

theorem Performs.intact {r : Routine Store (DeviceSettings × Option Bool)}
    {active : Fin maxProfiles} {attempt : Option Attempt} (h : Performs r s live attempt)
    (hs : s.records.Intact) (ha : ∀ a, attempt = some a → a.Shape s.records active live) :
    r.Ensures s fun _ t => t.records.Intact := by
  intro d hd
  rcases h.result hd with ⟨-, hrecords, -⟩ | ⟨a, hattempt, hrecords, -⟩
  · rw [hrecords]
    exact hs
  · rw [hrecords]
    exact hs.attempted (ha a hattempt)

theorem ensures_intact_flush (haimed : s.records.Aimed) (hs : s.records.Intact) :
    (flush live).Ensures s fun _ t => t.records.Intact := by
  obtain ⟨active, hslot⟩ := haimed.exists_activeSlot
  intro d hd
  cases hdirty : s.dirty with
  | false =>
    rw [run_flush_of_clean hdirty] at hd
    obtain rfl := Except.ok.inj hd
    exact hs
  | true =>
    rw [run_flush_of_dirty hdirty] at hd
    obtain ⟨e, he, rfl⟩ := exists_of_map_eq_ok hd
    dsimp only
    rw [records_of_run_saveCurrent hslot he]
    exact hs.saved s.lastChange

theorem ensures_intact_switchProfile (haimed : s.records.Aimed) (hs : s.records.Intact)
    (id : UInt8) : (switchProfile id live).Ensures s fun _ t => t.records.Intact := by
  intro d hd
  cases ht : s.target id with
  | none =>
    rw [run_switchProfile_of_none ht] at hd
    obtain rfl := Except.ok.inj hd
    exact hs
  | some slot =>
    rw [run_switchProfile_of_some ht] at hd
    obtain ⟨e, e', he, he', rfl⟩ := Routine.run_bind_eq_ok.mp hd
    have hflushed := ensures_intact_flush haimed hs e he
    dsimp only
    rw [(entered_of_run_enter he').2]
    exact hflushed

theorem keepsIntact_takeOver (now : UInt32) : KeepsIntact (takeOver now) := by
  refine keepsIntact_load.bind fun loaded => ?_
  cases loaded with
  | true => exact keepsIntact_pure ()
  | false => exact keepsIntact_restoreDefaults now

theorem ensures_intact_init (hs : s.records.Intact) (now : UInt32) :
    (init live now).Ensures s fun _ t => t.records.Intact := by
  intro d hd
  rw [init_eq] at hd
  obtain ⟨e, e', he, he', rfl⟩ := Routine.run_bind_eq_ok.mp hd
  have htaken := keepsIntact_takeOver now s hs e he
  obtain ⟨active, hslot⟩ := ((aims_takeOver now).post e he).exists_activeSlot
  obtain rfl := Except.ok.inj ((run_putInForce hslot live now).symm.trans he')
  intro slot
  rw [Records.profile_booted]
  exact htaken slot

theorem ensures_intact_call (haimed : s.records.Aimed) (hs : s.records.Intact)
    {call : StoreCall} (hc : call.Sealing) :
    (call.perform live).Ensures s fun _ t => t.records.Intact := by
  obtain ⟨active, hslot⟩ := haimed.exists_activeSlot
  have hsingle : call.Single → (call.perform live).Ensures s fun _ t => t.records.Intact :=
    fun hsingle =>
      (performs_call hslot hsingle).intact hs fun a ha => StoreCall.shape_of_attempt ha
  cases call with
  | init now => exact (ensures_intact_init hs now).bind fun _ _ ht => .of_pure ht
  | switchProfile id =>
    exact (ensures_intact_switchProfile haimed hs id).bind fun _ _ ht => .of_pure ht
  | verify => exact (keepsIntact_verify s hs).bind fun _ _ ht => .of_pure ht
  | markDirty now => exact .of_run rfl hs
  | editProfile id edit => exact hc.elim
  | _ => exact hsingle trivial

end Keeping

/-- The ways in which a store comes about if no copy is edited in place. -/
inductive Unedited : Store → Prop
  | new (flash : Flash) (base : UInt32) : Unedited (ofFlash flash base)
  | storage {s : Store} (h : Unedited s) (flash : Flash) : Unedited { s with flash }
  | call {s : Store} (h : Unedited s) {call : StoreCall} (hc : call.Sealing)
      {live : DeviceSettings} {d : Outcome Store (DeviceSettings × Option Bool)}
      (hd : (call.perform live).run s = .ok d) : Unedited d.state

section

variable {s : Store}

theorem Unedited.reached (h : Unedited s) : Reached s := by
  induction h with
  | new flash base => exact .new flash base
  | storage _ flash ih => exact ih.storage flash
  | call _ _ hd ih => exact ih.call _ hd

theorem Unedited.intact (h : Unedited s) : s.records.Intact := by
  induction h with
  | new flash base =>
    intro slot
    have htemplate : (ofFlash flash base).records.profile slot = .template slot := by
      simp [ofFlash, Records.default, Records.profile]
    rw [htemplate]
    exact ProfileRecord.isIntact_template slot
  | storage _ flash ih => exact ih
  | call h hc hd ih => exact ensures_intact_call h.reached.aimed ih hc _ hd

/-- Importing accepts exactly the bytes with the right checksum and for a slot that exists, and
exporting gives them back; anything else it refuses without a trace. What a slot exports is
accepted for every slot, as long as no copy was edited in place. -/
theorem import_inverts_export (s : Store) (h : s.Addressed) :
    (∀ (id : UInt8) (bytes : List UInt8),
      (id.toNat < 4 ∧ ProfileRecord.Portable bytes →
        ∃ slot d, Records.slot? id = some slot ∧ (importProfile id bytes).run s = .ok d ∧
          s.Imported slot bytes d) ∧
      (¬ (id.toNat < 4 ∧ ProfileRecord.Portable bytes) →
        (importProfile id bytes).run s = .ok ⟨false, s, []⟩)) ∧
    (Unedited s → ∀ source target : UInt8, source.toNat < 4 → target.toNat < 4 →
      ∃ bytes slot d, s.exportProfile source = some bytes ∧ Records.slot? target = some slot ∧
        (importProfile target bytes).run s = .ok d ∧ s.Imported slot bytes d ∧
        d.state.exportProfile target = d.state.exportProfile source) := by
  refine ⟨fun id bytes => ⟨fun ⟨hid, hbytes⟩ => ?_, run_importProfile_of_not⟩, ?_⟩
  · obtain ⟨d, hd, himported⟩ := run_importProfile h (slot?_of_lt hid) hbytes
    exact ⟨_, d, slot?_of_lt hid, hd, himported⟩
  · intro hunedited source target hsource htarget
    have hfrom := slot?_of_lt hsource
    have hto := slot?_of_lt htarget
    have hexported := exportProfile_of_slot (s := s) hfrom
    have hportable := ProfileRecord.portable_pack (hunedited.intact ⟨source.toNat, hsource⟩)
    obtain ⟨d, hd, himported⟩ := run_importProfile h hto hportable
    refine ⟨_, _, d, hexported, hto, hd, himported, ?_⟩
    have hgiven := himported.exported target hto
    by_cases hsame : (⟨source.toNat, hsource⟩ : Fin maxProfiles) = ⟨target.toNat, htarget⟩
    · rw [himported.exported source (hfrom.trans (congrArg some hsame)), hgiven]
    · -- the slot that was exported is not the one that was replaced
      have hkept : d.state.records.profile ⟨source.toNat, hsource⟩ =
          s.records.profile ⟨source.toNat, hsource⟩ := by
        rw [himported.state]
        exact Records.profile_withProfile_of_ne _ _ hsame
      rw [hgiven, exportProfile_of_slot hfrom, hkept]

/-- A renamed profile is accepted for the last slot, but for no slot after it. -/
theorem import_inverts_export_renamed :
    ∃ s : Store, s.Addressed ∧ Unedited s ∧ (s.records.profile 0).name = .ofString "Mine" ∧
      ∃ bytes d, s.exportProfile 0 = some bytes ∧ (importProfile 3 bytes).run s = .ok d ∧
        d.state.exportProfile 3 = some bytes ∧
        (importProfile 4 bytes).run s = .ok ⟨false, s, []⟩ := by
  let fresh := ofFlash (.erased regionLength) 0
  let renamed := ((fresh.records.profile 0).withName "Mine").sealed
  have hslot : fresh.records.activeSlot = .ok 0 := rfl
  have hperforms : Performs ((StoreCall.rename 0 "Mine").perform {}) fresh {}
      (some (.profile fresh.records {} 0 renamed)) := performs_call hslot trivial
  obtain ⟨d, hd, -, hcarried⟩ := hperforms.carried placed_erased
  have haddressed : d.state.Addressed := (hcarried.placed placed_erased).addressed
  have hsealing : (StoreCall.rename 0 "Mine").Sealing := trivial
  have hunedited : Unedited d.state := .call (.new _ _) hsealing hd
  have hname : (d.state.records.profile 0).name = .ofString "Mine" := by
    rw [hcarried.records]
    exact congrArg ProfileRecord.name (Records.profile_withProfile_self _ _ _)
  obtain ⟨hall, hcopies⟩ := import_inverts_export d.state haddressed
  obtain ⟨bytes, slot, e, hfrom, hto, he, himported, -⟩ :=
    hcopies hunedited 0 3 (by decide) (by decide)
  have hrefused := (hall 4 bytes).2 fun hid => absurd hid.1 (by decide)
  exact ⟨d.state, haddressed, hunedited, hname, bytes, e, hfrom, he, himported.exported 3 hto,
    hrefused⟩

end

end Store

end TwinStick
