import TwinStick.Proofs.Agreement

/-! The combos that a profile allows. Each profile has a set of them, kept as bits next to
everything else. Saving, switching and booting put the same records down and take them up again,
but only turning a combo on or off, copying a profile and resetting it have a say in its set. -/

namespace TwinStick

namespace Combo

theorem index_lt (c : Combo) : c.index < 16 := by cases c <;> decide

theorem index_inj {c c' : Combo} : c.index = c'.index ↔ c = c' := by
  refine ⟨fun h => ?_, fun h => by rw [h]⟩
  have hsome := c.ofIndex?_index
  rw [h, c'.ofIndex?_index] at hsome
  exact (Option.some.inj hsome).symm

theorem toBitVec_bit (c : Combo) : c.bit.toBitVec = BitVec.twoPow 16 c.index := by
  cases c <;> rfl

theorem bit_ne_zero (c : Combo) : c.bit ≠ 0 := by cases c <;> decide

theorem getLsbD_bit (c c' : Combo) : c.bit.toBitVec.getLsbD c'.index = decide (c' = c) := by
  have hlt := c'.index_lt
  rw [toBitVec_bit, BitVec.getLsbD_twoPow]
  by_cases heq : c' = c
  · simp [heq, c.index_lt]
  · have hne : c.index ≠ c'.index := fun h => heq (index_inj.mp h).symm
    simp [heq, hne]

end Combo

namespace ComboProfile

def allows (p : ComboProfile) (c : Combo) : Bool := p.mask &&& c.bit != 0

theorem allows_eq (p : ComboProfile) (c : Combo) :
    p.allows c = p.mask.toBitVec.getLsbD c.index := by
  have hbit := BitVec.and_twoPow p.mask.toBitVec c.index
  rw [← c.toBitVec_bit] at hbit
  cases hset : p.mask.toBitVec.getLsbD c.index with
  | true =>
    have hand : p.mask &&& c.bit = c.bit := UInt16.eq_of_toBitVec_eq (by simpa [hset] using hbit)
    rw [allows, hand]
    exact bne_iff_ne.mpr c.bit_ne_zero
  | false =>
    have hand : p.mask &&& c.bit = 0 := UInt16.eq_of_toBitVec_eq (by simpa [hset] using hbit)
    rw [allows, hand]
    rfl

theorem allows_or (p : ComboProfile) (c c' : Combo) :
    ({ p with mask := p.mask ||| c.bit } : ComboProfile).allows c' =
      if c' = c then true else p.allows c' := by
  rw [allows_eq, allows_eq, UInt16.toBitVec_or, BitVec.getLsbD_or, Combo.getLsbD_bit]
  by_cases heq : c' = c <;> simp [heq]

theorem allows_and_not (p : ComboProfile) (c c' : Combo) :
    ({ p with mask := p.mask &&& ~~~c.bit } : ComboProfile).allows c' =
      if c' = c then false else p.allows c' := by
  have hlt := c'.index_lt
  rw [allows_eq, allows_eq, UInt16.toBitVec_and, UInt16.toBitVec_not, BitVec.getLsbD_and,
    BitVec.getLsbD_not, Combo.getLsbD_bit]
  by_cases heq : c' = c <;> simp [heq, hlt]

theorem allows_all (c : Combo) : ({} : ComboProfile).allows c = true := by cases c <;> decide

end ComboProfile

/-- What can happen to the sets of the profiles. -/
inductive Tuning where
  | turn (slot : Fin maxProfiles) (combo : Combo) (on : Bool)
  | copy (source target : Fin maxProfiles)
  | restore (slot : Fin maxProfiles)
  | restoreAll

def Tuning.apply (t : Tuning) (sets : Fin maxProfiles → Combo → Bool) :
    Fin maxProfiles → Combo → Bool := fun slot c =>
  match t with
  | turn target combo on => if slot = target ∧ c = combo then on else sets slot c
  | copy source target => if slot = target then sets source c else sets slot c
  | restore target => if slot = target then true else sets slot c
  | restoreAll => true

theorem Tuning.apply_copy_self (slot : Fin maxProfiles) (sets : Fin maxProfiles → Combo → Bool) :
    (Tuning.copy slot slot).apply sets = sets := by
  funext other c
  by_cases heq : other = slot <;> simp [apply, heq]

namespace Combo

/-- The sets after a history, the latest first, that began with every combo turned on. -/
def setsAfter (history : List Tuning) : Fin maxProfiles → Combo → Bool :=
  history.foldr Tuning.apply fun _ _ => true

/-- How the combo was turned when it last was, in this slot. -/
def lastTurn (history : List Tuning) (slot : Fin maxProfiles) (c : Combo) : Option Bool :=
  history.findSome? fun
    | .turn target combo on => if slot = target ∧ c = combo then some on else none
    | _ => none

theorem setsAfter_of_turns {history : List Tuning}
    (h : ∀ t ∈ history, ∃ slot combo on, t = .turn slot combo on) (slot : Fin maxProfiles)
    (c : Combo) : setsAfter history slot c = (lastTurn history slot c).getD true := by
  induction history with
  | nil => rfl
  | cons t rest ih =>
    obtain ⟨target, combo, on, rfl⟩ := h t List.mem_cons_self
    have hrest := ih fun t ht => h t (List.mem_cons_of_mem _ ht)
    rw [setsAfter] at hrest
    rw [setsAfter, lastTurn, List.foldr_cons, List.findSome?_cons, Tuning.apply]
    by_cases hhere : slot = target ∧ c = combo
    · simp [hhere]
    · simp only [hhere, if_false]
      exact hrest

end Combo

namespace StoreCall

/-- What the call does to the sets while this slot is active. -/
def tuning (active : Fin maxProfiles) : StoreCall → Option Tuning
  | enableCombo combo => some (.turn active combo true)
  | disableCombo combo => some (.turn active combo false)
  | copyProfile source target => do
    let source ← Records.slot? source
    let target ← Records.slot? target
    return .copy source target
  | resetProfile id => (Records.slot? id).map .restore
  | resetCurrent => some (.restore active)
  | factoryReset _ | emergencyReset _ => some .restoreAll
  | _ => none

/-- The calls that write through, but for the import of bytes from elsewhere. -/
def Tunes : StoreCall → Prop
  | init _ | verify | editProfile _ _ | importProfile _ _ => False
  | _ => True

end StoreCall

namespace Records

def sets (r : Records) (slot : Fin maxProfiles) (c : Combo) : Bool :=
  (r.profile slot).combo.allows c

variable {r : Records} {slot : Fin maxProfiles}

theorem sets_of_profile {r' : Records} (h : r.profile slot = r'.profile slot) :
    r.sets slot = r'.sets slot := by
  funext c
  rw [sets, sets, h]

theorem sets_withProfile (r : Records) (target slot : Fin maxProfiles) (p : ProfileRecord)
    (c : Combo) :
    (r.withProfile target p).sets slot c = if slot = target then p.combo.allows c
      else r.sets slot c := by
  by_cases heq : slot = target
  · rw [if_pos heq, heq, sets, profile_withProfile_self]
  · rw [if_neg heq, sets, profile_withProfile_of_ne r p heq, sets]

theorem sets_withProfile_of_same {p : ProfileRecord}
    (h : p.combo.mask = (r.profile slot).combo.mask) : (r.withProfile slot p).sets = r.sets := by
  funext other c
  rw [sets_withProfile]
  by_cases heq : other = slot
  · rw [if_pos heq, heq, sets, ComboProfile.allows, ComboProfile.allows, h]
  · rw [if_neg heq]

theorem sets_saved (live : DeviceSettings) (now : UInt32) :
    (r.saved slot live now).sets = r.sets :=
  sets_withProfile_of_same (r := r) rfl

theorem allows_template (n : Nat) (c : Combo) :
    (ProfileRecord.template n).combo.allows c = true := by
  have hmask : (ProfileRecord.template n).combo.mask = Combo.allMask := by
    unfold ProfileRecord.template
    split <;> rfl
  rw [ComboProfile.allows, hmask]
  exact ComboProfile.allows_all c

theorem sets_restored (c : Combo) {other : Fin maxProfiles} :
    (r.withProfile slot (.template slot)).sets other c =
      (Tuning.restore slot).apply r.sets other c := by
  rw [sets_withProfile, allows_template, Tuning.apply]

theorem sets_turned (r : Records) {active : Fin maxProfiles} {p : ProfileRecord} {combo c : Combo}
    {on : Bool} (h : p.combo.allows c = if c = combo then on else r.sets active c)
    (slot : Fin maxProfiles) :
    (r.withProfile active p).sets slot c = (Tuning.turn active combo on).apply r.sets slot c := by
  rw [sets_withProfile, Tuning.apply]
  by_cases hslot : slot = active
  · simp [hslot, h]
  · simp [hslot]

theorem sets_builtIn (now : UInt32) : (builtIn now).sets = Combo.setsAfter [] := by
  funext slot c
  rw [sets, profile_builtIn, allows_template]
  rfl

end Records

namespace Store

/-- A single call attempts to write the sets that its tuning makes of those before it. -/
theorem sets_attempt (s : Store) (active : Fin maxProfiles) (live : DeviceSettings)
    {call : StoreCall} (hc : call.Single) (ht : call.Tunes) :
    ((call.attempt s active live).map Attempt.records |>.getD s.records).sets =
      ((call.tuning active).map (Tuning.apply · s.records.sets)).getD s.records.sets := by
  have hsealed : ∀ (slot : Fin maxProfiles) (q : ProfileRecord),
      q.combo.mask = (s.records.profile slot).combo.mask →
        (s.records.withProfile slot q.sealed).sets = s.records.sets :=
    fun slot q hq => Records.sets_withProfile_of_same hq
  cases call with
  | save now => exact Records.sets_saved live now
  | task now =>
    rw [StoreCall.attempt]
    by_cases hdue : s.due active now = true
    · rw [if_pos hdue]
      exact Records.sets_saved live now
    · rw [if_neg hdue]
      rfl
  | factoryReset now | emergencyReset now => exact Records.sets_builtIn now
  | resetProfile id =>
    rw [StoreCall.attempt, StoreCall.tuning]
    cases Records.slot? id with
    | none => rfl
    | some slot =>
      funext other c
      exact Records.sets_restored c
  | resetCurrent =>
    funext other c
    exact Records.sets_restored (r := s.records) c
  | rename id text | saveProfile id =>
    rw [StoreCall.attempt]
    cases Records.slot? id with
    | none => rfl
    | some slot => exact hsealed slot _ rfl
  | copyProfile source target =>
    rw [StoreCall.attempt, StoreCall.tuning]
    cases Records.slot? source with
    | none => rfl
    | some source =>
      cases Records.slot? target with
      | none => rfl
      | some target =>
        funext slot c
        simp only [Option.bind_eq_bind, Option.bind_some]
        by_cases hsame : source = target
        · simp [hsame, Tuning.apply_copy_self]
        · simp only [hsame, if_false]
          exact Records.sets_withProfile s.records target slot _ c
  | enableCombo combo =>
    let p := s.records.profile active
    let turned : ProfileRecord :=
      { p with combo := { p.combo with mask := p.combo.mask ||| combo.bit } }
    have hallows : ∀ c, turned.sealed.combo.allows c =
        if c = combo then true else s.records.sets active c := p.combo.allows_or combo
    funext slot c
    exact s.records.sets_turned (hallows c) slot
  | disableCombo combo =>
    let p := s.records.profile active
    let turned : ProfileRecord :=
      { p with combo := { p.combo with mask := p.combo.mask &&& ~~~combo.bit } }
    have hallows : ∀ c, turned.sealed.combo.allows c =
        if c = combo then false else s.records.sets active c := p.combo.allows_and_not combo
    funext slot c
    exact s.records.sets_turned (hallows c) slot
  | setAutoSave on | setAutoLoad on | setSwitching on => rfl
  | saveAll =>
    funext slot c
    change (s.records.allSealed.profile slot).combo.allows c = _
    rw [Records.profile_allSealed]
    rfl
  | importProfile id bytes => exact ht.elim
  | _ => exact hc.elim

/-- Nothing is refused, the device can boot from the region, and both the region and the copies
hold these sets. -/
structure Bears (s : Store) (sets : Fin maxProfiles → Combo → Bool) : Prop where
  bootable : s.Bootable
  reads : s.flash.reads.Free
  writes : s.flash.writes.Free
  aimed : s.records.Aimed
  copies : s.records.sets = sets
  region : s.region.sets = sets

section

variable {s t : Store} {sets : Fin maxProfiles → Combo → Bool} {active : Fin maxProfiles}
  {live : DeviceSettings}

theorem sets_region (s : Store) (slot : Fin maxProfiles) :
    s.region.sets slot = (ProfileRecord.codec.read (s.stored (.profile slot))).combo.allows := by
  funext c
  rw [Records.sets, profile_region]

theorem allows_reread (p : ProfileRecord) :
    (ProfileRecord.codec.reread p).combo.allows = p.combo.allows := by
  funext c
  rw [ProfileRecord.reread_codec, ComboProfile.reread_codec]
  rfl

theorem Bears.carried (h : s.Bears sets) {r : Records} {parts : List Part}
    (hc : Carried s t r parts) (hframe : ∀ p ∉ parts, r.Same s.records p) {α : Type}
    {d : Outcome Store α} (ho : Orderly s d) (hd : d.state = t) (ht : r.Aimed) :
    t.Bears r.sets := by
  subst hd
  have hreached := reached_of_free h.writes parts
  have hregion : d.state.region.sets = r.sets := by
    funext slot
    rw [sets_region]
    by_cases hp : Part.profile slot ∈ parts
    · rw [hc.written _ (by rwa [hreached]), Records.image,
        Codec.read_pack ProfileRecord.codec_whole, allows_reread]
      rfl
    · have hcopied : (r.profile slot) = s.records.profile slot := hframe _ hp
      rw [hc.kept _ (by rwa [hreached]), ← sets_region, h.region, ← h.copies,
        Records.sets_of_profile hcopied]
  refine ⟨ho.bootable h.bootable, ho.reads h.reads, ho.writes h.writes, ?_, ?_, hregion⟩
  · rw [hc.records]
    exact ht
  · rw [hc.records]

theorem Bears.single (h : s.Bears sets) (hslot : s.records.activeSlot = .ok active)
    {call : StoreCall} (hc : call.Single) (ht : call.Tunes) :
    ∃ d, (call.perform live).run s = .ok d ∧
      d.state.Bears (((call.tuning active).map (Tuning.apply · sets)).getD sets) := by
  have hsets := sets_attempt s active live hc ht
  have hperforms : Performs (call.perform live) s live _ := performs_call hslot hc
  have haims : Aims (call.perform live) s := aims_call h.aimed call
  rw [h.copies] at hsets
  rw [← hsets]
  cases ha : call.attempt s active live with
  | none =>
    rw [ha] at hperforms
    obtain ⟨answer, hrun⟩ := hperforms
    refine ⟨_, hrun, ?_⟩
    have hcopies : s.records.sets = sets := h.copies
    rw [← hcopies] at h
    exact h
  | some a =>
    rw [ha] at hperforms
    have hshape := StoreCall.shape_of_attempt ha
    obtain ⟨d, hd, -, hcarried⟩ := hperforms.carried h.bootable.placed
    have hframe : ∀ p ∉ a.parts, a.records.Same s.records p := fun p hp => hshape.frame hp
    exact ⟨d, hd, h.carried hcarried hframe (haims.orderly d hd) rfl
      (hshape.accepted h.aimed).aimed⟩

theorem Bears.flush (h : s.Bears sets) (live : DeviceSettings) :
    ∃ d, (flush live).run s = .ok d ∧ d.state.Bears sets := by
  obtain ⟨active, hslot⟩ := h.aimed.exists_activeSlot
  have haims : Aims (Store.flush live) s := aims_flush h.aimed
  cases hdirty : s.dirty with
  | false => exact ⟨_, run_flush_of_clean hdirty live, h⟩
  | true =>
    obtain ⟨d, hd, -, -, hcarried⟩ := run_saveCurrent h.bootable.placed hslot live s.lastChange
    have hrun := run_flush_of_dirty hdirty live
    rw [hd] at hrun
    have haccepted : (s.records.saved active live s.lastChange).Accepted _ :=
      h.aimed.accepted_saved s.lastChange
    have hsets : (s.records.saved active live s.lastChange).sets = sets :=
      (Records.sets_saved live _).trans h.copies
    have hbears := h.carried hcarried (fun p hp => s.records.same_saved hp)
      (haims.orderly _ hrun) rfl haccepted.aimed
    rw [hsets] at hbears
    exact ⟨_, hrun, hbears⟩

theorem Bears.switchProfile (h : s.Bears sets) (live : DeviceSettings) (id : UInt8) :
    ∃ d, (switchProfile id live).run s = .ok d ∧ d.state.Bears sets := by
  cases ht : s.target id with
  | none => exact ⟨_, run_switchProfile_of_none ht live, h⟩
  | some slot =>
    obtain ⟨d, hd, hflushed⟩ := h.flush live
    obtain ⟨e, he, -, -, hcarried⟩ := run_enter hflushed.bootable.placed slot id live
    have hid := slot_of_target ht
    have haims : Aims (enter slot id live) d.state := aims_enter hflushed.aimed hid
    have haccepted : (d.state.records.switched id (d.state.liveOf slot id live)).Accepted _ :=
      hflushed.aimed.accepted_switched hid
    have hbears := hflushed.carried hcarried (fun p hp => d.state.records.same_switched hp)
      (haims.orderly e he) rfl haccepted.aimed
    -- entering a profile names it elsewhere and leaves all sets alone
    have hsets : (d.state.records.switched id (d.state.liveOf slot id live)).sets = sets :=
      hflushed.copies
    rw [hsets] at hbears
    exact ⟨_, run_switchProfile_of_flush ht hd he, hbears⟩

theorem Bears.call (h : s.Bears sets) (hslot : s.records.activeSlot = .ok active)
    {call : StoreCall} (ht : call.Tunes) (live : DeviceSettings) :
    ∃ d, (call.perform live).run s = .ok d ∧
      d.state.Bears (((call.tuning active).map (Tuning.apply · sets)).getD sets) := by
  cases call with
  | switchProfile id =>
    obtain ⟨d, hd, hbears⟩ := h.switchProfile live id
    exact ⟨_, Routine.run_bind_pure_of_ok hd _, hbears⟩
  | markDirty now =>
    exact ⟨⟨(live, none), s.markDirty now, []⟩, rfl, h.bootable.congr rfl rfl, h.reads, h.writes,
      h.aimed, h.copies, h.region⟩
  | init now | verify | editProfile id edit | importProfile id bytes => exact ht.elim
  | _ => exact h.single hslot trivial ht

theorem bears_format {now : UInt32} {d : Outcome Store DeviceSettings} (h : s.Placed)
    (hr : s.flash.reads.Free) (hw : s.flash.writes.Free) (hv : s.region.manager.isValid = false)
    (hd : (init live now).run s = .ok d) : d.state.Bears (Combo.setsAfter []) := by
  obtain ⟨e, he, hb⟩ := run_init_of_free h hr hw live now
  obtain rfl := Except.ok.inj (hd.symm.trans he)
  obtain ⟨hholds, hrecords, -⟩ := hb.formatted hv
  have hregion := region_eq_of_stored hholds.sound hholds.stored
  have haimed : (Records.builtIn now).Aimed := Records.aimed_of_isValid hholds.sound.manager
  refine ⟨hholds.bootable, hholds.reads, hb.writes, ?_, ?_, ?_⟩
  · rw [hrecords]
    exact haimed
  · rw [hrecords, Records.sets_builtIn]
  · rw [hregion, Records.sets_builtIn]

theorem Bears.reboot (h : s.Bears sets) {flash : Flash} (hb : flash.bytes = s.flash.bytes)
    (hr : flash.reads.Free) (hw : flash.writes.Free) (found : DeviceSettings) (now : UInt32) :
    ∃ d, (init found now).run (ofFlash flash s.base) = .ok d ∧ d.state.Bears sets := by
  have hboot : (ofFlash flash s.base).Bootable := h.bootable.congr rfl hb
  have hregion : (ofFlash flash s.base).region = s.region := region_congr hb rfl
  have hholds := hboot.holds hr
  rw [hregion] at hholds
  obtain ⟨d, hd, -, hbytes, -, hrecords⟩ := hholds.run_init found now
  have ho := (aims_init now).orderly d hd
  have hkept : d.state.region = s.region := region_congr (hbytes.trans hb) ho.base
  refine ⟨d, hd, ho.bootable hboot, ho.reads hr, ho.writes hw, (aims_init now).post d hd, ?_, ?_⟩
  · funext slot
    have hcopied : d.state.records.profile slot = s.region.profile slot := by
      rw [hrecords, Records.profile_booted]
    rw [Records.sets_of_profile hcopied, h.region]
  · rw [hkept, h.region]

end

/-- A life from the formatting of the region on, with nothing refused, and what happened to the
sets of the profiles in it, the latest first. -/
inductive Tuned : Store → List Tuning → Prop
  | format {s : Store} {live : DeviceSettings} {now : UInt32} {d : Outcome Store DeviceSettings}
      (h : s.Placed) (hr : s.flash.reads.Free) (hw : s.flash.writes.Free)
      (hv : s.region.manager.isValid = false) (hd : (init live now).run s = .ok d) :
      Tuned d.state []
  | call {s : Store} {history : List Tuning} (h : Tuned s history) {call : StoreCall}
      (ht : call.Tunes) {active : Fin maxProfiles} (hslot : s.records.activeSlot = .ok active)
      {live : DeviceSettings} {d : Outcome Store (DeviceSettings × Option Bool)}
      (hd : (call.perform live).run s = .ok d) :
      Tuned d.state ((call.tuning active).toList ++ history)
  | reboot {s : Store} {history : List Tuning} (h : Tuned s history) {flash : Flash}
      (hb : flash.bytes = s.flash.bytes) (hr : flash.reads.Free) (hw : flash.writes.Free)
      {found : DeviceSettings} {now : UInt32} {d : Outcome Store DeviceSettings}
      (hd : (init found now).run (ofFlash flash s.base) = .ok d) : Tuned d.state history

section

variable {s : Store} {history : List Tuning}

theorem setsAfter_tuning (tuning : Option Tuning) (history : List Tuning) :
    (tuning.map (Tuning.apply · (Combo.setsAfter history))).getD (Combo.setsAfter history) =
      Combo.setsAfter (tuning.toList ++ history) := by
  cases tuning <;> rfl

theorem Tuned.bears (h : Tuned s history) : s.Bears (Combo.setsAfter history) := by
  induction h with
  | format h hr hw hv hd => exact bears_format h hr hw hv hd
  | @call s history _ call ht active hslot live d hd ih =>
    obtain ⟨e, he, hbears⟩ := ih.call hslot ht live
    obtain rfl := Except.ok.inj (hd.symm.trans he)
    rw [setsAfter_tuning] at hbears
    exact hbears
  | @reboot s history _ flash hb hr hw found now d hd ih =>
    obtain ⟨e, he, hbears⟩ := ih.reboot hb hr hw found now
    obtain rfl := Except.ok.inj (hd.symm.trans he)
    exact hbears

theorem isComboEnabled_eq {active : Fin maxProfiles} (hslot : s.records.activeSlot = .ok active)
    (c : Combo) : s.isComboEnabled c = .ok (s.records.sets active c) := by
  rw [isComboEnabled, activeRecord_eq hslot]
  rfl

theorem Tuned.run_call (h : Tuned s history) {active : Fin maxProfiles}
    (hslot : s.records.activeSlot = .ok active) {call : StoreCall} (ht : call.Tunes)
    (live : DeviceSettings) :
    ∃ d, (call.perform live).run s = .ok d ∧
      Tuned d.state ((call.tuning active).toList ++ history) ∧
      d.state.records.sets =
        ((call.tuning active).map (Tuning.apply · s.records.sets)).getD s.records.sets := by
  have hcopies := h.bears.copies
  obtain ⟨d, hd, hbears⟩ := h.bears.call hslot ht live
  refine ⟨d, hd, h.call ht hslot hd, ?_⟩
  rw [hbears.copies, hcopies]

/-- A combo is enabled as it was last turned while the profile was active, or from the start;
saving, switching, renaming and booting make no difference. A copied profile has the set of the
other, and one that is reset has all combos enabled again. -/
theorem Tuned.sets_survive (h : Tuned s history) :
    ∃ active, s.records.activeSlot = .ok active ∧
      (∀ c, s.isComboEnabled c = .ok (Combo.setsAfter history active c)) ∧
      ((∀ t ∈ history, ∃ slot combo on, t = .turn slot combo on) →
        ∀ c, s.isComboEnabled c = .ok ((Combo.lastTurn history active c).getD true)) ∧
      (∀ (call : StoreCall) (live : DeviceSettings), call.Tunes →
        ∃ d, (call.perform live).run s = .ok d ∧
          Tuned d.state ((call.tuning active).toList ++ history)) ∧
      (∀ (flash : Flash) (found : DeviceSettings) (now : UInt32),
        flash.bytes = s.flash.bytes → flash.reads.Free → flash.writes.Free →
        ∃ d, (init found now).run (ofFlash flash s.base) = .ok d ∧ Tuned d.state history) ∧
      (∀ (live : DeviceSettings) (i j : UInt8) (source target : Fin maxProfiles),
        Records.slot? i = some source → Records.slot? j = some target →
        ∃ d, ((StoreCall.copyProfile i j).perform live).run s = .ok d ∧
          d.state.records.sets target = s.records.sets source) ∧
      (∀ (live : DeviceSettings) (i : UInt8) (slot : Fin maxProfiles),
        Records.slot? i = some slot →
        ∃ d, ((StoreCall.resetProfile i).perform live).run s = .ok d ∧
          ∀ c, d.state.records.sets slot c = true) ∧
      (∀ live : DeviceSettings, ∃ d, (StoreCall.resetCurrent.perform live).run s = .ok d ∧
        ∀ c, d.state.records.sets active c = true) ∧
      ∀ (live : DeviceSettings) (now : UInt32),
        ∃ d, ((StoreCall.factoryReset now).perform live).run s = .ok d ∧
          ∀ slot c, d.state.records.sets slot c = true := by
  have hbears := h.bears
  obtain ⟨active, hslot⟩ := hbears.aimed.exists_activeSlot
  have henabled : ∀ c, s.isComboEnabled c = .ok (Combo.setsAfter history active c) := by
    intro c
    rw [isComboEnabled_eq hslot, hbears.copies]
  refine ⟨active, hslot, henabled, fun hturns c => ?_, fun call live ht => ?_,
    fun flash found now hb hr hw => ?_, fun live i j source target hi hj => ?_,
    fun live i slot hi => ?_, fun live => ?_, fun live now => ?_⟩
  · rw [henabled, Combo.setsAfter_of_turns hturns]
  · obtain ⟨d, hd, htuned, -⟩ := h.run_call hslot ht live
    exact ⟨d, hd, htuned⟩
  · obtain ⟨d, hd, -⟩ := hbears.reboot hb hr hw found now
    exact ⟨d, hd, h.reboot hb hr hw hd⟩
  · have ht : (StoreCall.copyProfile i j).Tunes := trivial
    have hcopy : (StoreCall.copyProfile i j).tuning active = some (.copy source target) := by
      rw [StoreCall.tuning, hi, hj]
      rfl
    obtain ⟨d, hd, -, hsets⟩ := h.run_call hslot ht live
    refine ⟨d, hd, ?_⟩
    funext c
    simp [hsets, hcopy, Tuning.apply]
  · have ht : (StoreCall.resetProfile i).Tunes := trivial
    have hrestore : (StoreCall.resetProfile i).tuning active = some (.restore slot) := by
      rw [StoreCall.tuning, hi]
      rfl
    obtain ⟨d, hd, -, hsets⟩ := h.run_call hslot ht live
    exact ⟨d, hd, fun c => by simp [hsets, hrestore, Tuning.apply]⟩
  · have ht : StoreCall.resetCurrent.Tunes := trivial
    obtain ⟨d, hd, -, hsets⟩ := h.run_call hslot ht live
    exact ⟨d, hd, fun c => by simp [hsets, StoreCall.tuning, Tuning.apply]⟩
  · have ht : (StoreCall.factoryReset now).Tunes := trivial
    obtain ⟨d, hd, -, hsets⟩ := h.run_call hslot ht live
    exact ⟨d, hd, fun slot c => by simp [hsets, StoreCall.tuning, Tuning.apply]⟩

/-- In a freshly formatted device only the combo for the factory reset is turned off, and the
device is booted again. -/
theorem Tuned.sets_survive_turned_off :
    ∃ s : Store, Tuned s [.turn 0 .factoryReset false] ∧
      s.isComboEnabled .factoryReset = .ok false ∧ s.isComboEnabled .calibrate = .ok true ∧
      ∃ d, (init {} 0).run (ofFlash { bytes := s.flash.bytes } s.base) = .ok d ∧
        Tuned d.state [.turn 0 .factoryReset false] := by
  have hfree := Gate.free_default
  obtain ⟨d, hd, hbooted⟩ := run_init_of_free placed_erased hfree hfree {} 0
  have hformat : Tuned d.state [] := .format placed_erased hfree hfree isValid_erased hd
  have hslot : d.state.records.activeSlot = .ok 0 := by
    rw [(hbooted.formatted isValid_erased).2.1]
    rfl
  have hperforms : Performs ((StoreCall.disableCombo .factoryReset).perform {}) d.state {}
      (some (.mask d.state.records {} 0 (· &&& ~~~Combo.factoryReset.bit))) :=
    performs_call hslot trivial
  obtain ⟨e, he, -, hcarried⟩ := hperforms.carried hbooted.holds.placed
  have hstill : e.state.records.activeSlot = .ok 0 := by
    rw [hcarried.records]
    exact hslot
  have hturns : (StoreCall.disableCombo .factoryReset).Tunes := trivial
  have hturned : Tuned e.state [.turn 0 .factoryReset false] := hformat.call hturns hslot he
  obtain ⟨active, hactive, henabled, -, -, hreboots, -⟩ := hturned.sets_survive
  obtain rfl := Except.ok.inj (hstill.symm.trans hactive)
  exact ⟨e.state, hturned, henabled _, henabled _, hreboots { bytes := e.state.flash.bytes } {} 0
    rfl hfree hfree⟩

end

end Store

end TwinStick
