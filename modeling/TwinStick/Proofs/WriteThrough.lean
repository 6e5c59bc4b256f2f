import TwinStick.Proofs.Bootable
import TwinStick.Proofs.DirtyFlag

/-! Writing through. While every access is granted, the region holds at all times
exactly the packed copies, back to back, and a call that is about one slot leaves all
others alone. -/

namespace TwinStick

theorem Flash.slice_add (f : Flash) (offset m n : Nat) :
    f.slice offset (m + n) = f.slice offset m ++ f.slice (offset + m) n := by
  rw [slice, slice, slice, List.take_add, List.drop_drop]

namespace StoreCall

/-- The calls that change copies and flash together. -/
def WritesThrough : StoreCall → Prop
  | init _ | verify | editProfile _ _ => False
  | _ => True

/-- The slots that a call is about. Leaving a profile may save it, entering one does
not touch it. -/
def Concerns (active : UInt8) : StoreCall → Fin maxProfiles → Prop
  | save _, slot | task _, slot | switchProfile _, slot | resetCurrent, slot
  | enableCombo _, slot | disableCombo _, slot => active.toNat = slot
  | resetProfile id, slot | rename id _, slot | copyProfile _ id, slot
  | importProfile id _, slot | saveProfile id, slot | editProfile id _, slot => id.toNat = slot
  | factoryReset _, _ | emergencyReset _, _ | saveAll, _ | init _, _ => True
  | markDirty _, _ | setAutoSave _, _ | setAutoLoad _, _ | setSwitching _, _ | verify, _ => False

theorem concerns_of_mem_parts {active slot : Fin maxProfiles} {id : UInt8}
    (hactive : id.toNat = active) {call : StoreCall} (h : .profile slot ∈ call.parts active) :
    call.Concerns id slot := by
  cases call with
  | save now | task now | resetCurrent | enableCombo combo | disableCombo combo =>
    have hslot : slot = active := by simpa [parts] using h
    exact hslot ▸ hactive
  | resetProfile target | rename target text | copyProfile source target
  | importProfile target bytes | saveProfile target =>
    have hslot : Records.slot? target = some slot := by simpa [parts] using h
    exact Records.toNat_of_slot? hslot
  | factoryReset now | emergencyReset now | saveAll => exact trivial
  | _ => simp [parts] at h

end StoreCall

namespace Store

/-- The records lie back to back and make up the region. -/
theorem slice_region (s : Store) :
    s.flash.slice s.base.toNat regionLength = Part.all.flatMap s.stored := by
  have hall : Part.all = [.quick, .manager, .profile 0, .profile 1, .profile 2, .profile 3] := rfl
  have hl : regionLength = 4 + (11 + (71 + (71 + (71 + 71)))) := rfl
  rw [hl, Flash.slice_add, Flash.slice_add, Flash.slice_add, Flash.slice_add, Flash.slice_add, hall]
  simp only [List.flatMap_cons, List.flatMap_nil, List.append_nil, Nat.add_assoc]
  rfl

theorem Backed.slice_region {s : Store} (h : s.Backed) :
    s.flash.slice s.base.toNat regionLength = s.records.bytes := by
  rw [Store.slice_region, Records.bytes]
  exact congrArg Part.all.flatMap (funext h)

section

variable {s : Store} {live : DeviceSettings}

theorem Backed.carried {t : Store} {r : Records} {parts : List Part} (h : s.Backed)
    (hw : s.flash.writes.Free) (hc : Carried s t r parts)
    (hsame : ∀ p ∉ parts, r.Same s.records p) : t.Backed := by
  intro p
  have hreached := reached_of_free hw parts
  rw [hc.records]
  by_cases hp : p ∈ parts
  · exact hc.written p (by rwa [hreached])
  · rw [hc.kept p (by rwa [hreached]), (hsame p hp).image]
    exact h p

/-- The routine leaves all copies in flash, and the copies of these slots as they
were. -/
def Upholds (r : Routine Store α) (s : Store) (spared : Fin maxProfiles → Prop) : Prop :=
  ∃ d, r.run s = .ok d ∧ d.state.Backed ∧
    ∀ slot, spared slot → d.state.records.profile slot = s.records.profile slot

theorem Upholds.of_bind_pure {r : Routine Store α} {spared : Fin maxProfiles → Prop}
    (h : Upholds r s spared) (f : α → β) : Upholds (r >>= fun a => pure (f a)) s spared := by
  obtain ⟨d, hd, hb, hk⟩ := h
  exact ⟨_, Routine.run_bind_pure_of_ok hd f, hb, hk⟩

theorem upholds_single (hb : s.Backed) (hs : s.Placed) (hw : s.flash.writes.Free)
    (haimed : s.records.Aimed) {call : StoreCall} (hc : call.Single) :
    Upholds (call.perform live) s fun slot => ¬ call.Concerns s.active slot := by
  obtain ⟨active, hslot⟩ := haimed.exists_activeSlot
  have hperforms : Performs (call.perform live) s live _ := performs_call hslot hc
  cases ha : call.attempt s active live with
  | none =>
    rw [ha] at hperforms
    obtain ⟨answer, hrun⟩ := hperforms
    exact ⟨_, hrun, hb, fun _ _ => rfl⟩
  | some a =>
    rw [ha] at hperforms
    have hshape := StoreCall.shape_of_attempt ha
    obtain ⟨d, hd, -, hcar⟩ := hperforms.carried hs
    refine ⟨d, hd, hb.carried hw hcar fun p hp => hshape.frame hp, fun slot hn => ?_⟩
    have hp : Part.profile slot ∉ a.parts := by
      intro hp
      rw [StoreCall.parts_of_attempt ha] at hp
      exact hn (StoreCall.concerns_of_mem_parts (Records.toNat_of_activeSlot hslot) hp)
    rw [hcar.records]
    exact hshape.frame hp

theorem upholds_flush (hb : s.Backed) (hs : s.Placed) (hw : s.flash.writes.Free)
    (haimed : s.records.Aimed) : Upholds (flush live) s fun slot => s.active.toNat ≠ slot := by
  obtain ⟨active, hslot⟩ := haimed.exists_activeSlot
  cases hdirty : s.dirty with
  | false => exact ⟨_, run_flush_of_clean hdirty live, hb, fun _ _ => rfl⟩
  | true =>
    obtain ⟨d, hd, -, -, hcar⟩ := run_saveCurrent hs hslot live s.lastChange
    have hrun := run_flush_of_dirty hdirty live
    rw [hd] at hrun
    refine ⟨_, hrun, hb.carried hw hcar fun p hp => s.records.same_saved hp, fun slot hn => ?_⟩
    have hne : slot ≠ active := by
      rintro rfl
      exact hn (Records.toNat_of_activeSlot hslot)
    change d.state.records.profile slot = _
    rw [hcar.records]
    exact Records.profile_saved_of_ne _ _ _ hne

theorem upholds_switchProfile (hb : s.Backed) (hs : s.Placed) (hw : s.flash.writes.Free)
    (haimed : s.records.Aimed) (id : UInt8) :
    Upholds (switchProfile id live) s fun slot => s.active.toNat ≠ slot := by
  cases ht : s.target id with
  | none => exact ⟨_, run_switchProfile_of_none ht live, hb, fun _ _ => rfl⟩
  | some slot =>
    have hflush : Upholds (flush live) s _ := upholds_flush hb hs hw haimed
    obtain ⟨d, hd, hbacked, hk⟩ := hflush
    have ho := (aims_flush haimed).orderly d hd
    -- entering names the slot in the other two records and leaves its profile alone
    obtain ⟨e, he, -, -, hcar⟩ := run_enter (ho.placed hs) slot id live
    refine ⟨_, run_switchProfile_of_flush ht hd he, ?_, fun other hn => ?_⟩
    · exact hbacked.carried (ho.writes hw) hcar fun p hp => d.state.records.same_switched hp
    · rw [← hk other hn]
      change e.state.records.profile other = _
      rw [hcar.records]
      rfl

theorem upholds_call (hb : s.Backed) (hs : s.Placed) (hw : s.flash.writes.Free)
    (haimed : s.records.Aimed) {call : StoreCall} (hc : call.WritesThrough) :
    Upholds (call.perform live) s fun slot => ¬ call.Concerns s.active slot := by
  cases call with
  | switchProfile id => exact (upholds_switchProfile hb hs hw haimed id).of_bind_pure _
  | markDirty now => exact ⟨_, rfl, hb, fun _ _ => rfl⟩
  | init now | verify | editProfile id edit => exact hc.elim
  | _ => exact upholds_single hb hs hw haimed trivial

end

/-- Boot brings the copies and this region together: it will be formatted, or it is
loaded and names the same profile in the quick word as in the manager record. -/
def Consistent (s : Store) : Prop :=
  s.region.manager.isValid = false ∨
    s.region.manager.isValid = true ∧ s.region.manager.autoLoad = true ∧
      s.region.quick.active = s.region.manager.active

/-- How a store gets on from boot over the region of `s`, as long as every access is
granted. -/
inductive Operated (s : Store) : Store → Prop
  | boot {live : DeviceSettings} {now : UInt32} {d : Outcome Store DeviceSettings}
      (h : s.Placed) (hr : s.flash.reads.Free) (hw : s.flash.writes.Free) (hs : s.Consistent)
      (hd : (init live now).run s = .ok d) : Operated s d.state
  | call {t : Store} (h : Operated s t) {call : StoreCall} (hc : call.WritesThrough)
      {live : DeviceSettings} {d : Outcome Store (DeviceSettings × Option Bool)}
      (hd : (call.perform live).run t = .ok d) : Operated s d.state

/-- The copies of `t` are in flash, and outside of the region flash is as in `s`. -/
structure Through (s t : Store) : Prop where
  placed : t.Placed
  writes : t.flash.writes.Free
  aimed : t.records.Aimed
  backed : t.Backed
  base : t.base = s.base
  outside : ∀ i, i < s.base.toNat ∨ s.base.toNat + regionLength ≤ i →
    t.flash.bytes[i]? = s.flash.bytes[i]?

section

variable {s t : Store}

theorem Consistent.booted (hs : s.Consistent) (live : DeviceSettings) (now : UInt32) :
    (s.recovered now).booted live = s.recovered now := by
  rcases hs with hv | ⟨hv, hauto, hagree⟩
  · rw [recovered_of_invalid hv]
    exact Records.booted_builtIn now live
  · rw [recovered, if_pos hv, Records.booted, Records.manager_mended, if_pos hauto]
    exact Records.synced_of_agrees hagree

theorem through_boot {live : DeviceSettings} {now : UInt32} {d : Outcome Store DeviceSettings}
    (h : s.Placed) (hr : s.flash.reads.Free) (hw : s.flash.writes.Free) (hs : s.Consistent)
    (hd : (init live now).run s = .ok d) : Through s d.state := by
  obtain ⟨e, he, hb⟩ := run_init_of_free h hr hw live now
  obtain rfl := Except.ok.inj (hd.symm.trans he)
  have haims : Aims (init live now) s := aims_init now
  have ho := haims.orderly d hd
  refine ⟨hb.holds.placed, hb.writes, haims.post d hd, fun p => ?_, ho.base, fun i hi =>
    ho.outside hi⟩
  rw [hb.holds.stored, hb.records, hs.booted]

theorem Through.call (h : Through s t) {call : StoreCall} (hc : call.WritesThrough)
    (live : DeviceSettings) :
    ∃ d, (call.perform live).run t = .ok d ∧ Through s d.state ∧
      ∀ slot, ¬ call.Concerns t.active slot →
        d.state.records.profile slot = t.records.profile slot := by
  have haims : Aims (call.perform live) t := aims_call h.aimed call
  have hupholds : Upholds (call.perform live) t _ :=
    upholds_call h.backed h.placed h.writes h.aimed hc
  obtain ⟨d, hd, hb, hk⟩ := hupholds
  have ho := haims.orderly d hd
  refine ⟨d, hd, ⟨ho.placed h.placed, ho.writes h.writes, haims.post d hd, hb,
    ho.base.trans h.base, fun i hi => ?_⟩, hk⟩
  have hi' := hi
  rw [← h.base] at hi'
  rw [ho.outside hi', h.outside i hi]

theorem Operated.through (h : Operated s t) : Through s t := by
  induction h with
  | boot h hr hw hs hd => exact through_boot h hr hw hs hd
  | @call t _ call hc live d hd ih =>
    obtain ⟨e, he, hthrough, -⟩ := ih.call hc live
    obtain rfl := Except.ok.inj (hd.symm.trans he)
    exact hthrough

/-- The region is exactly the packed copies, nothing else in flash is written, and a
call leaves alone the copies and the bytes of all slots but those that it is about. -/
theorem Operated.writes_through (h : Operated s t) :
    t.flash.slice s.base.toNat regionLength = t.records.bytes ∧
    (∀ i, i < s.base.toNat ∨ s.base.toNat + regionLength ≤ i →
      t.flash.bytes[i]? = s.flash.bytes[i]?) ∧
    ∀ (call : StoreCall) (live : DeviceSettings), call.WritesThrough →
      ∃ d, (call.perform live).run t = .ok d ∧ Operated s d.state ∧
        ∀ slot, ¬ call.Concerns t.active slot →
          d.state.records.profile slot = t.records.profile slot ∧
            d.state.stored (.profile slot) = t.stored (.profile slot) := by
  have ht := h.through
  refine ⟨?_, ht.outside, fun call live hc => ?_⟩
  · rw [← ht.base]
    exact ht.backed.slice_region
  · obtain ⟨d, hd, hthrough, hk⟩ := ht.call hc live
    refine ⟨d, hd, h.call hc hd, fun slot hn => ⟨hk slot hn, ?_⟩⟩
    rw [hthrough.backed, ht.backed, Records.image, Records.image, hk slot hn]

set_option maxRecDepth 100000 in
/-- The third slot gets a name, in the copy and in flash, and the second keeps its own. -/
theorem writes_through_renamed :
    ∃ d, (init {} 0).run (ofFlash (.erased regionLength) 0) = .ok d ∧
      ∃ e, ((StoreCall.rename 2 "Drawing").perform {}).run d.state = .ok e ∧
        e.state.flash.slice 0 regionLength = e.state.records.bytes ∧
        (e.state.records.profile 2).name.text = "Drawing" ∧
        (e.state.region.profile 2).name.text = "Drawing" ∧
        e.state.records.profile 1 = d.state.records.profile 1 := by
  have hrun : ((init {} 0).run (ofFlash (.erased regionLength) 0)).toOption.bind (fun d =>
      (((StoreCall.rename 2 "Drawing").perform {}).run d.state).toOption.map fun e =>
        ((e.state.records.profile 2).name.text, (e.state.region.profile 2).name.text)) =
          some ("Drawing", "Drawing") := by
    decide +kernel
  obtain ⟨d, hd, h⟩ := Option.bind_eq_some_iff.mp hrun
  obtain ⟨e, he, hnames⟩ := Option.map_eq_some_iff.mp h
  obtain ⟨hcached, hstored⟩ := Prod.mk.inj hnames
  have hd := eq_ok_of_toOption hd
  have hboot : Operated (ofFlash (.erased regionLength) 0) d.state :=
    .boot placed_erased Gate.free_default Gate.free_default (.inl isValid_erased) hd
  obtain ⟨-, -, hcalls⟩ := Operated.writes_through hboot
  obtain ⟨e', he', hnext, hkept⟩ := hcalls (.rename 2 "Drawing") {} trivial
  obtain rfl := Except.ok.inj ((eq_ok_of_toOption he).symm.trans he')
  obtain ⟨hregion, -, -⟩ := Operated.writes_through hnext
  have hn : ¬ (StoreCall.rename 2 "Drawing").Concerns d.state.active 1 := by
    simp [StoreCall.Concerns]
  exact ⟨d, hd, e, he', hregion, hcached, hstored, (hkept 1 hn).1⟩

end

end Store

end TwinStick
