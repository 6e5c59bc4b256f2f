import TwinStick.Proofs.Repair
import TwinStick.Proofs.Saving
import TwinStick.Store.Call

/-! The dirty flag when writes are refused. What flash lacks is at most what it is
owed: the records whose last write was refused or not come to. Saving keeps the
flag's promise that the next save brings all of it to flash; the other operations
keep it only under the conditions given here. -/

namespace TwinStick

namespace Gate

/-- What flash is owed after an attempt to write some records. -/
def owing (g : Gate) (owed parts : List Part) : List Part :=
  (owed ++ parts).filter fun p => p ∉ parts.take (g.streak parts.length)

theorem mem_owing {g : Gate} {owed parts : List Part} {p : Part} :
    p ∈ g.owing owed parts ↔
      (p ∈ owed ∨ p ∈ parts) ∧ p ∉ parts.take (g.streak parts.length) := by
  simp [owing, or_and_right]

theorem owing_of_granted {g : Gate} {owed parts : List Part}
    (h : g.streak parts.length = parts.length) :
    g.owing owed parts = owed.filter fun p => p ∉ parts := by
  rw [owing, h, List.take_length, List.filter_append]
  have hn : (parts.filter fun p => p ∉ parts) = [] := by
    refine List.filter_eq_nil_iff.mpr fun p hp => ?_
    simp [hp]
  rw [hn, List.append_nil]

theorem owing_eq_nil {g : Gate} {owed parts : List Part}
    (h : g.streak parts.length = parts.length) (hs : ∀ p ∈ owed, p ∈ parts) :
    g.owing owed parts = [] := by
  rw [owing_of_granted h]
  refine List.filter_eq_nil_iff.mpr fun p hp => ?_
  simp [hs p hp]

theorem getElem_mem_owing {g : Gate} {parts : List Part} (owed : List Part)
    (hnd : parts.Nodup) {i : Nat} (hi : i < parts.length) (hg : g.streak parts.length ≤ i) :
    parts[i] ∈ g.owing owed parts := by
  refine mem_owing.mpr ⟨.inr (List.getElem_mem hi), fun hm => ?_⟩
  obtain ⟨j, hj, he⟩ := List.mem_take_iff_getElem.mp hm
  have hji := (hnd.getElem_inj_iff).mp he
  omega

theorem owing_eq_nil_iff {g : Gate} {owed parts : List Part} (hnd : parts.Nodup) :
    g.owing owed parts = [] ↔
      g.streak parts.length = parts.length ∧ ∀ p ∈ owed, p ∈ parts := by
  constructor
  · intro h
    have hg : g.streak parts.length = parts.length := by
      by_contra hne
      have hlt := lt_of_le_of_ne (g.streak_le parts.length) hne
      have hm := getElem_mem_owing (g := g) owed hnd hlt le_rfl
      rw [h] at hm
      exact List.not_mem_nil hm
    refine ⟨hg, fun p hp => ?_⟩
    by_contra hn
    have hm : p ∈ g.owing owed parts :=
      mem_owing.mpr ⟨.inl hp, fun ht => hn (List.mem_of_mem_take ht)⟩
    rw [h] at hm
    exact List.not_mem_nil hm
  · intro ⟨hg, hs⟩
    exact owing_eq_nil hg hs

end Gate

namespace Store

/-- The operations that carry the settings in force to flash, or say that they are
to be carried there. -/
def Carries : StoreCall → Prop
  | .markDirty _ | .task _ | .save _ | .switchProfile _ | .resetCurrent | .factoryReset _ => True
  | _ => False

def saving (active : Fin maxProfiles) : List Part := [.quick, .manager, .profile active]

/-- What flash is owed after a call, as far as refused writes determine it. -/
def owes (s : Store) (active : Fin maxProfiles) (owed : List Part) : StoreCall → List Part
  | .save _ => s.flash.writes.owing owed (saving active)
  | .task now =>
    if s.due active now then s.flash.writes.owing owed (saving active) else owed
  | .switchProfile id =>
    match s.target id with
    | none => owed
    | some _ =>
      if s.dirty then
        (s.flash.writes.after (saving active).length).owing
          (s.flash.writes.owing owed (saving active)) [.quick, .manager]
      else s.flash.writes.owing owed [.quick, .manager]
  | .resetCurrent => s.flash.writes.owing owed [.profile active, .quick]
  | .factoryReset _ => s.flash.writes.owing owed Part.all
  | _ => owed

def activeAfter (s : Store) (active : Fin maxProfiles) : StoreCall → Fin maxProfiles
  | .switchProfile id => (s.target id).getD active
  | .factoryReset _ => 0
  | _ => active

def dirtyAfter (s : Store) (active : Fin maxProfiles) : StoreCall → Bool
  | .save _ => !decide (s.Grants (saving active))
  | .task now => if s.due active now then !decide (s.Grants (saving active)) else s.dirty
  | .switchProfile id =>
    match s.target id with
    | none => s.dirty
    | some _ => s.dirty && !decide (s.Grants (saving active))
  | .markDirty _ => true
  | .resetCurrent | .factoryReset _ => false
  | _ => s.dirty

/-- Every record that flash is not owed is in flash as the copy has it. -/
structure Steady (s : Store) (active : Fin maxProfiles) (owed : List Part) : Prop where
  placed : s.Placed
  slot : s.records.activeSlot = .ok active
  backed : ∀ p ∉ owed, s.stored p = s.records.image p

theorem Steady.carry {s t : Store} {active next : Fin maxProfiles} {owed parts : List Part}
    {r : Records} (h : s.Steady active owed) (hc : Carried s t r parts)
    (hr : ∀ p ∉ parts, r.image p = s.records.image p) (hn : r.activeSlot = .ok next) :
    t.Steady next (s.flash.writes.owing owed parts) := by
  refine ⟨hc.placed h.placed, ?_, ?_⟩
  · rw [hc.records]
    exact hn
  · intro p hp
    rw [hc.records]
    by_cases hm : p ∈ s.reached parts
    · exact hc.written p hm
    · have ho : ¬ (p ∈ owed ∨ p ∈ parts) := fun ho => hp (Gate.mem_owing.mpr ⟨ho, hm⟩)
      obtain ⟨ho, hparts⟩ := not_or.mp ho
      rw [hc.kept p hm, h.backed p ho, hr p hparts]

theorem Steady.congr {s t : Store} {active : Fin maxProfiles} {owed : List Part}
    (h : s.Steady active owed) (hf : t.flash.bytes = s.flash.bytes) (hb : t.base = s.base)
    (hr : t.records = s.records) : t.Steady active owed := by
  refine ⟨h.placed.congr hb (by rw [Flash.capacity, Flash.capacity, hf]), ?_, ?_⟩
  · rw [hr]
    exact h.slot
  · intro p hp
    rw [stored_congr hf hb, hr]
    exact h.backed p hp

section Calls

variable {s : Store} {active : Fin maxProfiles} {owed : List Part}

theorem Steady.saveCurrent (h : s.Steady active owed) (live : DeviceSettings) (now : UInt32) :
    ∃ d, (Store.saveCurrent live now).run s = .ok d ∧
      d.state.Steady active (s.flash.writes.owing owed (saving active)) ∧
      d.state.dirty = !decide (s.Grants (saving active)) ∧
      d.state.flash.writes = s.flash.writes.after (saving active).length := by
  obtain ⟨d, hd, hv, hdirty, hc⟩ := run_saveCurrent h.placed h.slot live now
  refine ⟨d, hd, h.carry hc (fun p hp => (s.records.same_saved hp).image) h.slot, ?_, hc.writes⟩
  rw [hdirty, hv]
  rfl

theorem Steady.enter (h : s.Steady active owed) {id : UInt8} {slot : Fin maxProfiles}
    (hid : Records.slot? id = some slot) (live : DeviceSettings) :
    ∃ d, (Store.enter slot id live).run s = .ok d ∧
      d.state.Steady slot (s.flash.writes.owing owed [.quick, .manager]) ∧
      d.state.dirty = s.dirty := by
  obtain ⟨d, hd, -, hdirty, hc⟩ := run_enter h.placed slot id live
  exact ⟨d, hd, h.carry hc (fun p hp => (s.records.same_switched hp).image)
    (Records.activeSlot_switched hid _), hdirty⟩

theorem Steady.switchProfile (h : s.Steady active owed) (id : UInt8) (live : DeviceSettings) :
    ∃ d, (Store.switchProfile id live).run s = .ok d ∧
      d.state.Steady (s.activeAfter active (.switchProfile id))
        (s.owes active owed (.switchProfile id)) ∧
      d.state.dirty = s.dirtyAfter active (.switchProfile id) := by
  rw [activeAfter, owes, dirtyAfter]
  cases ht : s.target id with
  | none => exact ⟨_, run_switchProfile_of_none ht live, h, rfl⟩
  | some slot =>
    have hid := slot_of_target ht
    cases hdirty : s.dirty with
    | false =>
      obtain ⟨d, hd, hs, hf⟩ := h.enter hid live
      exact ⟨_, run_switchProfile_of_flush ht (run_flush_of_clean hdirty live) hd, hs,
        hf.trans hdirty⟩
    | true =>
      obtain ⟨e, he, hsave, hf, hw⟩ := h.saveCurrent live s.lastChange
      obtain ⟨d, hd, hs, hfd⟩ := hsave.enter hid live
      have hflush : (flush live).run s = .ok ⟨(), e.state, e.events⟩ := by
        rw [run_flush_of_dirty hdirty, he]
        rfl
      rw [hw] at hs
      refine ⟨_, run_switchProfile_of_flush ht hflush hd, hs, ?_⟩
      rw [hfd, hf, Bool.true_and]

/-- No call stops at a fault, and what it does to the flag and to what is owed
depends on the copies only through the active slot and the switches. -/
theorem Steady.run_call (h : s.Steady active owed) {call : StoreCall} (hc : Carries call)
    (live : DeviceSettings) :
    ∃ d, (call.perform live).run s = .ok d ∧
      d.state.Steady (s.activeAfter active call) (s.owes active owed call) ∧
      d.state.dirty = s.dirtyAfter active call := by
  cases call with
  | save now =>
    obtain ⟨d, hd, hs, hf, -⟩ := h.saveCurrent live now
    exact ⟨_, Routine.run_bind_pure_of_ok hd _, hs, hf⟩
  | markDirty now =>
    exact ⟨⟨(live, none), s.markDirty now, []⟩, rfl, h.congr rfl rfl rfl, rfl⟩
  | task now =>
    have ht := run_task h.slot live now
    by_cases hdue : s.due active now = true
    · obtain ⟨d, hd, hs, hf, -⟩ := h.saveCurrent live now
      rw [if_pos hdue, hd] at ht
      refine ⟨_, Routine.run_bind_pure_of_ok ht _, ?_, ?_⟩
      · rw [owes, if_pos hdue]
        exact hs
      · rw [dirtyAfter, if_pos hdue]
        exact hf
    · rw [if_neg hdue] at ht
      refine ⟨_, Routine.run_bind_pure_of_ok ht _, ?_, ?_⟩
      · rw [owes, if_neg hdue]
        exact h
      · rw [dirtyAfter, if_neg hdue]
  | switchProfile id =>
    obtain ⟨d, hd, hs, hf⟩ := h.switchProfile id live
    exact ⟨_, Routine.run_bind_pure_of_ok hd _, hs, hf⟩
  | resetCurrent =>
    obtain ⟨d, hd, -, hf, hcar⟩ := run_resetCurrent h.placed h.slot live
    have hs := h.carry hcar (fun p hp => (s.records.same_reset hp).image) h.slot
    exact ⟨_, Routine.run_bind_pure_of_ok hd _, hs, hf⟩
  | factoryReset now =>
    obtain ⟨d, hd, -, hf, hcar⟩ := run_factoryReset h.placed now
    have hslot : (Records.builtIn now).activeSlot = .ok 0 := rfl
    have hs := h.carry hcar (fun p hp => absurd p.mem_all hp) hslot
    exact ⟨_, Routine.run_bind_pure_of_ok hd _, hs, hf⟩
  | _ => exact hc.elim

end Calls

/-- What the flag promises: a clean store owes flash nothing, and what a dirty one
owes is what the next save writes. -/
structure Covered (dirty : Bool) (active : Fin maxProfiles) (owed : List Part) : Prop where
  clean : dirty = false → owed = []
  saved : ∀ p ∈ owed, p ∈ saving active

/-- When a call keeps that promise. Saving always does. -/
def Keeps (s : Store) (active : Fin maxProfiles) (owed : List Part) : StoreCall → Prop
  | .switchProfile id => ∀ slot, s.target id = some slot →
    if s.dirty then
      if s.Grants (saving active) then
        (s.flash.writes.after (saving active).length).streak 2 = 2
      else slot = active
    else s.Grants [.quick, .manager]
  | .resetCurrent => s.Grants [.profile active, .quick] ∧ .manager ∉ owed
  | .factoryReset _ => s.Grants Part.all
  | _ => True

theorem nodup_saving (active : Fin maxProfiles) : (saving active).Nodup := by
  simp [saving]

theorem nodup_enter : [Part.quick, Part.manager].Nodup := by
  decide

section Promise

variable {s : Store} {active : Fin maxProfiles} {owed : List Part}

theorem Covered.save (h : Covered s.dirty active owed) :
    Covered (!decide (s.Grants (saving active))) active
      (s.flash.writes.owing owed (saving active)) := by
  refine ⟨?_, ?_⟩
  · intro hd
    have hg : s.Grants (saving active) := by simpa using hd
    exact Gate.owing_eq_nil hg h.saved
  · intro p hp
    rcases (Gate.mem_owing.mp hp).1 with ho | hs
    · exact h.saved p ho
    · exact hs

theorem covered_clean_iff {parts : List Part} (hnd : parts.Nodup) {g : Gate}
    {next : Fin maxProfiles} :
    Covered false next (g.owing owed parts) ↔
      g.streak parts.length = parts.length ∧ ∀ p ∈ owed, p ∈ parts := by
  rw [← Gate.owing_eq_nil_iff hnd]
  constructor
  · intro h
    exact h.clean rfl
  · intro h
    rw [h]
    exact ⟨fun _ => rfl, by simp⟩

theorem Covered.reset_iff (h : Covered s.dirty active owed) :
    Covered false active (s.flash.writes.owing owed [.profile active, .quick]) ↔
      s.Grants [.profile active, .quick] ∧ .manager ∉ owed := by
  rw [covered_clean_iff (by simp)]
  refine and_congr Iff.rfl ?_
  constructor
  · intro hs hm
    simpa using hs _ hm
  · intro hm p hp
    have hsave := h.saved p hp
    simp only [saving, List.mem_cons, List.not_mem_nil, or_false] at hsave ⊢
    rcases hsave with rfl | rfl | rfl
    · exact .inr rfl
    · exact absurd hp hm
    · exact .inl rfl

/-- If leaving a profile could not save it, only going back to it keeps the promise,
since the next save writes the active profile alone. -/
theorem Covered.refused_iff (h : Covered s.dirty active owed) (g : Gate)
    (hg : ¬ s.Grants (saving active)) {slot : Fin maxProfiles} :
    Covered true slot (g.owing (s.flash.writes.owing owed (saving active)) [.quick, .manager]) ↔
      slot = active := by
  constructor
  · intro hc
    have hlt : s.flash.writes.streak (saving active).length ≤ 2 := by
      have hle := s.flash.writes.streak_le (saving active).length
      have hne : s.flash.writes.streak (saving active).length ≠ 3 := hg
      have hlen : (saving active).length = 3 := rfl
      omega
    -- the profile is the last of the three, so it is owed whichever write was refused
    have hm : .profile active ∈ s.flash.writes.owing owed (saving active) :=
      Gate.getElem_mem_owing owed (nodup_saving active) (i := 2) (Nat.lt_succ_self 2) hlt
    have hm' : .profile active ∈
        g.owing (s.flash.writes.owing owed (saving active)) [.quick, .manager] :=
      Gate.mem_owing.mpr ⟨.inl hm, fun ht => by simpa using List.mem_of_mem_take ht⟩
    simpa [saving, eq_comm] using hc.saved _ hm'
  · rintro rfl
    refine ⟨by simp, fun p hp => ?_⟩
    rcases (Gate.mem_owing.mp hp).1 with ho | hs
    · exact h.save.saved p ho
    · rcases List.mem_cons.mp hs with rfl | hs
      · simp [saving]
      · obtain rfl := List.mem_singleton.mp hs
        simp [saving]

theorem Covered.switch_iff (h : Covered s.dirty active owed) (id : UInt8) :
    Covered (s.dirtyAfter active (.switchProfile id)) (s.activeAfter active (.switchProfile id))
      (s.owes active owed (.switchProfile id)) ↔ s.Keeps active owed (.switchProfile id) := by
  rw [dirtyAfter, activeAfter, owes, Keeps]
  cases ht : s.target id with
  | none => exact ⟨fun _ _ hs => (nomatch hs), fun _ => h⟩
  | some slot =>
    simp only [Option.getD_some, Option.some.injEq, forall_eq']
    cases hdirty : s.dirty with
    | false =>
      rw [Bool.false_and, if_neg Bool.false_ne_true, if_neg Bool.false_ne_true, h.clean hdirty,
        covered_clean_iff nodup_enter]
      exact and_iff_left (by simp)
    | true =>
      rw [Bool.true_and, if_pos rfl, if_pos rfl]
      by_cases hg : s.Grants (saving active)
      · have hnil : s.flash.writes.owing owed (saving active) = [] :=
          Gate.owing_eq_nil hg h.saved
        rw [decide_eq_true hg, if_pos hg, hnil, Bool.not_true, covered_clean_iff nodup_enter]
        exact and_iff_left (by simp)
      · rw [decide_eq_false hg, if_neg hg, Bool.not_false]
        exact h.refused_iff _ hg

theorem Covered.call_iff (h : Covered s.dirty active owed) {call : StoreCall}
    (hc : Carries call) :
    Covered (s.dirtyAfter active call) (s.activeAfter active call) (s.owes active owed call) ↔
      s.Keeps active owed call := by
  cases call with
  | save now => exact ⟨fun _ => trivial, fun _ => h.save⟩
  | markDirty now => exact ⟨fun _ => trivial, fun _ => ⟨fun hd => Bool.noConfusion hd, h.saved⟩⟩
  | task now =>
    refine ⟨fun _ => trivial, fun _ => ?_⟩
    rw [dirtyAfter, owes]
    by_cases hdue : s.due active now = true
    · rw [if_pos hdue, if_pos hdue]
      exact h.save
    · rw [if_neg hdue, if_neg hdue]
      exact h
  | switchProfile id => exact h.switch_iff id
  | resetCurrent => exact h.reset_iff
  | factoryReset now =>
    rw [dirtyAfter, owes, covered_clean_iff (by decide)]
    exact ⟨And.left, fun hg => ⟨hg, fun p _ => p.mem_all⟩⟩
  | _ => exact hc.elim

end Promise

/-- How a store gets on from boot over a region without a valid manager record:
writes are granted or refused in any pattern, and calls are made with any settings.
Goes with the active slot, what flash is owed, and whether every call so far was one
that keeps the promise of the flag. -/
inductive Session : Store → Fin maxProfiles → List Part → Prop → Prop
  | start {s : Store} {live : DeviceSettings} {now : UInt32} {d : Outcome Store DeviceSettings}
      (h : s.Placed) (hr : s.flash.reads.Free) (hw : s.flash.writes.Free)
      (hv : s.region.manager.isValid = false) (hd : (init live now).run s = .ok d) :
      Session d.state 0 [] True
  | gate {s : Store} {active : Fin maxProfiles} {owed : List Part} {kept : Prop}
      (h : Session s active owed kept) (writes : Gate) :
      Session { s with flash := { s.flash with writes } } active owed kept
  | call {s : Store} {active : Fin maxProfiles} {owed : List Part} {kept : Prop}
      (h : Session s active owed kept) (call : StoreCall) (hc : Carries call)
      {live : DeviceSettings} {d : Outcome Store (DeviceSettings × Option Bool)}
      (hd : (call.perform live).run s = .ok d) :
      Session d.state (s.activeAfter active call) (s.owes active owed call)
        (kept ∧ s.Keeps active owed call)

/-- Flash has every record as the copy has it. -/
def Backed (s : Store) : Prop := ∀ p, s.stored p = s.records.image p

section Sessions

variable {s : Store} {active : Fin maxProfiles} {owed : List Part} {kept : Prop}

theorem Steady.backed_iff (h : s.Steady active owed) :
    s.Backed ↔ ∀ p ∈ owed, s.stored p = s.records.image p := by
  constructor
  · intro hb p _
    exact hb p
  · intro ho p
    by_cases hp : p ∈ owed
    · exact ho p hp
    · exact h.backed p hp

theorem Session.steady (h : Session s active owed kept) :
    s.Steady active owed ∧ (kept → Covered s.dirty active owed) := by
  induction h with
  | @start s live now d h hr hw hv hd =>
    obtain ⟨e, he, hb⟩ := run_init_of_free h hr hw live now
    obtain rfl := Except.ok.inj (hd.symm.trans he)
    obtain ⟨hholds, hrecords, -⟩ := hb.formatted hv
    refine ⟨⟨hholds.placed, ?_, ?_⟩, fun _ => ⟨fun _ => rfl, by simp⟩⟩
    · rw [hrecords]
      rfl
    · intro p _
      rw [hholds.stored, hrecords]
  | gate _ writes ih => exact ⟨ih.1.congr rfl rfl rfl, ih.2⟩
  | @call s active owed kept _ call hc live d hd ih =>
    obtain ⟨e, he, hs, hf⟩ := ih.1.run_call hc live
    obtain rfl := Except.ok.inj (hd.symm.trans he)
    refine ⟨hs, fun ⟨hk, hkeeps⟩ => ?_⟩
    rw [hf]
    exact ((ih.2 hk).call_iff hc).mpr hkeeps

/-- A clean store is backed by flash as long as every call kept the promise of the
flag. In any case it is backed exactly if what it still owes is in flash by chance,
and which calls break the promise is known. -/
theorem Session.clean_backed (h : Session s active owed kept) :
    (kept → s.dirty = false → s.Backed) ∧
    (s.Backed ↔ ∀ p ∈ owed, s.stored p = s.records.image p) ∧
    ∀ call live, Carries call → ∃ d, (call.perform live).run s = .ok d ∧
      (Covered s.dirty active owed →
        (Covered d.state.dirty (s.activeAfter active call) (s.owes active owed call) ↔
          s.Keeps active owed call)) := by
  obtain ⟨hs, hk⟩ := h.steady
  refine ⟨?_, hs.backed_iff, ?_⟩
  · intro hkept hclean
    rw [hs.backed_iff, (hk hkept).clean hclean]
    simp
  · intro call live hc
    obtain ⟨d, hd, -, hf⟩ := hs.run_call hc live
    refine ⟨d, hd, fun hcov => ?_⟩
    rw [hf]
    exact hcov.call_iff hc

theorem session_erased :
    ∃ d, (init {} 0).run (ofFlash (.erased regionLength) 0) = .ok d ∧
      Session d.state 0 [] True ∧ d.state.dirty = false := by
  have hfree := Gate.free_default
  obtain ⟨d, hd, hb⟩ := run_init_of_free placed_erased hfree hfree {} 0
  exact ⟨d, hd, .start placed_erased hfree hfree isValid_erased hd, hb.dirty⟩

/-- A save of a new setting that is refused, and that is made again once writes are granted. Goes
with whether the store was dirty in between. -/
def retriedSave : Except Fault (Bool × Outcome Store (DeviceSettings × Option Bool)) := do
  let d ← (init {} 0).run (ofFlash (.erased regionLength) 0)
  let e ← ((StoreCall.save 5).perform { debounceMs := 9 }).run
    { d.state with flash := { d.state.flash with writes := { isOpen := false } } }
  let f ← ((StoreCall.save 6).perform { debounceMs := 9 }).run
    { e.state with flash := { e.state.flash with writes := {} } }
  return (e.state.dirty, f)

set_option maxRecDepth 100000 in
theorem clean_backed_retried :
    ∃ f active owed kept, retriedSave = .ok (true, f) ∧ Session f.state active owed kept ∧ kept ∧
      f.state.dirty = false ∧ f.state.Backed := by
  have hrun : retriedSave.toOption.map (fun (dirty, f) => (dirty, f.state.dirty)) =
      some (true, false) := by
    decide +kernel
  obtain ⟨⟨dirty, f⟩, hretried, hfacts⟩ := Option.map_eq_some_iff.mp hrun
  obtain ⟨rfl, hclean⟩ := Prod.mk.inj hfacts
  have hretried := eq_ok_of_toOption hretried
  obtain ⟨d, hd, hs, -⟩ := session_erased
  obtain ⟨d', hd', h⟩ := exists_of_bind_eq_ok hretried
  obtain rfl := Except.ok.inj (hd.symm.trans hd')
  obtain ⟨e, he, h⟩ := exists_of_bind_eq_ok h
  obtain ⟨f', hf, h⟩ := exists_of_bind_eq_ok h
  obtain ⟨-, rfl⟩ := Prod.mk.inj (Except.ok.inj h)
  have hrefused := (hs.gate { isOpen := false }).call (.save 5) trivial he
  have hgranted := (hrefused.gate {}).call (.save 6) trivial hf
  have hkept : ((True ∧ True) ∧ True : Prop) := ⟨⟨trivial, trivial⟩, trivial⟩
  exact ⟨_, _, _, _, hretried, hgranted, hkept, hclean, hgranted.clean_backed.1 hkept hclean⟩

/-- A store booted on erased memory, once it has been told to enter the second slot
while every write is refused. -/
def refusedSwitch : Except Fault (Outcome Store (DeviceSettings × Option Bool)) := do
  let d ← (init {} 0).run (ofFlash (.erased regionLength) 0)
  ((StoreCall.switchProfile 1).perform {}).run
    { d.state with flash := { d.state.flash with writes := { isOpen := false } } }

set_option maxRecDepth 100000 in
/-- The store is clean then, but flash still names the slot that was left. -/
theorem clean_not_backed :
    ∃ e active owed kept, refusedSwitch = .ok e ∧ Session e.state active owed kept ∧
      e.state.dirty = false ∧ e.state.stored .manager ≠ e.state.records.image .manager ∧
      ¬ e.state.Backed := by
  have hrun : refusedSwitch.toOption.map (fun e =>
      (e.state.dirty, decide (e.state.stored .manager = e.state.records.image .manager))) =
        some (false, false) := by
    decide +kernel
  obtain ⟨d, hd, hs, -⟩ := session_erased
  let t : Store := { d.state with flash := { d.state.flash with writes := { isOpen := false } } }
  have hsplit : refusedSwitch = ((StoreCall.switchProfile 1).perform {}).run t := by
    rw [refusedSwitch, hd]
    rfl
  cases he : refusedSwitch with
  | error fault => simp [he, Except.toOption] at hrun
  | ok e =>
    obtain ⟨hdirty, hne⟩ : e.state.dirty = false ∧
        e.state.stored .manager ≠ e.state.records.image .manager := by
      simpa [he, Except.toOption] using hrun
    have hreach := (hs.gate { isOpen := false }).call (.switchProfile 1) trivial
      (hsplit.symm.trans he)
    exact ⟨e, _, _, _, rfl, hreach, hdirty, hne, fun hb => hne (hb .manager)⟩

end Sessions

end Store

end TwinStick
