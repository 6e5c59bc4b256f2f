import TwinStick.Proofs.LoadPaths
import TwinStick.Proofs.Refusals
import TwinStick.Proofs.TrueTime

/-! Saving unasked. The store waits until it has been quiet for five seconds, saves once, and
waits as long again if a write was refused. The calls may come at any times, as long as none is
so late that the counter has come round. -/

namespace TwinStick

namespace QuickWord

/-- The word has these settings, as far as there is room. -/
structure Carries (q : QuickWord) (live : DeviceSettings) : Prop where
  mode (stick : Stick) : q.analog.get stick = (live.sticks.get stick).mode.isAnalog
  sensitivity (stick : Stick) :
    (q.sensitivity.get stick).toNat = min (live.sticks.get stick).sensitivity.toNat 15
  deadzone (stick : Stick) :
    (q.deadzone.get stick).toNat = min (live.sticks.get stick).deadzone.toNat 255
  touch : q.touchEnabled = live.touchEnabled
  combos : q.combosEnabled = live.combosEnabled

variable {q : QuickWord} {live : DeviceSettings}

theorem carries_capture (q : QuickWord) (live : DeviceSettings) :
    (q.capture live).Carries live where
  mode stick := by rw [capture, PerStick.get_map]
  sensitivity stick := by
    rw [capture, PerStick.get_map]
    generalize (live.sticks.get stick).sensitivity = n
    change (if n ≤ 15 then n else 15).toNat = min n.toNat 15
    split
    · next hle =>
      have hn := UInt8.le_iff_toNat_le.mp hle
      exact (Nat.min_eq_left hn).symm
    · next hle =>
      have hn : ¬ n.toNat ≤ 15 := fun h => hle (UInt8.le_iff_toNat_le.mpr h)
      have hcap : 15 ≤ n.toNat := by omega
      exact (Nat.min_eq_right hcap).symm
  deadzone stick := by
    rw [capture, PerStick.get_map]
    generalize (live.sticks.get stick).deadzone = n
    change (if n ≤ 255 then n else 255).toUInt8.toNat = min n.toNat 255
    split
    · next hle =>
      have hn : n.toNat ≤ 255 := UInt16.le_iff_toNat_le.mp hle
      rw [UInt16.toNat_toUInt8, Nat.mod_eq_of_lt (by omega), Nat.min_eq_left hn]
    · next hle =>
      have hn : ¬ n.toNat ≤ 255 := fun h => hle (UInt16.le_iff_toNat_le.mpr h)
      have hcap : 255 ≤ n.toNat := by omega
      exact (Nat.min_eq_right hcap).symm
  touch := rfl
  combos := rfl

theorem Carries.withActive (h : q.Carries live) (active : UInt8) :
    ({ q with active } : QuickWord).Carries live := ⟨h.1, h.2, h.3, h.4, h.5⟩

theorem Carries.reread (h : q.Carries live) : (codec.reread q).Carries live := by
  rw [reread_codec]
  refine ⟨h.mode, fun stick => ?_, h.deadzone, h.touch, h.combos⟩
  have hfits : (q.sensitivity.get stick).toNat < 2 ^ 4 := by
    have hs := h.sensitivity stick
    omega
  rw [PerStick.get_map, Codec.reread_uint8_of_lt hfits]
  exact h.sensitivity stick

end QuickWord

namespace ProfileRecord

/-- The record has all of these settings. -/
structure Carries (r : ProfileRecord) (live : DeviceSettings) : Prop extends
    r.Completes live where
  mode (stick : Stick) : (r.sticks.get stick).analog = (live.sticks.get stick).mode.isAnalog
  sensitivity (stick : Stick) :
    (r.sticks.get stick).sensitivity = (live.sticks.get stick).sensitivity
  touch : r.touch.enabled = live.touchEnabled
  combos : r.combo.enabled = live.combosEnabled

theorem carries_capture (r : ProfileRecord) (live : DeviceSettings) :
    (r.capture live).Carries live where
  centre stick := by cases stick <;> rfl
  invert stick := by cases stick <;> rfl
  deadzone stick := by cases stick <;> rfl
  layer := rfl
  debounce := rfl
  stickPoll := rfl
  touchPoll := rfl
  mode stick := by cases stick <;> rfl
  sensitivity stick := by cases stick <;> rfl
  touch := rfl
  combos := rfl

theorem Carries.reread {r : ProfileRecord} {live : DeviceSettings} (h : r.Carries live) :
    (codec.reread r).Carries live := by
  -- flash loses only reserved bits, and nothing here looks at those
  have hstick : ∀ stick, ∃ reserved,
      (codec.reread r).sticks.get stick = { r.sticks.get stick with reserved } := by
    intro stick
    rw [reread_codec, PerStick.get_map, StickProfile.reread_codec]
    exact ⟨_, rfl⟩
  have htouch : (codec.reread r).touch.enabled = r.touch.enabled := by
    rw [reread_codec, TouchProfile.reread_codec]
  have hcombo : (codec.reread r).combo.enabled = r.combo.enabled := by
    rw [reread_codec, ComboProfile.reread_codec]
  have hlayer : (codec.reread r).layer.defaultLayer = r.layer.defaultLayer := by
    rw [reread_codec, LayerProfile.reread_codec]
  have htiming : (codec.reread r).timing = r.timing := by rw [reread_codec]
  refine ⟨⟨fun stick => ?_, fun stick => ?_, fun stick => ?_, hlayer.trans h.layer, ?_, ?_, ?_⟩,
    fun stick => ?_, fun stick => ?_, htouch.trans h.touch, hcombo.trans h.combos⟩
  · obtain ⟨reserved, hs⟩ := hstick stick
    rw [hs]
    exact h.centre stick
  · obtain ⟨reserved, hs⟩ := hstick stick
    rw [hs]
    exact h.invert stick
  · obtain ⟨reserved, hs⟩ := hstick stick
    rw [hs]
    exact h.deadzone stick
  · rw [htiming]
    exact h.debounce
  · rw [htiming]
    exact h.stickPoll
  · rw [htiming]
    exact h.touchPoll
  · obtain ⟨reserved, hs⟩ := hstick stick
    rw [hs]
    exact h.mode stick
  · obtain ⟨reserved, hs⟩ := hstick stick
    rw [hs]
    exact h.sensitivity stick

end ProfileRecord

/-- The records as a save at this time leaves them. -/
structure Records.Reflects (r : Records) (slot : Fin maxProfiles) (live : DeviceSettings)
    (now : UInt32) : Prop where
  quick : r.quick.Carries live
  profile : (r.profile slot).Carries live
  lastSave : r.manager.lastSave = now
  slot : r.manager.active.toNat = slot
  active : r.quick.active = r.manager.active

theorem Records.reflects_saved {r : Records} {slot : Fin maxProfiles}
    (hslot : r.activeSlot = .ok slot) (live : DeviceSettings) (now : UInt32) :
    (r.saved slot live now).Reflects slot live now where
  quick := (r.quick.carries_capture live).withActive _
  profile := by
    rw [profile_saved_self]
    exact (r.profile slot).carries_capture live
  lastSave := rfl
  slot := toNat_of_activeSlot hslot
  active := rfl

namespace Store

theorem reflects_region {s : Store} {r : Records} {slot : Fin maxProfiles}
    {live : DeviceSettings} {now : UInt32} (h : r.Reflects slot live now)
    (hs : ∀ p ∈ [.quick, .manager, .profile slot], s.stored p = r.image p) :
    s.region.Reflects slot live now := by
  have hquick : s.region.quick = QuickWord.codec.reread r.quick := by
    rw [region, hs .quick (by simp), Records.image, Codec.read_pack QuickWord.codec_whole]
  have hmanager : s.region.manager = ManagerRecord.codec.reread r.manager := by
    rw [region, hs .manager (by simp), Records.image, Codec.read_pack ManagerRecord.codec_whole]
  have hprofile : s.region.profile slot = ProfileRecord.codec.reread (r.profile slot) := by
    rw [profile_region, hs (.profile slot) (by simp), Records.image,
      Codec.read_pack ProfileRecord.codec_whole]
  have hactive : (ManagerRecord.codec.reread r.manager).active = r.manager.active := by
    rw [ManagerRecord.reread_codec]
  refine ⟨?_, ?_, ?_, ?_, ?_⟩
  · rw [hquick]
    exact h.quick.reread
  · rw [hprofile]
    exact h.profile.reread
  · rw [hmanager, ManagerRecord.reread_codec]
    exact h.lastSave
  · rw [hmanager, hactive]
    exact h.slot
  · have hfits : r.quick.active.toNat < 2 ^ 2 := by
      have hlt : slot.val < 4 := slot.isLt
      have hs := h.slot
      rw [h.active]
      omega
    rw [hmanager, hactive, hquick, QuickWord.reread_codec, ← h.active]
    exact Codec.reread_uint8_of_lt hfits

/-- When the store was last marked, when a save last failed, and when it was last called. -/
structure Watch where
  marked : Option Nat
  failed : Option Nat
  last : Nat

namespace Watch

def Since (w : Watch) (t : Nat) : Prop := w.marked = some t ∨ w.failed = some t

/-- Five seconds have passed since the later of the last mark and the last failed save. -/
def Quiet (w : Watch) (now : Nat) : Prop := ∀ t, w.Since t → t + 5000 ≤ now

/-- Time does not go back, and the next call is not so late that the counter has come round. -/
def Admits (w : Watch) (now : Nat) : Prop := w.last ≤ now ∧ now ≤ w.last + (wrap - 5000)

end Watch

/-- The runs of a store that may save unasked, from when it is clean or was just marked. -/
inductive Watched : Store → Watch → Prop
  | start {s : Store} {time : Nat} (h : s.Addressed) (hallowed : s.autoSaves = .ok true)
      (hmark : s.dirty = true → s.lastChange = uptime time) :
      Watched s ⟨if s.dirty then some time else none, none, time⟩
  | mark {s : Store} {w : Watch} (h : Watched s w) {now : Nat} (hnow : w.Admits now) :
      Watched (s.markDirty (uptime now)) { w with marked := some now, last := now }
  | task {s : Store} {w : Watch} (h : Watched s w) {now : Nat} (hnow : w.Admits now)
      {live : DeviceSettings} {d : Outcome Store Unit}
      (hd : (task live (uptime now)).run s = .ok d) :
      Watched d.state { w with
        failed := if d.events.any Event.isRefusal then some now else w.failed
        last := now }

/-- A store that may save unasked. If it is dirty, it counts from the latest time, which is less
than five seconds before the last call: otherwise that call would have saved or failed to. -/
structure Waiting (s : Store) (w : Watch) : Prop where
  addressed : s.Addressed
  allowed : s.autoSaves = .ok true
  past (t : Nat) : w.Since t → t ≤ w.last
  counts : s.dirty = true → ∃ t, w.Since t ∧ (∀ t', w.Since t' → t' ≤ t) ∧
    s.lastChange = uptime t ∧ w.last < t + 5000

/-- What an attempt to save leaves behind, if each record has an address. -/
structure SaveTried (s : Store) (slot : Fin maxProfiles) (live : DeviceSettings) (now : UInt32)
    (d : Outcome Store Bool) : Prop where
  events : d.events ≠ []
  value : d.value = !d.events.any Event.isRefusal
  base : d.state.base = s.base
  records : d.state.records = s.records.saved slot live now
  dirty : d.state.dirty = !d.value
  lastChange : d.value = false → d.state.lastChange = now
  written : d.value = true → ∀ p ∈ [.quick, .manager, .profile slot],
    d.state.stored p = d.state.records.image p

section

variable {s : Store} {w : Watch} {slot : Fin maxProfiles} {now : Nat}

theorem exists_slot_of_autoSaves (h : s.autoSaves = .ok true) :
    ∃ slot, s.records.activeSlot = .ok slot := by
  rw [autoSaves] at h
  split at h
  · obtain ⟨profile, hp, -⟩ := exists_of_bind_eq_ok h
    obtain ⟨slot, hslot, -⟩ := exists_of_bind_eq_ok hp
    exact ⟨slot, hslot⟩
  · exact absurd (Except.ok.inj h) Bool.false_ne_true

theorem autoSaves_saved (hslot : s.records.activeSlot = .ok slot) {t : Store}
    {live : DeviceSettings} {now : UInt32} (ht : t.records = s.records.saved slot live now) :
    t.autoSaves = s.autoSaves := by
  have hslot' : t.records.activeSlot = .ok slot := by
    rw [ht]
    exact hslot
  rw [autoSaves_eq hslot, autoSaves_eq hslot', ht, Records.profile_saved_self]
  rfl

theorem Waiting.due_iff (h : s.Waiting w) (hslot : s.records.activeSlot = .ok slot)
    (hnow : w.Admits now) : s.due slot (uptime now) = true ↔ s.dirty = true ∧ w.Quiet now := by
  have hallowed := Except.ok.inj ((autoSaves_eq hslot).symm.trans h.allowed)
  rw [due, hallowed, Bool.and_true, Bool.and_eq_true, decide_eq_true_iff]
  refine and_congr_right fun hdirty => ?_
  obtain ⟨t, hsince, hlatest, hcount, hlast⟩ := h.counts hdirty
  obtain ⟨hforward, hsoon⟩ := hnow
  have hpast := h.past t hsince
  have hturn : now < t + wrap := by
    have hwrap : 5000 ≤ wrap := by decide
    omega
  rw [hcount, le_elapsed_iff (hpast.trans hforward) (.inl hturn)]
  constructor
  · intro hquiet t' ht'
    have hle := hlatest t' ht'
    exact Nat.le_trans (Nat.add_le_add_right hle _) hquiet
  · intro hquiet
    exact hquiet t hsince

theorem Waiting.mark (h : s.Waiting w) (hnow : w.Admits now) :
    (s.markDirty (uptime now)).Waiting { w with marked := some now, last := now } := by
  have hle : ∀ t, ({ w with marked := some now, last := now } : Watch).Since t → t ≤ now := by
    rintro t (ht | ht)
    · exact (Option.some.inj ht).ge
    · exact (h.past t (.inr ht)).trans hnow.1
  refine ⟨h.addressed, h.allowed, hle, fun _ => ⟨now, .inl rfl, hle, rfl, ?_⟩⟩
  exact Nat.lt_add_of_pos_right (by decide)

theorem run_saveCurrent_tried (h : s.Addressed) (hslot : s.records.activeSlot = .ok slot)
    (live : DeviceSettings) (now : UInt32) :
    ∃ d, (saveCurrent live now).run s = .ok d ∧ s.SaveTried slot live now d := by
  let t : Store := { s with records := s.records.saved slot live now }
  obtain ⟨d, hd, htried⟩ := run_commit_tried (s := t) h [.quick, .manager, .profile slot]
  have hrun := run_saveCurrent_eq hslot live now
  rw [hd] at hrun
  have hrecords : d.state.records = s.records.saved slot live now := by rw [htried.state]
  have hbase : d.state.base = s.base := by rw [htried.state]
  have hstored : ∀ p, (d.state.settle now d.value).stored p = d.state.stored p :=
    stored_congr (congrArg Flash.bytes (flash_settle _ _ _)) (base_settle _ _ _)
  refine ⟨_, hrun, htried.events (List.cons_ne_nil _ _), htried.value,
    (base_settle _ _ _).trans hbase, (records_settle _ _ _).trans hrecords, dirty_settle _ _ _,
    fun hrefused => ?_, fun hsaved p hp => ?_⟩
  · dsimp only at hrefused ⊢
    rw [hrefused]
    rfl
  · rw [hstored, htried.written hsaved p hp, records_settle, hrecords]

theorem run_task_clean (h : s.dirty = false) (live : DeviceSettings) (now : UInt32) :
    (task live now).run s = .ok ⟨(), s, []⟩ := by
  rw [task, Routine.run_bind_of_silent (Routine.run_get s), h]
  rfl

theorem run_tasks_clean (h : s.dirty = false) (later : List (DeviceSettings × UInt32)) :
    (forM later fun call => task call.1 call.2).run s = .ok ⟨(), s, []⟩ := by
  induction later with
  | nil => rfl
  | cons call later ih =>
    rw [List.forM_cons, Routine.run_bind_of_silent (run_task_clean h call.1 call.2)]
    exact ih

theorem Waiting.run_task (h : s.Waiting w) (hslot : s.records.activeSlot = .ok slot)
    (hnow : w.Admits now) (live : DeviceSettings) :
    ¬ (s.dirty = true ∧ w.Quiet now) ∧ (task live (uptime now)).run s = .ok ⟨(), s, []⟩ ∨
    (s.dirty = true ∧ w.Quiet now) ∧
      ∃ d, (saveCurrent live (uptime now)).run s = .ok d ∧
        s.SaveTried slot live (uptime now) d ∧
        (task live (uptime now)).run s = .ok ⟨(), d.state, d.events⟩ := by
  have hrun := Store.run_task hslot live (uptime now)
  by_cases hdue : s.due slot (uptime now) = true
  · obtain ⟨d, hd, htried⟩ := run_saveCurrent_tried h.addressed hslot live (uptime now)
    rw [if_pos hdue, hd] at hrun
    exact .inr ⟨(h.due_iff hslot hnow).mp hdue, d, hd, htried, hrun⟩
  · rw [if_neg hdue] at hrun
    exact .inl ⟨mt (h.due_iff hslot hnow).mpr hdue, hrun⟩

theorem Waiting.task (h : s.Waiting w) (hnow : w.Admits now) {live : DeviceSettings}
    {d : Outcome Store Unit} (hd : (task live (uptime now)).run s = .ok d) :
    d.state.Waiting { w with
      failed := if d.events.any Event.isRefusal then some now else w.failed
      last := now } := by
  obtain ⟨slot, hslot⟩ := exists_slot_of_autoSaves h.allowed
  rcases h.run_task hslot hnow live with ⟨hnot, hrun⟩ | ⟨-, e, -, htried, hrun⟩
  · obtain rfl := Except.ok.inj (hrun.symm.trans hd)
    refine ⟨h.addressed, h.allowed, fun t ht => (h.past t ht).trans hnow.1, fun hdirty => ?_⟩
    obtain ⟨t, hsince, hlatest, hcount, -⟩ := h.counts hdirty
    have hlate : now < t + 5000 := by
      by_contra hge
      refine hnot ⟨hdirty, fun t' ht' => ?_⟩
      have hearlier := hlatest t' ht'
      omega
    exact ⟨t, hsince, hlatest, hcount, hlate⟩
  · obtain rfl := Except.ok.inj (hrun.symm.trans hd)
    have haddressed := h.addressed.congr htried.base
    have hallowed := (autoSaves_saved hslot htried.records).trans h.allowed
    have hvalue := htried.value
    dsimp only
    cases hrefused : e.events.any Event.isRefusal with
    | false =>
      -- the store is clean, so it counts from nothing
      rw [hrefused] at hvalue
      refine ⟨haddressed, hallowed, fun t ht => (h.past t ht).trans hnow.1, fun hdirty => ?_⟩
      rw [htried.dirty, hvalue] at hdirty
      exact absurd hdirty Bool.false_ne_true
    | true =>
      rw [hrefused] at hvalue
      have hle : ∀ t, ({ w with failed := some now, last := now } : Watch).Since t → t ≤ now := by
        rintro t (ht | ht)
        · exact (h.past t (.inl ht)).trans hnow.1
        · exact (Option.some.inj ht).ge
      refine ⟨haddressed, hallowed, hle, fun _ => ⟨now, .inr rfl, hle, ?_, ?_⟩⟩
      · exact htried.lastChange hvalue
      · exact Nat.lt_add_of_pos_right (by decide)

theorem Watched.waiting (h : Watched s w) : s.Waiting w := by
  induction h with
  | @start s time h hallowed hmark =>
    have hsince : ∀ t, (⟨if s.dirty then some time else none, none, time⟩ : Watch).Since t →
        t = time := by
      rintro t (ht | ht)
      · cases hdirty : s.dirty with
        | false => simp [hdirty] at ht
        | true =>
          rw [hdirty] at ht
          exact (Option.some.inj ht).symm
      · exact nomatch ht
    refine ⟨h, hallowed, fun t ht => (hsince t ht).le, fun hdirty => ?_⟩
    refine ⟨time, .inl (if_pos hdirty), fun t ht => (hsince t ht).le, hmark hdirty, ?_⟩
    exact Nat.lt_add_of_pos_right (by decide)
  | mark _ hnow ih => exact ih.mark hnow
  | task _ hnow hd ih => exact ih.task hnow hd

/-- A task call saves exactly if there is something to save and it has been quiet for five
seconds; otherwise it does nothing at all. After a save that was refused the store waits again,
after one that was not it stays as it is until it is marked. -/
theorem Watched.saves_once_quiet (h : Watched s w) (hnow : w.Admits now)
    (live : DeviceSettings) :
    ∃ d slot, (Store.task live (uptime now)).run s = .ok d ∧
      s.records.activeSlot = .ok slot ∧
      (d.events ≠ [] ↔ s.dirty = true ∧ w.Quiet now) ∧ (d.events = [] → d.state = s) ∧
      (d.events ≠ [] →
        (saveCurrent live (uptime now)).run s =
          .ok ⟨!d.events.any Event.isRefusal, d.state, d.events⟩ ∧
        d.state.dirty = d.events.any Event.isRefusal ∧
        (d.events.any Event.isRefusal = false →
          d.state.records.Reflects slot live (uptime now) ∧
          d.state.region.Reflects slot live (uptime now) ∧
          ∀ later : List (DeviceSettings × UInt32),
            (forM later fun call => Store.task call.1 call.2).run d.state =
              .ok ⟨(), d.state, []⟩)) := by
  have hwait := h.waiting
  obtain ⟨slot, hslot⟩ := exists_slot_of_autoSaves hwait.allowed
  rcases hwait.run_task hslot hnow live with ⟨hnot, hrun⟩ | ⟨hquiet, e, he, htried, hrun⟩
  · refine ⟨_, slot, hrun, hslot, ?_, fun _ => rfl, fun hevents => absurd rfl hevents⟩
    exact ⟨fun hevents => absurd rfl hevents, fun hquiet => absurd hquiet hnot⟩
  · have hvalue := htried.value
    refine ⟨_, slot, hrun, hslot, ⟨fun _ => hquiet, fun _ => htried.events⟩,
      fun hnone => absurd hnone htried.events, fun _ => ⟨?_, ?_, fun hgranted => ?_⟩⟩
    · rw [he, ← hvalue]
    · rw [htried.dirty, hvalue, Bool.not_not]
    · dsimp only at hgranted ⊢
      rw [hgranted] at hvalue
      have hreflects : e.state.records.Reflects slot live (uptime now) := by
        rw [htried.records]
        exact Records.reflects_saved hslot live (uptime now)
      have hclean : e.state.dirty = false := by
        rw [htried.dirty, hvalue]
        rfl
      have hregion := reflects_region hreflects (htried.written hvalue)
      exact ⟨hreflects, hregion, run_tasks_clean hclean⟩

/-- A store booted on erased memory and marked a second before the counter comes round is
saved four seconds after that. -/
theorem Watched.saves_once_quiet_across_wrap :
    ∃ (s : Store) (w : Watch), Watched s w ∧ w.marked = some 4294966296 ∧
      w.Admits 4294971296 ∧ uptime 4294971296 = 4000 ∧
      ∃ d, (Store.task {} 4000).run s = .ok d ∧ d.events ≠ [] := by
  obtain ⟨b, hb, hbooted⟩ :=
    run_init_of_free placed_erased Gate.free_default Gate.free_default {} (uptime 4294962000)
  have hrecords : b.state.records = .builtIn (uptime 4294962000) :=
    (hbooted.formatted isValid_erased).2.1
  have hslot : b.state.records.activeSlot = .ok 0 := by
    rw [hrecords]
    rfl
  have hallowed : b.state.autoSaves = .ok true := by
    rw [autoSaves_eq hslot, hrecords, Records.profile_builtIn]
    rfl
  have hclean := hbooted.dirty
  have hstart : Watched b.state
      ⟨if b.state.dirty then some 4294962000 else none, none, 4294962000⟩ :=
    .start hbooted.holds.placed.addressed hallowed fun hdirty =>
      absurd (hclean.symm.trans hdirty) Bool.false_ne_true
  rw [hclean] at hstart
  have hmarked : Watched (b.state.markDirty (uptime 4294966296))
      ⟨some 4294966296, none, 4294966296⟩ := hstart.mark ⟨by decide, by decide⟩
  have hadmits : Watch.Admits ⟨some 4294966296, none, 4294966296⟩ 4294971296 := by
    constructor <;> decide
  obtain ⟨d, -, hd, -, hsaves, -⟩ := hmarked.saves_once_quiet hadmits {}
  refine ⟨_, _, hmarked, rfl, hadmits, by decide, d, hd, hsaves.mpr ⟨rfl, fun t ht => ?_⟩⟩
  obtain rfl : 4294966296 = t := by simpa [Watch.Since] using ht
  decide

end

end Store

end TwinStick
