import TwinStick.Proofs.Ensures
import TwinStick.Proofs.Moves
import TwinStick.Proofs.Orderly

/-! A profile holds more than settings: its name, what it keeps of the panel and the combos,
and bits that nothing reads. Saving settings and switching between profiles leaves all of
that as it is, and leaves alone every profile that is not the active one. -/

namespace TwinStick

/-- What a profile holds beside the settings of the device. -/
structure ProfileRest where
  name : ProfileName
  enabled : Bool
  reserved : UInt8
  stickReserved : PerStick UInt8
  comboStrict : Bool
  comboReserved : UInt8
  comboTimeoutMs : UInt16
  comboMask : UInt16
  touchHaptic : Bool
  touchReserved : UInt8
  touchSensitivity : UInt8
  touchPoints : Vector (Pair UInt16) 4
  layerLock : Bool
  layerReserved : UInt8
  layerQuick : Vector UInt8 4
  features : FeatureProfile

def ProfileRecord.rest (r : ProfileRecord) : ProfileRest where
  name := r.name
  enabled := r.enabled
  reserved := r.reserved
  stickReserved := r.sticks.map (·.reserved)
  comboStrict := r.combo.strict
  comboReserved := r.combo.reserved
  comboTimeoutMs := r.combo.timeoutMs
  comboMask := r.combo.mask
  touchHaptic := r.touch.haptic
  touchReserved := r.touch.reserved
  touchSensitivity := r.touch.sensitivity
  touchPoints := r.touch.points
  layerLock := r.layer.lock
  layerReserved := r.layer.reserved
  layerQuick := r.layer.quick
  features := r.features

/-- What the manager record says beside the active slot and the time of the last save. -/
structure ManagerRest where
  count : UInt8
  autoLoad : Bool
  switching : Bool
  autoSave : Bool
  reserved : UInt8
  version : UInt16

def ManagerRecord.rest (m : ManagerRecord) : ManagerRest :=
  ⟨m.count, m.autoLoad, m.switching, m.autoSave, m.reserved, m.version⟩

theorem ProfileRecord.rest_capture (r : ProfileRecord) (live : DeviceSettings) :
    (r.capture live).rest = r.rest := rfl

theorem Records.rest_saved (r : Records) (slot other : Fin maxProfiles) (live : DeviceSettings)
    (now : UInt32) : ((r.saved slot live now).profile other).rest = (r.profile other).rest := by
  by_cases h : other = slot
  · subst h
    rw [profile_saved_self, ProfileRecord.rest_capture]
  · rw [profile_saved_of_ne r live now h]

/-- The calls by which settings are kept and exchanged for those of another profile. -/
def StoreCall.Daily : StoreCall → Prop
  | save _ | markDirty _ | task _ | switchProfile _ => True
  | _ => False

def ComboAction.Daily : ComboAction → Prop
  | resetSettings | emergencyReset | factoryReset => False
  | _ => True

/-- All calls but those that bring the device up or reset it. -/
def ControllerCall.Daily : ControllerCall → Prop
  | init | resetCurrent | factoryReset _ | emergencyReset _ => False
  | combo index _ => ∀ combo, Combo.ofIndex? index = some combo → combo.action.Daily
  | store call => call.Daily
  | _ => True

namespace Store

open Routine

variable {idle : Fin maxProfiles → Prop} {s t u : Store}

theorem stored_of_run_persist {p q : Part} (hne : q ≠ p)
    {d : Outcome Store (Except StoreError Unit)} (hd : (persist p).run s = .ok d) :
    d.state.stored q = s.stored q := by
  have hstate := state_of_run_persist hd
  have hbytes : d.state.flash.slice (s.base.toNat + q.offset) q.length = s.stored q := by
    rw [persist, run_bind_of_silent (run_get s)] at hd
    obtain ⟨e, e', he, he', rfl⟩ := run_bind_eq_ok.mp hd
    obtain ⟨a, ha, rfl⟩ := exists_of_map_eq_ok ((run_liftM _ _).symm.trans he)
    obtain ⟨f, f', hf, hf', rfl⟩ := run_bind_eq_ok.mp he'
    obtain rfl := Except.ok.inj hf'
    obtain ⟨w, hw, rfl⟩ := exists_of_map_eq_ok ((run_onFlash _ _).symm.trans hf)
    obtain ⟨w', hw', -, -, hcases⟩ := Flash.run_write_always s.flash a (s.records.image p)
    obtain rfl := Except.ok.inj (hw.symm.trans hw')
    rcases hcases with ⟨-, hroom, hb⟩ | ⟨-, hb⟩
    · have hslice : w.state.slice (s.base.toNat + q.offset) q.length =
          (s.flash.overwrite a.toNat (s.records.image p)).slice (s.base.toNat + q.offset)
            q.length := by rw [Flash.slice, hb, Flash.slice]
      have hdisjoint := Part.disjoint_of_ne hne
      have haddress := toNat_address ha
      rw [hslice, stored]
      refine Flash.slice_overwrite_of_disjoint hroom ?_
      rw [Records.length_image]
      omega
    · rw [Flash.slice, hb, stored, Flash.slice]
  have hbase : d.state.base = s.base := by rw [hstate]
  rw [← hbytes, stored, hbase]

/-- Writing some records leaves the bytes of all others. -/
theorem stored_of_run_commit {parts : List Part} {q : Part} (hq : q ∉ parts)
    {d : Outcome Store Bool} (hd : (commit parts).run s = .ok d) :
    d.state.stored q = s.stored q := by
  induction parts generalizing s d with
  | nil =>
    obtain rfl := Except.ok.inj hd
    rfl
  | cons p rest ih =>
    rw [List.mem_cons, not_or] at hq
    rw [commit] at hd
    obtain ⟨e, e', he, he', rfl⟩ := run_bind_eq_ok.mp hd
    have hfirst := stored_of_run_persist hq.1 he
    cases hwritten : e.value with
    | error cause =>
      rw [hwritten] at he'
      obtain rfl := Except.ok.inj he'
      exact hfirst
    | ok u =>
      rw [hwritten] at he'
      exact (ih hq.2 he').trans hfirst

/-- What daily use leaves as it is. Of an idle slot that is all there is. -/
structure Preserves (idle : Fin maxProfiles → Prop) (s t : Store) : Prop where
  rest : ∀ slot, (t.records.profile slot).rest = (s.records.profile slot).rest
  manager : t.records.manager.rest = s.records.manager.rest
  record : ∀ slot, idle slot → t.records.profile slot = s.records.profile slot
  stored : ∀ slot, idle slot → t.stored (.profile slot) = s.stored (.profile slot)

theorem Preserves.refl (s : Store) : Preserves idle s s :=
  ⟨fun _ => rfl, rfl, fun _ _ => rfl, fun _ _ => rfl⟩

theorem Preserves.trans (h : Preserves idle s t) (h' : Preserves idle t u) : Preserves idle s u :=
  ⟨fun slot => (h'.rest slot).trans (h.rest slot), h'.manager.trans h.manager,
    fun slot hi => (h'.record slot hi).trans (h.record slot hi),
    fun slot hi => (h'.stored slot hi).trans (h.stored slot hi)⟩

/-- The active slot is none of the idle ones. -/
def Away (idle : Fin maxProfiles → Prop) (s : Store) : Prop :=
  ∀ slot, s.records.activeSlot = .ok slot → ¬idle slot

theorem Away.congr (h : s.Away idle) (ha : t.active = s.active) : t.Away idle := by
  intro slot hslot
  refine h slot ?_
  rw [Records.activeSlot] at hslot ⊢
  rw [← hslot]
  exact congrArg Records.slot ha.symm

variable {live : DeviceSettings} {now : UInt32}

theorem ensures_saveCurrent (h : s.Away idle) :
    (saveCurrent live now).Ensures s fun _ t => s.Preserves idle t ∧ t.active = s.active := by
  intro d hd
  cases hslot : s.records.activeSlot with
  | error fault =>
    rw [saveCurrent, run_bind_of_silent (run_get s), hslot] at hd
    cases hd
  | ok slot =>
    rw [run_saveCurrent_eq hslot] at hd
    obtain ⟨e, he, rfl⟩ := exists_of_map_eq_ok hd
    have hrecords : (e.state.settle now e.value).records = s.records.saved slot live now := by
      rw [records_settle, state_of_run_commit he]
    have hother : ∀ other, idle other → other ≠ slot := fun other hi he => h slot hslot (he ▸ hi)
    refine ⟨⟨fun other => ?_, ?_, fun other hi => ?_, fun other hi => ?_⟩, ?_⟩
    · rw [hrecords, Records.rest_saved]
    · rw [hrecords]
      rfl
    · rw [hrecords, Records.profile_saved_of_ne _ _ _ (hother other hi)]
    · have hq : Part.profile other ∉ [.quick, .manager, .profile slot] := by
        simp [hother other hi]
      have hkept := stored_of_run_commit hq he
      rw [stored, flash_settle, base_settle]
      exact hkept
    · rw [active, hrecords]
      rfl

theorem ensures_task (h : s.Away idle) :
    (task live now).Ensures s fun _ t => s.Preserves idle t ∧ t.active = s.active := by
  have hsame : s.Preserves idle s ∧ s.active = s.active := ⟨.refl s, rfl⟩
  rw [task]
  refine .get_bind ?_
  split
  · refine .bind (.of_liftM (P := fun _ t => t = s) fun _ _ => rfl) fun wanted t ht => ?_
    subst ht
    split
    · split
      · exact .bind (ensures_saveCurrent h) fun _ _ hkeeps => .of_pure hkeeps
      · exact .of_pure hsame
    · exact .of_pure hsame
  · exact .of_pure hsame

theorem ensures_flush (h : s.Away idle) : (flush live).Ensures s fun _ t => s.Preserves idle t := by
  rw [flush]
  refine .get_bind ?_
  split
  · refine .get_bind (.bind (ensures_saveCurrent h) fun _ _ hkeeps => ?_)
    exact .of_pure hkeeps.1
  · exact .of_pure (.refl s)

theorem ensures_enter (slot : Fin maxProfiles) (id : UInt8) :
    (enter slot id live).Ensures s fun _ t => s.Preserves idle t := by
  intro d hd
  obtain ⟨-, hrecords⟩ := entered_of_run_enter hd
  rw [run_enter_eq] at hd
  obtain ⟨e, he, rfl⟩ := exists_of_map_eq_ok hd
  refine ⟨fun other => ?_, ?_, fun other _ => ?_, fun other _ => ?_⟩
  · rw [hrecords]
    rfl
  · rw [hrecords]
    rfl
  · rw [hrecords]
    rfl
  · have hq : Part.profile other ∉ [.quick, .manager] := by simp
    have hkept := stored_of_run_commit hq he
    exact hkept

theorem ensures_switchProfile (h : s.Away idle) (id : UInt8) :
    (switchProfile id live).Ensures s fun _ t => s.Preserves idle t := by
  cases ht : s.target id with
  | none => exact .of_run (run_switchProfile_of_none ht live) (.refl s)
  | some slot =>
    have hboth : (flush live >>= fun _ => enter slot id live).Ensures s fun _ t =>
        s.Preserves idle t :=
      .bind (ensures_flush h) fun _ _ hkeeps =>
        (ensures_enter slot id).mono fun _ _ hentered => hkeeps.trans hentered
    intro d hd
    rw [run_switchProfile_of_some ht] at hd
    exact hboth d hd

theorem ensures_saves {call : StoreCall} (hc : call.Saves) (h : s.Away idle) :
    (call.perform live).Ensures s fun _ t => s.Preserves idle t ∧ t.active = s.active := by
  cases call with
  | save now => exact .bind (ensures_saveCurrent h) fun _ _ hkeeps => .of_pure hkeeps
  | task now => exact .bind (ensures_task h) fun _ _ hkeeps => .of_pure hkeeps
  | markDirty now =>
    refine .bind (.of_modify (P := fun _ t => s.Preserves idle t ∧ t.active = s.active) ?_)
      fun _ _ hkeeps => .of_pure hkeeps
    exact ⟨⟨fun _ => rfl, rfl, fun _ _ => rfl, fun _ _ => rfl⟩, rfl⟩
  | _ => exact hc.elim

theorem ensures_daily {call : StoreCall} (hc : call.Daily) (h : s.Away idle) :
    (call.perform live).Ensures s fun _ t => s.Preserves idle t := by
  have hsaves (hs : call.Saves) : (call.perform live).Ensures s fun _ t => s.Preserves idle t :=
    (ensures_saves hs h).mono fun _ _ hkeeps => hkeeps.1
  cases call with
  | switchProfile id => exact .bind (ensures_switchProfile h id) fun _ _ hkeeps => .of_pure hkeeps
  | save _ | task _ | markDirty _ => exact hsaves trivial
  | _ => exact hc.elim

/-- A store in daily use, with any settings in force at each call, while any accesses to flash
are refused. No call finds an idle slot active. -/
inductive InUse (idle : Fin maxProfiles → Prop) (first : Store) : Store → Prop
  | start : InUse idle first first
  | gates {s : Store} (h : InUse idle first s) (reads writes : Gate) :
      InUse idle first { s with flash := { s.flash with reads, writes } }
  | call {s : Store} (h : InUse idle first s) (haway : s.Away idle) {live : DeviceSettings}
      {call : StoreCall} (hc : call.Daily) {d : Outcome Store (DeviceSettings × Option Bool)}
      (hd : (call.perform live).run s = .ok d) : InUse idle first d.state

theorem InUse.preserves {first : Store} (h : InUse idle first s) : first.Preserves idle s := by
  induction h with
  | start => exact .refl _
  | gates _ reads writes ih => exact ih.trans ⟨fun _ => rfl, rfl, fun _ _ => rfl, fun _ _ => rfl⟩
  | call _ haway hc hd ih => exact ih.trans (ensures_daily hc haway _ hd)

end Store

namespace Controller

open Routine

variable {idle : Fin maxProfiles → Prop} {c d : Controller}

/-- The kinds of moves that leave the active slot what it is. -/
def settledKinds : List MoveKind :=
  [.line, .layer, .saved, .edited, .modeToggled, .touchToggled, .combosToggled, .debugToggled,
    .centred, .panelCalibrated, .scanned, .sampled, .tracked, .switchesPolled, .switchRead,
    .panelTicked, .trackerEdited]

theorem Move.preserves {kind : MoveKind} {events : List Event} (hk : kind ∈ settledKinds)
    (h : c.store.Away idle) (hm : Move kind c events d) :
    c.store.Preserves idle d.store ∧ d.store.active = c.store.active := by
  have hsame : c.store.Preserves idle c.store ∧ c.store.active = c.store.active := ⟨.refl _, rfl⟩
  cases hm with
  | saved hc hd => exact Store.ensures_saves hc h _ hd
  | loaded | booted | storeCalled => exact absurd hk (by decide)
  | touchToggled =>
    rw [touchToggled_fst]
    exact hsame
  | panelTicked =>
    rw [panelTicked_fst]
    exact hsame
  | _ => exact hsame

theorem Moves.preserves {kinds : List MoveKind} {events : List Event} (hk : kinds ⊆ settledKinds)
    (h : c.store.Away idle) (hm : Moves kinds c events d) : c.store.Preserves idle d.store := by
  have hboth : c.store.Preserves idle d.store ∧ d.store.active = c.store.active := by
    induction hm with
    | refl => exact ⟨.refl _, rfl⟩
    | tail _ hkind hmove ih =>
      obtain ⟨hkept, hactive⟩ := ih
      obtain ⟨hnext, hsame⟩ := hmove.preserves (hk hkind) (h.congr hactive)
      exact ⟨hkept.trans hnext, hsame.trans hactive⟩
  exact hboth.1

/-- After the store has switched nothing touches it any more. -/
theorem ensures_switchProfile (h : c.store.Away idle) (id : UInt8) :
    (switchProfile id).Ensures c fun _ d => c.store.Preserves idle d.store := by
  have hquiet {α : Type} {r : Routine Controller α} (hr : Quiet r) {d : Controller}
      (hd : c.store.Preserves idle d.store) :
      r.Ensures d fun _ e => c.store.Preserves idle e.store :=
    (hr d).mono fun _ _ he => he.store ▸ hd
  rw [switchProfile]
  refine .get_bind ?_
  refine .bind (.of_onPart (P := fun _ d => c.store.Preserves idle d.store)
    (Store.ensures_switchProfile h id)) fun (switched, live) d hd => ?_
  cases switched with
  | false => exact .of_pure hd
  | true =>
    refine .bind (.of_modify (P := fun _ e => c.store.Preserves idle e.store) hd) fun _ e he => ?_
    refine hquiet (.bind quiet_sync fun _ => .get_bind fun f => ?_) he
    refine Quiet.bind (quiet_liftM _) (fun _ => .bind (quiet_liftM _) fun _ => ?_) f
    exact .bind (quiet_notify _) fun _ => quiet_pure _

theorem ensures_perform {action : ComboAction} (ha : action.Daily) (h : c.store.Away idle)
    (now : UInt32) : (perform action now).Ensures c fun _ d => c.store.Preserves idle d.store := by
  have hgoes (hk : action.kinds ⊆ settledKinds) :
      (perform action now).Ensures c fun _ d => c.store.Preserves idle d.store :=
    fun d hd => (goes_perform c action now d hd).preserves hk h
  cases action with
  | switchProfile id => exact .bind (ensures_switchProfile h id) fun _ _ hkeeps => .of_pure hkeeps
  | resetSettings | emergencyReset | factoryReset => exact ha.elim
  | _ => exact hgoes (by rw [ComboAction.kinds]; decide)

theorem ensures_processKey (h : c.store.Away idle) (code : UInt16) (pressed : Bool) :
    (processKey code pressed).Ensures c fun _ d => c.store.Preserves idle d.store := by
  have hgoes (hk : (ControllerCall.key code pressed).kinds ⊆ settledKinds) :
      (processKey code pressed).Ensures c fun _ d => c.store.Preserves idle d.store :=
    fun d hd => (goes_processKey c code pressed d hd).preserves hk h
  rw [ControllerCall.kinds] at hgoes
  cases pressed with
  | false => exact hgoes (List.nil_subset _)
  | true =>
    cases hkey : CustomKey.ofKeycode? code with
    | none =>
      rw [hkey] at hgoes
      exact hgoes (by decide)
    | some key =>
      rw [hkey] at hgoes
      cases key with
      | profile slot =>
        rw [processKey, hkey]
        refine .get_bind (.bind (ensures_switchProfile h slot) fun _ _ hkeeps => ?_)
        exact .of_pure hkeeps
      | _ => exact hgoes (by rw [if_pos rfl, Option.elim_some, CustomKey.kinds]; decide)

theorem ensures_daily {call : ControllerCall} (hc : call.Daily) (h : c.store.Away idle) :
    call.perform.Ensures c fun _ d => c.store.Preserves idle d.store := by
  have hgoes (hk : call.kinds ⊆ settledKinds) :
      call.perform.Ensures c fun _ d => c.store.Preserves idle d.store :=
    fun d hd => (goes_call c call d hd).preserves hk h
  cases call with
  | init | resetCurrent | factoryReset _ | emergencyReset _ => exact hc.elim
  | switchProfile id => exact .bind (ensures_switchProfile h id) fun _ _ hkeeps => .of_pure hkeeps
  | key code pressed =>
    exact .bind (ensures_processKey h code pressed) fun _ _ hkeeps => .of_pure hkeeps
  | combo index pressed =>
    have hcombo : (processCombo index pressed).Ensures c fun _ d =>
        c.store.Preserves idle d.store := by
      intro d hd
      rcases processCombo_cases hd with rfl | ⟨combo, -, hindex, -, -, hrun⟩
      · exact .refl _
      · exact ensures_perform (hc combo hindex) h _ d hrun
    exact .bind hcombo fun _ _ hkeeps => .of_pure hkeeps
  | store call =>
    refine .get_bind (.bind (.of_onPart (P := fun _ d => c.store.Preserves idle d.store)
      (Store.ensures_daily hc h)) fun answer d hd => ?_)
    split <;> exact .of_pure hd
  | _ => exact hgoes (by rw [ControllerCall.kinds]; decide)

/-- A device in daily use, on a board that becomes any other one, while any accesses to flash
are refused. -/
inductive InUse (idle : Fin maxProfiles → Prop) (first : Controller) : Controller → Prop
  | start : InUse idle first first
  | outside {c : Controller} (h : InUse idle first c) (board : Board) (reads writes : Gate) :
      InUse idle first (c.placed board { c.store.flash with reads, writes })
  | call {c : Controller} (h : InUse idle first c) (haway : c.store.Away idle)
      {call : ControllerCall} (hc : call.Daily) {d : Outcome Controller Reply}
      (hd : call.perform.run c = .ok d) : InUse idle first d.state

theorem InUse.preserves {first : Controller} (h : InUse idle first c) :
    first.store.Preserves idle c.store := by
  induction h with
  | start => exact .refl _
  | outside _ board reads writes ih =>
    exact ih.trans ⟨fun _ => rfl, rfl, fun _ _ => rfl, fun _ _ => rfl⟩
  | call _ haway hc hd ih => exact ih.trans (ensures_daily hc haway _ hd)

end Controller

/-- In daily use, of the store alone or of the whole device, no profile and no manager record
ever loses what is no setting, and a slot that no call finds active loses nothing at all. -/
theorem daily_use_keeps (idle : Fin maxProfiles → Prop) :
    (∀ first s : Store, Store.InUse idle first s → first.Preserves idle s) ∧
      ∀ first c : Controller, Controller.InUse idle first c → first.store.Preserves idle c.store :=
  ⟨fun _ _ h => h.preserves, fun _ _ h => h.preserves⟩

/-- A store with something to save, of which flash takes nothing. -/
def Store.refusing : Store :=
  { flash := { Flash.erased regionLength with writes := { isOpen := false } }
    base := 0
    dirty := true }

set_option maxRecDepth 100000 in
/-- The switch saves to the profile that it leaves, though nothing is written, and the next save
goes to the other one. A device whose first stick is toggled saves to the first profile. -/
theorem daily_use_keeps_refusing :
    (∃ s, Store.InUse (2 ≤ ·) .refusing s ∧ s.active = 1 ∧
      (s.records.profile 0).combo.enabled = false ∧ Store.refusing.Preserves (2 ≤ ·) s) ∧
    ∃ d, (ControllerCall.toggleStickMode .one 0).perform.run
        (.ofBoard {} (.erased regionLength) 0) = .ok d ∧
      (d.state.store.records.profile 0).sticks.one.analog = false ∧
      (Store.ofFlash (.erased regionLength) 0).Preserves (1 ≤ ·) d.state.store := by
  constructor
  · have hrun : (((StoreCall.switchProfile 1).perform { combosEnabled := false }).run
        .refusing).toOption.bind (fun d =>
          (((StoreCall.save 9).perform d.value.1).run d.state).toOption.map fun e =>
            (d.state.records.activeSlot.toOption, e.state.active,
              (e.state.records.profile 0).combo.enabled)) = some (some 1, 1, false) := by
      decide +kernel
    obtain ⟨d, hd, hrun⟩ := Option.bind_eq_some_iff.mp hrun
    obtain ⟨e, he, hrun⟩ := Option.map_eq_some_iff.mp hrun
    obtain ⟨hslot, hactive, hcombo⟩ : _ ∧ _ ∧ _ := by simpa only [Prod.mk.injEq] using hrun
    have haway : Store.Away (2 ≤ ·) .refusing := by
      intro slot h
      obtain rfl : 0 = slot := Except.ok.inj h
      decide
    have haway' : d.state.Away (2 ≤ ·) := by
      intro slot h
      obtain rfl := Except.ok.inj ((eq_ok_of_toOption hslot).symm.trans h)
      decide
    have hswitch : (StoreCall.switchProfile 1).Daily := trivial
    have hsave : (StoreCall.save 9).Daily := trivial
    have huse : Store.InUse (2 ≤ ·) .refusing e.state :=
      .call (.call .start haway hswitch (eq_ok_of_toOption hd)) haway' hsave (eq_ok_of_toOption he)
    exact ⟨e.state, huse, hactive, hcombo, (daily_use_keeps _).1 _ _ huse⟩
  · have hrun : ((ControllerCall.toggleStickMode .one 0).perform.run
        (.ofBoard {} (.erased regionLength) 0)).toOption.map (fun d =>
          (d.state.store.records.profile 0).sticks.one.analog) = some false := by
      decide +kernel
    obtain ⟨d, hd, hanalog⟩ := Option.map_eq_some_iff.mp hrun
    have hd := eq_ok_of_toOption hd
    have haway : (Controller.ofBoard {} (.erased regionLength) 0).store.Away (1 ≤ ·) := by
      intro slot h
      obtain rfl : 0 = slot := Except.ok.inj h
      decide
    have htoggle : (ControllerCall.toggleStickMode .one 0).Daily := trivial
    exact ⟨d, hd, hanalog, (daily_use_keeps _).2 _ _ (.call .start haway htoggle hd)⟩

end TwinStick
