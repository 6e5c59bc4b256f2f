import TwinStick.Proofs.Copies
import TwinStick.Proofs.HeldKeys
import TwinStick.Proofs.WriteThrough

/-! Starting over. A reset erases nothing: it puts the built-in contents in place of
whatever the store and the device have come to, and boot arrives at the same contents in
another way. Neither of the two leaves anything behind that the other does not. -/

namespace TwinStick

theorem Flash.slice_slice (f : Flash) {offset length start count : Nat}
    (h : start + count ≤ length) :
    ((f.slice offset length).drop start).take count = f.slice (offset + start) count := by
  have hroom : count ≤ length - start := by omega
  rw [slice, slice, List.drop_take, List.take_take, List.drop_drop, Nat.min_eq_left hroom]

namespace Store

def regionBytes (s : Store) : List UInt8 := s.flash.slice s.base.toNat regionLength

theorem stored_eq_of_regionBytes (s : Store) (p : Part) :
    s.stored p = (s.regionBytes.drop p.offset).take p.length := by
  rw [regionBytes, Flash.slice_slice _ p.offset_add_length_le, stored]

/-- The region has been erased, and nothing stands in the way of its use. -/
structure Blank (s : Store) : Prop where
  placed : s.Placed
  reads : s.flash.reads.Free
  writes : s.flash.writes.Free
  erased : s.regionBytes = .replicate regionLength 0xFF

theorem blank_erased : (ofFlash (.erased regionLength) 0).Blank := by
  refine ⟨placed_erased, Gate.free_default, Gate.free_default, ?_⟩
  simp [regionBytes, Flash.slice, ofFlash, Flash.erased]

theorem Blank.not_isValid {s : Store} (h : s.Blank) : s.region.manager.isValid = false := by
  have hstored : s.stored .manager = (ofFlash (.erased regionLength) 0).stored .manager := by
    rw [stored_eq_of_regionBytes, stored_eq_of_regionBytes, h.erased, blank_erased.erased]
  have hmanager : s.region.manager = (ofFlash (.erased regionLength) 0).region.manager :=
    congrArg ManagerRecord.codec.read hstored
  rw [hmanager]
  exact isValid_erased

/-- The store holds what was built in, put there at this time, in the copies and in
flash. -/
structure Pristine (s : Store) (now : UInt32) : Prop where
  records : s.records = .builtIn now
  clean : s.dirty = false
  lastChange : s.lastChange = now
  backed : s.Backed

/-- The stores have the same copies, flags and regions, wherever these lie. -/
structure SameContents (s t : Store) : Prop where
  records : s.records = t.records
  dirty : s.dirty = t.dirty
  lastChange : s.lastChange = t.lastChange
  regionBytes : s.regionBytes = t.regionBytes

section

variable {s t : Store} {now : UInt32}

theorem Pristine.sameContents (h : s.Pristine now) (h' : t.Pristine now) : s.SameContents t := by
  have hrecords : s.records = t.records := h.records.trans h'.records.symm
  refine ⟨hrecords, h.clean.trans h'.clean.symm, h.lastChange.trans h'.lastChange.symm, ?_⟩
  rw [regionBytes, regionBytes, h.backed.slice_region, h'.backed.slice_region, hrecords]

theorem pristine_factoryReset (h : s.Placed) (hw : s.flash.writes.Free) (now : UInt32) :
    ∃ d, (factoryReset now).run s = .ok d ∧ d.value = builtInLive ∧ d.state.Pristine now := by
  obtain ⟨d, hd, hvalue, hclean, hcarried⟩ := run_factoryReset h now
  have hreached : s.reached Part.all = Part.all := reached_of_free hw _
  refine ⟨d, hd, hvalue, hcarried.records, hclean, ?_, fun p => ?_⟩
  · rw [run_factoryReset_eq] at hd
    obtain ⟨e, -, rfl⟩ := exists_of_map_eq_ok hd
    rfl
  · rw [hcarried.records]
    refine hcarried.written p ?_
    rw [hreached]
    exact p.mem_all

theorem Blank.pristine_init (h : s.Blank) (now : UInt32) :
    ∃ d, (init {} now).run s = .ok d ∧ d.value = builtInLive ∧ d.state.Pristine now := by
  obtain ⟨d, hd, hholds, hs, -⟩ := run_takeOver_of_free h.placed h.reads h.writes now
  rw [recovered_of_invalid h.not_isValid] at hholds hs
  have hrec : d.state.records = .builtIn now := by rw [hs]
  have hslot : d.state.records.activeSlot = .ok 0 := by
    rw [hrec]
    rfl
  have hbooted : d.state.records.booted {} = .builtIn now := by
    rw [hrec, Records.booted_builtIn]
  refine ⟨_, run_init hd hslot {}, ?_, hbooted, rfl, rfl, fun p => ?_⟩
  · rw [hrec, Records.bootLive_of_autoLoad rfl, Records.profile_builtIn]
    rfl
  · -- putting the contents in force does not touch flash
    have hstored : d.state.stored p = (Records.builtIn now).image p := hholds.stored p
    dsimp only
    rw [hbooted]
    exact hstored

end

end Store

theorem not_isDown_of_analog {engines : PerStick Engine} {past : List Event}
    (h : Holding engines past) {key : StickKey} (hm : (engines.get key.stick).mode = .analog) :
    isDown key past = false := by
  rw [h.isDown, h.idle _ hm]
  cases key.direction <;> rfl

namespace Controller

open Routine

/-- The devices have the same settings in force, and so have all components that keep a
copy of them. -/
structure SameSettings (c d : Controller) : Prop where
  live : c.live = d.live
  scanner : c.matrix.config.debounce = d.matrix.config.debounce
  tracker : c.tracker.debounce = d.tracker.debounce
  sampler : c.sampler.config.interval = d.sampler.config.interval
  sampling : c.sampler.cadence.period = d.sampler.cadence.period
  panel : c.touchCadence.period = d.touchCadence.period
  sticks : ∀ stick, c.kept stick = d.kept stick

section

variable {c d : Controller} {past seen : List Event} {now : UInt32}

theorem Copied.sameSettings (h : Copied c past) (h' : Copied d seen) (hlive : c.live = d.live) :
    SameSettings c d := by
  refine ⟨hlive, ?_, ?_, ?_, ?_, ?_, fun stick => ?_⟩
  · rw [h.scanner, h'.scanner, hlive]
  · rw [h.tracker, h'.tracker, hlive]
  · rw [h.sampler, h'.sampler, hlive]
  · rw [h.sampling, h'.sampling, hlive]
  · rw [h.panel, h'.panel, hlive]
  · rw [h.sticks, h'.sticks, hlive]

theorem run_reset {o : Outcome Store DeviceSettings}
    (ho : (Store.factoryReset now).run c.store = .ok o) {call : ControllerCall}
    (hc : call ∈ [.factoryReset now, .emergencyReset now]) :
    ∃ n, call.perform.run c = .ok ⟨.none, (c.installed o o.value).synced,
      c.noticed n ++ (o.events ++ (c.installed o o.value).syncEvents)⟩ := by
  have hstore : (onStore (Store.factoryReset now)).run c =
      .ok ⟨o.value, { c with store := o.state }, o.events⟩ := by
    rw [run_onStore, ho]
    rfl
  have hsync : (modify ({ · with live := o.value }) >>= fun _ => sync).run
      { c with store := o.state } = .ok ⟨(), (c.installed o o.value).synced,
        (c.installed o o.value).syncEvents⟩ := by
    rw [run_bind_of_silent (run_modify _ _)]
    exact run_sync (c.installed o o.value)
  -- the two resets differ in the notice only
  have hreset : ∀ n, (notify n >>= fun _ => onStore (Store.factoryReset now) >>= fun live =>
      modify ({ · with live }) >>= fun _ => sync).run c =
        .ok ⟨(), (c.installed o o.value).synced,
          c.noticed n ++ (o.events ++ (c.installed o o.value).syncEvents)⟩ := by
    intro n
    rw [run_bind_of_ok (run_notify n c), run_bind_of_ok hstore, hsync]
    rfl
  rcases List.mem_pair.mp hc with rfl | rfl
  · exact ⟨_, run_bind_pure_of_ok (hreset .factoryReset) fun _ => Reply.none⟩
  · exact ⟨_, run_bind_pure_of_ok (hreset .emergencyReset) fun _ => Reply.none⟩

theorem run_init_blank {fresh : Flash} {base : UInt32} (h : (Store.ofFlash fresh base).Blank)
    (board : Board) :
    ∃ d, init.run (ofBoard board fresh base) = .ok d ∧ d.state.live = Store.builtInLive ∧
      Copied d.state d.events := by
  obtain ⟨o, ho, hvalue, -⟩ := h.pristine_init board.now
  have hrun := run_init (ofBoard board fresh base)
  have hboot : (Store.init (ofBoard board fresh base).live (ofBoard board fresh base).board.now).run
      (ofBoard board fresh base).store = .ok o := ho
  rw [hboot] at hrun
  have hlive : ((ofBoard board fresh base).installed o o.value).woken.synced.trackingDefaults.live =
      Store.builtInLive := by
    rw [woken_eq]
    exact hvalue
  exact ⟨_, hrun, hlive, (inStep_init hrun).toCopied⟩

end

/-- Either reset of the store leaves the copies, the flags, the region and the settings as
booting an erased region at the same time does, whatever they were before. Either reset of
the device leaves the components with what they have after the first boot of a device,
and with no key of a stick down. -/
theorem reset_eq_first_boot {fresh : Flash} {base : UInt32}
    (h : (Store.ofFlash fresh base).Blank) :
    (∀ now, ∃ e, (Store.init {} now).run (.ofFlash fresh base) = .ok e ∧
      ∀ s : Store, s.Placed → s.flash.writes.Free → ∀ live,
        ∀ call ∈ [StoreCall.factoryReset now, .emergencyReset now],
          ∃ d, (call.perform live).run s = .ok d ∧ d.value.1 = e.value ∧
            d.state.SameContents e.state) ∧
    ∀ board, ∃ e, init.run (ofBoard board fresh base) = .ok e ∧
      ∀ (first : Board) (flash : Flash) (origin : UInt32) (c : Controller) (past : List Event),
        Session (fun _ _ => True) (fun _ => True) (ofBoard first flash origin) [] c past →
        c.store.Placed → c.store.flash.writes.Free → ∀ now,
        ∀ call ∈ [ControllerCall.factoryReset now, .emergencyReset now],
          ∃ d, call.perform.run c = .ok d ∧ d.state.SameSettings e.state ∧
            ∀ key, isDown key (past ++ d.events) = false := by
  refine ⟨fun now => ?_, fun board => ?_⟩
  · obtain ⟨e, he, hsettings, hpristine⟩ := h.pristine_init now
    refine ⟨e, he, fun s hs hw live call hc => ?_⟩
    obtain ⟨d, hd, hvalue, hreset⟩ := Store.pristine_factoryReset hs hw now
    have hrun : (call.perform live).run s = .ok ⟨(d.value, none), d.state, d.events⟩ := by
      rcases List.mem_pair.mp hc with rfl | rfl <;>
        exact run_bind_pure_of_ok hd fun live => (live, none)
    exact ⟨_, hrun, hvalue.trans hsettings.symm, hreset.sameContents hpristine⟩
  · obtain ⟨e, he, hlive, hcopied⟩ := run_init_blank h board
    refine ⟨e, he, fun first flash origin c past hsession hs hw now call hc => ?_⟩
    obtain ⟨o, ho, hvalue, -⟩ := Store.pristine_factoryReset hs hw now
    obtain ⟨n, hrun⟩ := run_reset ho hc
    have hsynced : Copied (c.installed o o.value).synced _ := copied_synced _ []
    have hnow : (c.installed o o.value).synced.live = Store.builtInLive := hvalue
    refine ⟨_, hrun, hsynced.sameSettings hcopied (hnow.trans hlive.symm), fun key => ?_⟩
    -- the built-in settings make both sticks analog, and such a stick holds no key
    have hholding := holding_call hsession.holding hrun
    have hanalog : (Store.builtInLive.sticks.get key.stick).mode = .analog := by
      cases key.stick <;> rfl
    have hmode := congrArg StickSettings.mode (hsynced.sticks key.stick)
    rw [hnow, hanalog] at hmode
    exact not_isDown_of_analog hholding hmode

/-- A stick is digital and pushed to the left, and a pass has told the host so. -/
def leftDown : Except Fault (Controller × List Event) := do
  let (c, past) ← pushed
  let d ← ControllerCall.tick.perform.run c
  return (d.state.placed d.state.board { bytes := d.state.store.flash.bytes }, past ++ d.events)

theorem session_leftDown {c : Controller} {past : List Event} (h : leftDown = .ok (c, past)) :
    Session (fun _ _ => True) (fun _ => True) (ofBoard {} (.erased regionLength) 0) [] c past ∧
      c.store.flash.writes.Free := by
  obtain ⟨⟨m, seen⟩, hpushed, h⟩ := exists_of_bind_eq_ok h
  obtain ⟨d, hd, h⟩ := exists_of_bind_eq_ok h
  obtain ⟨rfl, rfl⟩ := Prod.mk.inj (Except.ok.inj h)
  exact ⟨.outside (.call (session_pushed hpushed) trivial hd) trivial _, Gate.free_default⟩

set_option maxRecDepth 100000 in
/-- A reset lets go of the key, although the stick is still pushed. -/
theorem reset_eq_first_boot_left_down :
    ∃ c past d e, leftDown = .ok (c, past) ∧ isDown ⟨.one, .left⟩ past = true ∧
      (ControllerCall.emergencyReset 30).perform.run c = .ok d ∧
      init.run (ofBoard {} (.erased regionLength) 0) = .ok e ∧ d.state.SameSettings e.state ∧
      isDown ⟨.one, .left⟩ (past ++ d.events) = false ∧
      ∃ f g, ((StoreCall.factoryReset 30).perform c.live).run c.store = .ok f ∧
        (Store.init {} 30).run (.ofFlash (.erased regionLength) 0) = .ok g ∧
        f.state.SameContents g.state := by
  have hrun : leftDown.toOption.map (fun (c, past) =>
      (c.store.base, c.store.flash.capacity, isDown ⟨.one, .left⟩ past)) =
        some (0, regionLength, true) := by
    decide +kernel
  obtain ⟨⟨c, past⟩, hleft, hfacts⟩ := Option.map_eq_some_iff.mp hrun
  obtain ⟨hbase, hcapacity, hdown⟩ : _ ∧ _ ∧ _ := by simpa only [Prod.mk.injEq] using hfacts
  have hleft := eq_ok_of_toOption hleft
  obtain ⟨hsession, hfree⟩ := session_leftDown hleft
  have hplaced : c.store.Placed := by
    refine .of_room ?_ ?_
    · rw [hbase]
      decide
    · rw [hbase, hcapacity]
      decide
  obtain ⟨hstore, hdevice⟩ := reset_eq_first_boot Store.blank_erased
  obtain ⟨g, hg, hresets⟩ := hstore 30
  obtain ⟨f, hf, -, hfg⟩ := hresets c.store hplaced hfree c.live (.factoryReset 30) (by simp)
  obtain ⟨e, he, hcalls⟩ := hdevice {}
  obtain ⟨d, hd, hde, hup⟩ :=
    hcalls {} _ 0 c past hsession hplaced hfree 30 (.emergencyReset 30) (by simp)
  exact ⟨c, past, d, e, hleft, hdown, hd, he, hde, hup _, f, g, hf, hg, hfg⟩

end Controller

end TwinStick
