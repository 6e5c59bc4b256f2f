import TwinStick.Proofs.Moves

/-! When the panel has power. It counts as ready exactly if it was probed since the device
was set up, and only bringing the device up and the touchscreen toggle probe it. Whatever
else turns the touchscreen on, such as a profile that wants it, leaves the panel alone. -/

namespace TwinStick

/-- The panel is there and answers when it is asked. -/
def Panel.Answers (p : Panel) : Prop := p.powerUp.1 = .ok ()

theorem Panel.Answers.handle {p : Panel} (h : p.Answers) : p.handle.1.Answers := by
  cases p with
  | detached => exact h
  | fitted chip => exact h

theorem Panel.Answers.probe_mem {p : Panel} (h : p.Answers) : .panelProbe ∈ p.powerUp.2 := by
  cases p with
  | detached => exact nomatch h
  | fitted chip => simp [powerUp]

/-- The call powers the panel up if that is wanted after it. Combos do so only if they are
on and the active profile has that one enabled. -/
def ControllerCall.Wakes (c : Controller) : ControllerCall → Prop
  | init | toggleTouchscreen _ => True
  | combo index pressed => pressed = true ∧ Combo.ofIndex? index = some .touchToggle ∧
    c.live.combosEnabled = true ∧ c.store.isComboEnabled .touchToggle = .ok true
  | _ => False

namespace Controller

open Routine

theorem probe_notMem {events : List Event} {topics : List Topic} (hw : Within topics events)
    (hp : Topic.panelPower ∉ topics) : Event.panelProbe ∉ events := fun h => hp (hw _ h)

section

variable {c : Controller}

theorem mem_powerEvents (h : c.board.panel.Answers) : .panelProbe ∈ c.powerEvents :=
  List.mem_append_left _ h.probe_mem

theorem mem_wakeEvents (h : c.board.panel.Answers) :
    .panelProbe ∈ c.wakeEvents ↔ c.live.touchEnabled = true := by
  rw [wakeEvents]
  cases c.live.touchEnabled with
  | false => exact iff_of_false List.not_mem_nil Bool.false_ne_true
  | true => exact iff_of_true (mem_powerEvents h) rfl

theorem mem_touchToggled (h : c.board.panel.Answers) :
    .panelProbe ∈ c.touchToggled.2 ↔ c.live.touchEnabled = false ∧ c.touchReady = false := by
  have hpower : .panelProbe ∈ c.touchFlipped.powerEvents := mem_powerEvents h
  rw [touchToggled]
  cases c.live.touchEnabled <;> cases c.touchReady <;> simp [hpower]

end

/-- The panel answers, and counts as ready exactly if it was probed. -/
structure Probed (c : Controller) (past : List Event) : Prop where
  answers : c.board.panel.Answers
  ready : c.touchReady = true ↔ .panelProbe ∈ past

def wakingKinds : List MoveKind := [.booted, .touchToggled]

theorem Move.touchReady_eq {kind : MoveKind} {c d : Controller} {events : List Event}
    (hk : kind ∉ wakingKinds) (hm : Move kind c events d) :
    d.touchReady = c.touchReady ∧ .panelProbe ∉ events := by
  have hw := hm.within
  cases hm with
  | booted | touchToggled => exact absurd (by decide) hk
  | panelTicked c now =>
    rw [panelTicked_fst]
    exact ⟨rfl, probe_notMem hw (by decide)⟩
  | _ => exact ⟨rfl, probe_notMem hw (by decide)⟩

theorem Move.answers {kind : MoveKind} {c d : Controller} {events : List Event}
    (h : c.board.panel.Answers) (hm : Move kind c events d) : d.board.panel.Answers := by
  cases hm with
  | booted hd =>
    rw [woken_eq]
    exact h
  | touchToggled c =>
    rw [touchToggled_fst]
    exact h
  | panelTicked c now =>
    rw [panelTicked_fst]
    dsimp only
    split
    · exact h.handle
    · exact h
  | _ => exact h

theorem touchReady_booted {c : Controller} (h : c.board.panel.Answers) :
    c.woken.synced.trackingDefaults.touchReady = true ↔
      c.touchReady = true ∨ c.live.touchEnabled = true := by
  have hpower : c.board.panel.powerUp.1.isOk = true := by
    rw [h]
    rfl
  rw [woken_eq, trackingDefaults, hpower]
  change (if c.live.touchEnabled = true then true else c.touchReady) = true ↔ _
  cases c.live.touchEnabled <;> simp

theorem touchReady_touchToggled {c : Controller} (h : c.board.panel.Answers) :
    c.touchToggled.1.touchReady = true ↔ c.touchReady = true ∨ c.live.touchEnabled = false := by
  have hpower : c.board.panel.powerUp.1.isOk = true := by
    rw [h]
    rfl
  rw [touchToggled_fst, hpower]
  cases c.live.touchEnabled <;> cases c.touchReady <;> simp

theorem Move.probed {kind : MoveKind} {c d : Controller} {past events : List Event}
    (h : Probed c past) (hm : Move kind c events d) : Probed d (past ++ events) := by
  refine ⟨hm.answers h.answers, ?_⟩
  rw [List.mem_append, ← h.ready]
  -- every other kind of move neither probes the panel nor touches the flag
  by_cases hk : kind ∈ wakingKinds
  · cases hm with
    | @booted _ o hd =>
      have hanswers : (c.installed o o.value).board.panel.Answers := h.answers
      have hflash := within_of_onFlash (Store.emits_init _ _ _ _ hd)
      have hother := probe_notMem hflash (by decide)
      have hsync := probe_notMem (within_syncEvents (c.installed o o.value).woken) (by decide)
      rw [touchReady_booted hanswers, List.mem_append, List.mem_append, mem_wakeEvents hanswers]
      simp only [hother, hsync, false_or, or_false]
      rfl
    | touchToggled c =>
      rw [mem_touchToggled h.answers, touchReady_touchToggled h.answers]
      cases c.live.touchEnabled <;> cases c.touchReady <;> simp
    | _ => exact absurd hk (by decide)
  · obtain ⟨hready, hprobe⟩ := hm.touchReady_eq hk
    rw [hready]
    simp [hprobe]

theorem probed_call {c : Controller} {past : List Event} (h : Probed c past)
    {call : ControllerCall} {d : Outcome Controller Reply} (hd : call.perform.run c = .ok d) :
    Probed d.state (past ++ d.events) :=
  (goes_call c call d hd).invariant (P := Probed) (fun _ hc hm => hm.probed hc) h

theorem Moves.touchReady_eq {kinds : List MoveKind} {c d : Controller} {events : List Event}
    (hk : ∀ kind ∈ kinds, kind ∉ wakingKinds) (hm : Moves kinds c events d) :
    d.touchReady = c.touchReady ∧ .panelProbe ∉ events := by
  induction hm with
  | refl => exact ⟨rfl, nofun⟩
  | tail _ hmem hm ih =>
    obtain ⟨hready, hprobe⟩ := hm.touchReady_eq (hk _ hmem)
    refine ⟨hready.trans ih.1, fun h => ?_⟩
    exact (List.mem_append.mp h).elim ih.2 hprobe

theorem run_processCombo_of_enabled {c : Controller} {index : Nat} {combo : Combo}
    (hindex : Combo.ofIndex? index = some combo) (hon : c.live.combosEnabled = true)
    (henabled : c.store.isComboEnabled combo = .ok true) :
    (processCombo index true).run c = (perform combo.action c.board.now).run c := by
  rw [processCombo, if_pos rfl, hindex]
  dsimp only
  rw [run_bind_of_silent (run_get c), if_pos hon,
    run_bind_of_silent (run_liftM_of_ok henabled c), if_pos rfl]

theorem waking_action {combo : Combo} (h : combo ≠ .touchToggle) :
    ∀ kind ∈ combo.action.kinds, kind ∉ wakingKinds := by
  cases combo <;> first | exact absurd rfl h | (rw [Combo.action, ComboAction.kinds]; decide)

theorem touchReady_of_not_wakes {c : Controller} {call : ControllerCall} (hw : ¬ call.Wakes c)
    {d : Outcome Controller Reply} (hd : call.perform.run c = .ok d) :
    d.state.touchReady = c.touchReady ∧ .panelProbe ∉ d.events := by
  have hmoves := goes_call c call d hd
  cases call with
  | init | toggleTouchscreen now => exact absurd trivial hw
  | combo index pressed =>
    obtain ⟨e, e', he, he', rfl⟩ := run_bind_eq_ok.mp hd
    obtain rfl := Except.ok.inj he'
    rw [List.append_nil]
    rcases processCombo_cases he with rfl | ⟨combo, hpressed, hindex, hon, henabled, hrun⟩
    · exact ⟨rfl, nofun⟩
    · by_cases htouch : combo = .touchToggle
      · rw [htouch] at hindex henabled
        exact absurd ⟨hpressed, hindex, hon, henabled⟩ hw
      · exact (goes_perform c _ _ e hrun).touchReady_eq (waking_action htouch)
  | key code pressed =>
    exact (hmoves.mono (ControllerCall.kinds_key code pressed)).touchReady_eq (by decide)
  | _ => exact hmoves.touchReady_eq (by rw [ControllerCall.kinds]; decide)

theorem ready_of_toggle {c : Controller} (h : c.board.panel.Answers) {now : UInt32}
    {d : Outcome Controller Unit} (hd : (toggleTouchscreen now).run c = .ok d)
    (he : d.state.live.touchEnabled = true) : d.state.touchReady = true := by
  obtain rfl := Except.ok.inj ((run_toggleTouchscreen now c).symm.trans hd)
  have hlive : c.touchToggled.1.live.touchEnabled = !c.live.touchEnabled := by
    rw [touchToggled_fst]
    rfl
  have hoff : c.live.touchEnabled = false := by
    rw [← Bool.not_eq_true', ← hlive]
    exact he
  exact (touchReady_touchToggled h).mpr (.inr hoff)

theorem ready_of_wakes {c : Controller} (h : c.board.panel.Answers) {call : ControllerCall}
    (hw : call.Wakes c) {d : Outcome Controller Reply} (hd : call.perform.run c = .ok d)
    (he : d.state.live.touchEnabled = true) : d.state.touchReady = true := by
  cases call with
  | init =>
    obtain ⟨e, e', hinit, he', rfl⟩ := run_bind_eq_ok.mp hd
    obtain rfl := Except.ok.inj he'
    rw [run_init] at hinit
    obtain ⟨o, ho, rfl⟩ := exists_of_map_eq_ok hinit
    have hanswers : (c.installed o o.value).board.panel.Answers := h
    dsimp only at he
    rw [woken_eq, trackingDefaults] at he
    exact (touchReady_booted hanswers).mpr (.inr he)
  | toggleTouchscreen now =>
    obtain ⟨e, e', htoggle, he', rfl⟩ := run_bind_eq_ok.mp hd
    obtain rfl := Except.ok.inj he'
    exact ready_of_toggle h htoggle he
  | combo index pressed =>
    obtain ⟨rfl, hindex, hon, henabled⟩ := hw
    obtain ⟨e, e', hcombo, he', rfl⟩ := run_bind_eq_ok.mp hd
    obtain rfl := Except.ok.inj he'
    rw [run_processCombo_of_enabled hindex hon henabled] at hcombo
    exact ready_of_toggle h hcombo he
  | _ => exact hw.elim

/-- While the panel answers whenever it is asked, it counts as ready exactly if it was
probed, and it stays ready. A call leaves an enabled touchscreen without power exactly if
it was not ready before and the call is none that powers the panel up. -/
theorem Session.powered_iff {board : Board} {flash : Flash} {base : UInt32} {c : Controller}
    {past : List Event} (hb : board.panel.Answers)
    (h : Session (fun _ _ => True) (·.panel.Answers) (ofBoard board flash base) [] c past) :
    (c.touchReady = true ↔ .panelProbe ∈ past) ∧
    ∀ (call : ControllerCall) (d : Outcome Controller Reply), call.perform.run c = .ok d →
      (c.touchReady = true → d.state.touchReady = true) ∧
      (¬ call.Wakes c → d.state.touchReady = c.touchReady ∧ .panelProbe ∉ d.events) ∧
      ((d.state.live.touchEnabled = true → d.state.touchReady = true) ↔
        c.touchReady = true ∨ d.state.live.touchEnabled = false ∨ call.Wakes c) := by
  have hprobed : Probed c past := h.invariant (P := Probed)
    ⟨hb, iff_of_false Bool.false_ne_true List.not_mem_nil⟩
    (fun _ hfits hc => ⟨hfits, hc.ready⟩) fun _ hc hd => probed_call hc hd
  refine ⟨hprobed.ready, fun call d hd => ?_⟩
  have hkept : c.touchReady = true → d.state.touchReady = true := fun hready =>
    (probed_call hprobed hd).ready.mpr (List.mem_append_left _ (hprobed.ready.mp hready))
  refine ⟨hkept, fun hw => touchReady_of_not_wakes hw hd, fun hpower => ?_, ?_⟩
  · by_cases hw : call.Wakes c
    · exact .inr (.inr hw)
    · rw [(touchReady_of_not_wakes hw hd).1] at hpower
      cases he : d.state.live.touchEnabled with
      | false => exact .inr (.inl rfl)
      | true => exact .inl (hpower he)
  · rintro (hready | hoff | hw) he
    · exact hkept hready
    · exact nomatch hoff.symm.trans he
    · exact ready_of_wakes hprobed.answers hw hd he

/-- The device comes up on erased flash, the touchscreen is toggled off, and then a profile is
entered that wants it. -/
def toggledOff : Except Fault
    (Outcome Controller Reply × Outcome Controller Reply × Outcome Controller Reply) := do
  let a ← ControllerCall.init.perform.run (ofBoard {} (.erased regionLength) 0)
  let b ← (ControllerCall.toggleTouchscreen 0).perform.run a.state
  let c ← (ControllerCall.switchProfile 1).perform.run b.state
  return (a, b, c)

set_option maxRecDepth 100000 in
/-- The panel is still ready when it is wanted again, and is not probed for it. -/
theorem powered_iff_toggled :
    ∃ a b c, toggledOff = .ok (a, b, c) ∧ a.state.live.touchEnabled = true ∧
      .panelProbe ∈ a.events ∧ b.state.live.touchEnabled = false ∧
      c.state.live.touchEnabled = true ∧ c.state.touchReady = true ∧ .panelProbe ∉ c.events := by
  have hrun : toggledOff.toOption.map (fun (a, b, c) => (a.state.live.touchEnabled,
      b.state.live.touchEnabled, c.state.live.touchEnabled)) = some (true, false, true) := by
    decide +kernel
  obtain ⟨⟨a, b, c⟩, htoggled, hfacts⟩ := Option.map_eq_some_iff.mp hrun
  obtain ⟨hfirst, hoff, hlast⟩ : _ ∧ _ ∧ _ := by simpa only [Prod.mk.injEq] using hfacts
  have htoggled := eq_ok_of_toOption htoggled
  obtain ⟨a', ha, h⟩ := exists_of_bind_eq_ok htoggled
  obtain ⟨b', hb, h⟩ := exists_of_bind_eq_ok h
  obtain ⟨c', hc, h⟩ := exists_of_bind_eq_ok h
  obtain ⟨rfl, hrest⟩ := Prod.mk.inj (Except.ok.inj h)
  obtain ⟨rfl, rfl⟩ := Prod.mk.inj hrest
  have hanswers : ({} : Board).panel.Answers := rfl
  have hstart : Session (fun _ _ => True) (·.panel.Answers) (ofBoard {} (.erased regionLength) 0)
      [] (ofBoard {} (.erased regionLength) 0) [] := .start
  have hup := hstart.call trivial ha
  have hdown := hup.call trivial hb
  obtain ⟨-, hinit⟩ := Session.powered_iff hanswers hstart
  obtain ⟨hprobed, htoggle⟩ := Session.powered_iff hanswers hup
  obtain ⟨-, hswitch⟩ := Session.powered_iff hanswers hdown
  have hready : a'.state.touchReady = true :=
    (hinit .init a' ha).2.2.mpr (.inr (.inr trivial)) hfirst
  have hkept : b'.state.touchReady = true := (htoggle (.toggleTouchscreen 0) b' hb).1 hready
  obtain ⟨hstays, hprobe⟩ := (hswitch (.switchProfile 1) c' hc).2.1 id
  exact ⟨_, _, _, htoggled, hfirst, hprobed.mp hready, hoff, hlast, hstays.trans hkept, hprobe⟩

/-- The device is switched to its third profile, which does not want the touchscreen,
booted again, and switched to the first one, which does. -/
def returned : Except Fault (Flash × Outcome Controller Reply × Outcome Controller Reply) := do
  let a ← ControllerCall.init.perform.run (ofBoard {} (.erased regionLength) 0)
  let b ← (ControllerCall.switchProfile 2).perform.run a.state
  let flash : Flash := { bytes := b.state.store.flash.bytes }
  let c ← ControllerCall.init.perform.run (ofBoard {} flash 0)
  let d ← (ControllerCall.switchProfile 0).perform.run c.state
  return (flash, c, d)

set_option maxRecDepth 100000 in
/-- The touchscreen is wanted then, but nobody has powered its panel up. -/
theorem power_missing :
    ∃ flash c past, Session (fun _ _ => True) (·.panel.Answers) (ofBoard {} flash 0) [] c past ∧
      ({} : Board).panel.Answers ∧ c.live.touchEnabled = true ∧ c.touchReady = false ∧
      .panelProbe ∉ past := by
  have hrun : returned.toOption.map (fun (_, c, d) => (d.state.live.touchEnabled,
      d.state.touchReady, decide (.panelProbe ∈ c.events ++ d.events))) =
        some (true, false, false) := by
    decide +kernel
  obtain ⟨⟨flash, c, d⟩, hreturned, hfacts⟩ := Option.map_eq_some_iff.mp hrun
  obtain ⟨hwanted, hready, hprobe⟩ : _ ∧ _ ∧ _ := by simpa only [Prod.mk.injEq] using hfacts
  obtain ⟨a, ha, h⟩ := exists_of_bind_eq_ok (eq_ok_of_toOption hreturned)
  obtain ⟨b, hb, h⟩ := exists_of_bind_eq_ok h
  obtain ⟨c, hc, h⟩ := exists_of_bind_eq_ok h
  obtain ⟨d, hd, h⟩ := exists_of_bind_eq_ok h
  obtain ⟨rfl, hlast⟩ := Prod.mk.inj (Except.ok.inj h)
  obtain ⟨rfl, rfl⟩ := Prod.mk.inj hlast
  exact ⟨_, d.state, _, .call (.call .start trivial hc) trivial hd, rfl, hwanted, hready,
    of_decide_eq_false hprobe⟩

end Controller

end TwinStick
