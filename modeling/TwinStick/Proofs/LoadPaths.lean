import TwinStick.Proofs.Agreement
import TwinStick.Proofs.Lossless
import TwinStick.Proofs.Visits

/-! The two ways to put a profile in force. A switch takes every setting from the record. A boot
takes from the quick word what there is room for, and completes it from the record. Between them
the two hold every setting once, so both ways lead to the same settings whatever was in force. -/

namespace TwinStick

namespace QuickWord

/-- What a boot takes from the word is as in these settings. -/
structure Holds (q : QuickWord) (t : DeviceSettings) : Prop where
  active : q.active = t.profile
  mode (stick : Stick) : .ofAnalog (q.analog.get stick) = (t.sticks.get stick).mode
  sensitivity (stick : Stick) : q.sensitivity.get stick = (t.sticks.get stick).sensitivity
  touch : q.touchEnabled = t.touchEnabled
  combos : q.combosEnabled = t.combosEnabled

variable {q : QuickWord} {t : DeviceSettings}

theorem holds_capture (q : QuickWord) (hp : t.profile.toNat < maxProfiles) (hm : t.Modest) :
    (q.capture t).Holds t where
  active := and_three_of_lt hp
  mode stick := by rw [capture, PerStick.get_map, StickMode.ofAnalog_isAnalog]
  sensitivity stick := by
    have hfits := Signal.min_maxSensitivity (hm stick)
    rw [capture, PerStick.get_map, hfits]
  touch := rfl
  combos := rfl

/-- The bits that a value loses in the word are none that a boot needs. -/
theorem Holds.narrowed (h : q.Holds t) (hp : t.profile.toNat < maxProfiles) (hm : t.Modest) :
    q.narrowed.Holds t where
  active := by
    have hactive : lowBits 2 q.active = q.active := lowBits_of_lt (h.active ▸ hp)
    exact hactive.trans h.active
  mode := h.mode
  sensitivity stick := by
    have hle : (t.sticks.get stick).sensitivity.toNat ≤ 15 := UInt8.le_iff_toNat_le.mp (hm stick)
    have hlt : (q.sensitivity.get stick).toNat < 2 ^ 4 := by
      rw [h.sensitivity]
      omega
    have hsame : q.narrowed.sensitivity.get stick = q.sensitivity.get stick := by
      rw [QuickWord.narrowed, PerStick.get_map, lowBits_of_lt hlt]
    exact hsame.trans (h.sensitivity stick)
  touch := h.touch
  combos := h.combos

end QuickWord

namespace ProfileRecord

/-- What a boot takes from the record is as in these settings. -/
structure Completes (r : ProfileRecord) (t : DeviceSettings) : Prop where
  centre (stick : Stick) : (r.sticks.get stick).centre = (t.sticks.get stick).centre
  invert (stick : Stick) : (r.sticks.get stick).invert = (t.sticks.get stick).invert
  deadzone (stick : Stick) : (r.sticks.get stick).deadzone = (t.sticks.get stick).deadzone
  layer : r.layer.defaultLayer = t.defaultLayer
  debounce : r.timing.debounceMs = t.debounceMs
  stickPoll : r.timing.stickPollMs = t.stickPollMs
  touchPoll : r.timing.touchPollMs = t.touchPollMs

theorem completes_apply (r : ProfileRecord) (s : DeviceSettings) : r.Completes (r.apply s) where
  centre stick := by cases stick <;> rfl
  invert stick := by cases stick <;> rfl
  deadzone stick := by cases stick <;> rfl
  layer := rfl
  debounce := rfl
  stickPoll := rfl
  touchPoll := rfl

variable {r : ProfileRecord} {q : QuickWord} {t : DeviceSettings}

/-- A stick gets its mode and its sensitivity from the word, and the rest from the record: the
dead zone of the word is overwritten, since it may have been too wide for a byte. -/
theorem Completes.stick (hr : r.Completes t) (hq : q.Holds t) (stick : Stick)
    (found : StickSettings) :
    applyStickExtended (r.sticks.get stick) (q.applyStick stick found) = t.sticks.get stick := by
  rw [applyStickExtended, QuickWord.applyStick, hr.centre, hr.invert, hr.deadzone, hq.mode,
    hq.sensitivity]

/-- A boot leaves nothing of what was in force before but whether the device is debugged. -/
theorem Completes.boot (hr : r.Completes t) (hq : q.Holds t) (u : DeviceSettings) :
    r.applyExtended (q.apply u) = { t with debug := u.debug } := by
  have hone := hr.stick hq .one u.sticks.one
  have htwo := hr.stick hq .two u.sticks.two
  simp only [PerStick.get] at hone htwo
  rw [applyExtended, QuickWord.apply]
  simp only [hone, htwo, hr.layer, hr.debounce, hr.stickPoll, hr.touchPoll, hq.active, hq.touch,
    hq.combos]

/-- The word taken when a profile is put in force comes out of its packed form with all that a
boot needs. The boot then ends with the settings that the switch left. -/
theorem boot_eq_switch (r : ProfileRecord) (q : QuickWord) {s : DeviceSettings}
    (hs : s.profile.toNat < maxProfiles) :
    ∃ q', QuickWord.codec.unpack (QuickWord.codec.pack (q.capture (r.apply s))) = .ok q' ∧
      (q.reserved.toNat < 4 → q' = q.capture (r.apply s)) ∧
      ∀ u : DeviceSettings, u.debug = s.debug → r.applyExtended (q'.apply u) = r.apply s := by
  have hprofile : (r.apply s).profile.toNat < maxProfiles := hs
  have hmodest := r.modest_apply s
  have hholds := (q.holds_capture hprofile hmodest).narrowed hprofile hmodest
  refine ⟨_, QuickWord.lossless.narrows _, fun hreserved => ?_, fun u hdebug => ?_⟩
  · refine QuickWord.InRange.narrowed_eq ⟨?_, fun stick => ?_, hreserved⟩
    · rw [(q.holds_capture hprofile hmodest).active]
      exact hprofile
    · rw [(q.holds_capture hprofile hmodest).sensitivity]
      exact Nat.lt_succ_of_le (UInt8.le_iff_toNat_le.mp (hmodest stick))
  · rw [(r.completes_apply s).boot hholds u, hdebug]
    rfl

/-- A profile with a sensitivity and a dead zone that the word has no room for. -/
def wide : ProfileRecord :=
  { template 3 with
    sticks := ⟨{ analog := false, deadzone := 1000, sensitivity := 200 }, { analog := true }⟩ }

/-- The word has them narrowed, and the boot ends with them as the switch did. -/
theorem boot_eq_switch_wide :
    (3 : UInt8).toNat < maxProfiles ∧
      ∃ q', QuickWord.codec.unpack (QuickWord.codec.pack
          (QuickWord.capture { reserved := 3 } (wide.apply { profile := 3, debug := true }))) =
            .ok q' ∧
        (q'.deadzone.one, q'.reserved) = (255, 3) ∧
        wide.applyExtended (q'.apply { profile := 1, debug := true }) =
          wide.apply { profile := 3, debug := true } ∧
        ((wide.apply { profile := 3, debug := true }).sticks.one.deadzone,
          (wide.apply { profile := 3, debug := true }).sticks.one.sensitivity) = (1000, 15) := by
  have hs : (3 : UInt8).toNat < maxProfiles := by decide
  obtain ⟨q', hunpack, hword, hboot⟩ :=
    boot_eq_switch wide { reserved := 3 } (s := { profile := 3, debug := true }) hs
  refine ⟨hs, q', hunpack, ?_, hboot _ rfl, by decide⟩
  rw [hword (by decide)]
  decide

end ProfileRecord

end TwinStick
