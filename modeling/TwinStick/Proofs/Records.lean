import TwinStick.Proofs.Packing
import TwinStick.Store.Region

/-! The records in their packed form. No layout loses a bit, a value is read back
but for what its reserved bits have no room for, and the checksum of a record
covers everything but itself. -/

namespace TwinStick

open Codec

/-- The layout has room for all of a value. -/
def Codec.Fits (c : Codec α) (a : α) : Prop := c.reread a = a

theorem Codec.Fits.read_pack {c : Codec α} {a : α} (h : c.Fits a) (hw : c.Whole) :
    c.read (c.pack a) = a := (Codec.read_pack hw a).trans h

theorem Codec.fits_read {c : Codec α} (hl : c.Lawful) (bytes : List UInt8) :
    c.Fits (c.read bytes) := reread_read hl bytes

theorem Codec.fits_zero (width : Nat) : (uint8 width).Fits 0 :=
  reread_uint8_of_lt (Nat.two_pow_pos width)

theorem Codec.map_reread {c : Codec α} (h : ∀ a, c.reread a = a) (v : Vector α n) :
    v.map c.reread = v := by
  rw [show c.reread = id from funext h, Vector.map_id]

namespace QuickWord

theorem codec_lawful : codec.Lawful :=
  lawful_via
    (lawful_prod (lawful_uint8 (by decide)) <| lawful_prod (lawful_uint8 le_rfl) <|
      lawful_prod (lawful_uint8 le_rfl) <| lawful_prod (lawful_uint8 (by decide)) <|
      lawful_prod (lawful_uint8 (by decide)) <| lawful_prod lawful_bool <|
      lawful_prod lawful_bool <| lawful_prod lawful_bool <| lawful_prod lawful_bool <|
      lawful_uint8 (by decide))
    fun _ => rfl

theorem codec_whole : codec.Whole := rfl

theorem reread_codec (q : QuickWord) :
    codec.reread q = { q with
      active := (uint8 2).reread q.active
      sensitivity := q.sensitivity.map (uint8 4).reread
      reserved := (uint8 2).reread q.reserved } := by
  simp [codec, fields, ofFields, PerStick.map]

theorem fits_default : codec.Fits {} := by
  rw [Fits, reread_codec]
  decide

theorem fits_withActive {q : QuickWord} (h : codec.Fits q) {active : UInt8}
    (ha : active.toNat < maxProfiles) : codec.Fits { q with active } := by
  rw [Fits, reread_codec] at h ⊢
  have hq := QuickWord.mk.inj h
  have hactive : (uint8 2).reread active = active := reread_uint8_of_lt ha
  simp only [hactive, hq.2.2.2.2.1, hq.2.2.2.2.2.2]

/-- The word has four bits for a sensitivity. -/
theorem sensitivity_le_of_fits {q : QuickWord} (h : codec.Fits q) (stick : Stick) :
    q.sensitivity.get stick ≤ Signal.maxSensitivity := by
  rw [Fits, reread_codec] at h
  have hs := congrArg (·.get stick) (QuickWord.mk.inj h).2.2.2.2.1
  rw [PerStick.get_map] at hs
  rw [← hs, UInt8.le_iff_toNat_le, toNat_reread_uint8]
  have hlt : (q.sensitivity.get stick).toNat % 2 ^ 4 < 16 := Nat.mod_lt _ (by decide)
  exact Nat.le_of_lt_succ hlt

theorem fits_capture {q : QuickWord} (h : codec.Fits q) (live : DeviceSettings) :
    codec.Fits (q.capture live) := by
  have hm : ∀ n : UInt8, (uint8 4).reread (min n Signal.maxSensitivity) =
      min n Signal.maxSensitivity := by
    intro n
    refine reread_uint8_of_lt ?_
    change (if n ≤ Signal.maxSensitivity then n else Signal.maxSensitivity).toNat < 16
    split
    · next hn => exact Nat.lt_succ_of_le (UInt8.le_iff_toNat_le.mp hn)
    · decide
  have ha : (uint8 2).reread (live.profile &&& 3) = live.profile &&& 3 := by
    refine reread_uint8_of_lt ?_
    rw [UInt8.toNat_and]
    exact Nat.lt_of_le_of_lt Nat.and_le_right (by decide)
  rw [Fits, reread_codec] at h ⊢
  have hq := QuickWord.mk.inj h
  simp only [capture, ha, PerStick.map, hm, hq.2.2.2.2.2.2]

end QuickWord

namespace ManagerRecord

theorem codec_lawful : codec.Lawful :=
  lawful_via
    (lawful_prod (lawful_uint8 le_rfl) <| lawful_prod (lawful_uint8 le_rfl) <|
      lawful_prod lawful_bool <| lawful_prod lawful_bool <| lawful_prod lawful_bool <|
      lawful_prod (lawful_uint8 (by decide)) <| lawful_prod lawful_uint32 <|
      lawful_prod lawful_uint16 lawful_uint16)
    fun _ => rfl

theorem codec_whole : codec.Whole := rfl

theorem reread_codec (m : ManagerRecord) :
    codec.reread m = { m with reserved := (uint8 5).reread m.reserved } := by
  simp [codec, fields, ofFields]

theorem fits_iff (m : ManagerRecord) : codec.Fits m ↔ (uint8 5).Fits m.reserved := by
  rw [Fits, reread_codec, Fits]
  cases m
  simp

theorem fits_of_reserved {m m' : ManagerRecord} (h : codec.Fits m)
    (hr : m'.reserved = m.reserved) : codec.Fits m' := by
  rw [fits_iff] at h ⊢
  rw [hr]
  exact h

@[simp] theorem fits_sealed (m : ManagerRecord) : codec.Fits m.sealed ↔ codec.Fits m := by
  rw [fits_iff, fits_iff, sealed]

theorem sameHead (m : ManagerRecord) (checksum : UInt16) :
    codec.SameHead { m with checksum } m := by
  refine SameHead.via ?_
  iterate 8 refine SameHead.prod ?_ _ _
  exact sameHead_uint16 _ _

@[simp] theorem bodyChecksum_sealed (m : ManagerRecord) :
    m.sealed.bodyChecksum = m.bodyChecksum :=
  congrArg TwinStick.checksum ((sameHead m m.bodyChecksum).take_pack codec_whole)

@[simp] theorem isIntact_sealed (m : ManagerRecord) : m.sealed.isIntact = true := by
  rw [isIntact, bodyChecksum_sealed, sealed, beq_self_eq_true]

theorem active_sealed (m : ManagerRecord) : m.sealed.active = m.active := rfl

theorem isValid_sealed {m : ManagerRecord} (ha : m.active.toNat < maxProfiles)
    (hv : m.version = layoutVersion) : m.sealed.isValid = true := by
  have h : decide (m.sealed.active.toNat < maxProfiles) = true := decide_eq_true ha
  have hl : (m.sealed.version == layoutVersion) = true := beq_iff_eq.mpr hv
  rw [isValid, h, hl, isIntact_sealed]
  rfl

theorem isValid_iff (m : ManagerRecord) : m.isValid = true ↔
    m.active.toNat < maxProfiles ∧ m.version = layoutVersion ∧ m.isIntact = true := by
  simp [isValid, and_assoc]

end ManagerRecord

theorem ProfileName.codec_lawful : ProfileName.codec.Lawful :=
  lawful_via (lawful_vector (lawful_uint8 le_rfl) nameLength) fun _ => rfl

@[simp] theorem ProfileName.reread_codec (n : ProfileName) : ProfileName.codec.reread n = n :=
  congrArg ProfileName.mk ((reread_vector _ _ _).trans (map_reread reread_byte _))

theorem StickProfile.codec_lawful : StickProfile.codec.Lawful :=
  lawful_via
    (lawful_prod lawful_bool <| lawful_prod lawful_bool <| lawful_prod lawful_bool <|
      lawful_prod (lawful_uint8 (by decide)) <| lawful_prod lawful_uint16 <|
      lawful_prod lawful_uint16 <| lawful_prod lawful_uint16 (lawful_uint8 le_rfl))
    fun _ => rfl

theorem StickProfile.reread_codec (p : StickProfile) :
    StickProfile.codec.reread p = { p with reserved := (uint8 5).reread p.reserved } := by
  simp [codec, fields, ofFields]

theorem ComboProfile.codec_lawful : ComboProfile.codec.Lawful :=
  lawful_via
    (lawful_prod lawful_bool <| lawful_prod lawful_bool <|
      lawful_prod (lawful_uint8 (by decide)) <| lawful_prod lawful_uint16 lawful_uint16)
    fun _ => rfl

theorem ComboProfile.reread_codec (p : ComboProfile) :
    ComboProfile.codec.reread p = { p with reserved := (uint8 6).reread p.reserved } := by
  simp [codec, fields, ofFields]

theorem TouchProfile.codec_lawful : TouchProfile.codec.Lawful :=
  lawful_via
    (lawful_prod lawful_bool <| lawful_prod lawful_bool <|
      lawful_prod (lawful_uint8 (by decide)) <| lawful_prod (lawful_uint8 le_rfl) <|
      lawful_vector (lawful_via (lawful_prod lawful_uint16 lawful_uint16) fun _ => rfl) 4)
    fun _ => rfl

theorem TouchProfile.reread_codec (p : TouchProfile) :
    TouchProfile.codec.reread p = { p with reserved := (uint8 6).reread p.reserved } := by
  simp only [codec, fields, ofFields, reread_via, reread_prod, reread_bool, reread_byte,
    reread_vector]
  rw [map_reread]
  intro point
  simp

theorem LayerProfile.codec_lawful : LayerProfile.codec.Lawful :=
  lawful_via
    (lawful_prod (lawful_uint8 le_rfl) <| lawful_prod lawful_bool <|
      lawful_prod (lawful_uint8 (by decide)) <| lawful_vector (lawful_uint8 le_rfl) 4)
    fun _ => rfl

theorem LayerProfile.reread_codec (p : LayerProfile) :
    LayerProfile.codec.reread p = { p with reserved := (uint8 7).reread p.reserved } := by
  simp only [codec, fields, ofFields, reread_via, reread_prod, reread_bool, reread_byte,
    reread_vector, map_reread reread_byte]

theorem TimingProfile.codec_lawful : TimingProfile.codec.Lawful :=
  lawful_via (lawful_prod lawful_uint16 <| lawful_prod lawful_uint16 lawful_uint16) fun _ => rfl

theorem FeatureProfile.codec_lawful : FeatureProfile.codec.Lawful :=
  lawful_via
    (lawful_prod lawful_bool <| lawful_prod lawful_bool <| lawful_prod lawful_bool <|
      lawful_uint8 (by decide))
    fun _ => rfl

theorem FeatureProfile.reread_codec (p : FeatureProfile) :
    FeatureProfile.codec.reread p = { p with reserved := (uint8 5).reread p.reserved } := by
  simp [codec, fields, ofFields]

namespace ProfileRecord

theorem codec_lawful : codec.Lawful :=
  lawful_via
    (lawful_prod ProfileName.codec_lawful <| lawful_prod lawful_bool <|
      lawful_prod (lawful_uint8 (by decide)) <| lawful_prod StickProfile.codec_lawful <|
      lawful_prod StickProfile.codec_lawful <| lawful_prod ComboProfile.codec_lawful <|
      lawful_prod TouchProfile.codec_lawful <| lawful_prod LayerProfile.codec_lawful <|
      lawful_prod TimingProfile.codec_lawful <|
      lawful_prod FeatureProfile.codec_lawful lawful_uint16)
    fun _ => rfl

theorem codec_whole : codec.Whole := rfl

theorem reread_codec (r : ProfileRecord) :
    codec.reread r = { r with
      reserved := (uint8 7).reread r.reserved
      sticks := r.sticks.map StickProfile.codec.reread
      combo := ComboProfile.codec.reread r.combo
      touch := TouchProfile.codec.reread r.touch
      layer := LayerProfile.codec.reread r.layer
      features := FeatureProfile.codec.reread r.features } := by
  have ht : TimingProfile.codec.reread r.timing = r.timing := by
    simp [TimingProfile.codec, TimingProfile.fields, TimingProfile.ofFields]
  simp [codec, fields, ofFields, PerStick.map, ht]

/-- The reserved bits are all that a profile may lose. -/
theorem fits_iff (r : ProfileRecord) : codec.Fits r ↔
    (uint8 7).Fits r.reserved ∧
      ((uint8 5).Fits r.sticks.one.reserved ∧ (uint8 5).Fits r.sticks.two.reserved) ∧
      (uint8 6).Fits r.combo.reserved ∧ (uint8 6).Fits r.touch.reserved ∧
      (uint8 7).Fits r.layer.reserved ∧ (uint8 5).Fits r.features.reserved := by
  obtain ⟨name, enabled, reserved, ⟨one, two⟩, combo, touch, layer, timing, features, checksum⟩ := r
  cases one; cases two; cases combo; cases touch; cases layer; cases features
  simp [Fits, reread_codec, PerStick.map, StickProfile.reread_codec, ComboProfile.reread_codec,
    TouchProfile.reread_codec, LayerProfile.reread_codec, FeatureProfile.reread_codec]

@[simp] theorem fits_sealed (r : ProfileRecord) : codec.Fits r.sealed ↔ codec.Fits r := by
  rw [fits_iff, fits_iff, sealed]

@[simp] theorem fits_capture (r : ProfileRecord) (live : DeviceSettings) :
    codec.Fits (r.capture live) ↔ codec.Fits r := by
  rw [capture, fits_sealed, fits_iff, fits_iff]
  rfl

theorem fits_template (n : Nat) : codec.Fits (template n) := by
  unfold template
  split <;> rw [fits_sealed, fits_iff] <;>
    exact ⟨fits_zero _, ⟨fits_zero _, fits_zero _⟩, fits_zero _, fits_zero _, fits_zero _,
      fits_zero _⟩

theorem sameHead (r : ProfileRecord) (checksum : UInt16) :
    codec.SameHead { r with checksum } r := by
  refine SameHead.via ?_
  iterate 10 refine SameHead.prod ?_ _ _
  exact sameHead_uint16 _ _

@[simp] theorem bodyChecksum_sealed (r : ProfileRecord) :
    r.sealed.bodyChecksum = r.bodyChecksum :=
  congrArg TwinStick.checksum ((sameHead r r.bodyChecksum).take_pack codec_whole)

@[simp] theorem isIntact_sealed (r : ProfileRecord) : r.sealed.isIntact = true := by
  rw [isIntact, bodyChecksum_sealed, sealed, beq_self_eq_true]

@[simp] theorem isIntact_template (n : Nat) : (template n).isIntact = true := by
  unfold template
  split <;> exact isIntact_sealed _

end ProfileRecord

end TwinStick
