import TwinStick.Proofs.Records
import TwinStick.Stick.Report

/-! The packed formats lose nothing. Any bytes of the right number are the packed form of
exactly one value whose fields fit, and a value that is packed comes back with each field
cut down to the bits declared for it. -/

namespace TwinStick

/-- The lowest bits of a byte, so many of them. -/
def lowBits (width : Nat) (b : UInt8) : UInt8 := .ofNat (b.toNat % 2 ^ width)

namespace Codec

theorem reread_uint8 (width : Nat) : (uint8 width).reread = lowBits width := by
  funext b
  apply UInt8.toNat_inj.mp
  have hle : b.toNat % 2 ^ width ≤ b.toNat := Nat.mod_le _ _
  have hlt := b.toNat_lt
  rw [toNat_reread_uint8, lowBits, UInt8.toNat_ofNat']
  omega

/-- A format of so many bytes. Packing it narrows a value to the declared widths, and loses
nothing of a value that fits. -/
structure Lossless (c : Codec α) (length : Nat) (narrow : α → α) (Fitting : α → Prop) : Prop where
  packs (a : α) : (c.pack a).length = length
  unpacks (bytes : List UInt8) (h : bytes.length = length) :
    ∃ a, c.unpack bytes = .ok a ∧ c.pack a = bytes
  narrows (a : α) : c.unpack (c.pack a) = .ok (narrow a)
  keeps (a : α) (h : Fitting a) : c.unpack (c.pack a) = .ok a
  refuses (bytes : List UInt8) (h : bytes.length ≠ length) :
    c.unpack bytes = .error (.bufferSizeMismatch length bytes.length)

theorem Lossless.of_reread {c : Codec α} {length : Nat} {narrow : α → α} {Fitting : α → Prop}
    (hl : c.Lawful) (hw : c.Whole) (hsize : c.size = length) (hn : ∀ a, c.reread a = narrow a)
    (hf : ∀ a, Fitting a → narrow a = a) : c.Lossless length narrow Fitting := by
  have hround : ∀ a, c.unpack (c.pack a) = .ok (narrow a) := by
    intro a
    rw [unpack_eq (length_pack c a), read_pack hw, hn]
  refine ⟨fun a => (length_pack c a).trans hsize, fun bytes h => ?_, hround, fun a h => ?_,
    fun bytes h => ?_⟩
  · have hlength := h.trans hsize.symm
    exact ⟨c.read bytes, unpack_eq hlength, pack_read hl hw hlength⟩
  · rw [hround, hf a h]
  · rw [unpack, if_neg (hsize.symm ▸ h), hsize]

end Codec

theorem lowBits_of_lt {width : Nat} {b : UInt8} (h : b.toNat < 2 ^ width) :
    lowBits width b = b := by
  rw [← Codec.reread_uint8, Codec.reread_uint8_of_lt h]

namespace QuickWord

def narrowed (q : QuickWord) : QuickWord :=
  { q with
    active := lowBits 2 q.active
    sensitivity := q.sensitivity.map (lowBits 4)
    reserved := lowBits 2 q.reserved }

/-- Every field fits its width. A byte for a dead zone always does, as in every format. -/
structure InRange (q : QuickWord) : Prop where
  active : q.active.toNat < 4
  sensitivity (stick : Stick) : (q.sensitivity.get stick).toNat < 16
  reserved : q.reserved.toNat < 4

theorem InRange.narrowed_eq {q : QuickWord} (h : q.InRange) : q.narrowed = q := by
  have hactive : lowBits 2 q.active = q.active := lowBits_of_lt h.active
  have hone : lowBits 4 q.sensitivity.one = q.sensitivity.one := lowBits_of_lt (h.sensitivity .one)
  have htwo : lowBits 4 q.sensitivity.two = q.sensitivity.two := lowBits_of_lt (h.sensitivity .two)
  have hreserved : lowBits 2 q.reserved = q.reserved := lowBits_of_lt h.reserved
  rw [narrowed, hactive, PerStick.map, hone, htwo, hreserved]

theorem lossless : codec.Lossless 4 narrowed InRange :=
  .of_reread codec_lawful codec_whole rfl
    (fun q => by rw [reread_codec, Codec.reread_uint8, Codec.reread_uint8]; rfl)
    fun _ h => h.narrowed_eq

/-- The fields cut down to their widths, each moved to its place. -/
def fieldSum (q : QuickWord) : Nat :=
  q.active.toNat % 4 + q.analog.one.toNat * 2 ^ 2 + q.analog.two.toNat * 2 ^ 3 +
    q.touchEnabled.toNat * 2 ^ 4 + q.combosEnabled.toNat * 2 ^ 5 +
    q.sensitivity.one.toNat % 16 * 2 ^ 6 + q.sensitivity.two.toNat % 16 * 2 ^ 10 +
    q.deadzone.one.toNat * 2 ^ 14 + q.deadzone.two.toNat * 2 ^ 22 + q.reserved.toNat % 4 * 2 ^ 30

theorem toNat_raw (q : QuickWord) : q.raw.toNat = q.fieldSum := by
  have hone := q.deadzone.one.toNat_lt
  have htwo := q.deadzone.two.toNat_lt
  change (codec.encode q).toNat = _
  rw [codec, Codec.toNat_encode_via]
  simp only [fields, Codec.toNat_encode_prod, Codec.toNat_encode_uint8, Codec.toNat_encode_bool]
  simp only [Codec.width_prod, Codec.width_uint8, Codec.width_bool, fieldSum]
  omega

end QuickWord

namespace ManagerRecord

def narrowed (m : ManagerRecord) : ManagerRecord := { m with reserved := lowBits 5 m.reserved }

def InRange (m : ManagerRecord) : Prop := m.reserved.toNat < 32

theorem lossless : codec.Lossless 11 narrowed InRange :=
  .of_reread codec_lawful codec_whole rfl
    (fun m => by rw [reread_codec, Codec.reread_uint8]; rfl)
    fun m h => by rw [narrowed, lowBits_of_lt h]

end ManagerRecord

namespace ProfileRecord

def narrowed (r : ProfileRecord) : ProfileRecord :=
  { r with
    reserved := lowBits 7 r.reserved
    sticks := r.sticks.map fun p => { p with reserved := lowBits 5 p.reserved }
    combo := { r.combo with reserved := lowBits 6 r.combo.reserved }
    touch := { r.touch with reserved := lowBits 6 r.touch.reserved }
    layer := { r.layer with reserved := lowBits 7 r.layer.reserved }
    features := { r.features with reserved := lowBits 5 r.features.reserved } }

structure InRange (r : ProfileRecord) : Prop where
  reserved : r.reserved.toNat < 128
  stick (stick : Stick) : (r.sticks.get stick).reserved.toNat < 32
  combo : r.combo.reserved.toNat < 64
  touch : r.touch.reserved.toNat < 64
  layer : r.layer.reserved.toNat < 128
  features : r.features.reserved.toNat < 32

theorem InRange.narrowed_eq {r : ProfileRecord} (h : r.InRange) : r.narrowed = r := by
  have hone : lowBits 5 r.sticks.one.reserved = r.sticks.one.reserved :=
    lowBits_of_lt (h.stick .one)
  have htwo : lowBits 5 r.sticks.two.reserved = r.sticks.two.reserved :=
    lowBits_of_lt (h.stick .two)
  rw [narrowed, PerStick.map, lowBits_of_lt h.reserved, hone, htwo, lowBits_of_lt h.combo,
    lowBits_of_lt h.touch, lowBits_of_lt h.layer, lowBits_of_lt h.features]

theorem lossless : codec.Lossless 71 narrowed InRange :=
  .of_reread codec_lawful codec_whole rfl
    (fun r => by
      rw [reread_codec]
      simp only [PerStick.map, StickProfile.reread_codec, ComboProfile.reread_codec,
        TouchProfile.reread_codec, LayerProfile.reread_codec, FeatureProfile.reread_codec,
        Codec.reread_uint8]
      rfl)
    fun _ h => h.narrowed_eq

end ProfileRecord

namespace AxisReport

/-- The bytes of a word, the least significant first. -/
def wordBytes (n : Int16) : List UInt8 :=
  [.ofNat n.toUInt16.toNat, .ofNat (n.toUInt16.toNat / 256)]

theorem codec_lawful : codec.Lawful :=
  Codec.lawful_via
    (Codec.lawful_prod (Codec.lawful_prod Codec.lawful_int16Little Codec.lawful_int16Little)
      (Codec.lawful_prod Codec.lawful_int16Little Codec.lawful_int16Little))
    fun _ => rfl

theorem reread_word (n : Int16) : Codec.int16Little.reread n = n := by
  change Int16.ofBitVec ((n.toBitVec.rotateLeft 8).rotateLeft 8) = n
  have hturn : (n.toBitVec.rotateLeft 8).rotateLeft 8 = n.toBitVec :=
    Codec.lawful_int16Little n.toBitVec
  exact congrArg Int16.ofBitVec hturn

theorem lossless : codec.Lossless 8 id fun _ => True :=
  .of_reread codec_lawful rfl rfl (fun r => by simp [codec, reread_word]) fun _ _ => rfl

theorem pack_word (n : Int16) : Codec.int16Little.pack n = wordBytes n := by
  have hlt : n.toUInt16.toNat < 65536 := n.toUInt16.toNat_lt
  have hturned : (Codec.int16Little.encode n).toNat =
      n.toUInt16.toNat % 256 * 256 + n.toUInt16.toNat / 256 := by
    have hhigh : n.toUInt16.toNat / 256 < 2 ^ 8 := by omega
    have hlow : n.toUInt16.toNat <<< 8 % 2 ^ 16 = (n.toUInt16.toNat % 256) <<< 8 := by
      rw [Nat.shiftLeft_eq, Nat.shiftLeft_eq]
      omega
    change (n.toUInt16.toBitVec.rotateLeft 8).toNat = _
    rw [BitVec.toNat_rotateLeft]
    change n.toUInt16.toNat <<< 8 % 2 ^ 16 ||| n.toUInt16.toNat >>> 8 = _
    rw [hlow, Nat.shiftRight_eq_div_pow, ← Nat.shiftLeft_add_eq_or_of_lt hhigh, Nat.shiftLeft_eq]
  have hspelt : Bytes.toNat (wordBytes n) =
      n.toUInt16.toNat % 256 * 256 + n.toUInt16.toNat / 256 := by
    simp only [wordBytes, Bytes.toNat, List.foldl_cons, List.foldl_nil, UInt8.toNat_ofNat']
    omega
  rw [Codec.pack, hturned, ← hspelt]
  exact Bytes.ofNat_toNat (wordBytes n)

theorem pack_codec (r : AxisReport) : codec.pack r =
    wordBytes r.one.x ++ wordBytes r.one.y ++ (wordBytes r.two.x ++ wordBytes r.two.y) := by
  have hword : Codec.int16Little.Whole := rfl
  change (Codec.prod (.prod .int16Little .int16Little) (.prod .int16Little .int16Little)).pack
    ((r.one.x, r.one.y), (r.two.x, r.two.y)) = _
  rw [Codec.pack_prod (hword.prod hword) (hword.prod hword), Codec.pack_prod hword hword,
    Codec.pack_prod hword hword]
  simp only [pack_word]

end AxisReport

/-- No packed format loses anything but the bits of a field that lie outside of its width.
The quick word as a number has each of its fields in its place, and an axis report has the
least significant byte of each word first. -/
theorem formats_lossless :
    QuickWord.codec.Lossless 4 QuickWord.narrowed QuickWord.InRange ∧
    ManagerRecord.codec.Lossless 11 ManagerRecord.narrowed ManagerRecord.InRange ∧
    ProfileRecord.codec.Lossless 71 ProfileRecord.narrowed ProfileRecord.InRange ∧
    (AxisReport.codec.Lossless 8 id (fun _ => True) ∧ ∀ r : AxisReport,
      AxisReport.codec.pack r = AxisReport.wordBytes r.one.x ++ AxisReport.wordBytes r.one.y ++
        (AxisReport.wordBytes r.two.x ++ AxisReport.wordBytes r.two.y)) ∧
    ∀ q : QuickWord, Bytes.toNat (QuickWord.codec.pack q) = q.raw.toNat ∧
      q.raw.toNat = q.fieldSum :=
  ⟨QuickWord.lossless, ManagerRecord.lossless, ProfileRecord.lossless,
    ⟨AxisReport.lossless, AxisReport.pack_codec⟩,
    fun q => ⟨Codec.toNat_pack QuickWord.codec_whole q, q.toNat_raw⟩⟩

/-- Reserved bits that were never written come back, and a field that is too wide is cut. -/
theorem formats_lossless_reserved :
    (∃ m : ManagerRecord, ManagerRecord.codec.unpack (.replicate 11 0xFF) = .ok m ∧
      ManagerRecord.codec.pack m = .replicate 11 0xFF) ∧
    QuickWord.codec.unpack (QuickWord.codec.pack { active := 6, sensitivity := ⟨17, 8⟩ }) =
      .ok { active := 2, sensitivity := ⟨1, 8⟩ } :=
  ⟨formats_lossless.2.1.unpacks _ (by decide), formats_lossless.1.narrows _⟩

end TwinStick
