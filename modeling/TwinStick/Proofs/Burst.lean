import TwinStick.Proofs.Orderly

/-! What the checksum catches. Its register takes in a message bit by bit and forgets
nothing: two messages that leave it in one state from there on keep it in one state, and two
different ones of at most sixteen bits never leave it in one state. So a sealed message that
is changed inside sixteen consecutive bits, wherever they lie, is not sealed any more. -/

namespace TwinStick

namespace Checksum

theorem shift_xor (a b : BitVec 16) : shift (a ^^^ b) = shift a ^^^ shift b := by
  have hcancel : ∀ x y z : BitVec 16, (x ^^^ z) ^^^ (y ^^^ z) = x ^^^ y := by
    intro x y z
    rw [BitVec.xor_assoc, BitVec.xor_comm y, ← BitVec.xor_assoc z, BitVec.xor_self,
      BitVec.zero_xor]
  simp only [shift, BitVec.msb_xor, BitVec.shiftLeft_xor_distrib]
  cases a.msb <;> cases b.msb <;>
    simp only [Bool.false_xor, Bool.true_xor, Bool.not_false, Bool.not_true, if_true,
      Bool.false_eq_true, if_false, hcancel]
  · rw [BitVec.xor_assoc]
  · rw [BitVec.xor_assoc, BitVec.xor_assoc, BitVec.xor_comm (b <<< 1)]

theorem shift_of_msb {a : BitVec 16} (h : a.msb = false) : shift a = a <<< 1 := by
  rw [shift, h]
  rfl

/-- The generator ends in a one, so nothing but zero is shifted to zero. -/
theorem eq_zero_of_shift {a : BitVec 16} (h : shift a = 0#16) : a = 0#16 := by
  have hmsb : a.msb = false := by
    -- otherwise the generator was added, and its last bit is still there
    by_contra hset
    rw [Bool.not_eq_false] at hset
    rw [shift, if_pos hset] at h
    have hlast := congrArg (BitVec.getLsbD · 0) h
    simp at hlast
  rw [shift_of_msb hmsb] at h
  refine BitVec.eq_of_getMsbD_eq fun i hi => ?_
  cases i with
  | zero => rw [← BitVec.msb_eq_getMsbD_zero, hmsb, BitVec.getMsbD_zero]
  | succ i =>
    have hbit := congrArg (BitVec.getMsbD · i) h
    simpa using hbit

theorem shift_injective : Function.Injective shift := by
  intro a b h
  have hzero : shift (a ^^^ b) = 0#16 := by rw [shift_xor, h, BitVec.xor_self]
  exact BitVec.xor_eq_zero_iff.mp (eq_zero_of_shift hzero)

theorem repeat_shift_injective (n : Nat) : Function.Injective (Nat.repeat shift n) := by
  induction n with
  | zero => exact fun _ _ h => h
  | succ n ih => exact fun _ _ h => ih (shift_injective h)

theorem repeat_shift_shift (n : Nat) (a : BitVec 16) :
    Nat.repeat shift n (shift a) = Nat.repeat shift (n + 1) a := by
  induction n with
  | zero => rfl
  | succ n ih => exact congrArg shift ih

theorem repeat_shift_zero (n : Nat) : Nat.repeat shift n 0#16 = 0#16 := by
  induction n with
  | zero => rfl
  | succ n ih =>
    rw [Nat.repeat, ih]
    rfl

/-- A bit in the highest place. -/
def top (bit : Bool) : BitVec 16 := if bit then BitVec.intMin 16 else 0#16

theorem getMsbD_top (bit : Bool) (i : Nat) : (top bit).getMsbD i = (bit && decide (i = 0)) := by
  cases bit with
  | false => rw [top, if_neg Bool.false_ne_true, BitVec.getMsbD_zero, Bool.false_and]
  | true => simp [top, BitVec.getMsbD_intMin]

/-- Takes in a single bit. -/
def feedBit (register : BitVec 16) (bit : Bool) : BitVec 16 := shift (register ^^^ top bit)

theorem feedBit_injective (bit : Bool) : Function.Injective (feedBit · bit) := by
  intro a b h
  exact (BitVec.xor_left_inj _).mp (shift_injective h)

/-- The first sixteen of some bits as a register, the first one in the highest place. -/
def word : List Bool → BitVec 16
  | [] => 0#16
  | bit :: rest => top bit ^^^ (word rest >>> 1)

theorem getMsbD_word (bits : List Bool) {i : Nat} (hi : i < 16) :
    (word bits).getMsbD i = bits.getD i false := by
  induction bits generalizing i with
  | nil => simp [word]
  | cons bit rest ih =>
    rw [word, BitVec.getMsbD_xor, getMsbD_top, BitVec.getMsbD_ushiftRight]
    cases i with
    | zero => simp
    | succ i => simp [ih (Nat.lt_of_succ_lt hi), hi]

theorem word_injective {bits bits' : List Bool} (hlength : bits.length = bits'.length)
    (hshort : bits.length ≤ 16) (h : word bits = word bits') : bits = bits' := by
  refine List.ext_getElem hlength fun i hi hi' => ?_
  have hbit := congrArg (BitVec.getMsbD · i) h
  simp only [getMsbD_word _ (hi.trans_le hshort)] at hbit
  rwa [List.getD_eq_getElem _ _ hi, List.getD_eq_getElem _ _ hi'] at hbit

/-- While a register has room below its bits, to shift them is to move them up. -/
theorem shift_word {bits : List Bool} (h : bits.length < 16) :
    shift (word bits >>> 1) = word bits := by
  have hmsb : (word bits >>> 1).msb = false := by
    rw [BitVec.msb_eq_getMsbD_zero, BitVec.getMsbD_ushiftRight]
    simp
  rw [shift_of_msb hmsb]
  refine BitVec.eq_of_getMsbD_eq fun i hi => ?_
  rw [BitVec.getMsbD_shiftLeft, BitVec.getMsbD_ushiftRight]
  rcases Nat.lt_or_ge (i + 1) 16 with hin | hout
  · simp [hin]
  · have hnone : (word bits).getMsbD i = false := by
      rw [getMsbD_word _ hi, List.getD_eq_default]
      omega
    simp [Nat.not_lt.mpr hout, hnone]

theorem foldl_feedBit {bits : List Bool} (h : bits.length ≤ 16) (register : BitVec 16) :
    bits.foldl feedBit register = Nat.repeat shift bits.length (register ^^^ word bits) := by
  induction bits generalizing register with
  | nil => simp [word, Nat.repeat]
  | cons bit rest ih =>
    have hrest : rest.length < 16 := h
    have hmoved : feedBit register bit ^^^ word rest = shift (register ^^^ word (bit :: rest)) := by
      rw [feedBit, word, ← BitVec.xor_assoc, shift_xor _ (word rest >>> 1), shift_word hrest]
    rw [List.foldl_cons, ih hrest.le, hmoved, repeat_shift_shift, List.length_cons]

theorem foldl_feedBit_injective (bits : List Bool) :
    Function.Injective (bits.foldl feedBit ·) := by
  induction bits with
  | nil => exact fun _ _ h => h
  | cons bit rest ih => exact fun _ _ h => feedBit_injective bit (ih h)

/-- The register tells apart two messages that differ inside sixteen consecutive bits. -/
theorem eq_of_foldl_feedBit {bits bits' : List Bool} (register : BitVec 16) {start : Nat}
    (hlength : bits.length = bits'.length)
    (hwindow : ∀ i, bits[i]? ≠ bits'[i]? → start ≤ i ∧ i < start + 16)
    (h : bits.foldl feedBit register = bits'.foldl feedBit register) : bits = bits' := by
  have hsame : ∀ i, i < start ∨ start + 16 ≤ i → bits[i]? = bits'[i]? := by
    intro i hi
    by_contra hne
    have hin := hwindow i hne
    omega
  have hfront : bits.take start = bits'.take start := by
    refine List.ext_getElem? fun i => ?_
    rw [List.getElem?_take, List.getElem?_take]
    split
    · next hi => exact hsame i (.inl hi)
    · rfl
  have hback : (bits.drop start).drop 16 = (bits'.drop start).drop 16 := by
    refine List.ext_getElem? fun i => ?_
    rw [List.drop_drop, List.drop_drop, List.getElem?_drop, List.getElem?_drop]
    exact hsame _ (.inr (Nat.le_add_right _ _))
  have hsplit : ∀ message : List Bool,
      message = message.take start ++ ((message.drop start).take 16 ++
        (message.drop start).drop 16) := by
    intro message
    rw [List.take_append_drop, List.take_append_drop]
  have hsize : ((bits.drop start).take 16).length = ((bits'.drop start).take 16).length := by
    simp only [List.length_take, List.length_drop, hlength]
  have hshort : ∀ message : List Bool, (message.take 16).length ≤ 16 :=
    fun message => List.length_take_le 16 message
  have hmiddle : (bits.drop start).take 16 = (bits'.drop start).take 16 := by
    -- the back is taken off because it forgets nothing, the front is the same register
    rw [hsplit bits, hsplit bits', hfront, hback] at h
    simp only [List.foldl_append] at h
    have hfed := foldl_feedBit_injective _ h
    rw [foldl_feedBit (hshort _), foldl_feedBit (hshort _), hsize] at hfed
    have hword := (BitVec.xor_right_inj _).mp (repeat_shift_injective _ hfed)
    exact word_injective hsize (hshort _) hword
  rw [hsplit bits, hsplit bits', hfront, hmiddle, hback]

end Checksum

namespace Bytes

def byteBits (byte : UInt8) : List Bool := List.ofFn fun i : Fin 8 => byte.toBitVec.getMsbD i

/-- The bits of bytes, of each byte the most significant first. -/
def bits (bytes : List UInt8) : List Bool := bytes.flatMap byteBits

@[simp] theorem length_byteBits (byte : UInt8) : (byteBits byte).length = 8 := List.length_ofFn

theorem getD_byteBits (byte : UInt8) (i : Nat) :
    (byteBits byte).getD i false = byte.toBitVec.getMsbD i := by
  rcases Nat.lt_or_ge i 8 with hi | hi
  · rw [List.getD_eq_getElem _ _ ((length_byteBits byte).symm ▸ hi)]
    exact List.getElem_ofFn _
  · rw [List.getD_eq_default _ _ ((length_byteBits byte).symm ▸ hi), BitVec.getMsbD_of_ge _ _ hi]

theorem byteBits_injective : Function.Injective byteBits := by
  intro a b h
  refine UInt8.toBitVec_inj.mp (BitVec.eq_of_getMsbD_eq fun i _ => ?_)
  rw [← getD_byteBits, ← getD_byteBits, h]

theorem length_bits (bytes : List UInt8) : (bits bytes).length = 8 * bytes.length := by
  induction bytes with
  | nil => rfl
  | cons byte rest ih =>
    have hrest : (rest.flatMap byteBits).length = 8 * rest.length := ih
    rw [bits, List.flatMap_cons, List.length_append, hrest, length_byteBits, List.length_cons]
    omega

theorem bits_injective : Function.Injective bits := by
  intro a b h
  induction a generalizing b with
  | nil =>
    have hlength := congrArg List.length h
    rw [length_bits, length_bits] at hlength
    exact (List.length_eq_zero_iff.mp (by simpa using hlength.symm)).symm
  | cons x xs ih =>
    cases b with
    | nil =>
      have hlength := congrArg List.length h
      simp [length_bits] at hlength
    | cons y ys =>
      have hlength : (byteBits x).length = (byteBits y).length := by simp
      have hboth := List.append_inj h hlength
      rw [byteBits_injective hboth.1, ih hboth.2]

/-- The second string is the first one damaged inside sixteen consecutive bits. -/
structure Burst (before after : List UInt8) : Prop where
  length_eq : after.length = before.length
  ne : after ≠ before
  window : ∃ start, ∀ i, (bits after)[i]? ≠ (bits before)[i]? → start ≤ i ∧ i < start + 16

theorem bits_append (front back : List UInt8) : bits (front ++ back) = bits front ++ bits back :=
  List.flatMap_append

theorem word_byteBits (byte : UInt8) :
    Checksum.word (byteBits byte) = byte.toBitVec.setWidth 16 <<< 8 := by
  refine BitVec.eq_of_getMsbD_eq fun i hi => ?_
  rw [Checksum.getMsbD_word _ hi, getD_byteBits, BitVec.getMsbD_shiftLeft,
    BitVec.getMsbD_setWidth]
  rcases Nat.lt_or_ge i 8 with _ | hout
  · simp
  · simp [BitVec.getMsbD_of_ge _ _ hout]

theorem toNat_ofNat_uint16 (n : UInt16) : toNat (ofNat 2 n.toNat) = n.toNat := by
  rw [toNat_ofNat]
  exact Nat.mod_eq_of_lt n.toNat_lt

theorem toNat_word_pair (high low : UInt8) :
    (Checksum.word (bits [high, low])).toNat = toNat [high, low] := by
  have hbits : Checksum.word (bits [high, low]) = high.toBitVec ++ low.toBitVec := by
    refine BitVec.eq_of_getMsbD_eq fun i hi => ?_
    have hpair : bits [high, low] = byteBits high ++ byteBits low := by simp [bits]
    rw [Checksum.getMsbD_word _ hi, hpair, BitVec.getMsbD_append]
    split
    · next hlow =>
      rw [List.getD_append_right _ _ _ _ (by simpa using hlow), length_byteBits, getD_byteBits]
    · next hhigh =>
      rw [List.getD_append _ _ _ _ (by simpa using hhigh), getD_byteBits]
  rw [hbits, BitVec.toNat_append, ← Nat.shiftLeft_add_eq_or_of_lt low.toBitVec.isLt,
    Nat.shiftLeft_eq]
  simp [toNat]

theorem foldl_feed (bytes : List UInt8) (register : BitVec 16) :
    bytes.foldl Checksum.feed register = (bits bytes).foldl Checksum.feedBit register := by
  have hbyte : ∀ register byte,
      Checksum.feed register byte = (byteBits byte).foldl Checksum.feedBit register := by
    intro register byte
    rw [Checksum.foldl_feedBit (by simp), word_byteBits, length_byteBits, Checksum.feed]
  rw [bits, List.foldl_flatMap, funext₂ hbyte]

/-- Whatever happens to one byte, or to two neighbours, is a burst. -/
theorem Burst.of_neighbours (front back : List UInt8) {old new : List UInt8}
    (hlength : new.length = old.length) (hshort : old.length ≤ 2) (hne : new ≠ old) :
    Burst (front ++ (old ++ back)) (front ++ (new ++ back)) := by
  refine ⟨by simp [hlength], ?_, 8 * front.length, fun i hi => ?_⟩
  · intro heq
    exact hne (List.append_cancel_right (List.append_cancel_left heq))
  · simp only [bits_append, List.getElem?_append, length_bits, hlength] at hi
    by_cases hfront : i < 8 * front.length
    · simp [hfront] at hi
    · by_cases hmiddle : i - 8 * front.length < 8 * old.length
      · omega
      · simp [hfront, hmiddle] at hi

/-- The last two bytes are the checksum of those before them. -/
def Sealed (bytes : List UInt8) : Prop :=
  bytes.drop (bytes.length - 2) = ofNat 2 (checksum (bytes.take (bytes.length - 2))).toNat

theorem sealed_append (body : List UInt8) {last : List UInt8} (h : last.length = 2) :
    Sealed (body ++ last) ↔ last = ofNat 2 (checksum body).toNat := by
  have hbody : (body ++ last).length - 2 = body.length := by simp [h]
  rw [Sealed, hbody, List.drop_left, List.take_left]

theorem sealed_append_checksum (body : List UInt8) :
    Sealed (body ++ ofNat 2 (checksum body).toNat) := by
  rw [sealed_append body (length_ofNat _ _)]

/-- To take in its own checksum clears the register. -/
theorem Sealed.register_eq {bytes : List UInt8} (h : Sealed bytes) :
    (bits bytes).foldl Checksum.feedBit 0xFFFF#16 = 0#16 := by
  have hsplit := List.take_append_drop (bytes.length - 2) bytes
  rw [h] at hsplit
  generalize bytes.take (bytes.length - 2) = body at hsplit
  have hspelt := toNat_ofNat_uint16 (checksum body)
  generalize hlast : ofNat 2 (checksum body).toNat = last at hsplit hspelt
  obtain ⟨high, low, rfl⟩ := List.length_eq_two.mp (hlast ▸ length_ofNat 2 _)
  have hword : Checksum.word (bits [high, low]) = (checksum body).toBitVec :=
    BitVec.eq_of_toNat_eq ((toNat_word_pair high low).trans hspelt)
  have hbody : (bits body).foldl Checksum.feedBit 0xFFFF#16 = (checksum body).toBitVec :=
    (foldl_feed body _).symm
  have hfits : (bits [high, low]).length ≤ 16 := (length_bits _).le
  rw [← hsplit, bits_append, List.foldl_append, hbody, Checksum.foldl_feedBit hfits, hword,
    BitVec.xor_self, Checksum.repeat_shift_zero]

/-- No burst is sealed. -/
theorem Sealed.not_burst {before after : List UInt8} (h : Sealed before)
    (hb : Burst before after) : ¬Sealed after := by
  intro hafter
  obtain ⟨start, hwindow⟩ := hb.window
  have hlength : (bits after).length = (bits before).length := by
    rw [length_bits, length_bits, hb.length_eq]
  have hregister := hafter.register_eq.trans h.register_eq.symm
  exact hb.ne (bits_injective (Checksum.eq_of_foldl_feedBit _ hlength hwindow hregister))

end Bytes

/-- A value that ends in a checksum is packed to a sealed string exactly if the checksum is
right. -/
theorem Codec.Ends.sealed_iff {c : Codec α} {a : α} {last : UInt16} (h : c.Ends a last)
    (hw : c.Whole) :
    Bytes.Sealed (c.pack a) ↔ TwinStick.checksum ((c.pack a).take (c.size - 2)) = last := by
  generalize hfront : (c.pack a).take (c.size - 2) = front
  rw [h.pack_eq hw, hfront, Bytes.sealed_append front (Bytes.length_ofNat _ _)]
  refine ⟨fun heq => ?_, fun heq => by rw [heq]⟩
  have hn := congrArg Bytes.toNat heq
  rw [Bytes.toNat_ofNat_uint16, Bytes.toNat_ofNat_uint16] at hn
  exact (UInt16.toNat_inj.mp hn).symm

namespace ManagerRecord

theorem ends (m : ManagerRecord) : codec.Ends m m.checksum := by
  refine Codec.Ends.via ?_
  iterate 8 refine Codec.Ends.prod ?_ _ _
  exact Codec.ends_uint16 _

theorem sealed_pack_iff (m : ManagerRecord) : Bytes.Sealed (codec.pack m) ↔ m.isIntact = true := by
  rw [m.ends.sealed_iff codec_whole, isIntact, beq_iff_eq, bodyChecksum]

end ManagerRecord

namespace ProfileRecord

theorem ends (p : ProfileRecord) : codec.Ends p p.checksum := by
  refine Codec.Ends.via ?_
  iterate 10 refine Codec.Ends.prod ?_ _ _
  exact Codec.ends_uint16 _

theorem sealed_pack_iff (p : ProfileRecord) : Bytes.Sealed (codec.pack p) ↔ p.isIntact = true := by
  rw [p.ends.sealed_iff codec_whole, isIntact, beq_iff_eq, bodyChecksum]

end ProfileRecord

/-- A layout that knows its damaged values: those whose packed form is not sealed. -/
theorem Codec.damaged_read {c : Codec α} {intact : α → Bool} (hl : c.Lawful) (hw : c.Whole)
    (hi : ∀ a, Bytes.Sealed (c.pack a) ↔ intact a = true) {a : α} (ha : intact a = true)
    {after : List UInt8} (h : Bytes.Burst (c.pack a) after) :
    c.unpack after = .ok (c.read after) ∧ intact (c.read after) = false := by
  have hlength : after.length = c.size := h.length_eq.trans (c.length_pack a)
  refine ⟨unpack_eq hlength, ?_⟩
  have hbroken := ((hi a).mpr ha).not_burst h
  rw [← pack_read hl hw hlength, hi, Bool.not_eq_true] at hbroken
  exact hbroken

theorem ManagerRecord.damaged_read {m : ManagerRecord} (hm : m.isIntact = true)
    {after : List UInt8} (h : Bytes.Burst (codec.pack m) after) :
    codec.unpack after = .ok (codec.read after) ∧ (codec.read after).isIntact = false :=
  Codec.damaged_read codec_lawful codec_whole sealed_pack_iff hm h

theorem ProfileRecord.damaged_read {p : ProfileRecord} (hp : p.isIntact = true)
    {after : List UInt8} (h : Bytes.Burst (codec.pack p) after) :
    codec.unpack after = .ok (codec.read after) ∧ (codec.read after).isIntact = false :=
  Codec.damaged_read codec_lawful codec_whole sealed_pack_iff hp h

end TwinStick
