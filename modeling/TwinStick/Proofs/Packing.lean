import Mathlib
import TwinStick.Codec

/-! Packing and unpacking undo each other: bytes of the right number are those of
the value read from them, and a value is read back up to the bits that its layout
has no room for. -/

namespace TwinStick

namespace Bytes

theorem foldl_eq (bytes : List UInt8) (n : Nat) :
    bytes.foldl (fun n byte => n * 256 + byte.toNat) n =
      n * 256 ^ bytes.length + toNat bytes := by
  induction bytes generalizing n with
  | nil => simp [toNat]
  | cons byte bytes ih =>
    have hh := ih byte.toNat
    rw [toNat, List.foldl_cons, List.foldl_cons, ih, Nat.zero_mul, Nat.zero_add, hh,
      List.length_cons, pow_succ]
    ring

theorem toNat_append (front back : List UInt8) :
    toNat (front ++ back) = toNat front * 256 ^ back.length + toNat back := by
  rw [toNat, List.foldl_append, foldl_eq]
  rfl

theorem toNat_lt (bytes : List UInt8) : toNat bytes < 256 ^ bytes.length := by
  induction bytes using List.reverseRecOn with
  | nil => simp [toNat]
  | append_singleton front byte ih =>
    have hb := byte.toNat_lt
    have hs : toNat [byte] = byte.toNat := by simp [toNat]
    rw [toNat_append, hs, List.length_append, pow_add]
    simp only [List.length_singleton, pow_one]
    omega

theorem toNat_ofNat (length n : Nat) : toNat (ofNat length n) = n % 256 ^ length := by
  induction length generalizing n with
  | zero => simp [ofNat, toNat, Nat.mod_one]
  | succ k ih =>
    have hs : toNat [UInt8.ofNat n] = n % 256 := by simp [toNat]
    rw [ofNat, toNat_append, ih, hs, List.length_singleton, pow_one, pow_succ', Nat.mod_mul]
    ring

theorem take_ofNat (length n : Nat) :
    (ofNat (length + 2) n).take length = ofNat length (n / 65536) := by
  have hl : (ofNat length (n / 256 / 256)).length = length := length_ofNat _ _
  rw [ofNat, ofNat, List.append_assoc, List.take_left' hl, Nat.div_div_eq_div_mul]

theorem drop_ofNat (length n : Nat) : (ofNat (length + 2) n).drop length = ofNat 2 n := by
  have hl : (ofNat length (n / 256 / 256)).length = length := length_ofNat _ _
  rw [ofNat, ofNat, List.append_assoc, List.drop_left' hl]
  rfl

theorem ofNat_mod (length n : Nat) : ofNat length n = ofNat length (n % 256 ^ length) := by
  have hback := ofNat_toNat (ofNat length n)
  rw [toNat_ofNat, length_ofNat] at hback
  exact hback.symm

end Bytes

namespace Codec

def read (c : Codec α) (bytes : List UInt8) : α :=
  c.decode (.ofNat c.width (Bytes.toNat bytes))

/-- What is read back of a value: of each field the bits that there is room for. -/
def reread (c : Codec α) (a : α) : α := c.decode (c.encode a)

/-- A layout of whole bytes. -/
def Whole (c : Codec α) : Prop := 8 * c.size = c.width

theorem unpack_eq {c : Codec α} {bytes : List UInt8} (h : bytes.length = c.size) :
    c.unpack bytes = .ok (c.read bytes) := if_pos h

theorem Whole.pow_size {c : Codec α} (hw : c.Whole) : 256 ^ c.size = 2 ^ c.width := by
  rw [← hw, pow_mul]
  norm_num

theorem toNat_pack {c : Codec α} (hw : c.Whole) (a : α) :
    Bytes.toNat (c.pack a) = (c.encode a).toNat := by
  rw [pack, Bytes.toNat_ofNat, hw.pow_size, Nat.mod_eq_of_lt (c.encode a).isLt]

theorem read_pack {c : Codec α} (hw : c.Whole) (a : α) : c.read (c.pack a) = c.reread a := by
  rw [read, toNat_pack hw, BitVec.ofNat_toNat, BitVec.setWidth_eq, reread]

theorem encode_read {c : Codec α} (hl : c.Lawful) (bytes : List UInt8) :
    c.encode (c.read bytes) = .ofNat c.width (Bytes.toNat bytes) := hl _

theorem pack_read {c : Codec α} (hl : c.Lawful) (hw : c.Whole) {bytes : List UInt8}
    (h : bytes.length = c.size) : c.pack (c.read bytes) = bytes := by
  have hlt := Bytes.toNat_lt bytes
  rw [h, hw.pow_size] at hlt
  rw [pack, encode_read hl, BitVec.toNat_ofNat, Nat.mod_eq_of_lt hlt, ← h, Bytes.ofNat_toNat]

theorem reread_read {c : Codec α} (hl : c.Lawful) (bytes : List UInt8) :
    c.reread (c.read bytes) = c.read bytes := by
  rw [reread, encode_read hl, read]

@[simp] theorem reread_bool (b : Bool) : bool.reread b = b := by cases b <;> rfl

@[simp] theorem reread_uint16 (n : UInt16) : uint16.reread n = n := rfl

@[simp] theorem reread_uint32 (n : UInt32) : uint32.reread n = n := rfl

theorem toNat_reread_uint8 (width : Nat) (b : UInt8) :
    ((uint8 width).reread b).toNat = b.toNat % 2 ^ width := by
  have hb := b.toNat_lt
  change ((b.toBitVec.setWidth width).setWidth 8).toNat = _
  rw [BitVec.toNat_setWidth, BitVec.toNat_setWidth]
  exact Nat.mod_eq_of_lt (lt_of_le_of_lt (Nat.mod_le _ _) hb)

theorem reread_uint8_of_lt {width : Nat} {b : UInt8} (h : b.toNat < 2 ^ width) :
    (uint8 width).reread b = b := by
  apply UInt8.toNat_inj.mp
  rw [toNat_reread_uint8, Nat.mod_eq_of_lt h]

@[simp] theorem reread_byte (b : UInt8) : (uint8 8).reread b = b :=
  reread_uint8_of_lt b.toNat_lt

@[simp] theorem reread_prod (a : Codec α) (b : Codec β) (p : α × β) :
    (prod a b).reread p = (a.reread p.1, b.reread p.2) := by
  refine Prod.ext ?_ ?_
  · exact congrArg a.decode BitVec.extractLsb'_append_eq_left
  · exact congrArg b.decode BitVec.setWidth_append_eq_right

@[simp] theorem reread_via (into : α → β) (back : β → α) (a : Codec α) (b : β) :
    (via into back a).reread b = into (a.reread (back b)) := rfl

@[simp] theorem reread_vector (a : Codec α) (n : Nat) (v : Vector α n) :
    (vector a n).reread v = v.map a.reread := by
  induction n with
  | zero => simp [vector, reread, empty]
  | succ n ih =>
    rw [vector, reread_via, reread_prod, ih]
    apply Vector.ext
    intro i hi
    by_cases h : i = n
    · subst h
      simp
    · have hin : i < n := by omega
      simp [hin]

theorem width_bool : bool.width = 1 := rfl

theorem width_uint8 (width : Nat) : (uint8 width).width = width := rfl

theorem width_prod (a : Codec α) (b : Codec β) : (prod a b).width = a.width + b.width := rfl

theorem toNat_encode_bool (b : Bool) : (bool.encode b).toNat = b.toNat := BitVec.toNat_ofBool b

theorem toNat_encode_uint8 (width : Nat) (b : UInt8) :
    ((uint8 width).encode b).toNat = b.toNat % 2 ^ width := BitVec.toNat_setWidth ..

theorem toNat_encode_via (into : α → β) (back : β → α) (a : Codec α) (b : β) :
    ((via into back a).encode b).toNat = (a.encode (back b)).toNat := rfl

theorem toNat_encode_prod (a : Codec α) (b : Codec β) (p : α × β) :
    ((prod a b).encode p).toNat = (a.encode p.1).toNat * 2 ^ b.width + (b.encode p.2).toNat := by
  change (a.encode p.1 ++ b.encode p.2).toNat = _
  rw [BitVec.toNat_append, ← Nat.shiftLeft_add_eq_or_of_lt (b.encode p.2).isLt, Nat.shiftLeft_eq]

theorem Whole.prod {a : Codec α} {b : Codec β} (ha : a.Whole) (hb : b.Whole) :
    (Codec.prod a b).Whole := by
  simp only [Whole, size, width_prod] at ha hb ⊢
  omega

theorem Whole.size_prod {a : Codec α} {b : Codec β} (ha : a.Whole) (hb : b.Whole) :
    (Codec.prod a b).size = a.size + b.size := by
  simp only [Whole, size, width_prod] at ha hb ⊢
  omega

/-- Fields of whole bytes are packed one after another. -/
theorem pack_prod {a : Codec α} {b : Codec β} (ha : a.Whole) (hb : b.Whole) (p : α × β) :
    (prod a b).pack p = a.pack p.1 ++ b.pack p.2 := by
  have hspelt : ((prod a b).encode p).toNat = Bytes.toNat (a.pack p.1 ++ b.pack p.2) := by
    rw [Bytes.toNat_append, toNat_pack ha, toNat_pack hb, length_pack, hb.pow_size,
      toNat_encode_prod]
  have hlength : (prod a b).size = (a.pack p.1 ++ b.pack p.2).length := by
    rw [ha.size_prod hb, List.length_append, length_pack, length_pack]
  rw [pack, hspelt, hlength, Bytes.ofNat_toNat]

/-- A field in front of at least two bytes has no part in the last two of them. -/
theorem toNat_encode_prod_wide {b : Codec β} {c : Codec α} (h : 16 ≤ c.width) (z : β) (x : α) :
    ((prod b c).encode (z, x)).toNat =
      (c.encode x).toNat + (b.encode z).toNat * 2 ^ (c.width - 16) * 65536 := by
  have hd : 2 ^ c.width = 2 ^ (c.width - 16) * 65536 := by
    rw [← Nat.sub_add_cancel h, pow_add, Nat.add_sub_cancel]
    norm_num
  rw [toNat_encode_prod, hd, ← Nat.mul_assoc, Nat.add_comm]

/-- The layouts of two values agree but for the last two bytes. -/
def SameHead (c : Codec α) (a b : α) : Prop :=
  16 ≤ c.width ∧ (c.encode a).toNat / 65536 = (c.encode b).toNat / 65536

theorem sameHead_uint16 (m n : UInt16) : uint16.SameHead m n := by
  refine ⟨le_rfl, ?_⟩
  have hm : (uint16.encode m).toNat < 65536 := (uint16.encode m).isLt
  have hn : (uint16.encode n).toNat < 65536 := (uint16.encode n).isLt
  rw [Nat.div_eq_of_lt hm, Nat.div_eq_of_lt hn]

theorem SameHead.prod {c : Codec α} {x y : α} (h : c.SameHead x y) (b : Codec β) (z : β) :
    (Codec.prod b c).SameHead (z, x) (z, y) := by
  refine ⟨h.1.trans (Nat.le_add_left _ _), ?_⟩
  rw [toNat_encode_prod_wide h.1, toNat_encode_prod_wide h.1,
    Nat.add_mul_div_right _ _ (by norm_num), Nat.add_mul_div_right _ _ (by norm_num), h.2]

theorem SameHead.via {c : Codec α} {into : α → β} {back : β → α} {x y : β}
    (h : c.SameHead (back x) (back y)) : (Codec.via into back c).SameHead x y := h

theorem SameHead.take_pack {c : Codec α} {x y : α} (h : c.SameHead x y) (hw : c.Whole) :
    (c.pack x).take (c.size - 2) = (c.pack y).take (c.size - 2) := by
  have hs : c.size - 2 + 2 = c.size := by
    have hh := h.1
    unfold Whole at hw
    omega
  have ht : ∀ a : α, (c.pack a).take (c.size - 2) =
      Bytes.ofNat (c.size - 2) ((c.encode a).toNat / 65536) := by
    intro a
    rw [← Bytes.take_ofNat, hs, pack]
  rw [ht, ht, h.2]

/-- The layout of a value ends in this word. -/
def Ends (c : Codec α) (a : α) (last : UInt16) : Prop :=
  16 ≤ c.width ∧ (c.encode a).toNat % 65536 = last.toNat

theorem ends_uint16 (n : UInt16) : uint16.Ends n n :=
  ⟨le_rfl, Nat.mod_eq_of_lt (uint16.encode n).isLt⟩

theorem Ends.prod {c : Codec α} {x : α} {last : UInt16} (h : c.Ends x last) (b : Codec β) (z : β) :
    (Codec.prod b c).Ends (z, x) last := by
  refine ⟨h.1.trans (Nat.le_add_left _ _), ?_⟩
  rw [toNat_encode_prod_wide h.1, Nat.add_mul_mod_self_right, h.2]

theorem Ends.via {c : Codec α} {into : α → β} {back : β → α} {x : β} {last : UInt16}
    (h : c.Ends (back x) last) : (Codec.via into back c).Ends x last := h

theorem Ends.pack_eq {c : Codec α} {a : α} {last : UInt16} (h : c.Ends a last) (hw : c.Whole) :
    c.pack a = (c.pack a).take (c.size - 2) ++ Bytes.ofNat 2 last.toNat := by
  have hs : c.size = c.size - 2 + 2 := by
    have hh := h.1
    unfold Whole at hw
    omega
  have hlast : (c.pack a).drop (c.size - 2) = Bytes.ofNat 2 last.toNat := by
    rw [pack, hs, Nat.add_sub_cancel, Bytes.drop_ofNat, Bytes.ofNat_mod, ← h.2]
    rfl
  rw [← hlast, List.take_append_drop]

end Codec

end TwinStick
