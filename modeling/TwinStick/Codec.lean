import TwinStick.Bytes

/-! Packed layouts. A codec lays a value out in a fixed number of bits, the
first field in the most significant place. Encoding keeps of each field as many
bits as it has room for. A layout of whole bytes is stored with the most
significant byte first, and is read back from exactly that many bytes. -/

namespace TwinStick

inductive PackError where
  | bufferTooSmall
  | bufferSizeMismatch (expected actual : Nat)
  | invalidValue
deriving DecidableEq

namespace PackError

def name : PackError → String
  | bufferTooSmall => "BufferTooSmall"
  | bufferSizeMismatch .. => "BufferSizeMismatch"
  | invalidValue => "InvalidValue"

def message : PackError → String
  | bufferSizeMismatch expected actual =>
    "BufferSizeMismatch \x7b expected: " ++ toString expected ++
      ", actual: " ++ toString actual ++ " \x7d"
  | e => e.name

end PackError

/-- How values of a type lie in a row of bits. -/
structure Codec (α : Type) where
  width : Nat
  encode : α → BitVec width
  decode : BitVec width → α

namespace Codec

def bool : Codec Bool where
  width := 1
  encode := BitVec.ofBool
  decode v := v == 1#1

/-- The lowest bits of a byte. -/
def uint8 (width : Nat) : Codec UInt8 where
  width
  encode b := b.toBitVec.setWidth width
  decode v := .ofBitVec (v.setWidth 8)

def uint16 : Codec UInt16 where
  width := 16
  encode := UInt16.toBitVec
  decode := .ofBitVec

def uint32 : Codec UInt32 where
  width := 32
  encode := UInt32.toBitVec
  decode := .ofBitVec

/-- A signed word stored with its least significant byte first. -/
def int16Little : Codec Int16 where
  width := 16
  encode n := n.toBitVec.rotateLeft 8
  decode v := .ofBitVec (v.rotateLeft 8)

/-- Two fields, the first in the higher place. -/
def prod (a : Codec α) (b : Codec β) : Codec (α × β) where
  width := a.width + b.width
  encode p := a.encode p.1 ++ b.encode p.2
  decode v := (a.decode (v.extractLsb' b.width a.width), b.decode (v.setWidth b.width))

/-- The same layout for a type that carries the same data. -/
def via (into : α → β) (back : β → α) (a : Codec α) : Codec β where
  width := a.width
  encode b := a.encode (back b)
  decode v := into (a.decode v)

def empty : Codec (Vector α 0) where
  width := 0
  encode _ := 0#0
  decode _ := #v[]

/-- Equal fields in a row, the first in the highest place. -/
def vector (a : Codec α) : (n : Nat) → Codec (Vector α n)
  | 0 => empty
  | n + 1 => .via (fun (front, last) => front.push last) (fun v => (v.pop, v[n])) <|
    .prod (vector a n) a

def size (c : Codec α) : Nat := c.width / 8

def pack (c : Codec α) (a : α) : List UInt8 := Bytes.ofNat c.size (c.encode a).toNat

def unpack (c : Codec α) (bytes : List UInt8) : Except PackError α :=
  if bytes.length = c.size then .ok (c.decode (.ofNat c.width (Bytes.toNat bytes)))
  else .error (.bufferSizeMismatch c.size bytes.length)

@[simp] theorem length_pack (c : Codec α) (a : α) : (c.pack a).length = c.size :=
  Bytes.length_ofNat _ _

/-- No bit is lost: each row of bits is the layout of the value read from it. -/
def Lawful (c : Codec α) : Prop := ∀ v, c.encode (c.decode v) = v

theorem lawful_bool : bool.Lawful := by
  unfold Lawful
  decide

theorem lawful_uint8 {width : Nat} (h : width ≤ 8) : (uint8 width).Lawful := by
  intro (v : BitVec width)
  change (v.setWidth 8).setWidth width = v
  rw [BitVec.setWidth_setWidth_of_le v h, BitVec.setWidth_eq]

theorem lawful_uint16 : uint16.Lawful := fun _ => rfl

theorem lawful_uint32 : uint32.Lawful := fun _ => rfl

theorem lawful_int16Little : int16Little.Lawful := by
  intro (v : BitVec 16)
  change (v.rotateLeft 8).rotateLeft 8 = v
  apply BitVec.eq_of_getLsbD_eq
  intro i hi
  simp only [BitVec.getLsbD_rotateLeft]
  grind

theorem lawful_prod {a : Codec α} {b : Codec β} (ha : a.Lawful) (hb : b.Lawful) :
    (prod a b).Lawful := by
  intro (v : BitVec (a.width + b.width))
  change a.encode (a.decode _) ++ b.encode (b.decode _) = v
  rw [ha, hb]
  apply BitVec.eq_of_getLsbD_eq
  intro i hi
  simp only [BitVec.getLsbD_append, BitVec.getLsbD_setWidth, BitVec.getLsbD_extractLsb']
  grind

theorem lawful_via {into : α → β} {back : β → α} {a : Codec α} (ha : a.Lawful)
    (h : ∀ x, back (into x) = x) : (via into back a).Lawful := by
  intro (v : BitVec a.width)
  change a.encode (back (into (a.decode v))) = v
  rw [h, ha]

theorem lawful_vector {a : Codec α} (ha : a.Lawful) : ∀ n, (vector a n).Lawful
  | 0 => fun v => (BitVec.of_length_zero (x := v)).symm
  | n + 1 => lawful_via (lawful_prod (lawful_vector ha n) ha) (by simp)

end Codec

end TwinStick
