/-! Numbers in a fixed number of bytes, the most significant byte first. -/

namespace TwinStick

namespace Bytes

/-- The lowest `length` bytes of a number, the most significant first. -/
def ofNat : (length : Nat) → Nat → List UInt8
  | 0, _ => []
  | k + 1, n => ofNat k (n / 256) ++ [UInt8.ofNat n]

/-- The number that bytes spell, the most significant first. -/
def toNat (bytes : List UInt8) : Nat :=
  bytes.foldl (fun n byte => n * 256 + byte.toNat) 0

@[simp] theorem length_ofNat (length n : Nat) : (ofNat length n).length = length := by
  induction length generalizing n with
  | zero => rfl
  | succ k ih => simp [ofNat, ih]

theorem ofNat_append_byte (length n : Nat) (byte : UInt8) :
    ofNat (length + 1) (n * 256 + byte.toNat) = ofNat length n ++ [byte] := by
  have h := byte.toNat_lt
  have quotient : (n * 256 + byte.toNat) / 256 = n := by omega
  have last : UInt8.ofNat (n * 256 + byte.toNat) = byte := by
    apply UInt8.toNat_inj.mp
    rw [UInt8.toNat_ofNat']
    omega
  rw [ofNat, quotient, last]

theorem ofNat_foldl (length n : Nat) (bytes : List UInt8) :
    ofNat (length + bytes.length) (bytes.foldl (fun n byte => n * 256 + byte.toNat) n) =
      ofNat length n ++ bytes := by
  induction bytes generalizing length n with
  | nil => simp
  | cons byte bytes ih =>
    have h := ih (length + 1) (n * 256 + byte.toNat)
    rw [ofNat_append_byte, Nat.add_assoc, Nat.add_comm 1] at h
    simpa using h

/-- Bytes are those of the number they spell. -/
theorem ofNat_toNat (bytes : List UInt8) : ofNat bytes.length (toNat bytes) = bytes := by
  simpa [ofNat, toNat] using ofNat_foldl 0 0 bytes

end Bytes

end TwinStick
