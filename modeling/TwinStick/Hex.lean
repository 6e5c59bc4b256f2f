/-! Bytes as text: two lower-case hexadecimal digits for each. -/

namespace TwinStick

namespace Hex

def digit (n : Nat) : Char := Nat.digitChar n

def value? (c : Char) : Option Nat :=
  if '0' ≤ c ∧ c ≤ '9' then some (c.toNat - '0'.toNat)
  else if 'a' ≤ c ∧ c ≤ 'f' then some (c.toNat - 'a'.toNat + 10)
  else none

def encode (bytes : List UInt8) : String :=
  String.ofList (bytes.flatMap fun b => [digit (b.toNat / 16), digit (b.toNat % 16)])

def decodeChars : List Char → Option (List UInt8)
  | [] => some []
  | [_] => none
  | high :: low :: rest => do
    let byte := UInt8.ofNat ((← value? high) * 16 + (← value? low))
    return byte :: (← decodeChars rest)

/-- The bytes of a text, if it consists of pairs of digits. -/
def decode? (text : String) : Option (List UInt8) := decodeChars text.toList

end Hex

end TwinStick
