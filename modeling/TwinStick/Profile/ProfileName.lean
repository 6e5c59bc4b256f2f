import TwinStick.Codec

/-! Names of profiles: sixteen bytes of text in which zeros fill the rest. -/

namespace TwinStick

def nameLength : Nat := 16

structure ProfileName where
  bytes : Vector UInt8 nameLength
deriving DecidableEq

namespace ProfileName

def codec : Codec ProfileName := .via mk bytes (.vector (.uint8 8) nameLength)

def encode (text : List Char) : List UInt8 := text.flatMap String.utf8EncodeChar

def size (text : List Char) : Nat := (encode text).length

/-- Whether a character starts or the text ends after so many bytes. -/
def isBoundary : List Char → Nat → Bool
  | _, 0 => true
  | [], _ + 1 => false
  | c :: rest, n + 1 => c.utf8Size ≤ n + 1 && isBoundary rest (n + 1 - c.utf8Size)

/-- Goes back from a place in a text to the boundary before it, byte by byte. Going back from the
start has no result. -/
def cutBack (text : List Char) (n : Nat) : Option Nat :=
  if isBoundary text n then some n
  else
    match n with
    | 0 => none
    | m + 1 => cutBack text m

theorem isBoundary_zero (text : List Char) : isBoundary text 0 = true := by
  cases text <;> rfl

theorem cutBack_of_boundary {text : List Char} {n : Nat} (h : isBoundary text n = true) :
    cutBack text n = some n := by
  cases n <;> rw [cutBack, if_pos h]

theorem cutBack_succ {text : List Char} {n : Nat} (h : isBoundary text (n + 1) = false) :
    cutBack text (n + 1) = cutBack text n := by
  rw [cutBack, h]
  rfl

/-- There is a boundary to go back to, the start at the latest. -/
theorem isSome_cutBack (text : List Char) (n : Nat) : (cutBack text n).isSome = true := by
  induction n with
  | zero => rw [cutBack_of_boundary (isBoundary_zero text), Option.isSome_some]
  | succ n ih =>
    cases h : isBoundary text (n + 1) with
    | true => rw [cutBack_of_boundary h, Option.isSome_some]
    | false => rwa [cutBack_succ h]

/-- As much of a text as fits, cut between characters. -/
def ofString (text : String) : ProfileName :=
  let cs := text.toList
  let length := (cutBack cs (min (size cs) nameLength)).get (isSome_cutBack cs _)
  ⟨.ofFn fun i => ((encode cs).take length)[i.val]?.getD 0⟩

def span (n : ProfileName) : List UInt8 := n.bytes.toList.takeWhile (· != 0)

/-- The text before the first zero, or no text at all if that is not valid. -/
def text (n : ProfileName) : String := (String.fromUTF8? ⟨n.span.toArray⟩).getD ""

end ProfileName

end TwinStick
