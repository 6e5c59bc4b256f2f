import TwinStick.Routine

/-! Byte-addressed memory that survives a power cycle. An access past its end
fails, and any other access may fail as well, in whatever pattern; a failed write
changes nothing. -/

namespace TwinStick

/-- Decides about accesses one after another. A closed gate refuses all of them,
and those do not count. -/
structure Gate where
  isOpen : Bool := true
  /-- How many accesses the open gate has been asked for. -/
  asked : Nat := 0
  allows : Nat → Bool := fun _ => true

namespace Gate

def ask (g : Gate) : Bool × Gate :=
  if g.isOpen then (g.allows g.asked, { g with asked := g.asked + 1 }) else (false, g)

/-- From now on so many accesses are granted, or all of them. -/
def withBudget (g : Gate) : Option Nat → Gate
  | some n => { g with allows := fun k => k < g.asked + n }
  | none => { g with allows := fun _ => true }

end Gate

inductive FlashError where
  | outOfBounds
deriving DecidableEq

def FlashError.name : FlashError → String
  | outOfBounds => "OutOfBounds"

structure Flash where
  bytes : List UInt8
  reads : Gate := {}
  writes : Gate := {}

namespace Flash

def erased (size : Nat) : Flash := { bytes := .replicate size 0xFF }

def capacity (f : Flash) : Nat := f.bytes.length

/-- The bytes from an offset on, as far as there are any. -/
def slice (f : Flash) (offset length : Nat) : List UInt8 := (f.bytes.drop offset).take length

/-- Puts bytes at an offset that has room for them. -/
def overwrite (f : Flash) (offset : Nat) (bytes : List UInt8) : Flash :=
  { f with bytes := f.bytes.take offset ++ bytes ++ f.bytes.drop (offset + bytes.length) }

/-- Puts bytes at any offset, as far as there is room. -/
def poke (f : Flash) (offset : Nat) (bytes : List UInt8) : Flash :=
  if offset ≤ f.capacity then f.overwrite offset (bytes.take (f.capacity - offset)) else f

def flip (f : Flash) (offset : Nat) (mask : UInt8) : Flash :=
  { f with bytes := f.bytes.modify offset (· ^^^ mask) }

def read (offset : UInt32) (length : Nat) : Routine Flash (Except FlashError (List UInt8)) := do
  let f ← get
  if f.capacity < offset.toNat + length then return .error .outOfBounds
  let (granted, reads) := f.reads.ask
  set { f with reads }
  return if granted then .ok (f.slice offset.toNat length) else .error .outOfBounds

def write (offset : UInt32) (bytes : List UInt8) : Routine Flash (Except FlashError Unit) := do
  let f ← get
  let refused := do
    Routine.emit [.writeFailed offset bytes.length]
    return .error .outOfBounds
  if f.capacity < offset.toNat + bytes.length then refused
  else
    let (granted, writes) := f.writes.ask
    let f := { f with writes }
    set f
    if granted then
      set (f.overwrite offset.toNat bytes)
      Routine.emit [.write offset bytes]
      return .ok ()
    else refused

end Flash

end TwinStick
