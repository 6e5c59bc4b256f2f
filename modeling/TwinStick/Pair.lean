import TwinStick.Fault

/-! A value for each of the two axes of a stick. -/

namespace TwinStick

structure Pair (α : Type) where
  x : α
  y : α
deriving DecidableEq

namespace Pair

def both (a : α) : Pair α := ⟨a, a⟩

def map (f : α → β) (p : Pair α) : Pair β := ⟨f p.x, f p.y⟩

def zero : Pair Int16 := both 0

/-- The sum by components, if both fit. -/
def add (a b : Pair Int16) : Except Fault (Pair Int16) := do
  let x ← Checked.addInt16 a.x b.x
  let y ← Checked.addInt16 a.y b.y
  return ⟨x, y⟩

/-- The difference by components, if both fit. -/
def sub (a b : Pair Int16) : Except Fault (Pair Int16) := do
  let x ← Checked.subInt16 a.x b.x
  let y ← Checked.subInt16 a.y b.y
  return ⟨x, y⟩

end Pair

end TwinStick
