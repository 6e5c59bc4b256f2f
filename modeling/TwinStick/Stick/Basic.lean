import TwinStick.Pair

/-! The two sticks, their axes and the four directions. -/

namespace TwinStick

inductive Stick where
  | one
  | two
deriving DecidableEq

namespace Stick

def all : List Stick := [one, two]

def index : Stick → Nat
  | one => 0
  | two => 1

def ofIndex? : Nat → Option Stick
  | 0 => some one
  | 1 => some two
  | _ => none

/-- The number printed on the case. -/
def number (s : Stick) : Nat := s.index + 1

theorem ofIndex?_index (s : Stick) : ofIndex? s.index = some s := by cases s <;> rfl

end Stick

structure PerStick (α : Type) where
  one : α
  two : α
deriving DecidableEq

namespace PerStick

def both (a : α) : PerStick α := ⟨a, a⟩

def get (p : PerStick α) : Stick → α
  | .one => p.one
  | .two => p.two

def set (p : PerStick α) : Stick → α → PerStick α
  | .one, a => { p with one := a }
  | .two, a => { p with two := a }

def map (f : α → β) (p : PerStick α) : PerStick β := ⟨f p.one, f p.two⟩

@[simp] theorem get_set_self (p : PerStick α) (s : Stick) (a : α) : (p.set s a).get s = a := by
  cases s <;> rfl

theorem get_set_of_ne (p : PerStick α) {s t : Stick} (h : s ≠ t) (a : α) :
    (p.set s a).get t = p.get t := by
  cases s <;> cases t <;> simp_all [get, set]

@[simp] theorem get_both (a : α) (s : Stick) : (both a).get s = a := by cases s <;> rfl

@[simp] theorem get_map (f : α → β) (p : PerStick α) (s : Stick) :
    (p.map f).get s = f (p.get s) := by cases s <;> rfl

end PerStick

inductive Axis where
  | x
  | y
deriving DecidableEq

/-- One input of the converter: an axis of a stick. -/
structure Channel where
  stick : Stick
  axis : Axis
deriving DecidableEq

namespace Channel

/-- The place of a channel in the scan: both axes of the first stick, then both
of the second. -/
def index (c : Channel) : Nat :=
  c.stick.index * 2 + match c.axis with
    | .x => 0
    | .y => 1

end Channel

inductive StickMode where
  /-- The axes are reported and the directions are ignored. -/
  | analog
  /-- The directions are keys and the axes are reported as zero. -/
  | digital
deriving DecidableEq

namespace StickMode

instance : Inhabited StickMode := ⟨analog⟩

def ofAnalog (analog : Bool) : StickMode := if analog then .analog else .digital

def isAnalog : StickMode → Bool
  | analog => true
  | digital => false

def toggled : StickMode → StickMode
  | analog => digital
  | digital => analog

def name : StickMode → String
  | analog => "analog"
  | digital => "digital"

@[simp] theorem ofAnalog_isAnalog (m : StickMode) : ofAnalog m.isAnalog = m := by
  cases m <;> rfl

end StickMode

inductive Direction where
  | left
  | right
  | up
  | down
deriving DecidableEq

namespace Direction

def all : List Direction := [left, right, up, down]

def index : Direction → Nat
  | left => 0
  | right => 1
  | up => 2
  | down => 3

def ofIndex? (n : Nat) : Option Direction := all[n]?

def name : Direction → String
  | left => "left"
  | right => "right"
  | up => "up"
  | down => "down"

end Direction

structure StickKey where
  stick : Stick
  direction : Direction
deriving DecidableEq

structure Directions where
  left : Bool := false
  right : Bool := false
  up : Bool := false
  down : Bool := false
deriving DecidableEq

namespace Directions

def has (s : Directions) : Direction → Bool
  | .left => s.left
  | .right => s.right
  | .up => s.up
  | .down => s.down

/-- The directions in which a position lies strictly past the threshold. -/
def ofPosition (threshold : Int16) (position : Pair Int16) : Except Fault Directions := do
  let opposite ← Checked.negInt16 threshold
  return {
    left := position.x < opposite
    right := threshold < position.x
    up := threshold < position.y
    down := position.y < opposite }

/-- The directions that differ between two sets, each with its membership in the
second. -/
def changes (before after : Directions) : List (Direction × Bool) :=
  Direction.all.filterMap fun d =>
    if before.has d = after.has d then none else some (d, after.has d)

@[simp] theorem changes_self (s : Directions) : s.changes s = [] := by
  simp [changes]

end Directions

end TwinStick
