import TwinStick.Keys.Scanner
import TwinStick.Stick.Sampler

/-! Logical inputs under one roof. Whoever wants to know whether something is down
registers it in a table of sixteen places and asks for its entry, whatever the
input is: a key, a stick pushed in a direction, a stick out of its dead zone, or
a touch. Every entry is debounced on its own. -/

namespace TwinStick

inductive InputKind where
  /-- The number counts the keys of the matrix row by row. -/
  | button
  /-- The number is four times that of the stick plus that of the direction. -/
  | stickDirection
  /-- The number is that of the stick, which is active outside its dead zone. -/
  | stickDeflection
  /-- Active while the panel is touched. -/
  | touch
deriving DecidableEq

structure TrackedInput where
  kind : InputKind := .button
  id : UInt8 := 0
  contact : Contact := {}
  /-- The length of the last press that has ended. -/
  duration : UInt32 := 0
deriving DecidableEq

/-- The sources of tracked inputs as of the last tick. -/
structure InputSnapshot where
  matrix : KeyMatrix
  sampler : Sampler
  touching : Bool

namespace InputSnapshot

/-- A number that names no input is never active. -/
def isActive (s : InputSnapshot) (kind : InputKind) (id : UInt8) : Bool :=
  let id := id.toNat
  match kind with
  | .button => s.matrix.isPressed (id / matrixCols) (id % matrixCols)
  | .stickDirection =>
    match Stick.ofIndex? (id / 4), Direction.ofIndex? (id % 4) with
    | some stick, some direction => (s.sampler.samples.get stick).isPushed direction
    | _, _ => false
  | .stickDeflection =>
    match Stick.ofIndex? id with
    | some stick => !(s.sampler.samples.get stick).inDeadzone
    | none => false
  | .touch => s.touching

end InputSnapshot

namespace TrackedInput

def isActive (i : TrackedInput) : Bool := i.contact.closed && i.contact.settled

def observe (i : TrackedInput) (window : UInt32) (active : Bool) (now : UInt32) : TrackedInput :=
  { i with
    contact := i.contact.observe window active now
    duration :=
      if i.contact.closed && !active then elapsed i.contact.pressTime now else i.duration }

end TrackedInput

/-- A place in the table. It names the same input until an earlier one leaves. -/
structure Handle where
  place : UInt8
deriving DecidableEq

namespace Handle

def invalid : Handle := ⟨255⟩

def isValid (h : Handle) : Bool := h ≠ invalid

def index (h : Handle) : Nat := h.place.toNat

/-- The place that was given out, if there was one. -/
def place? (h : Handle) : Option Nat := if h.isValid then some h.index else none

end Handle

def maxTracked : Nat := 16

structure Tracker where
  table : Vector TrackedInput maxTracked := .replicate maxTracked {}
  /-- The places in use are the first ones. -/
  length : Nat := 0
  length_le : length ≤ maxTracked := by decide
  debounce : UInt32
  stickDebounce : UInt32
deriving DecidableEq

namespace Tracker

def ofConfig (config : ScannerConfig) : Tracker :=
  { debounce := config.debounce, stickDebounce := config.stickDebounce }

def withConfig (t : Tracker) (config : ScannerConfig) : Tracker :=
  { t with debounce := config.debounce, stickDebounce := config.stickDebounce }

def entries (t : Tracker) : List TrackedInput := t.table.toList.take t.length

/-- Registers an input in the first free place, if there is one. -/
def track (t : Tracker) (kind : InputKind) (id : UInt8) : Handle × Tracker :=
  if h : t.length < maxTracked then
    (⟨UInt8.ofNat t.length⟩,
      { t with
        table := t.table.set t.length { kind, id } h
        length := t.length + 1
        length_le := h })
  else (.invalid, t)

/-- Frees a place, with all that the device checks on the way. The inputs behind it move up
by one. -/
def release (t : Tracker) (h : Handle) : Except Fault (Bool × Tracker) :=
  if h.index < t.length then do
    let table ← Checked.copyWithin t.table (h.index + 1) t.length h.index
    let length ← Checked.subNat t.length 1
    let table ← Checked.set table length {}
    return (true,
      { t with
        table
        length
        length_le := Nat.le_trans (Nat.le_of_succ_le (Nat.le_of_eq length.property)) t.length_le })
  else return (false, t)

/-- A place of the table has been freed. -/
structure Freed (t : Tracker) (place : Nat) (u : Tracker) : Prop where
  used : place < t.length
  length : u.length + 1 = t.length
  debounce : u.debounce = t.debounce
  stickDebounce : u.stickDebounce = t.stickDebounce
  before {i : Nat} (hi : i < maxTracked) (h : i < place) : u.table[i] = t.table[i]
  moved {i : Nat} (hi : i + 1 < maxTracked) (h : place ≤ i) (hused : i + 1 < t.length) :
    u.table[i] = t.table[i + 1]
  last {i : Nat} (hi : i < maxTracked) (h : i + 1 = t.length) : u.table[i] = {}
  unused {i : Nat} (hi : i < maxTracked) (h : t.length ≤ i) : u.table[i] = t.table[i]

/-- A place in use is within the table, so none of the checks fails. -/
theorem release_of_used {t : Tracker} {h : Handle} (hused : h.index < t.length) :
    ∃ u, t.release h = .ok (true, u) ∧ t.Freed h.index u := by
  have hlength := t.length_le
  have hroom : h.index ≤ maxTracked - (t.length - (h.index + 1)) := by omega
  obtain ⟨table, hcopy, htable⟩ := Checked.copyWithin_eq t.table hused hlength hroom
  have hsome : 1 ≤ t.length := Nat.one_le_of_lt hused
  have hlast : t.length - 1 < maxTracked := by omega
  let u : Tracker :=
    { t with
      table := table.set (t.length - 1) {} hlast
      length := t.length - 1
      length_le := Nat.le_of_lt hlast }
  have hrelease : t.release h = .ok (true, u) := by
    rw [release, if_pos hused, hcopy, Checked.subNat_eq hsome]
    simp only [bind, Except.bind, Checked.set_eq hlast]
    rfl
  have hentry {i : Nat} (hi : i < maxTracked) (hne : t.length - 1 ≠ i) :
      u.table[i] = table[i] := Vector.getElem_set_ne hlast hi hne
  refine ⟨u, hrelease, hused, Nat.sub_add_cancel hsome, rfl, rfl, fun hi hbefore => ?_,
    fun hi hmoved hnext => ?_, fun hi hend => ?_, fun hi hunused => ?_⟩
  · rw [hentry hi (by omega), htable, dif_neg (by omega)]
  · rw [hentry (by omega) (by omega), htable, dif_pos ⟨hmoved, by omega⟩]
    congr 1
    omega
  · obtain rfl := Nat.eq_sub_of_add_eq hend
    exact Vector.getElem_set_self hi
  · rw [hentry hi (by omega), htable, dif_neg (by omega)]

theorem exists_release (t : Tracker) (h : Handle) : ∃ r, t.release h = .ok r := by
  by_cases hused : h.index < t.length
  · obtain ⟨u, hu, -⟩ := release_of_used hused
    exact ⟨_, hu⟩
  · exact ⟨_, if_neg hused⟩

def untrack (t : Tracker) (h : Handle) : Bool × Tracker := Checked.get _ (t.exists_release h)

theorem release_eq_untrack (t : Tracker) (h : Handle) : t.release h = .ok (t.untrack h) :=
  Checked.eq_ok_get (t.exists_release h)

def get? (t : Tracker) (h : Handle) : Option TrackedInput :=
  if h.index < t.length then t.table[h.index]? else none

def isActive (t : Tracker) (h : Handle) : Bool := (t.get? h).any TrackedInput.isActive

def clear (t : Tracker) : Tracker :=
  { debounce := t.debounce, stickDebounce := t.stickDebounce }

def window (t : Tracker) : InputKind → UInt32
  | .stickDirection | .stickDeflection => t.stickDebounce
  | .button | .touch => t.debounce

def update (t : Tracker) (h : Handle) (s : InputSnapshot) (now : UInt32) : Bool × Tracker :=
  if hi : h.index < t.length then
    have inTable := Nat.lt_of_lt_of_le hi t.length_le
    let i := t.table[h.index]
    let i := i.observe (t.window i.kind) (s.isActive i.kind i.id) now
    (true, { t with table := t.table.set h.index i inTable })
  else (false, t)

def updateAll (t : Tracker) (s : InputSnapshot) (now : UInt32) : Tracker :=
  (List.range t.length).foldl (fun t i => (t.update ⟨UInt8.ofNat i⟩ s now).2) t

end Tracker

end TwinStick
