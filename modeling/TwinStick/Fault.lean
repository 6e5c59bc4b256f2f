/-! Fixed-width arithmetic that stops where a result does not fit, and access to tables that
stops outside of them. The device runs with both checks, so a result outside its word is a
fault and never a wrapped value, and a place outside a table is one as well. -/

namespace TwinStick

/-- The reasons for which a computation on the device stops. -/
inductive Fault where
  | addOverflow
  | subOverflow
  | negOverflow
  | shrOverflow
  | indexOutOfBounds (length index : Nat)
  | rangeReversed (start stop : Nat)
  | rangeOutOfBounds (length stop : Nat)
  | copyOutOfBounds
deriving DecidableEq

def Fault.message : Fault → String
  | .addOverflow => "attempt to add with overflow"
  | .subOverflow => "attempt to subtract with overflow"
  | .negOverflow => "attempt to negate with overflow"
  | .shrOverflow => "attempt to shift right with overflow"
  | .indexOutOfBounds length index =>
    "index out of bounds: the len is " ++ toString length ++
      " but the index is " ++ toString index
  | .rangeReversed start stop =>
    "slice index starts at " ++ toString start ++ " but ends at " ++ toString stop
  | .rangeOutOfBounds length stop =>
    "range end index " ++ toString stop ++ " out of range for slice of length " ++
      toString length
  | .copyOutOfBounds => "dest is out of bounds"

namespace Checked

/-- An integer as a signed 16-bit word, or the given fault if it has none. -/
def int16 (fault : Fault) (value : Int) : Except Fault Int16 :=
  if -32768 ≤ value ∧ value ≤ 32767 then .ok (Int16.ofInt value) else .error fault

def addInt16 (a b : Int16) : Except Fault Int16 :=
  int16 .addOverflow (a.toInt + b.toInt)

def subInt16 (a b : Int16) : Except Fault Int16 :=
  int16 .subOverflow (a.toInt - b.toInt)

/-- Only the least word has no negative. -/
def negInt16 (a : Int16) : Except Fault Int16 :=
  int16 .negOverflow (-a.toInt)

def addUInt8 (a b : UInt8) : Except Fault UInt8 :=
  if a.toNat + b.toNat < UInt8.size then .ok (a + b) else .error .addOverflow

def addUInt32 (a b : UInt32) : Except Fault UInt32 :=
  if a.toNat + b.toNat < UInt32.size then .ok (a + b) else .error .addOverflow

/-- A 16-bit word can be shifted by at most 15 places. -/
def shiftRightUInt16 (a : UInt16) (places : UInt8) : Except Fault UInt16 :=
  if places < 16 then .ok (a >>> places.toUInt16) else .error .shrOverflow

/-- The difference, together with what makes it one. -/
def subNat (a b : Nat) : Except Fault { d : Nat // d + b = a } :=
  if h : b ≤ a then .ok ⟨a - b, Nat.sub_add_cancel h⟩ else .error .subOverflow

def set (table : Vector α n) (i : Nat) (a : α) : Except Fault (Vector α n) :=
  if h : i < n then .ok (table.set i a h) else .error (.indexOutOfBounds n i)

/-- The entries from a start up to a stop, as they were, are copied to where they are to begin. -/
def copyWithin (table : Vector α n) (start stop target : Nat) : Except Fault (Vector α n) :=
  if stop < start then .error (.rangeReversed start stop)
  else if hstop : n < stop then .error (.rangeOutOfBounds n stop)
  else if n - (stop - start) < target then .error .copyOutOfBounds
  else
    .ok (.ofFn fun i =>
      if h : target ≤ i.val ∧ i.val - target < stop - start then table[start + (i.val - target)]
      else table[i])

theorem subNat_eq {a b : Nat} (h : b ≤ a) : subNat a b = .ok ⟨a - b, Nat.sub_add_cancel h⟩ :=
  dif_pos h

theorem set_eq {table : Vector α n} {i : Nat} (h : i < n) (a : α) :
    set table i a = .ok (table.set i a h) := dif_pos h

theorem copyWithin_eq (table : Vector α n) {start stop target : Nat}
    (hstart : start ≤ stop) (hstop : stop ≤ n) (hroom : target ≤ n - (stop - start)) :
    ∃ copied, copyWithin table start stop target = .ok copied ∧ ∀ i (hi : i < n), copied[i] =
      if h : target ≤ i ∧ i - target < stop - start then table[start + (i - target)]
      else table[i] := by
  rw [copyWithin, if_neg (Nat.not_lt.mpr hstart), dif_neg (Nat.not_lt.mpr hstop),
    if_neg (Nat.not_lt.mpr hroom)]
  exact ⟨_, rfl, fun i hi => Vector.getElem_ofFn hi⟩

/-- What a computation that does not stop results in. -/
def get (x : Except Fault α) (h : ∃ a, x = .ok a) : α :=
  match x, h with
  | .ok a, _ => a
  | .error _, h => False.elim (h.elim nofun)

theorem eq_ok_get {x : Except Fault α} (h : ∃ a, x = .ok a) : x = .ok (get x h) := by
  obtain ⟨a, rfl⟩ := h
  rfl

end Checked

end TwinStick
