import TwinStick.Stick.Basic

/-! What happens to a deflection between the converter and the report: it is
centred, smoothed, flattened inside the dead zone, and at the end scaled,
inverted and clamped. Intermediate values are exact; each result fits its word. -/

namespace TwinStick

namespace Signal

/-- Axis values have ten bits whatever the converter delivers. -/
def axisBits : UInt8 := 10

/-- The reading of an axis at rest, before any calibration. -/
def midpoint : UInt16 := 512

/-- The largest deflection in a report. -/
def axisLimit : Int := 511

/-- The sensitivity that leaves a deflection as it is. -/
def unity : UInt8 := 8

def maxSensitivity : UInt8 := 15

def defaultDeadzone : UInt16 := 50

/-- The deflection past which a stick counts as pushed in a direction. -/
def defaultThreshold : Int16 := 200

def normalize (bits : UInt8) (reading : UInt16) : Except Fault UInt16 :=
  if axisBits < bits then Checked.shiftRightUInt16 reading (bits - axisBits)
  else .ok (reading <<< (axisBits - bits).toUInt16)

/-- The distance from the centre, clamped to a signed word. -/
def centred (reading centre : UInt16) : Int16 :=
  Int16.ofInt (max (-32768) (min 32767 ((reading.toNat : Int) - centre.toNat)))

/-- One step of the moving average in which the new value has the weight
`1 / factor`. A factor of zero or above eight turns smoothing off. -/
def smooth (current previous : Int16) (factor : UInt8) : Int16 :=
  if factor = 0 ∨ 8 < factor then current
  else
    Int16.ofInt
      ((previous.toInt * ((factor.toNat : Int) - 1) + current.toInt).tdiv factor.toNat)

/-- The dead zone is a disc, its rim included. -/
def inDeadzone (radius : UInt16) (p : Pair Int16) : Bool :=
  p.x.toInt * p.x.toInt + p.y.toInt * p.y.toInt ≤ (radius.toNat : Int) * radius.toNat

/-- A position in the dead zone is at rest; the flag says whether it was. -/
def flatten (radius : UInt16) (p : Pair Int16) : Pair Int16 × Bool :=
  if inDeadzone radius p then (.zero, true) else (p, false)

/-- Scales by eighths, toward zero, then inverts and clamps. -/
def shapeAxis (sensitivity : UInt8) (inverted : Bool) (v : Int16) : Int16 :=
  let scaled := (v.toInt * sensitivity.toNat).tdiv unity.toNat
  let turned := if inverted then -scaled else scaled
  Int16.ofInt (max (-axisLimit) (min axisLimit turned))

def shape (sensitivity : UInt8) (invert : Pair Bool) (p : Pair Int16) : Pair Int16 :=
  ⟨shapeAxis sensitivity invert.x p.x, shapeAxis sensitivity invert.y p.y⟩

end Signal

end TwinStick
