import TwinStick.Keys.Contact

/-! The key matrix. A sweep looks at every switch once; sweeps come at most once
per interval, and each switch is debounced on its own. -/

namespace TwinStick

structure ScannerConfig where
  interval : UInt32 := 5
  /-- How long a switch has to stay closed to count as pressed. -/
  debounce : UInt32 := 5
  /-- The same for inputs that come from a stick. -/
  stickDebounce : UInt32 := 10
deriving DecidableEq

structure KeyCell where
  contact : Contact := {}
  /-- The contact settled in the last sweep. -/
  newlySettled : Bool := false
deriving DecidableEq

namespace KeyCell

def sweep (c : KeyCell) (window now : UInt32) (closed : Bool) : KeyCell :=
  { contact := c.contact.observe window closed now
    newlySettled := (c.contact.note closed now).settles window now }

def isPressed (c : KeyCell) : Bool := c.contact.closed && c.contact.settled

def justPressed (c : KeyCell) : Bool := c.contact.closed && c.newlySettled

def justReleased (c : KeyCell) : Bool := !c.contact.closed && c.contact.wasClosed

/-- How long the switch has been held, zero if it is not. -/
def heldFor (c : KeyCell) (now : UInt32) : UInt32 :=
  if c.contact.closed then elapsed c.contact.pressTime now else 0

end KeyCell

/-- A matrix of switches in so many rows and columns. -/
structure Scanner (rows cols : Nat) where
  cells : Vector (Vector KeyCell cols) rows := .replicate rows (.replicate cols {})
  config : ScannerConfig
  cadence : Cadence
deriving DecidableEq

namespace Scanner

def ofConfig (config : ScannerConfig) : Scanner rows cols :=
  { config, cadence := ⟨config.interval, none⟩ }

def withConfig (s : Scanner rows cols) (config : ScannerConfig) : Scanner rows cols :=
  { s with config, cadence := s.cadence.withPeriod config.interval }

/-- Sweeps the matrix if an interval has passed; the flag says whether it did. -/
def scan (s : Scanner rows cols) (closed : Nat → Nat → Bool) (now : UInt32) :
    Bool × Scanner rows cols :=
  let (due, cadence) := s.cadence.poll now
  if due then
    let cells := s.cells.mapIdx fun row cells =>
      cells.mapIdx fun col cell => cell.sweep s.config.debounce now (closed row col)
    (true, { s with cells, cadence })
  else (false, s)

def cell? (s : Scanner rows cols) (row col : Nat) : Option KeyCell := do
  let cells ← s.cells[row]?
  cells[col]?

/-- A place off the matrix is never pressed. -/
def isPressed (s : Scanner rows cols) (row col : Nat) : Bool :=
  (s.cell? row col).any KeyCell.isPressed

def justPressed (s : Scanner rows cols) (row col : Nat) : Bool :=
  (s.cell? row col).any KeyCell.justPressed

def justReleased (s : Scanner rows cols) (row col : Nat) : Bool :=
  (s.cell? row col).any KeyCell.justReleased

def heldFor (s : Scanner rows cols) (row col : Nat) (now : UInt32) : UInt32 :=
  ((s.cell? row col).map (·.heldFor now)).getD 0

end Scanner

def matrixRows : Nat := 2

def matrixCols : Nat := 4

abbrev KeyMatrix := Scanner matrixRows matrixCols

end TwinStick
