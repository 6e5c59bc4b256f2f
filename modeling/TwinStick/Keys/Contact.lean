import TwinStick.Uptime

/-! A contact that bounces. It counts as settled once it has been seen closed for
a whole window; whenever it opens, the count starts afresh. -/

namespace TwinStick

structure Contact where
  closed : Bool := false
  wasClosed : Bool := false
  /-- Seen closed for at least the window, without a break. -/
  settled : Bool := false
  pressTime : UInt32 := 0
  releaseTime : UInt32 := 0
deriving DecidableEq

namespace Contact

def note (c : Contact) (closed : Bool) (now : UInt32) : Contact :=
  let c' := { c with closed, wasClosed := c.closed }
  match closed, c.closed with
  | true, false => { c' with pressTime := now, settled := false }
  | false, true => { c' with releaseTime := now, settled := false }
  | _, _ => c'

/-- The contact has been closed for the window and was not settled yet. -/
def settles (c : Contact) (window now : UInt32) : Bool :=
  c.closed && !c.settled && window ≤ elapsed c.pressTime now

/-- One observation: note it, then settle if the window has passed. -/
def observe (c : Contact) (window : UInt32) (closed : Bool) (now : UInt32) : Contact :=
  let c := c.note closed now
  { c with settled := c.settled || c.settles window now }

theorem note_closed (c : Contact) (closed : Bool) (now : UInt32) :
    (c.note closed now).closed = closed := by
  cases closed <;> cases h : c.closed <;> simp [note, h]

theorem note_wasClosed (c : Contact) (closed : Bool) (now : UInt32) :
    (c.note closed now).wasClosed = c.closed := by
  cases closed <;> cases h : c.closed <;> simp [note, h]

@[simp] theorem observe_closed (c : Contact) (window : UInt32) (closed : Bool) (now : UInt32) :
    (c.observe window closed now).closed = closed := note_closed c closed now

@[simp] theorem observe_wasClosed (c : Contact) (window : UInt32) (closed : Bool)
    (now : UInt32) : (c.observe window closed now).wasClosed = c.closed :=
  note_wasClosed c closed now

end Contact

end TwinStick
