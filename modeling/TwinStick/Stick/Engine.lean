import TwinStick.Settings

/-! What a stick does: an analog stick moves axes, a digital one holds keys. The
keys held are always those of the last sample taken in digital mode, and leaving
digital mode lets go of all of them. -/

namespace TwinStick

structure Engine where
  stick : Stick
  mode : StickMode := .analog
  sensitivity : UInt8 := Signal.unity
  invert : Pair Bool := .both false
  held : Directions := {}
deriving DecidableEq

namespace Engine

def hold (e : Engine) (wanted : Directions) : Engine × List HostEvent :=
  ({ e with held := wanted },
    (e.held.changes wanted).map fun (direction, down) =>
      if down then .keyDown ⟨e.stick, direction⟩ else .keyUp ⟨e.stick, direction⟩)

def setMode (e : Engine) (mode : StickMode) : Engine × List HostEvent :=
  if mode = e.mode then (e, [])
  else
    match e.mode with
    | .digital =>
      let (e, events) := e.hold {}
      ({ e with mode }, events)
    | .analog => ({ e with mode }, [])

def toggleMode (e : Engine) : Engine × List HostEvent := e.setMode e.mode.toggled

def applySettings (e : Engine) (s : StickSettings) : Engine × List HostEvent :=
  { e with sensitivity := s.sensitivity, invert := s.invert }.setMode s.mode

/-- Handles one sample. The axes are zero while the stick is digital. -/
def process (e : Engine) (s : StickSample) : Pair Int16 × Engine × List HostEvent :=
  match e.mode with
  | .analog => (Signal.shape e.sensitivity e.invert s.position, e, [])
  | .digital => (.zero, e.hold s.directions)

end Engine

end TwinStick
