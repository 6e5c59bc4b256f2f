import TwinStick.Stick.Basic
import TwinStick.Codec

/-! The report of all four axes as the host receives it. -/

namespace TwinStick

abbrev AxisReport := PerStick (Pair Int16)

namespace AxisReport

def zero : AxisReport := .both .zero

/-- Four signed words, each with its least significant byte first. -/
def codec : Codec AxisReport :=
  .via (fun p => ⟨⟨p.1.1, p.1.2⟩, ⟨p.2.1, p.2.2⟩⟩)
    (fun r => ((r.one.x, r.one.y), (r.two.x, r.two.y)))
    (.prod (.prod .int16Little .int16Little) (.prod .int16Little .int16Little))

end AxisReport

end TwinStick
