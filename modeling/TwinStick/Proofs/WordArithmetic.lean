import TwinStick.Profile.ProfileRecord
import TwinStick.Stick.Engine

/-! The words in which the device computes. The signal path is defined with exact integers; here
every intermediate value is put into the word that holds it on the device, and there is no result
where one does not fit. All of them fit: each step has the result that it has in exact integers,
and where it has none, a fault has already stopped the step before. -/

namespace TwinStick

theorem toOption_bind (x : Except ε α) (f : α → Except ε β) :
    (x >>= f).toOption = x.toOption >>= fun a => (f a).toOption := by
  cases x <;> rfl

namespace Word

/-- The value of a signed 32-bit word, if there is one for it. -/
def int32 (value : Int) : Option Int :=
  if -2147483648 ≤ value ∧ value ≤ 2147483647 then some value else none

def int64 (value : Int) : Option Int :=
  if -9223372036854775808 ≤ value ∧ value ≤ 9223372036854775807 then some value else none

def subUInt8 (a b : UInt8) : Option UInt8 := if b ≤ a then some (a - b) else none

def shiftLeftUInt16 (a : UInt16) (places : UInt8) : Option UInt16 :=
  if places < 16 then some (a <<< places.toUInt16) else none

theorem int32_bind {value : Int} (h : value.natAbs ≤ 2147483647) (f : Int → Option α) :
    int32 value >>= f = f value := by
  have hfits : -2147483648 ≤ value ∧ value ≤ 2147483647 := by omega
  rw [int32, if_pos hfits]
  rfl

theorem int64_bind {value : Int} (h : value.natAbs ≤ 9223372036854775807) (f : Int → Option α) :
    int64 value >>= f = f value := by
  have hfits : -9223372036854775808 ≤ value ∧ value ≤ 9223372036854775807 := by omega
  rw [int64, if_pos hfits]
  rfl

theorem natAbs_toInt16_le (a : Int16) : a.toInt.natAbs ≤ 32768 := by
  have hlow := a.le_toInt
  have hhigh := a.toInt_lt
  omega

theorem natAbs_mul_le {a b : Int} {m n : Nat} (ha : a.natAbs ≤ m) (hb : b.natAbs ≤ n) :
    (a * b).natAbs ≤ m * n := by
  rw [Int.natAbs_mul]
  exact Nat.mul_le_mul ha hb

end Word

open Word

namespace Signal

def normalizeInWords (bits : UInt8) (reading : UInt16) : Option UInt16 :=
  if axisBits < bits then do
    let places ← subUInt8 bits axisBits
    (Checked.shiftRightUInt16 reading places).toOption
  else do
    let places ← subUInt8 axisBits bits
    shiftLeftUInt16 reading places

def centredInWords (reading centre : UInt16) : Option Int16 := do
  let distance ← int32 ((reading.toNat : Int) - centre.toNat)
  return Int16.ofInt (max (-32768) (min 32767 distance))

def smoothInWords (current previous : Int16) (factor : UInt8) : Option Int16 :=
  if factor = 0 ∨ 8 < factor then some current
  else do
    let weight ← int32 ((factor.toNat : Int) - 1)
    let weighted ← int32 (previous.toInt * weight)
    let sum ← int32 (weighted + current.toInt)
    let mean ← int32 (sum.tdiv factor.toNat)
    return Int16.ofInt mean

def inDeadzoneInWords (radius : UInt16) (p : Pair Int16) : Option Bool := do
  let x ← int64 (p.x.toInt * p.x.toInt)
  let y ← int64 (p.y.toInt * p.y.toInt)
  let square ← int64 (x + y)
  let rim ← int64 ((radius.toNat : Int) * radius.toNat)
  return square ≤ rim

def flattenInWords (radius : UInt16) (p : Pair Int16) : Option (Pair Int16 × Bool) := do
  let inside ← inDeadzoneInWords radius p
  return if inside then (.zero, true) else (p, false)

def shapeAxisInWords (sensitivity : UInt8) (inverted : Bool) (v : Int16) : Option Int16 := do
  let product ← int32 (v.toInt * sensitivity.toNat)
  let scaled ← int32 (product.tdiv unity.toNat)
  let turned ← if inverted then int32 (-scaled) else some scaled
  let least ← int32 (-axisLimit)
  return Int16.ofInt (max least (min axisLimit turned))

theorem normalizeInWords_eq (bits : UInt8) (reading : UInt16) :
    normalizeInWords bits reading = (normalize bits reading).toOption := by
  rw [normalizeInWords, normalize]
  by_cases hwide : axisBits < bits
  · have hle : axisBits ≤ bits := UInt8.le_of_lt hwide
    rw [if_pos hwide, if_pos hwide, subUInt8, if_pos hle]
    rfl
  · have hle : bits ≤ axisBits := UInt8.not_lt.mp hwide
    have hplaces : axisBits - bits < 16 := by
      rw [UInt8.lt_iff_toNat_lt, UInt8.toNat_sub_of_le _ _ hle]
      change 10 - bits.toNat < 16
      omega
    rw [if_neg hwide, if_neg hwide, subUInt8, if_pos hle]
    simp only [Option.bind_eq_bind, Option.bind_some, shiftLeftUInt16, if_pos hplaces]
    rfl

theorem centredInWords_eq (reading centre : UInt16) :
    centredInWords reading centre = some (centred reading centre) := by
  have hreading := reading.toNat_lt
  have hcentre := centre.toNat_lt
  have hdistance : ((reading.toNat : Int) - centre.toNat).natAbs ≤ 65535 := by omega
  rw [centredInWords, int32_bind (by omega)]
  rfl

theorem smoothInWords_eq (current previous : Int16) (factor : UInt8) :
    smoothInWords current previous factor = some (smooth current previous factor) := by
  rw [smoothInWords, smooth]
  by_cases hoff : factor = 0 ∨ 8 < factor
  · rw [if_pos hoff, if_pos hoff]
  · have hzero : factor.toNat ≠ 0 := fun h => hoff (.inl (UInt8.toNat_inj.mp h))
    have hlarge : factor.toNat ≤ 8 := by
      have h : ¬ 8 < factor := fun h => hoff (.inr h)
      rw [UInt8.lt_iff_toNat_lt] at h
      exact Nat.le_of_not_lt h
    have hcurrent := natAbs_toInt16_le current
    have hweight : ((factor.toNat : Int) - 1).natAbs ≤ 7 := by omega
    have hweighted := natAbs_mul_le (natAbs_toInt16_le previous) hweight
    have hmean := Int.natAbs_tdiv_le_natAbs
      (previous.toInt * ((factor.toNat : Int) - 1) + current.toInt) factor.toNat
    rw [if_neg hoff, if_neg hoff, int32_bind (by omega), int32_bind (by omega),
      int32_bind (by omega), int32_bind (by omega)]
    rfl

theorem inDeadzoneInWords_eq (radius : UInt16) (p : Pair Int16) :
    inDeadzoneInWords radius p = some (inDeadzone radius p) := by
  have hx := natAbs_mul_le (natAbs_toInt16_le p.x) (natAbs_toInt16_le p.x)
  have hy := natAbs_mul_le (natAbs_toInt16_le p.y) (natAbs_toInt16_le p.y)
  have hradius : (radius.toNat : Int).natAbs ≤ 65535 := by
    have hlt := radius.toNat_lt
    omega
  have hrim := natAbs_mul_le hradius hradius
  rw [inDeadzoneInWords, int64_bind (by omega), int64_bind (by omega), int64_bind (by omega),
    int64_bind (by omega)]
  rfl

theorem flattenInWords_eq (radius : UInt16) (p : Pair Int16) :
    flattenInWords radius p = some (flatten radius p) := by
  rw [flattenInWords, inDeadzoneInWords_eq]
  rfl

theorem shapeAxisInWords_eq (sensitivity : UInt8) (inverted : Bool) (v : Int16) :
    shapeAxisInWords sensitivity inverted v = some (shapeAxis sensitivity inverted v) := by
  have hsensitivity : (sensitivity.toNat : Int).natAbs ≤ 255 := by
    have hlt := sensitivity.toNat_lt
    omega
  have hproduct := natAbs_mul_le (natAbs_toInt16_le v) hsensitivity
  have hscaled := Int.natAbs_tdiv_le_natAbs (v.toInt * sensitivity.toNat) unity.toNat
  have hleast : (-axisLimit).natAbs ≤ 2147483647 := by decide
  rw [shapeAxisInWords, int32_bind (by omega), int32_bind (by omega)]
  cases inverted with
  | false =>
    rw [if_neg Bool.false_ne_true, Option.bind_eq_bind, Option.bind_some]
    exact int32_bind hleast _
  | true =>
    rw [if_pos rfl, int32_bind (by omega)]
    exact int32_bind hleast _

end Signal

theorem Combo.bit_in_words (combo : Combo) :
    shiftLeftUInt16 1 (UInt8.ofNat combo.index) = some combo.bit := by
  cases combo <;> rfl

def SamplerConfig.smoothInWords (c : SamplerConfig) (current previous : Pair Int16) :
    Option (Pair Int16) :=
  if c.smoothing then do
    let x ← Signal.smoothInWords current.x previous.x c.factor
    let y ← Signal.smoothInWords current.y previous.y c.factor
    return ⟨x, y⟩
  else some current

theorem SamplerConfig.smoothInWords_eq (c : SamplerConfig) (current previous : Pair Int16) :
    c.smoothInWords current previous = some (c.smooth current previous) := by
  rw [smoothInWords, smooth]
  cases c.smoothing with
  | false => rfl
  | true =>
    rw [if_pos rfl, if_pos rfl, Signal.smoothInWords_eq, Signal.smoothInWords_eq]
    rfl

def StickSample.nextInWords (s : StickSample) (config : SamplerConfig) (deadzone : UInt16)
    (deflection : Pair Int16) (now : UInt32) : Option StickSample := do
  let average ← config.smoothInWords deflection s.position
  let (position, inDeadzone) ← Signal.flattenInWords deadzone average
  let directions ← (Directions.ofPosition config.threshold position).toOption
  return {
    position
    previous := s.position
    directions
    previousDirections := s.directions
    lastMovement := if position = s.position then s.lastMovement else now
    inDeadzone }

theorem StickSample.nextInWords_eq (s : StickSample) (config : SamplerConfig) (deadzone : UInt16)
    (deflection : Pair Int16) (now : UInt32) :
    s.nextInWords config deadzone deflection now =
      (s.next config deadzone deflection now).toOption := by
  rw [nextInWords, next, SamplerConfig.smoothInWords_eq, Option.bind_eq_bind, Option.bind_some,
    Signal.flattenInWords_eq, Option.bind_eq_bind, Option.bind_some]
  obtain ⟨position, inDeadzone⟩ :=
    Signal.flatten deadzone (config.smooth deflection s.position)
  dsimp only
  rw [toOption_bind]
  rfl

def Sampler.observeInWords (s : Sampler) (stick : Stick) (readings : Pair UInt16) (now : UInt32) :
    Option Sampler := do
  let x ← Signal.centredInWords readings.x (s.centres.get stick).x
  let y ← Signal.centredInWords readings.y (s.centres.get stick).y
  let sample ← (s.samples.get stick).nextInWords s.config (s.deadzones.get stick) ⟨x, y⟩ now
  return { s with samples := s.samples.set stick sample }

theorem Sampler.observeInWords_eq (s : Sampler) (stick : Stick) (readings : Pair UInt16)
    (now : UInt32) :
    s.observeInWords stick readings now = (s.observe stick readings now).toOption := by
  rw [observeInWords, observe, Signal.centredInWords_eq, Signal.centredInWords_eq,
    Option.bind_eq_bind, Option.bind_some, Option.bind_eq_bind, Option.bind_some,
    StickSample.nextInWords_eq, toOption_bind]
  rfl

def Engine.processInWords (e : Engine) (s : StickSample) :
    Option (Pair Int16 × Engine × List HostEvent) :=
  match e.mode with
  | .analog => do
    let x ← Signal.shapeAxisInWords e.sensitivity e.invert.x s.position.x
    let y ← Signal.shapeAxisInWords e.sensitivity e.invert.y s.position.y
    return (⟨x, y⟩, e, [])
  | .digital => some (.zero, e.hold s.directions)

theorem Engine.processInWords_eq (e : Engine) (s : StickSample) :
    e.processInWords s = some (e.process s) := by
  rw [processInWords, process]
  cases e.mode with
  | digital => rfl
  | analog =>
    dsimp only
    rw [Signal.shapeAxisInWords_eq, Signal.shapeAxisInWords_eq]
    rfl

namespace ProfileName

theorem size_cons (c : Char) (rest : List Char) : size (c :: rest) = c.utf8Size + size rest := by
  simp [size, encode, String.length_utf8EncodeChar]

/-- The longest run of leading characters that takes up no more than so many
bytes. -/
def fitting (room : Nat) : List Char → List Char
  | [] => []
  | c :: rest => if c.utf8Size ≤ room then c :: fitting (room - c.utf8Size) rest else []

theorem size_fitting (room : Nat) (cs : List Char) : size (fitting room cs) ≤ room := by
  induction cs generalizing room with
  | nil => exact Nat.zero_le room
  | cons c cs ih =>
    rw [fitting]
    split
    · have hrest := ih (room - c.utf8Size)
      rw [size_cons]
      omega
    · exact Nat.zero_le room

theorem fitting_prefix (room : Nat) (cs : List Char) : fitting room cs <+: cs := by
  induction cs generalizing room with
  | nil => exact List.prefix_rfl
  | cons c cs ih =>
    by_cases h : c.utf8Size ≤ room
    · simpa [fitting, h] using ih (room - c.utf8Size)
    · simp [fitting, h]

theorem isBoundary_add (c : Char) (rest : List Char) (n : Nat) :
    isBoundary (c :: rest) (c.utf8Size + n) = isBoundary rest n := by
  have hpos := c.utf8Size_pos
  obtain ⟨m, hm⟩ : ∃ m, c.utf8Size + n = m + 1 := ⟨c.utf8Size + n - 1, by omega⟩
  have hle : c.utf8Size ≤ m + 1 := by omega
  have hrest : m + 1 - c.utf8Size = n := by omega
  rw [hm, isBoundary, hrest, decide_eq_true hle, Bool.true_and]

theorem cutBack_add (c : Char) (rest : List Char) (n : Nat) :
    cutBack (c :: rest) (c.utf8Size + n) = (cutBack rest n).map (c.utf8Size + ·) := by
  induction n with
  | zero =>
    have hstart : isBoundary (c :: rest) (c.utf8Size + 0) = true :=
      (isBoundary_add c rest 0).trans (isBoundary_zero rest)
    rw [cutBack_of_boundary hstart, cutBack_of_boundary (isBoundary_zero rest)]
    rfl
  | succ n ih =>
    have hsame := isBoundary_add c rest (n + 1)
    cases hb : isBoundary rest (n + 1) with
    | true =>
      rw [cutBack_of_boundary (hsame.trans hb), cutBack_of_boundary hb]
      rfl
    | false =>
      have hback := cutBack_succ (hsame.trans hb)
      rw [cutBack_succ hb, ← ih]
      exact hback

theorem cutBack_of_lt {c : Char} {n : Nat} (h : n < c.utf8Size) (rest : List Char) :
    cutBack (c :: rest) n = some 0 := by
  induction n with
  | zero => rfl
  | succ n ih =>
    have hinside : isBoundary (c :: rest) (n + 1) = false := by
      rw [isBoundary, decide_eq_false (by omega), Bool.false_and]
    rw [cutBack_succ hinside]
    exact ih (by omega)

/-- The boundary before the room is used up is where the characters that fit end. -/
theorem cutBack_eq (text : List Char) (room : Nat) :
    cutBack text (min (size text) room) = some (size (fitting room text)) := by
  induction text generalizing room with
  | nil =>
    have hempty : min (size []) room = 0 := Nat.zero_min room
    rw [hempty]
    rfl
  | cons c rest ih =>
    rw [size_cons, fitting]
    by_cases hfits : c.utf8Size ≤ room
    · have hplace : min (c.utf8Size + size rest) room =
          c.utf8Size + min (size rest) (room - c.utf8Size) := by omega
      rw [if_pos hfits, hplace, cutBack_add, ih, size_cons]
      rfl
    · have hplace : min (c.utf8Size + size rest) room = room := by omega
      rw [if_neg hfits, hplace]
      exact cutBack_of_lt (by omega) rest

theorem take_encode_fitting (text : List Char) (room : Nat) :
    (encode text).take (size (fitting room text)) = encode (fitting room text) := by
  obtain ⟨rest, hrest⟩ := fitting_prefix room text
  have hsplit : encode text = encode (fitting room text) ++ encode rest := by
    rw [encode, encode, encode, ← List.flatMap_append, hrest]
  rw [hsplit, size, List.take_left]

theorem size_fitting_le (text : List Char) (room : Nat) : size (fitting room text) ≤ size text := by
  rw [size, ← take_encode_fitting]
  exact List.length_take_le' _ _

/-- What is taken of a text are the characters that fit. -/
theorem ofString_eq (text : String) : ofString text =
    ⟨.ofFn fun i => (encode (fitting nameLength text.toList))[i.val]?.getD 0⟩ := by
  simp only [ofString, cutBack_eq, Option.get_some, take_encode_fitting]

end ProfileName

/-- What is computed in words has the result that it has in exact integers, and none where a fault
stops it. Nothing is sought before the start of a text or written past the end of a name. -/
structure WordsSuffice : Prop where
  reading : ∀ (bits : UInt8) (reading : UInt16),
    Signal.normalizeInWords bits reading = (Signal.normalize bits reading).toOption
  sample : ∀ (s : Sampler) (stick : Stick) (readings : Pair UInt16) (now : UInt32),
    s.observeInWords stick readings now = (s.observe stick readings now).toOption
  axes : ∀ (e : Engine) (s : StickSample), e.processInWords s = some (e.process s)
  combo : ∀ combo : Combo, shiftLeftUInt16 1 (UInt8.ofNat combo.index) = some combo.bit
  name : ∀ text : List Char, ∃ n ≤ min (ProfileName.size text) nameLength,
    ProfileName.cutBack text (min (ProfileName.size text) nameLength) = some n ∧
      n = ProfileName.size (ProfileName.fitting nameLength text)

theorem wordsSuffice : WordsSuffice where
  reading := Signal.normalizeInWords_eq
  sample := Sampler.observeInWords_eq
  axes := Engine.processInWords_eq
  combo := Combo.bit_in_words
  name text := by
    have hroom := ProfileName.size_fitting nameLength text
    have htext := ProfileName.size_fitting_le text nameLength
    exact ⟨_, Nat.le_min.mpr ⟨htext, hroom⟩, ProfileName.cutBack_eq text nameLength, rfl⟩

end TwinStick
