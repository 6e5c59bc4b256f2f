import TwinStick.Proofs.Veil
import TwinStick.Proofs.StoresSideBySide

/-! The records behind a veil, in the copies and in memory. The checksum of a profile covers both
sticks, so it changes with what is hidden of one of them; but no record is written unsealed, and
so whether a stored one is intact can be seen through any veil. -/

namespace TwinStick

open Routine

variable {v : Veil}

namespace QuickWord

structure Veiled (v : Veil) (q q' : QuickWord) : Prop where
  active : q'.active = q.active
  analog : q.analog.Veiled v q'.analog
  touchEnabled : q'.touchEnabled = q.touchEnabled
  combosEnabled : q'.combosEnabled = q.combosEnabled
  sensitivity : q.sensitivity.Veiled v q'.sensitivity
  deadzone : q.deadzone.Veiled v q'.deadzone
  reserved : q'.reserved = q.reserved

theorem veiled_self (q : QuickWord) : q.Veiled v q :=
  ⟨rfl, q.analog.veiled_self, rfl, rfl, q.sensitivity.veiled_self, q.deadzone.veiled_self, rfl⟩

section

variable {q q' : QuickWord} {s s' : DeviceSettings}

theorem Veiled.eq_of_bare (h : q.Veiled v q') (hb : v.Bare) : q' = q := by
  have hanalog := h.analog.eq_of_bare hb
  have hsensitivity := h.sensitivity.eq_of_bare hb
  have hdeadzone := h.deadzone.eq_of_bare hb
  obtain ⟨hactive, -, htouch, hcombos, -, -, hreserved⟩ := h
  cases q
  cases q'
  simp_all

theorem Veiled.capture (h : q.Veiled v q') (hs : s.Veiled v s') :
    (q.capture s).Veiled v (q'.capture s') where
  active := by rw [QuickWord.capture, QuickWord.capture, hs.profile]
  analog := hs.sticks.map _
  touchEnabled := hs.touchEnabled
  combosEnabled := hs.combosEnabled
  sensitivity := hs.sticks.map _
  deadzone := hs.sticks.map _
  reserved := h.reserved

theorem Veiled.apply (h : q.Veiled v q') (hs : s.Veiled v s') :
    (q.apply s).Veiled v (q'.apply s') := by
  have hsticks : (q.apply s).sticks.Veiled v (q'.apply s').sticks := by
    intro stick hseen
    have happlied : ∀ (q : QuickWord) (s : DeviceSettings),
        (q.apply s).sticks.get stick = q.applyStick stick (s.sticks.get stick) := by
      intro q s
      cases stick <;> rfl
    rw [happlied, happlied, applyStick, applyStick, h.analog stick hseen,
      h.sensitivity stick hseen, h.deadzone stick hseen, hs.sticks stick hseen]
  exact { hs with
    sticks := hsticks
    touchEnabled := h.touchEnabled
    combosEnabled := h.combosEnabled
    profile := h.active }

theorem Veiled.reread (h : q.Veiled v q') : (codec.reread q).Veiled v (codec.reread q') := by
  rw [reread_codec, reread_codec, h.active, h.reserved]
  exact { h with
    active := rfl
    sensitivity := h.sensitivity.map _
    reserved := rfl }

end

end QuickWord

namespace ProfileRecord

structure Veiled (v : Veil) (p p' : ProfileRecord) : Prop where
  name : p'.name = p.name
  enabled : p'.enabled = p.enabled
  reserved : p'.reserved = p.reserved
  sticks : p.sticks.Veiled v p'.sticks
  combo : p'.combo = p.combo
  touch : p'.touch = p.touch
  layer : p'.layer = p.layer
  timing : p'.timing = p.timing
  features : p'.features = p.features
  checksum : v.Bare → p'.checksum = p.checksum

theorem veiled_self (p : ProfileRecord) : p.Veiled v p :=
  ⟨rfl, rfl, rfl, p.sticks.veiled_self, rfl, rfl, rfl, rfl, rfl, fun _ => rfl⟩

section

variable {p p' : ProfileRecord} {s s' : DeviceSettings}

theorem Veiled.eq_of_bare (h : p.Veiled v p') (hb : v.Bare) : p' = p := by
  have hsticks := h.sticks.eq_of_bare hb
  have hchecksum := h.checksum hb
  obtain ⟨hname, henabled, hreserved, -, hcombo, htouch, hlayer, htiming, hfeatures, -⟩ := h
  cases p
  cases p'
  simp_all

theorem Veiled.withName (h : p.Veiled v p') (text : String) :
    (p.withName text).Veiled v (p'.withName text) := by
  rw [ProfileRecord.withName, ProfileRecord.withName]
  exact { h with name := rfl }

theorem Veiled.withChecksum (h : p.Veiled v p') {c c' : UInt16} (hc : v.Bare → c' = c) :
    Veiled v { p with checksum := c } { p' with checksum := c' } := { h with checksum := hc }

theorem Veiled.sealed (h : p.Veiled v p') : p.sealed.Veiled v p'.sealed :=
  h.withChecksum fun hb => by rw [h.eq_of_bare hb]

theorem Veiled.capture (h : p.Veiled v p') (hs : s.Veiled v s') :
    (p.capture s).Veiled v (p'.capture s') := by
  have hsticks : PerStick.Veiled v
      ⟨p.sticks.one.capture s.sticks.one, p.sticks.two.capture s.sticks.two⟩
      ⟨p'.sticks.one.capture s'.sticks.one, p'.sticks.two.capture s'.sticks.two⟩ := by
    intro stick hseen
    have hprofile := h.sticks stick hseen
    have hsettings := hs.sticks stick hseen
    cases stick with
    | one => exact congrArg₂ StickProfile.capture hprofile hsettings
    | two => exact congrArg₂ StickProfile.capture hprofile hsettings
  rw [ProfileRecord.capture, ProfileRecord.capture]
  refine Veiled.sealed { h with
    sticks := hsticks
    combo := ?_
    touch := ?_
    layer := ?_
    timing := ?_ }
  · rw [h.combo, hs.combosEnabled]
  · rw [h.touch, hs.touchEnabled]
  · rw [h.layer, hs.defaultLayer]
  · rw [hs.debounceMs, hs.stickPollMs, hs.touchPollMs]

theorem Veiled.apply (h : p.Veiled v p') (hs : s.Veiled v s') :
    (p.apply s).Veiled v (p'.apply s') where
  sticks := h.sticks.map _
  touchEnabled := congrArg TouchProfile.enabled h.touch
  combosEnabled := congrArg ComboProfile.enabled h.combo
  profile := hs.profile
  debug := hs.debug
  debounceMs := congrArg TimingProfile.debounceMs h.timing
  stickPollMs := congrArg TimingProfile.stickPollMs h.timing
  touchPollMs := congrArg TimingProfile.touchPollMs h.timing
  defaultLayer := congrArg LayerProfile.defaultLayer h.layer

theorem Veiled.applyExtended (h : p.Veiled v p') (hs : s.Veiled v s') :
    (p.applyExtended s).Veiled v (p'.applyExtended s') := by
  have hsticks : (p.applyExtended s).sticks.Veiled v (p'.applyExtended s').sticks := by
    intro stick hseen
    have hprofile := h.sticks stick hseen
    have hsettings := hs.sticks stick hseen
    cases stick with
    | one => exact congrArg₂ applyStickExtended hprofile hsettings
    | two => exact congrArg₂ applyStickExtended hprofile hsettings
  exact { hs with
    sticks := hsticks
    debounceMs := congrArg TimingProfile.debounceMs h.timing
    stickPollMs := congrArg TimingProfile.stickPollMs h.timing
    touchPollMs := congrArg TimingProfile.touchPollMs h.timing
    defaultLayer := congrArg LayerProfile.defaultLayer h.layer }

theorem Veiled.reread (h : p.Veiled v p') : (codec.reread p).Veiled v (codec.reread p') := by
  rw [reread_codec, reread_codec, h.reserved, h.combo, h.touch, h.layer, h.features]
  exact { h with
    reserved := rfl
    sticks := h.sticks.map _
    combo := rfl
    touch := rfl
    layer := rfl
    features := rfl }

end

end ProfileRecord

structure Records.Veiled (v : Veil) (r r' : Records) : Prop where
  quick : r.quick.Veiled v r'.quick
  manager : r'.manager = r.manager
  profile (slot : Fin maxProfiles) : (r.profile slot).Veiled v (r'.profile slot)

namespace Records

theorem veiled_self (r : Records) : r.Veiled v r :=
  ⟨r.quick.veiled_self, rfl, fun slot => (r.profile slot).veiled_self⟩

theorem Veiled.eq_of_bare {r r' : Records} (h : r.Veiled v r') (hb : v.Bare) : r' = r := by
  have hquick := h.quick.eq_of_bare hb
  have hmanager := h.manager
  have hprofiles : r'.profiles = r.profiles :=
    Vector.ext fun i hi => (h.profile ⟨i, hi⟩).eq_of_bare hb
  cases r
  cases r'
  simp_all

end Records

namespace Part

/-- The bytes of a part tell the same. -/
def Agree (v : Veil) : Part → List UInt8 → List UInt8 → Prop
  | .quick, bytes, bytes' => (QuickWord.codec.read bytes).Veiled v (QuickWord.codec.read bytes')
  | .manager, bytes, bytes' => bytes' = bytes
  | .profile _, bytes, bytes' =>
    (ProfileRecord.codec.read bytes).Veiled v (ProfileRecord.codec.read bytes') ∧
      (ProfileRecord.codec.read bytes').isIntact = (ProfileRecord.codec.read bytes).isIntact

structure Veiled (v : Veil) (p : Part) (bytes bytes' : List UInt8) : Prop where
  record : p.Agree v bytes bytes'
  length : bytes'.length = bytes.length
  bare : v.Bare → bytes' = bytes

theorem veiled_self (p : Part) (bytes : List UInt8) : p.Veiled v bytes bytes := by
  refine ⟨?_, rfl, fun _ => rfl⟩
  cases p with
  | quick => exact QuickWord.veiled_self _
  | manager => exact rfl
  | profile slot => exact ⟨ProfileRecord.veiled_self _, rfl⟩

end Part

theorem Records.Veiled.image {r r' : Records} (h : r.Veiled v r') (p : Part) (hr : r.Ready [p])
    (hr' : r'.Ready [p]) : p.Veiled v (r.image p) (r'.image p) := by
  have hlength : (r'.image p).length = (r.image p).length := by
    rw [length_image, length_image]
  refine ⟨?_, hlength, fun hb => by rw [h.eq_of_bare hb]⟩
  cases p with
  | quick =>
    rw [Part.Agree, Records.image, Records.image, Codec.read_pack QuickWord.codec_whole,
      Codec.read_pack QuickWord.codec_whole]
    exact h.quick.reread
  | manager =>
    rw [Part.Agree, Records.image, Records.image, h.manager]
  | profile slot =>
    have hintact := hr slot (List.mem_singleton_self _)
    have hintact' := hr' slot (List.mem_singleton_self _)
    rw [Part.Agree, Records.image, Records.image, Codec.read_pack ProfileRecord.codec_whole,
      Codec.read_pack ProfileRecord.codec_whole, ProfileRecord.isIntact_reread,
      ProfileRecord.isIntact_reread, hintact, hintact']
    exact ⟨(h.profile slot).reread, rfl⟩

/-- Events as they are seen through a veil: the same, but for what reports and records have of
the sticks that are hidden. -/
inductive Event.Veiled (v : Veil) : Event → Event → Prop
  | same (e : Event) : Veiled v e e
  | axes {report report' : AxisReport} (h : report.Veiled v report') :
    Veiled v (.host (.axes report)) (.host (.axes report'))
  | write (offset : UInt32) {p : Part} {bytes bytes' : List UInt8} (h : p.Veiled v bytes bytes') :
    Veiled v (.write offset bytes) (.write offset bytes')

theorem Event.Veiled.eq_of_bare {e e' : Event} (h : e.Veiled v e') (hb : v.Bare) : e' = e := by
  cases h with
  | same => rfl
  | axes h => rw [h.eq_of_bare hb]
  | write offset h => rw [h.bare hb]

namespace Flash

/-- Memory behind a veil, with the region at a base. -/
structure Veiled (v : Veil) (base : UInt32) (f f' : Flash) : Prop where
  reads : f'.reads = f.reads
  writes : f'.writes = f.writes
  capacity : f'.capacity = f.capacity
  others : ∀ i, i < base.toNat ∨ base.toNat + regionLength ≤ i → f'.bytes[i]? = f.bytes[i]?
  part (p : Part) : p.Veiled v (f.slice (base.toNat + p.offset) p.length)
    (f'.slice (base.toNat + p.offset) p.length)
  bare : v.Bare → f' = f

variable {base : UInt32} {f f' : Flash}

theorem veiled_self (f : Flash) : f.Veiled v base f :=
  ⟨rfl, rfl, rfl, fun _ _ => rfl, fun p => p.veiled_self _, fun _ => rfl⟩

theorem Veiled.askReads (h : f.Veiled v base f') (reads : Gate) :
    Flash.Veiled v base { f with reads } { f' with reads } :=
  { h with reads := rfl, bare := fun hb => by rw [h.bare hb] }

theorem Veiled.askWrites (h : f.Veiled v base f') (writes : Gate) :
    Flash.Veiled v base { f with writes } { f' with writes } :=
  { h with writes := rfl, bare := fun hb => by rw [h.bare hb] }

theorem Veiled.overwrite (h : f.Veiled v base f') {p : Part} {bytes bytes' : List UInt8}
    (hp : p.Veiled v bytes bytes') (hl : bytes.length = p.length)
    (hroom : base.toNat + p.offset + bytes.length ≤ f.capacity) :
    (f.overwrite (base.toNat + p.offset) bytes).Veiled v base
      (f'.overwrite (base.toNat + p.offset) bytes') := by
  have hl' : bytes'.length = p.length := hp.length.trans hl
  have hroom' : base.toNat + p.offset + bytes'.length ≤ f'.capacity := by
    rwa [hp.length, h.capacity]
  have hend := p.offset_add_length_le
  refine ⟨h.reads, h.writes, ?_, fun i hi => ?_, fun q => ?_, fun hb => ?_⟩
  · rw [capacity_overwrite hroom, capacity_overwrite hroom', h.capacity]
  · rw [getElem?_overwrite hroom (by omega), getElem?_overwrite hroom' (by omega)]
    exact h.others i hi
  · by_cases hq : q = p
    · subst hq
      have hself := slice_overwrite_self hroom
      have hself' := slice_overwrite_self hroom'
      rw [hl] at hself
      rw [hl'] at hself'
      rw [hself, hself']
      exact hp
    · have hapart := Part.disjoint_of_ne hq
      rw [slice_overwrite_of_disjoint hroom (by omega),
        slice_overwrite_of_disjoint hroom' (by omega)]
      exact h.part q
  · rw [h.bare hb, hp.bare hb]

variable {offset : UInt32} {p : Part}

theorem paired_read_part (ho : offset.toNat = base.toNat + p.offset) :
    Paired (Event.Veiled v) (Veiled v base)
      (Alike fun bytes bytes' => bytes.length = p.length ∧ p.Veiled v bytes bytes')
      (read offset p.length) (read offset p.length) := by
  refine paired_read (fun _ _ h => ⟨h.capacity, h.reads⟩) (fun _ _ reads h => h.askReads reads)
    fun f f' h hroom => ?_
  rw [ho] at hroom ⊢
  have hlength : (f.slice (base.toNat + p.offset) p.length).length = p.length := by
    rw [capacity] at hroom
    rw [slice, List.length_take, List.length_drop]
    omega
  exact ⟨hlength, h.part p⟩

theorem paired_write_part (ho : offset.toNat = base.toNat + p.offset) {bytes bytes' : List UInt8}
    (hp : p.Veiled v bytes bytes') (hl : bytes.length = p.length) :
    Paired (Event.Veiled v) (Veiled v base) Eq (write offset bytes) (write offset bytes') := by
  refine paired_write .same hp.length (.write offset hp) (fun _ _ h => ⟨h.capacity, h.writes⟩)
    (fun _ _ writes h => h.askWrites writes) fun f f' h hroom => ?_
  rw [ho] at hroom ⊢
  exact h.overwrite hp hl hroom

end Flash

end TwinStick
