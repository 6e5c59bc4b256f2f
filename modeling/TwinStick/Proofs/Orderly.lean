import TwinStick.Proofs.Attempts

/-! Orderly writing. Every write of the store puts one whole record in its place, and
one that boot accepts. Flash is then what it was before with these writes carried
out, so that a region from which the device can boot stays one at every write, and
not only at the end of an operation. -/

namespace TwinStick

theorem Codec.pack_reread {c : Codec α} (hl : c.Lawful) (a : α) :
    c.pack (c.reread a) = c.pack a := by
  rw [pack, reread, hl, pack]

/-- Bits that a layout has no room for are not covered by the checksum either. -/
theorem ManagerRecord.isIntact_reread (m : ManagerRecord) :
    (codec.reread m).isIntact = m.isIntact := by
  have hb : (codec.reread m).bodyChecksum = m.bodyChecksum := by
    rw [bodyChecksum, Codec.pack_reread codec_lawful, bodyChecksum]
  have hc : (codec.reread m).checksum = m.checksum := by rw [reread_codec]
  rw [isIntact, isIntact, hb, hc]

theorem ManagerRecord.isValid_reread (m : ManagerRecord) :
    (codec.reread m).isValid = m.isValid := by
  rw [isValid, isIntact_reread, reread_codec, isValid]

theorem ProfileRecord.isIntact_reread (p : ProfileRecord) :
    (codec.reread p).isIntact = p.isIntact := by
  have hb : (codec.reread p).bodyChecksum = p.bodyChecksum := by
    rw [bodyChecksum, Codec.pack_reread codec_lawful, bodyChecksum]
  have hc : (codec.reread p).checksum = p.checksum := by rw [reread_codec]
  rw [isIntact, isIntact, hb, hc]

/-- Bytes that boot takes over as this record. -/
structure Part.Accepts (p : Part) (bytes : List UInt8) : Prop where
  length : bytes.length = p.length
  manager : p = .manager → (ManagerRecord.codec.read bytes).isValid = true
  profile : ∀ slot, p = .profile slot → (ProfileRecord.codec.read bytes).isIntact = true

namespace Records

/-- The copy of the manager record names a slot and has the current layout. It may
still have to be sealed. -/
structure Aimed (r : Records) : Prop where
  active_lt : r.manager.active.toNat < maxProfiles
  version : r.manager.version = layoutVersion

theorem accepts_quick (r : Records) : Part.quick.Accepts (r.image .quick) :=
  ⟨length_image r .quick, by simp, by simp⟩

theorem accepts_manager {r : Records} (h : r.manager.isValid = true) :
    Part.manager.Accepts (r.image .manager) := by
  refine ⟨length_image r .manager, fun _ => ?_, by simp⟩
  rw [image, Codec.read_pack ManagerRecord.codec_whole, ManagerRecord.isValid_reread]
  exact h

theorem accepts_profile {r : Records} {slot : Fin maxProfiles}
    (h : (r.profile slot).isIntact = true) :
    (Part.profile slot).Accepts (r.image (.profile slot)) := by
  refine ⟨length_image r (.profile slot), by simp, fun _ _ => ?_⟩
  rw [image, Codec.read_pack ProfileRecord.codec_whole, ProfileRecord.isIntact_reread]
  exact h

theorem accepts_all {r : Records} (hm : r.manager.isValid = true)
    (hp : ∀ slot, (r.profile slot).isIntact = true) (p : Part) : p.Accepts (r.image p) := by
  cases p with
  | quick => exact accepts_quick r
  | manager => exact accepts_manager hm
  | profile slot => exact accepts_profile (hp slot)

theorem Aimed.exists_activeSlot {r : Records} (h : r.Aimed) : ∃ slot, r.activeSlot = .ok slot :=
  ⟨_, activeSlot_of_lt h.active_lt⟩

theorem aimed_default : default.Aimed := ⟨Nat.zero_lt_succ 3, rfl⟩

theorem aimed_of_isValid {r : Records} (h : r.manager.isValid = true) : r.Aimed :=
  ⟨((ManagerRecord.isValid_iff _).mp h).1, ((ManagerRecord.isValid_iff _).mp h).2.1⟩

theorem Aimed.booted {r : Records} (h : r.Aimed) (live : DeviceSettings) :
    (r.booted live).Aimed :=
  ⟨active_booted_lt h.active_lt live, (version_booted r live).trans h.version⟩

theorem Aimed.isValid_sealed {r : Records} (h : r.Aimed) {f : ManagerRecord → ManagerRecord}
    (hf : ∀ m, (f m).active = m.active ∧ (f m).version = m.version) :
    (r.modifyManager f).manager.isValid = true := by
  obtain ⟨ha, hv⟩ := hf r.manager
  refine ManagerRecord.isValid_sealed ?_ ?_
  · rw [ha]
    exact h.active_lt
  · rw [hv]
    exact h.version

end Records

namespace Records

/-- Records in which the manager record is aimed, and of which some are accepted at
boot. -/
structure Accepted (r : Records) (parts : List Part) : Prop where
  aimed : r.Aimed
  accepts : ∀ p ∈ parts, p.Accepts (r.image p)

section

variable {r : Records} {slot : Fin maxProfiles} {live : DeviceSettings}

theorem Aimed.accepted_withProfile (hr : r.Aimed) {q : ProfileRecord} (hq : q.isIntact = true) :
    (r.withProfile slot q).Accepted [.profile slot] := by
  have hi : ((r.withProfile slot q).profile slot).isIntact = true := by
    rw [profile_withProfile_self]
    exact hq
  refine ⟨⟨hr.active_lt, hr.version⟩, fun p hp => ?_⟩
  obtain rfl := List.mem_singleton.mp hp
  exact accepts_profile hi

theorem Aimed.accepted_modifyManager (hr : r.Aimed) {f : ManagerRecord → ManagerRecord}
    (hf : ∀ m, (f m).active = m.active ∧ (f m).version = m.version) :
    (r.modifyManager f).Accepted [.manager] := by
  have hv := hr.isValid_sealed hf
  refine ⟨aimed_of_isValid hv, fun p hp => ?_⟩
  obtain rfl := List.mem_singleton.mp hp
  exact accepts_manager hv

theorem Aimed.accepted_saved (hr : r.Aimed) (now : UInt32) :
    (r.saved slot live now).Accepted [.quick, .manager, .profile slot] := by
  have hv : (r.saved slot live now).manager.isValid = true :=
    hr.isValid_sealed (f := ({ · with lastSave := now })) fun _ => ⟨rfl, rfl⟩
  have hi : ((r.saved slot live now).profile slot).isIntact = true := by
    rw [profile_saved_self]
    exact ProfileRecord.isIntact_sealed _
  refine ⟨aimed_of_isValid hv, ?_⟩
  simp only [List.forall_mem_cons]
  exact ⟨accepts_quick _, accepts_manager hv, accepts_profile hi,
    fun _ h => absurd h List.not_mem_nil⟩

theorem Aimed.accepted_switched (hr : r.Aimed) {id : UInt8} (hid : slot? id = some slot) :
    (r.switched id live).Accepted [.quick, .manager] := by
  have hlt : id.toNat < maxProfiles := toNat_of_slot? hid ▸ slot.isLt
  have hv : (r.switched id live).manager.isValid = true :=
    ManagerRecord.isValid_sealed hlt hr.version
  refine ⟨aimed_of_isValid hv, ?_⟩
  simp only [List.forall_mem_cons]
  exact ⟨accepts_quick _, accepts_manager hv, fun _ h => absurd h List.not_mem_nil⟩

theorem Aimed.accepted_reset (hr : r.Aimed) :
    (r.reset slot live).Accepted [.profile slot, .quick] := by
  have hi : ((r.reset slot live).profile slot).isIntact = true := by
    rw [profile_reset_self]
    exact ProfileRecord.isIntact_template slot
  refine ⟨⟨hr.active_lt, hr.version⟩, ?_⟩
  simp only [List.forall_mem_cons]
  exact ⟨accepts_profile hi, accepts_quick _, fun _ h => absurd h List.not_mem_nil⟩

theorem accepted_builtIn (now : UInt32) : (builtIn now).Accepted Part.all := by
  have hs := sound_builtIn now
  exact ⟨aimed_of_isValid hs.manager, fun p _ => accepts_all hs.manager hs.intact p⟩

theorem Aimed.accepted_allSealed (hr : r.Aimed) : r.allSealed.Accepted Part.all := by
  have hv : r.allSealed.manager.isValid = true :=
    hr.isValid_sealed (f := id) fun _ => ⟨rfl, rfl⟩
  have hi : ∀ slot, (r.allSealed.profile slot).isIntact = true := by
    intro slot
    rw [profile_allSealed]
    exact ProfileRecord.isIntact_sealed _
  exact ⟨aimed_of_isValid hv, fun p _ => accepts_all hv hi p⟩

end

end Records

theorem Attempt.Shape.accepted {a : Attempt} {r : Records} {active : Fin maxProfiles}
    {live : DeviceSettings} (h : a.Shape r active live) (hr : r.Aimed) :
    a.records.Accepted a.parts := by
  cases h with
  | profile slot q hq => exact hr.accepted_withProfile hq
  | manager f hf => exact hr.accepted_modifyManager hf
  | save now => exact hr.accepted_saved now
  | reset => exact hr.accepted_reset
  | replace now => exact Records.accepted_builtIn now
  | all => exact hr.accepted_allSealed

namespace Flash

/-- Carries out what an event did to flash. -/
def apply (f : Flash) : Event → Flash
  | .write offset bytes => f.overwrite offset.toNat bytes
  | _ => f

def replay (f : Flash) (events : List Event) : Flash := events.foldl apply f

theorem replay_cons (f : Flash) (e : Event) (events : List Event) :
    f.replay (e :: events) = (f.apply e).replay events := rfl

theorem replay_append (f : Flash) (before after : List Event) :
    f.replay (before ++ after) = (f.replay before).replay after :=
  List.foldl_append

theorem bytes_replay_congr {f g : Flash} (h : f.bytes = g.bytes) (events : List Event) :
    (f.replay events).bytes = (g.replay events).bytes := by
  induction events generalizing f g with
  | nil => exact h
  | cons e events ih =>
    refine ih ?_
    cases e <;> simp [apply, overwrite, h]

end Flash

/-- A write, if the event is one, of a whole record that boot accepts, where such
records lie and where there is room. -/
def Event.InPlace (base room : Nat) : Event → Prop
  | .write offset bytes => ∃ p : Part,
      offset.toNat = base + p.offset ∧ p.Accepts bytes ∧ offset.toNat + bytes.length ≤ room
  | _ => True

theorem Flash.capacity_apply {f : Flash} {base : Nat} {e : Event}
    (h : e.InPlace base f.capacity) : (f.apply e).capacity = f.capacity := by
  cases e with
  | write offset bytes =>
    obtain ⟨p, -, -, hroom⟩ := h
    exact Flash.capacity_overwrite hroom
  | _ => rfl

theorem Flash.capacity_replay {f : Flash} {base : Nat} {events : List Event}
    (h : ∀ e ∈ events, e.InPlace base f.capacity) : (f.replay events).capacity = f.capacity := by
  induction events generalizing f with
  | nil => rfl
  | cons e events ih =>
    have hc := capacity_apply (h e List.mem_cons_self)
    have hrest : ∀ e' ∈ events, e'.InPlace base (f.apply e).capacity := by
      intro e' he
      rw [hc]
      exact h e' (List.mem_cons_of_mem e he)
    rw [replay_cons, ih hrest, hc]

/-- No byte outside the region is written. -/
theorem Flash.getElem?_replay {f : Flash} {base i : Nat} {events : List Event}
    (h : ∀ e ∈ events, e.InPlace base f.capacity) (hi : i < base ∨ base + regionLength ≤ i) :
    (f.replay events).bytes[i]? = f.bytes[i]? := by
  induction events generalizing f with
  | nil => rfl
  | cons e events ih =>
    have hhead := h e List.mem_cons_self
    have hrest : ∀ e' ∈ events, e'.InPlace base (f.apply e).capacity := by
      intro e' he
      rw [capacity_apply hhead]
      exact h e' (List.mem_cons_of_mem e he)
    have happly : (f.apply e).bytes[i]? = f.bytes[i]? := by
      cases e with
      | write offset bytes =>
        obtain ⟨p, ho, hp, hroom⟩ := hhead
        have hend := p.offset_add_length_le
        have hl := hp.length
        exact getElem?_overwrite hroom (by omega)
      | _ => rfl
    rw [replay_cons, ih hrest, happly]

namespace Store

/-- What an operation did to flash is carried out by its events, each of which is in
place. It did not move the region. -/
structure Orderly (s : Store) (d : Outcome Store α) : Prop where
  base : d.state.base = s.base
  bytes : d.state.flash.bytes = (s.flash.replay d.events).bytes
  inPlace : ∀ e ∈ d.events, e.InPlace s.base.toNat s.flash.capacity
  reads : s.flash.reads.Free → d.state.flash.reads.Free
  writes : s.flash.writes.Free → d.state.flash.writes.Free

theorem Orderly.capacity {s : Store} {d : Outcome Store α} (h : Orderly s d) :
    d.state.flash.capacity = s.flash.capacity := by
  have hc := Flash.capacity_replay h.inPlace
  rw [Flash.capacity] at hc ⊢
  rw [h.bytes, hc]

theorem Orderly.placed {s : Store} {d : Outcome Store α} (h : Orderly s d) (hs : s.Placed) :
    d.state.Placed := hs.congr h.base h.capacity

theorem Orderly.outside {s : Store} {d : Outcome Store α} (h : Orderly s d) {i : Nat}
    (hi : i < s.base.toNat ∨ s.base.toNat + regionLength ≤ i) :
    d.state.flash.bytes[i]? = s.flash.bytes[i]? := by
  rw [h.bytes]
  exact Flash.getElem?_replay h.inPlace hi

theorem Orderly.of_silent {s : Store} {d : Outcome Store α} (hb : d.state.base = s.base)
    (hf : d.state.flash = s.flash) (he : d.events = []) : Orderly s d := by
  refine ⟨hb, ?_, ?_, ?_, ?_⟩
  · rw [hf, he]
    rfl
  · simp [he]
  · rw [hf]
    exact id
  · rw [hf]
    exact id

theorem Orderly.trans {s : Store} {d : Outcome Store α} {e : Outcome Store β} (h : Orderly s d)
    (h' : Orderly d.state e) : Orderly s ⟨e.value, e.state, d.events ++ e.events⟩ := by
  refine ⟨h'.base.trans h.base, ?_, ?_, fun hr => h'.reads (h.reads hr),
    fun hw => h'.writes (h.writes hw)⟩
  · rw [Flash.replay_append, h'.bytes]
    exact Flash.bytes_replay_congr h.bytes e.events
  · intro event hm
    rcases List.mem_append.mp hm with hm | hm
    · exact h.inPlace event hm
    · have hp := h'.inPlace event hm
      rw [h.base, h.capacity] at hp
      exact hp

theorem Orderly.addressed {s : Store} {d : Outcome Store α} (h : Orderly s d)
    (hs : s.Addressed) : d.state.Addressed := hs.congr h.base

/-- The routine writes in an orderly way and ends in this; and it ends, if every record
has an address. -/
structure Conforms (r : Routine Store α) (s : Store) (Q : α → Store → Prop) : Prop where
  ends : s.Addressed → ∃ d, r.run s = .ok d
  orderly : ∀ d, r.run s = .ok d → Orderly s d
  post : ∀ d, r.run s = .ok d → Q d.value d.state

section Rules

variable {r : Routine Store α} {f : α → Routine Store β} {s : Store} {P : α → Store → Prop}
  {Q : β → Store → Prop}

theorem Conforms.total (hr : Conforms r s P) (hs : s.Placed) : ∃ d, r.run s = .ok d :=
  hr.ends hs.addressed

theorem Conforms.of_run {d : Outcome Store α} (h : r.run s = .ok d) (ho : Orderly s d)
    (hP : P d.value d.state) : Conforms r s P := by
  refine ⟨fun _ => ⟨d, h⟩, fun e he => ?_, fun e he => ?_⟩
  · obtain rfl := Except.ok.inj (h.symm.trans he)
    exact ho
  · obtain rfl := Except.ok.inj (h.symm.trans he)
    exact hP

theorem Conforms.of_eq {r' : Routine Store α} (h : r.run s = r'.run s) (hr : Conforms r' s P) :
    Conforms r s P := by
  refine ⟨fun hs => ?_, fun d hd => hr.orderly d (h ▸ hd), fun d hd => hr.post d (h ▸ hd)⟩
  rw [h]
  exact hr.ends hs

theorem Conforms.bind (hr : Conforms r s P) (hf : ∀ a t, P a t → Conforms (f a) t Q) :
    Conforms (r >>= f) s Q := by
  refine ⟨fun hs => ?_, fun d hd => ?_, fun d hd => ?_⟩
  · obtain ⟨d, hd⟩ := hr.ends hs
    have hp := (hr.orderly d hd).addressed hs
    obtain ⟨e, he⟩ := (hf d.value d.state (hr.post d hd)).ends hp
    exact ⟨_, Routine.run_bind_eq_ok.mpr ⟨d, e, hd, he, rfl⟩⟩
  · obtain ⟨d₁, d₂, h₁, h₂, rfl⟩ := Routine.run_bind_eq_ok.mp hd
    exact (hr.orderly d₁ h₁).trans ((hf d₁.value d₁.state (hr.post d₁ h₁)).orderly d₂ h₂)
  · obtain ⟨d₁, d₂, h₁, h₂, rfl⟩ := Routine.run_bind_eq_ok.mp hd
    exact (hf d₁.value d₁.state (hr.post d₁ h₁)).post d₂ h₂

theorem Conforms.mono {P' : α → Store → Prop} (hr : Conforms r s P)
    (h : ∀ a t, P a t → P' a t) : Conforms r s P' :=
  ⟨hr.ends, hr.orderly, fun d hd => h _ _ (hr.post d hd)⟩

theorem Conforms.of_pure {a : α} (h : P a s) : Conforms (pure a) s P :=
  .of_run (Routine.run_pure a s) (.of_silent rfl rfl rfl) h

theorem Conforms.get_bind {f : Store → Routine Store β} (h : Conforms (f s) s Q) :
    Conforms (get >>= f) s Q :=
  .of_eq (Routine.run_bind_of_silent (Routine.run_get s) f) h

theorem Conforms.modifyRecords_bind {g : Records → Records} {f : Unit → Routine Store β}
    (h : Conforms (f ()) { s with records := g s.records } Q) :
    Conforms (modifyRecords g >>= f) s Q := by
  have hg : Conforms (modifyRecords g) s fun _ t => t = { s with records := g s.records } :=
    .of_run (run_modifyRecords g s) (.of_silent rfl rfl rfl) rfl
  refine hg.bind fun _ t ht => ?_
  rw [ht]
  exact h

theorem Conforms.of_map {r' : Routine Store β} {g : β → α} {k : β → Store → Store}
    {t : Store} (hb : t.base = s.base) (hf : t.flash = s.flash)
    (hk : ∀ b u, (k b u).flash = u.flash ∧ (k b u).base = u.base)
    (h : r.run s = (r'.run t).map fun d => ⟨g d.value, k d.value d.state, d.events⟩)
    (hr : Conforms r' t fun b u => P (g b) (k b u)) : Conforms r s P := by
  have hdone : ∀ d, r.run s = .ok d → ∃ e, r'.run t = .ok e ∧
      d = ⟨g e.value, k e.value e.state, e.events⟩ := by
    intro d hd
    rw [h] at hd
    cases he : r'.run t with
    | error fault =>
      rw [he] at hd
      exact nomatch hd
    | ok e =>
      rw [he] at hd
      exact ⟨e, rfl, (Except.ok.inj hd).symm⟩
  refine ⟨fun hs => ?_, fun d hd => ?_, fun d hd => ?_⟩
  · obtain ⟨e, he⟩ := hr.ends (hs.congr hb)
    rw [h, he]
    exact ⟨_, rfl⟩
  · obtain ⟨e, he, rfl⟩ := hdone d hd
    have ho := hr.orderly e he
    obtain ⟨hflash, hbase⟩ := hk e.value e.state
    have hbytes := ho.bytes
    have hplace := ho.inPlace
    have hreads := ho.reads
    have hwrites := ho.writes
    rw [hf] at hbytes hplace hreads hwrites
    rw [hb] at hplace
    refine ⟨hbase.trans (ho.base.trans hb), ?_, hplace, ?_, ?_⟩
    · exact (congrArg Flash.bytes hflash).trans hbytes
    · intro hr
      exact hflash ▸ hreads hr
    · intro hw
      exact hflash ▸ hwrites hw
  · obtain ⟨e, he, rfl⟩ := hdone d hd
    exact hr.post e he

end Rules

end Store

namespace Flash

theorem run_read_always (f : Flash) (offset : UInt32) (length : Nat) :
    ∃ d, (Flash.read offset length).run f = .ok d ∧ d.events = [] ∧
      d.state = { f with reads := d.state.reads } ∧ (f.reads.Free → d.state.reads.Free) := by
  by_cases h : offset.toNat + length ≤ f.capacity
  · exact ⟨_, run_read h, rfl, rfl, fun hr => hr.ask⟩
  · refine ⟨⟨.error .outOfBounds, f, []⟩, ?_, rfl, rfl, id⟩
    rw [Flash.read, Routine.run_bind, Routine.run_get]
    have hlt : f.capacity < offset.toNat + length := by omega
    simp [Except.bind, hlt, Except.map]

theorem run_write_always (f : Flash) (offset : UInt32) (bytes : List UInt8) :
    ∃ d, (Flash.write offset bytes).run f = .ok d ∧ d.state.reads = f.reads ∧
      (f.writes.Free → d.state.writes.Free) ∧
      (d.events = [.write offset bytes] ∧ offset.toNat + bytes.length ≤ f.capacity ∧
          d.state.bytes = (f.overwrite offset.toNat bytes).bytes ∨
        d.events = [.writeFailed offset bytes.length] ∧ d.state.bytes = f.bytes) := by
  by_cases h : offset.toNat + bytes.length ≤ f.capacity
  · have hrun := run_write h
    cases hg : f.writes.ask.1 with
    | true =>
      rw [hg, if_pos rfl] at hrun
      exact ⟨_, hrun, rfl, fun hw => hw.ask, .inl ⟨rfl, h, rfl⟩⟩
    | false =>
      rw [hg, if_neg Bool.false_ne_true] at hrun
      exact ⟨_, hrun, rfl, fun hw => hw.ask, .inr ⟨rfl, rfl⟩⟩
  · refine ⟨⟨.error .outOfBounds, f, [.writeFailed offset bytes.length]⟩, ?_, rfl, id,
      .inr ⟨rfl, rfl⟩⟩
    rw [Flash.write, Routine.run_bind, Routine.run_get]
    have hlt : f.capacity < offset.toNat + bytes.length := by omega
    simp only [Except.bind, hlt, if_true, Except.map]
    rfl

end Flash

namespace Store

section

variable {s : Store} {p : Part}

theorem conforms_address {r : UInt32 → Routine Store α} {P : α → Store → Prop}
    (h : ∀ a, a.toNat = s.base.toNat + p.offset → Conforms (r a) s P) :
    Conforms (liftM (s.address p) >>= r) s P := by
  cases ha : s.address p with
  | ok a =>
    exact .of_eq (Routine.run_bind_of_silent (Routine.run_liftM_of_ok rfl s) r)
      (h a (toNat_address ha))
  | error fault =>
    have hfault : ((liftM (Except.error fault : Except Fault UInt32) : Routine Store UInt32) >>=
        r).run s = .error fault := rfl
    refine ⟨fun hs => ?_, fun d hd => ?_, fun d hd => ?_⟩
    · obtain ⟨a, hok, -⟩ := hs.address p
      exact nomatch ha.symm.trans hok
    · exact nomatch hfault.symm.trans hd
    · exact nomatch hfault.symm.trans hd

theorem conforms_fetch (codec : Codec α) :
    Conforms (fetch p codec) s fun _ t => t.records = s.records := by
  refine .get_bind (conforms_address fun a _ => ?_)
  obtain ⟨d, hd, he, hstate, hr⟩ := Flash.run_read_always s.flash a codec.size
  have hrun : (onFlash (Flash.read a codec.size)).run s =
      .ok ⟨d.value, { s with flash := d.state }, d.events⟩ := by rw [run_onFlash, hd]; rfl
  refine .bind (.of_run (P := fun _ t => t.records = s.records) hrun ?_ rfl) fun result t ht => ?_
  · refine ⟨rfl, ?_, by simp [he], hr, ?_⟩
    · have hb : d.state.bytes = s.flash.bytes := by rw [hstate]
      rw [he]
      exact hb
    · intro hw
      change d.state.writes.Free
      rw [hstate]
      exact hw
  · cases result <;> exact .of_pure ht

theorem conforms_persist (h : p.Accepts (s.records.image p)) :
    Conforms (persist p) s fun _ t => t.records = s.records := by
  refine .get_bind (conforms_address fun a ha => ?_)
  obtain ⟨d, hd, hr, hw, hcases⟩ := Flash.run_write_always s.flash a (s.records.image p)
  have hrun : (onFlash (Flash.write a (s.records.image p))).run s =
      .ok ⟨d.value, { s with flash := d.state }, d.events⟩ := by rw [run_onFlash, hd]; rfl
  refine .bind (.of_run (P := fun _ t => t.records = s.records) hrun ?_ rfl) fun result t ht =>
    .of_pure ht
  have hreads : s.flash.reads.Free → d.state.reads.Free := fun hf => hr ▸ hf
  rcases hcases with ⟨he, hroom, hbytes⟩ | ⟨he, hbytes⟩
  · refine ⟨rfl, ?_, ?_, hreads, hw⟩
    · rw [he]
      exact hbytes
    · intro e hm
      rw [he] at hm
      obtain rfl := List.mem_singleton.mp hm
      exact ⟨p, ha, h, hroom⟩
  · refine ⟨rfl, ?_, ?_, hreads, hw⟩
    · rw [he]
      exact hbytes
    · intro e hm
      rw [he] at hm
      obtain rfl := List.mem_singleton.mp hm
      trivial

end

theorem conforms_commit {s : Store} {parts : List Part}
    (h : ∀ p ∈ parts, p.Accepts (s.records.image p)) :
    Conforms (commit parts) s fun _ t => t.records = s.records := by
  induction parts generalizing s with
  | nil => exact .of_pure rfl
  | cons p rest ih =>
    refine .bind (conforms_persist (h p List.mem_cons_self)) fun result t ht => ?_
    cases result with
    | error e => exact .of_pure ht
    | ok u =>
      have hrest : ∀ q ∈ rest, q.Accepts (t.records.image q) := by
        intro q hq
        rw [ht]
        exact h q (List.mem_cons_of_mem p hq)
      exact (ih hrest).mono fun _ _ hu => hu.trans ht

end Store

end TwinStick
