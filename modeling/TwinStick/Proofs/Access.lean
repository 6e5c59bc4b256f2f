import TwinStick.Proofs.Region

/-! Reading and writing records. A store whose region has its place never stops at
a fault; what it leaves in flash depends only on which writes are granted. -/

namespace TwinStick

theorem exists_of_bind_eq_ok {x : Except ε α} {f : α → Except ε β} {b : β}
    (h : x >>= f = .ok b) : ∃ a, x = .ok a ∧ f a = .ok b := by
  cases x with
  | error e => exact nomatch h
  | ok a => exact ⟨a, rfl, h⟩

theorem eq_ok_of_toOption {x : Except ε α} {a : α} (h : x.toOption = some a) : x = .ok a := by
  cases x with
  | error e => exact nomatch h
  | ok b => exact congrArg Except.ok (Option.some.inj h)

theorem exists_of_map_eq_ok {x : Except ε α} {f : α → β} {b : β} (h : x.map f = .ok b) :
    ∃ a, x = .ok a ∧ f a = b := by
  cases x with
  | error e => exact nomatch h
  | ok a => exact ⟨a, rfl, Except.ok.inj h⟩

theorem Routine.run_liftM (x : Except Fault α) (s : σ) :
    (liftM x : Routine σ α).run s = x.map fun a => ⟨a, s, []⟩ := rfl

theorem Routine.run_liftM_of_ok {x : Except Fault α} {a : α} (h : x = .ok a) (s : σ) :
    (liftM x : Routine σ α).run s = .ok ⟨a, s, []⟩ := by
  rw [run_liftM, h]
  rfl

theorem Routine.run_bind_of_ok {r : Routine σ α} {s : σ} {d : Outcome σ α} (h : r.run s = .ok d)
    (f : α → Routine σ β) :
    (r >>= f).run s = ((f d.value).run d.state).map fun e =>
      ⟨e.value, e.state, d.events ++ e.events⟩ := by
  rw [run_bind, h]
  rfl

theorem Routine.run_bind_of_silent {r : Routine σ α} {s t : σ} {a : α}
    (h : r.run s = .ok ⟨a, t, []⟩) (f : α → Routine σ β) : (r >>= f).run s = (f a).run t := by
  rw [run_bind, h]
  cases hf : (f a).run t with
  | error e => simp [Except.bind, Except.map, hf]
  | ok d => simp [Except.bind, Except.map, hf]

theorem Routine.run_bind_pure (r : Routine σ α) (f : α → β) (s : σ) :
    (r >>= fun a => pure (f a)).run s =
      (r.run s).map fun d => ⟨f d.value, d.state, d.events⟩ := by
  rw [run_bind]
  cases r.run s with
  | error e => rfl
  | ok d => simp [Except.bind, Except.map]

theorem Routine.run_bind_silent {f : α → Routine σ β} {value : α → σ → β} {state : α → σ → σ}
    (h : ∀ a t, (f a).run t = .ok ⟨value a t, state a t, []⟩) (r : Routine σ α) (s : σ) :
    (r >>= f).run s = (r.run s).map fun d =>
      ⟨value d.value d.state, state d.value d.state, d.events⟩ := by
  rw [run_bind]
  cases r.run s with
  | error e => rfl
  | ok d => simp [Except.bind, Except.map, h]

theorem Routine.run_bind_pure_of_map {r : Routine σ α} {s : σ} {x : Except Fault γ}
    {g : γ → Outcome σ α} (h : r.run s = x.map g) (f : α → β) :
    (r >>= fun a => pure (f a)).run s =
      x.map fun c => ⟨f (g c).value, (g c).state, (g c).events⟩ := by
  rw [run_bind_pure, h]
  cases x <;> rfl

theorem Routine.run_bind_pure_of_ok {r : Routine σ α} {s : σ} {d : Outcome σ α}
    (h : r.run s = .ok d) (f : α → β) :
    (r >>= fun a => pure (f a)).run s = .ok ⟨f d.value, d.state, d.events⟩ := by
  rw [run_bind_pure, h]
  rfl

namespace Flash

theorem run_read {f : Flash} {offset : UInt32} {length : Nat}
    (h : offset.toNat + length ≤ f.capacity) :
    (Flash.read offset length).run f =
      .ok ⟨if f.reads.ask.1 then .ok (f.slice offset.toNat length) else .error .outOfBounds,
        { f with reads := f.reads.ask.2 }, []⟩ := by
  rw [Flash.read, Routine.run_bind, Routine.run_get]
  simp only [Except.bind, Nat.not_lt.mpr h, if_false, Routine.run_bind, Routine.run_set, Except.map,
    Routine.run_pure, List.append_nil]

theorem run_write {f : Flash} {offset : UInt32} {bytes : List UInt8}
    (h : offset.toNat + bytes.length ≤ f.capacity) :
    (Flash.write offset bytes).run f =
      if f.writes.ask.1 then
        .ok ⟨.ok (), { f.overwrite offset.toNat bytes with writes := f.writes.ask.2 },
          [.write offset bytes]⟩
      else .ok ⟨.error .outOfBounds, { f with writes := f.writes.ask.2 },
        [.writeFailed offset bytes.length]⟩ := by
  rw [Flash.write, Routine.run_bind, Routine.run_get]
  simp only [Except.bind, Nat.not_lt.mpr h, if_false, Routine.run_bind, Routine.run_set, Except.map]
  cases hg : f.writes.ask.1 with
  | false =>
    simp only [Bool.false_eq_true, if_false, Routine.run_bind, Routine.run_emit, Routine.run_pure,
      Except.bind, Except.map, List.nil_append, List.append_nil]
  | true =>
    simp only [if_true, Routine.run_bind, Routine.run_set, Routine.run_emit, Routine.run_pure,
      Except.bind, Except.map, List.nil_append, List.append_nil, Flash.overwrite]

end Flash

namespace Store

theorem run_onFlash (r : Routine Flash α) (s : Store) :
    (onFlash r).run s =
      (r.run s.flash).map fun d => ⟨d.value, { s with flash := d.state }, d.events⟩ := rfl

def withReads (s : Store) (reads : Gate) : Store := { s with flash := { s.flash with reads } }

@[simp] theorem region_withReads (s : Store) (g : Gate) : (s.withReads g).region = s.region := rfl

theorem run_fetch_gated {s : Store} (h : s.Placed) (p : Part) (codec : Codec α)
    (hl : codec.size = p.length) :
    (fetch p codec).run s =
      .ok ⟨if s.flash.reads.ask.1 then .ok (codec.read (s.stored p))
          else .error (.storage .outOfBounds),
        s.withReads s.flash.reads.ask.2, []⟩ := by
  obtain ⟨a, ha, hn⟩ := h.address p
  have he := h.end_le p
  have hroom : a.toNat + codec.size ≤ s.flash.capacity := by omega
  have hbytes : s.flash.slice a.toNat codec.size = s.stored p := by rw [hn, hl, stored]
  rw [fetch, Routine.run_bind, Routine.run_get]
  simp only [Except.bind, Routine.run_bind, Routine.run_liftM, ha, Except.map, run_onFlash,
    Flash.run_read hroom, hbytes]
  cases s.flash.reads.ask.1 with
  | false => rfl
  | true =>
    simp only [if_true, Routine.run_pure,
      Codec.unpack_eq ((h.length_stored p).trans hl.symm)]
    rfl

theorem run_fetch {s : Store} (h : s.Placed) (hr : s.flash.reads.Free) (p : Part)
    (codec : Codec α) (hl : codec.size = p.length) :
    (fetch p codec).run s =
      .ok ⟨.ok (codec.read (s.stored p)), s.withReads s.flash.reads.ask.2, []⟩ := by
  rw [run_fetch_gated h p codec hl, if_pos hr.granted]

theorem run_persist {s : Store} (h : s.Placed) (p : Part) :
    ∃ a, a.toNat = s.base.toNat + p.offset ∧
    (persist p).run s =
      if s.flash.writes.ask.1 then
        .ok ⟨.ok (), { s with flash :=
            { s.flash.overwrite a.toNat (s.records.image p) with writes := s.flash.writes.ask.2 } },
          [.write a (s.records.image p)]⟩
      else .ok ⟨.error (.storage .outOfBounds),
        { s with flash := { s.flash with writes := s.flash.writes.ask.2 } },
        [.writeFailed a p.length]⟩ := by
  obtain ⟨a, ha, hn⟩ := h.address p
  have he := h.end_le p
  have hroom : a.toNat + (s.records.image p).length ≤ s.flash.capacity := by
    rw [Records.length_image]
    omega
  refine ⟨a, hn, ?_⟩
  rw [persist, Routine.run_bind, Routine.run_get]
  simp only [Except.bind, Routine.run_bind, Routine.run_liftM, ha, Except.map, run_onFlash,
    Flash.run_write hroom]
  cases hg : s.flash.writes.ask.1 with
  | false => simp [Except.mapError]
  | true => simp [Except.mapError]

/-- The records of a list that get to flash before a write is refused. -/
def reached (s : Store) (parts : List Part) : List Part :=
  parts.take (s.flash.writes.streak parts.length)

/-- What the writing of records in turn leaves behind: those before the first
refused write are in flash as copied, and nothing else has changed. -/
structure Committed (s : Store) (parts : List Part) (d : Outcome Store Bool) : Prop where
  value : d.value = decide (s.flash.writes.streak parts.length = parts.length)
  state : d.state = { s with flash := d.state.flash }
  reads : d.state.flash.reads = s.flash.reads
  writes : d.state.flash.writes = s.flash.writes.after parts.length
  capacity : d.state.flash.capacity = s.flash.capacity
  written : ∀ p ∈ s.reached parts, d.state.stored p = s.records.image p
  kept : ∀ p ∉ s.reached parts, d.state.stored p = s.stored p

def afterWrite (s : Store) (p : Part) : Store :=
  { s with flash :=
    { s.flash.overwrite (s.base.toNat + p.offset) (s.records.image p) with
      writes := s.flash.writes.ask.2 } }

theorem Placed.fits_image {s : Store} (h : s.Placed) (p : Part) :
    s.base.toNat + p.offset + (s.records.image p).length ≤ s.flash.capacity := by
  rw [Records.length_image]
  exact h.end_le p

theorem Placed.capacity_afterWrite {s : Store} (h : s.Placed) (p : Part) :
    (s.afterWrite p).flash.capacity = s.flash.capacity :=
  Flash.capacity_overwrite (h.fits_image p)

theorem Placed.stored_afterWrite_self {s : Store} (h : s.Placed) (p : Part) :
    (s.afterWrite p).stored p = s.records.image p := by
  have hs := Flash.slice_overwrite_self (h.fits_image p)
  rw [Records.length_image] at hs
  exact hs

theorem Placed.stored_afterWrite_of_ne {s : Store} (h : s.Placed) {p q : Part} (hq : q ≠ p) :
    (s.afterWrite p).stored q = s.stored q := by
  refine Flash.slice_overwrite_of_disjoint (h.fits_image p) ?_
  have hd := Part.disjoint_of_ne hq.symm
  have hb : (s.afterWrite p).base = s.base := rfl
  rw [Records.length_image, hb]
  omega

theorem reached_cons_of_granted {s : Store} (p : Part) (rest : List Part)
    (hg : s.flash.writes.ask.1 = true) :
    s.reached (p :: rest) = p :: (s.afterWrite p).reached rest := by
  rw [reached, List.length_cons, Gate.streak_succ_of_granted _ hg, List.take_succ_cons]
  rfl

theorem reached_cons_of_refused {s : Store} (p : Part) (rest : List Part)
    (hg : s.flash.writes.ask.1 = false) : s.reached (p :: rest) = [] := by
  rw [reached, List.length_cons, Gate.streak_succ_of_refused _ hg, List.take_zero]

theorem Committed.cons_refused {s : Store} {p : Part} (rest : List Part)
    (hg : s.flash.writes.ask.1 = false) (events : List Event) :
    Committed s (p :: rest)
      ⟨false, { s with flash := { s.flash with writes := s.flash.writes.ask.2 } }, events⟩ := by
  refine ⟨?_, rfl, rfl, ?_, rfl, ?_, fun _ _ => rfl⟩
  · rw [List.length_cons, Gate.streak_succ_of_refused _ hg]
    exact (decide_eq_false (by omega)).symm
  · exact (Gate.after_succ_of_refused _ hg).symm
  · rw [reached_cons_of_refused p rest hg]
    simp

theorem Placed.committed_cons {s : Store} (h : s.Placed) {p : Part} {rest : List Part}
    (hg : s.flash.writes.ask.1 = true) {d : Outcome Store Bool}
    (hc : Committed (s.afterWrite p) rest d) (events : List Event) :
    Committed s (p :: rest) ⟨d.value, d.state, events⟩ := by
  have hr := reached_cons_of_granted p rest hg
  refine ⟨?_, hc.state, hc.reads, ?_, hc.capacity.trans (h.capacity_afterWrite p), ?_, ?_⟩
  · rw [List.length_cons, Gate.streak_succ_of_granted _ hg]
    simp only [Nat.add_right_cancel_iff]
    exact hc.value
  · rw [List.length_cons, Gate.after_succ_of_granted _ hg]
    exact hc.writes
  · intro q hq
    by_cases hm : q ∈ (s.afterWrite p).reached rest
    · exact hc.written q hm
    · rw [hr] at hq
      obtain rfl : q = p := (List.mem_cons.mp hq).resolve_right hm
      exact (hc.kept q hm).trans (h.stored_afterWrite_self q)
  · intro q hq
    rw [hr, List.mem_cons, not_or] at hq
    exact (hc.kept q hq.2).trans (h.stored_afterWrite_of_ne hq.1)

theorem run_commit {s : Store} (h : s.Placed) (parts : List Part) :
    ∃ d, (commit parts).run s = .ok d ∧ Committed s parts d := by
  induction parts generalizing s with
  | nil =>
    exact ⟨⟨true, s, []⟩, rfl, rfl, rfl, rfl, rfl, rfl, by simp [reached], fun _ _ => rfl⟩
  | cons p rest ih =>
    obtain ⟨a, ha, hp⟩ := run_persist h p
    rw [commit]
    cases hg : s.flash.writes.ask.1 with
    | false =>
      rw [hg, if_neg Bool.false_ne_true] at hp
      rw [Routine.run_bind_of_ok hp]
      exact ⟨_, rfl, .cons_refused rest hg _⟩
    | true =>
      rw [hg, if_pos rfl, ha] at hp
      rw [Routine.run_bind_of_ok hp]
      obtain ⟨d, hd, hc⟩ := ih (h.congr (t := s.afterWrite p) rfl (h.capacity_afterWrite p))
      change ∃ e, ((commit rest).run (s.afterWrite p)).map _ = .ok e ∧ _
      rw [hd]
      exact ⟨_, rfl, h.committed_cons hg hc _⟩

theorem Committed.placed {s : Store} {parts : List Part} {d : Outcome Store Bool}
    (hc : Committed s parts d) (h : s.Placed) : d.state.Placed :=
  h.congr (by rw [hc.state]) hc.capacity

section Single

variable {s : Store} {p : Part} {d : Outcome Store Bool}

theorem Committed.value_singleton (hc : Committed s [p] d) : d.value = s.flash.writes.ask.1 := by
  rw [hc.value]
  cases h : s.flash.writes.ask.1 <;> simp [Gate.streak, h]

theorem Committed.writes_singleton (hc : Committed s [p] d) :
    d.state.flash.writes = s.flash.writes.ask.2 := by
  rw [hc.writes]
  cases h : s.flash.writes.ask.1 <;> simp [Gate.after, h]

theorem Committed.written_singleton (hc : Committed s [p] d) (hv : d.value = true) :
    d.state.stored p = s.records.image p := by
  refine hc.written p ?_
  rw [reached_cons_of_granted p [] (hc.value_singleton.symm.trans hv)]
  exact List.mem_cons_self

theorem Committed.kept_of_ne (hc : Committed s [p] d) {q : Part} (hq : q ≠ p) :
    d.state.stored q = s.stored q :=
  hc.kept q fun hm => hq (List.mem_singleton.mp (List.mem_of_mem_take hm))

theorem Committed.kept_of_refused (hc : Committed s [p] d) (hv : d.value = false) (q : Part) :
    d.state.stored q = s.stored q := by
  refine hc.kept q ?_
  rw [reached_cons_of_refused p [] (hc.value_singleton.symm.trans hv)]
  exact List.not_mem_nil

end Single

end Store

end TwinStick
