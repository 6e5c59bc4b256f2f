import TwinStick.Proofs.Orderly

/-! Writes that may be refused. A record is written as a whole or not at all, and which of the
two it was can be told from the events. This needs no room in memory, only addresses. -/

namespace TwinStick

def Event.isRefusal : Event → Bool
  | .writeFailed .. => true
  | _ => false

namespace Flash

theorem run_write_cases (f : Flash) (offset : UInt32) (bytes : List UInt8) :
    ∃ g : Flash,
      ((Flash.write offset bytes).run f = .ok ⟨.ok (), g, [.write offset bytes]⟩ ∧
        offset.toNat + bytes.length ≤ f.capacity ∧
        g.bytes = (f.overwrite offset.toNat bytes).bytes) ∨
      ((Flash.write offset bytes).run f =
          .ok ⟨.error .outOfBounds, g, [.writeFailed offset bytes.length]⟩ ∧
        g.bytes = f.bytes) := by
  by_cases hroom : offset.toNat + bytes.length ≤ f.capacity
  · have hrun := run_write hroom
    cases hgranted : f.writes.ask.1 with
    | true =>
      rw [hgranted, if_pos rfl] at hrun
      exact ⟨_, .inl ⟨hrun, hroom, rfl⟩⟩
    | false =>
      rw [hgranted, if_neg Bool.false_ne_true] at hrun
      exact ⟨_, .inr ⟨hrun, rfl⟩⟩
  · have hfull : f.capacity < offset.toNat + bytes.length := by omega
    refine ⟨f, .inr ⟨?_, rfl⟩⟩
    rw [Flash.write, Routine.run_bind_of_silent (Routine.run_get f), if_pos hfull]
    rfl

end Flash

namespace Store

variable {s : Store}

theorem run_persist_cases (h : s.Addressed) (p : Part) :
    ∃ (a : UInt32) (f : Flash), a.toNat = s.base.toNat + p.offset ∧
      ((persist p).run s =
          .ok ⟨.ok (), { s with flash := f }, [.write a (s.records.image p)]⟩ ∧
        a.toNat + (s.records.image p).length ≤ s.flash.capacity ∧
        f.bytes = (s.flash.overwrite a.toNat (s.records.image p)).bytes ∨
      (persist p).run s =
          .ok ⟨.error (.storage .outOfBounds), { s with flash := f }, [.writeFailed a p.length]⟩ ∧
        f.bytes = s.flash.bytes) := by
  obtain ⟨a, ha, hplace⟩ := h.address p
  obtain ⟨f, hcases⟩ := s.flash.run_write_cases a (s.records.image p)
  refine ⟨a, f, hplace, ?_⟩
  have hflash := run_onFlash (Flash.write a (s.records.image p)) s
  rw [persist, Routine.run_bind_of_silent (Routine.run_get s),
    Routine.run_bind_of_silent (Routine.run_liftM_of_ok ha s), Routine.run_bind_pure, hflash]
  rcases hcases with ⟨hrun, hroom, hbytes⟩ | ⟨hrun, hbytes⟩
  · rw [hrun]
    exact .inl ⟨rfl, hroom, hbytes⟩
  · rw [hrun, Records.length_image]
    exact .inr ⟨rfl, hbytes⟩

theorem stored_of_overwritten {f : Flash} {p : Part} {a : Nat} {bytes : List UInt8}
    (hplace : a = s.base.toNat + p.offset) (hlength : bytes.length = p.length)
    (hroom : a + bytes.length ≤ s.flash.capacity)
    (hf : f.bytes = (s.flash.overwrite a bytes).bytes) :
    ({ s with flash := f } : Store).stored p = bytes ∧
      ∀ q ≠ p, ({ s with flash := f } : Store).stored q = s.stored q := by
  have hstored : ∀ q : Part, ({ s with flash := f } : Store).stored q =
      (s.flash.overwrite a bytes).slice (s.base.toNat + q.offset) q.length := by
    intro q
    rw [stored, Flash.slice, hf, Flash.slice]
  refine ⟨?_, fun q hq => ?_⟩
  · have hself := Flash.slice_overwrite_self hroom
    rw [hstored, ← hplace, ← hlength, hself]
  · have hapart := Part.disjoint_of_ne (Ne.symm hq)
    rw [hstored, Flash.slice_overwrite_of_disjoint hroom (by omega), stored]

/-- What an attempt to write records in turn leaves behind, if each has an address. -/
structure Tried (s : Store) (parts : List Part) (d : Outcome Store Bool) : Prop where
  state : d.state = { s with flash := d.state.flash }
  value : d.value = !d.events.any Event.isRefusal
  written : d.value = true → ∀ p ∈ parts, d.state.stored p = s.records.image p
  kept : ∀ p ∉ parts, d.state.stored p = s.stored p
  events : parts ≠ [] → d.events ≠ []

theorem Tried.cons {p : Part} {rest : List Part} {t : Store} {e : Event} {d : Outcome Store Bool}
    (ht : t = { s with flash := t.flash }) (he : e.isRefusal = false)
    (hself : t.stored p = s.records.image p) (hothers : ∀ q ≠ p, t.stored q = s.stored q)
    (h : Tried t rest d) : Tried s (p :: rest) ⟨d.value, d.state, e :: d.events⟩ := by
  have hrecords : t.records = s.records := by rw [ht]
  refine ⟨?_, ?_, fun hv q hq => ?_, fun q hq => ?_, fun _ => List.cons_ne_nil _ _⟩
  · have hstate := h.state
    rw [ht] at hstate
    exact hstate
  · rw [List.any_cons, he, Bool.false_or]
    exact h.value
  · by_cases hm : q ∈ rest
    · rw [h.written hv q hm, hrecords]
    · obtain rfl : q = p := (List.mem_cons.mp hq).resolve_right hm
      rw [h.kept q hm, hself]
  · obtain ⟨hne, hm⟩ := not_or.mp (mt List.mem_cons.mpr hq)
    rw [h.kept q hm, hothers q hne]

/-- Writing in turn ends at the first refusal, and says so. -/
theorem run_commit_tried (h : s.Addressed) (parts : List Part) :
    ∃ d, (commit parts).run s = .ok d ∧ Tried s parts d := by
  -- what was refused ends the list, so the rest is tried only on what was written before
  induction parts generalizing s with
  | nil => exact ⟨_, rfl, rfl, rfl, fun _ => by simp, fun _ _ => rfl, fun hne => absurd rfl hne⟩
  | cons p rest ih =>
    obtain ⟨a, f, hplace, hcases⟩ := run_persist_cases h p
    rcases hcases with ⟨hrun, hroom, hbytes⟩ | ⟨hrun, hbytes⟩
    · have hlength := Records.length_image s.records p
      obtain ⟨hself, hothers⟩ := stored_of_overwritten hplace hlength hroom hbytes
      obtain ⟨d, hd, htried⟩ := ih (s := { s with flash := f }) (h.congr rfl)
      have hcons := Tried.cons (e := .write a (s.records.image p)) rfl rfl hself hothers htried
      refine ⟨_, ?_, hcons⟩
      rw [commit, Routine.run_bind_of_ok hrun]
      exact congrArg (Except.map _) hd
    · have hstored : ∀ q, ({ s with flash := f } : Store).stored q = s.stored q := by
        intro q
        rw [stored, Flash.slice, hbytes, stored, Flash.slice]
      refine ⟨⟨false, { s with flash := f }, [.writeFailed a p.length]⟩, ?_, ?_⟩
      · rw [commit, Routine.run_bind_of_ok hrun]
        rfl
      · refine ⟨rfl, rfl, fun hv => ?_, fun q _ => hstored q, fun _ => List.cons_ne_nil _ _⟩
        exact absurd hv Bool.false_ne_true

end Store

end TwinStick
