import TwinStick.Proofs.PairedTables

/-! What touches leave in the tracker. Two snapshots that differ in the touch alone leave
the same table, except for the contacts of the touch inputs that are registered. -/

namespace TwinStick

namespace TrackedInput

/-- An input as if nobody had ever touched the panel. -/
def blind (i : TrackedInput) : TrackedInput :=
  if i.kind = .touch then { kind := .touch, id := i.id } else i

theorem blind_of_ne {i : TrackedInput} (h : i.kind ≠ .touch) : i.blind = i := if_neg h

theorem blind_of_eq {i : TrackedInput} (h : i.kind = .touch) :
    i.blind = { kind := .touch, id := i.id } := if_pos h

@[simp] theorem kind_blind (i : TrackedInput) : i.blind.kind = i.kind := by
  by_cases h : i.kind = .touch
  · rw [blind_of_eq h, h]
  · rw [blind_of_ne h]

@[simp] theorem id_blind (i : TrackedInput) : i.blind.id = i.id := by
  rw [blind]
  split <;> rfl

@[simp] theorem blind_blind (i : TrackedInput) : i.blind.blind = i.blind := by
  by_cases h : i.kind = .touch
  · rw [blind_of_eq h]
    rfl
  · rw [blind_of_ne h, blind_of_ne h]

theorem blind_observe_of_eq {i : TrackedInput} (h : i.kind = .touch) (window now : UInt32)
    (active : Bool) : (i.observe window active now).blind = { kind := .touch, id := i.id } :=
  blind_of_eq h

end TrackedInput

def InputSnapshot.blind (s : InputSnapshot) : InputSnapshot := { s with touching := false }

theorem InputSnapshot.isActive_eq {s s' : InputSnapshot} (hs : s'.blind = s.blind)
    {kind : InputKind} (h : kind ≠ .touch) (id : UInt8) :
    s'.isActive kind id = s.isActive kind id := by
  obtain ⟨hmatrix, hsampler, -⟩ := InputSnapshot.mk.inj hs
  cases kind with
  | touch => exact absurd rfl h
  | button => simp only [isActive, hmatrix]
  | stickDirection | stickDeflection => simp only [isActive, hsampler]

/-- Looks at one time that differ in the touch alone. -/
def InputSnapshot.TouchApart : LookRelation := fun s now s' now' => s'.blind = s.blind ∧ now' = now

namespace Tracker

section

variable (t : Tracker)

/-- The tracker as if nobody had ever touched the panel. -/
def blind : Tracker := { t with table := t.table.map (·.blind) }

theorem blind_eq_of_table {u : Tracker} (hlength : u.length = t.length)
    (hdebounce : u.debounce = t.debounce) (hstick : u.stickDebounce = t.stickDebounce)
    (htable : ∀ i (hi : i < maxTracked), u.table[i].blind = t.table[i].blind) :
    u.blind = t.blind := by
  simp only [blind, Tracker.mk.injEq]
  refine ⟨Vector.ext fun i hi => ?_, hlength, hdebounce, hstick⟩
  rw [Vector.getElem_map, Vector.getElem_map]
  exact htable i hi

theorem getElem_blind {i : Nat} (hi : i < maxTracked) : t.blind.table[i] = t.table[i].blind :=
  Vector.getElem_map ..

/-- Two snapshots that differ in the touch alone leave the same table exactly if they do not
differ or no touch input is registered. -/
theorem updateAll_eq_iff {s s' : InputSnapshot} (hs : s'.blind = s.blind) (now : UInt32) :
    t.updateAll s' now = t.updateAll s now ↔
      s'.touching = s.touching ∨ ∀ i ∈ t.entries, i.kind ≠ .touch := by
  constructor
  · intro hsame
    by_cases htouching : s'.touching = s.touching
    · exact .inl htouching
    · refine .inr fun i hi hkind => htouching ?_
      obtain ⟨n, hn, hget⟩ := t.mem_entries.mp hi
      obtain ⟨hplace, rfl⟩ := Vector.getElem?_eq_some_iff.mp hget
      have hentry : t.observed s' now t.table[n] = t.observed s now t.table[n] := by
        have hboth := congrArg (fun u : Tracker => u.table[n]?) hsame
        simpa [getElem_updateAll, hn, hplace] using hboth
      have hclosed := congrArg (fun i : TrackedInput => i.contact.closed) hentry
      simpa [observed, TrackedInput.observe, hkind, InputSnapshot.isActive] using hclosed
  · rintro (htouching | hnone)
    · have heq : s' = s := by
        obtain ⟨matrix, sampler, touching⟩ := s
        obtain ⟨matrix', sampler', touching'⟩ := s'
        obtain ⟨rfl, rfl, -⟩ := InputSnapshot.mk.inj hs
        exact congrArg _ htouching
      rw [heq]
    · have hactive : ∀ i ∈ t.entries, t.observed s' now i = t.observed s now i := by
        intro i hi
        rw [observed, observed, s.isActive_eq hs (hnone i hi)]
      have htable : (t.observedTo s' now t.length).table = (t.observedTo s now t.length).table := by
        refine Vector.ext fun n hn => ?_
        rw [getElem_observedTo, getElem_observedTo]
        split
        · next hused =>
            exact hactive _ (t.mem_entries.mpr ⟨n, hused, Vector.getElem?_eq_getElem hn⟩)
        · rfl
      rw [updateAll_eq, updateAll_eq]
      exact congrArg (fun table => { t with table }) htable

@[simp] theorem blind_blind : t.blind.blind = t.blind := by
  refine blind_eq_of_table _ rfl rfl rfl fun i hi => ?_
  rw [getElem_blind, TrackedInput.blind_blind]

end

/-- Inputs that are the same but for touches stay so under looks that differ in the touch alone. -/
theorem kept_blind :
    TrackedInput.Kept InputSnapshot.TouchApart fun i i' => i'.blind = i.blind where
  fresh _ _ := rfl
  observe {s s' now _} ho i i' hi window := by
    obtain ⟨hs, rfl⟩ := ho
    have hkind : i'.kind = i.kind := by rw [← i'.kind_blind, hi, i.kind_blind]
    have hid : i'.id = i.id := by rw [← i'.id_blind, hi, i.id_blind]
    rw [hkind, hid]
    by_cases htouch : i.kind = .touch
    · rw [TrackedInput.blind_observe_of_eq htouch,
        TrackedInput.blind_observe_of_eq (hkind ▸ htouch), hid]
    · rw [TrackedInput.blind_of_ne htouch, TrackedInput.blind_of_ne (hkind ▸ htouch)] at hi
      rw [hi, InputSnapshot.isActive_eq hs htouch]

section

variable {t t' : Tracker}

theorem paired_of_blind (h : t'.blind = t.blind) :
    Paired (fun i i' => i'.blind = i.blind) t t' := by
  obtain ⟨-, hlength, hdebounce, hstick⟩ := Tracker.mk.inj h
  refine ⟨hlength, hdebounce, hstick, fun hi => ?_⟩
  rw [← getElem_blind, h, getElem_blind]

theorem Paired.blind (h : Paired (fun i i' => i'.blind = i.blind) t t') : t'.blind = t.blind :=
  t.blind_eq_of_table h.length h.debounce h.stickDebounce fun _ hi => h.table hi

theorem blind_updateAll (h : t'.blind = t.blind) {s s' : InputSnapshot} (hs : s'.blind = s.blind)
    (now : UInt32) : (t'.updateAll s' now).blind = (t.updateAll s now).blind :=
  ((paired_of_blind h).updateAll kept_blind ⟨hs, rfl⟩).blind

/-- Nothing that is asked of the tracker looks at the contacts of touch inputs, but to update them
or to tell of them. -/
theorem blind_perform (h : t'.blind = t.blind) (call : TrackerCall) :
    Alike (fun d d' => d'.2.blind = d.2.blind) (t.perform call) (t'.perform call) := by
  have hcall : call.Paired InputSnapshot.TouchApart call := call.paired_self fun _ _ => ⟨rfl, rfl⟩
  exact ((paired_of_blind h).perform kept_blind hcall).mono fun _ _ hd => hd.blind

end

end Tracker

end TwinStick
