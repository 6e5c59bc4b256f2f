import TwinStick.Proofs.LaterController

/-! Noted times under every clock at once. Of two clocks one cannot always tell whether a time
has moved with them or was never noted, since it may be noted at the very reading that it stood
at before. Of all of them one can: none has to do with it, or it goes with every one. -/

namespace TwinStick

/-- What may become of a time under a clock that is ahead. -/
def Follows (old : UInt32 → Prop) (k time time' : UInt32) : Prop :=
  time' = time + k ∨ time' = time ∧ old time

/-- A time as it is under each clock: one and the same old time, or noted in the meantime. -/
inductive Stamp (old : UInt32 → Prop) (time : UInt32 → UInt32) : Prop
  | kept (t : UInt32) (h : old t) (hkept : ∀ k, time k = t)
  | noted (hnoted : ∀ k, time k = time 0 + k)

theorem exists_notMem_six (a b c d e f : UInt32) :
    ∃ m, m ∉ ({a, b, c, d, e, f} : Finset UInt32) := by
  have hseven : ({0, 1, 2, 3, 4, 5, 6} : Finset UInt32).card = 7 := rfl
  have hsix : ({a, b, c, d, e, f} : Finset UInt32).card < 7 := Nat.lt_succ_of_le Finset.card_le_six
  obtain ⟨m, -, hm⟩ := Finset.exists_mem_notMem_of_card_lt_card (hsix.trans_eq hseven.symm)
  exact ⟨m, hm⟩

/-- As long as there are at most two old times, a time that follows every clock from every other
is a stamp. -/
theorem Stamp.of_follows {old : UInt32 → Prop} {time : UInt32 → UInt32} {a b : UInt32}
    (hold : ∀ t, old t → t = a ∨ t = b) (h : ∀ j k, Follows old (k - j) (time j) (time k)) :
    Stamp old time := by
  by_cases hnew : ∃ j, ¬old (time j)
  · obtain ⟨j, hj⟩ := hnew
    have hmoved : ∀ k, time k = time j + (k - j) :=
      fun k => (h j k).resolve_right fun hk => hj hk.2
    refine .noted fun k => ?_
    rw [hmoved k, hmoved 0]
    abel
  · have hall : ∀ j, old (time j) := fun j => not_not.mp (not_exists.mp hnew j)
    -- two old times can only have moved apart by what lies between old times
    have hfar : ∀ {j k}, k - j ∉ ({0, a - b, b - a} : Finset UInt32) → time k = time j := by
      intro j k hapart
      refine ((h j k).resolve_left fun hmoved => hapart ?_).1
      rw [← sub_eq_of_eq_add' hmoved]
      rcases hold _ (hall j) with hj | hj <;> rcases hold _ (hall k) with hk | hk <;>
        simp [hj, hk]
    have hsame : ∀ k, time k = time 0 := by
      intro k
      -- a clock that is far from both
      obtain ⟨m, hm⟩ := exists_notMem_six 0 (a - b) (b - a) k (k - (a - b)) (k - (b - a))
      simp only [Finset.mem_insert, Finset.mem_singleton, not_or] at hm
      have hzero : m - 0 ∉ ({0, a - b, b - a} : Finset UInt32) := by
        simp only [Finset.mem_insert, Finset.mem_singleton]
        grind
      have hother : k - m ∉ ({0, a - b, b - a} : Finset UInt32) := by
        simp only [Finset.mem_insert, Finset.mem_singleton]
        grind
      exact (hfar hother).trans (hfar hzero)
    exact .kept (time 0) (hall 0) hsame

theorem Stamp.of_follows_zero {time : UInt32 → UInt32}
    (h : ∀ j k, Follows (· = 0) (k - j) (time j) (time k)) : Stamp (· = 0) time :=
  .of_follows (a := 0) (b := 0) (fun _ => .inl) h

variable {k base : UInt32} {old : UInt32 → Prop}

namespace Contact

/-- A contact under each clock. -/
structure Stamped (c : UInt32 → Contact) : Prop where
  press : Stamp (· = 0) fun k => (c k).pressTime
  release : Stamp (· = 0) fun k => (c k).releaseTime

theorem Later.press_follows {c c' : Contact} (h : Later k c c') :
    Follows (· = 0) k c.pressTime c'.pressTime := by
  cases h with
  | fresh => exact .inr ⟨rfl, rfl⟩
  | held | opened => exact .inl rfl

theorem Later.release_follows {c c' : Contact} (h : Later k c c') :
    Follows (· = 0) k c.releaseTime c'.releaseTime := by
  cases h with
  | fresh => exact .inr ⟨rfl, rfl⟩
  | held _ _ hopened => exact .inr ⟨rfl, hopened⟩
  | opened => exact .inl rfl

theorem stamped {c : UInt32 → Contact} (h : ∀ j k, (c j).Later (k - j) (c k)) : Stamped c :=
  ⟨.of_follows_zero fun j k => (h j k).press_follows,
    .of_follows_zero fun j k => (h j k).release_follows⟩

end Contact

theorem StickSample.Later.follows {s s' : StickSample} (h : Later k s s') :
    Follows (· = 0) k s.lastMovement s'.lastMovement := by
  cases h with
  | still _ hmovement => exact .inr ⟨rfl, hmovement⟩
  | moved => exact .inl rfl

theorem Store.Later.lastChange_follows {s s' : Store} (h : Later k base old s s') :
    Follows (· = 0) k s.lastChange s'.lastChange :=
  h.lastChange.imp_right fun ⟨_, hs, hs'⟩ => ⟨hs'.trans hs.symm, hs⟩

theorem ManagerRecord.Later.follows {m m' : ManagerRecord} (h : Later k old m m') :
    Follows old k m.lastSave m'.lastSave := by
  cases h with
  | unsaved hold => exact .inr ⟨rfl, hold⟩
  | saved => exact .inl rfl

theorem Flash.Later.lastSave_follows {f f' : Flash} (h : Later k base old f f') :
    Follows old k (f.lastSave base) (f'.lastSave base) := by
  have hmanager := h.manager
  rw [lastSave, lastSave]
  generalize f.slice _ _ = bytes at hmanager
  generalize f'.slice _ _ = bytes' at hmanager
  cases hmanager with
  | same _ hold => exact .inr ⟨rfl, hold⟩
  | saved hm =>
    rw [Codec.read_pack ManagerRecord.codec_whole, Codec.read_pack ManagerRecord.codec_whole]
    exact hm.reread.follows

namespace Controller

/-- A device under each clock. All that it has noted down, it has noted under every clock or
under none. -/
structure Stamped (base : UInt32) (old : UInt32 → Prop) (c : UInt32 → Controller) : Prop where
  cell {row col : Nat} (hrow : row < matrixRows) (hcol : col < matrixCols) :
    Contact.Stamped fun k => (c k).matrix.cells[row][col].contact
  input {i : Nat} (hi : i < maxTracked) : Contact.Stamped fun k => (c k).tracker.table[i].contact
  movement (stick : Stick) :
    Stamp (· = 0) fun k => ((c k).sampler.samples.get stick).lastMovement
  change : Stamp (· = 0) fun k => (c k).store.lastChange
  save : Stamp old fun k => (c k).store.records.manager.lastSave
  stored : Stamp old fun k => (c k).store.flash.lastSave base

theorem stamped {c : UInt32 → Controller} {a b : UInt32} (hold : ∀ t, old t → t = a ∨ t = b)
    (h : ∀ j k, (c j).Later (k - j) base old (c k)) : Stamped base old c where
  cell hrow hcol := Contact.stamped fun j k => ((h j k).matrix.cells hrow hcol).contact
  input hi := Contact.stamped fun j k => ((h j k).tracker.table hi).contact
  movement stick := .of_follows_zero fun j k => ((h j k).sampler.samples stick).follows
  change := .of_follows_zero fun j k => (h j k).store.lastChange_follows
  save := .of_follows hold fun j k => (h j k).store.records.manager.follows
  stored := .of_follows hold fun j k => (h j k).store.flash.lastSave_follows

end Controller

end TwinStick
