import Mathlib
import TwinStick.Proofs.PairedTables

/-! The tracker is a list of at most sixteen inputs. Whatever is asked of the table, with handles
that are good, stale or never given out, the answers are those that a plain list gives, and what
is behind the places in use is never seen. -/

namespace TwinStick

/-- The inputs that are tracked, in the order of their places. -/
structure Roster where
  inputs : List TrackedInput := []
  debounce : UInt32
  stickDebounce : UInt32

namespace Roster

def ofConfig (config : ScannerConfig) : Roster :=
  { debounce := config.debounce, stickDebounce := config.stickDebounce }

def observed (r : Roster) (s : InputSnapshot) (now : UInt32) (i : TrackedInput) : TrackedInput :=
  let window :=
    match i.kind with
    | .stickDirection | .stickDeflection => r.stickDebounce
    | .button | .touch => r.debounce
  i.observe window (s.isActive i.kind i.id) now

def perform (r : Roster) : TrackerCall → TrackerAnswer × Roster
  | .track kind id =>
    if r.inputs.length < maxTracked then
      (.place (some r.inputs.length), { r with inputs := r.inputs ++ [{ kind, id }] })
    else (.place none, r)
  | .untrack h =>
    if h.index < r.inputs.length then
      (.flag true, { r with inputs := r.inputs.eraseIdx h.index })
    else (.flag false, r)
  | .update h s now =>
    if h.index < r.inputs.length then
      (.flag true, { r with inputs := r.inputs.modify h.index (r.observed s now) })
    else (.flag false, r)
  | .updateAll s now => (.done, { r with inputs := r.inputs.map (r.observed s now) })
  | .configure config =>
    (.done, { r with debounce := config.debounce, stickDebounce := config.stickDebounce })
  | .clear => (.done, { r with inputs := [] })
  | .get h => (.input r.inputs[h.index]?, r)
  | .isActive h => (.flag (r.inputs[h.index]?.any TrackedInput.isActive), r)
  | .entries => (.inputs r.inputs, r)
  | .length => (.count r.inputs.length, r)

/-- One call after another, with their answers. -/
def run (r : Roster) : List TrackerCall → List TrackerAnswer × Roster
  | [] => ([], r)
  | call :: calls =>
    let (answer, r) := r.perform call
    let (answers, r) := r.run calls
    (answer :: answers, r)

end Roster

namespace Tracker

/-- One call after another, with their answers. -/
def run (t : Tracker) : List TrackerCall → Except Fault (List TrackerAnswer × Tracker)
  | [] => return ([], t)
  | call :: calls => do
    let (answer, t) ← t.perform call
    let (answers, t) ← t.run calls
    return (answer :: answers, t)

def roster (t : Tracker) : Roster := ⟨t.entries, t.debounce, t.stickDebounce⟩

section

variable (t : Tracker)

@[simp] theorem length_entries : t.entries.length = t.length := by
  have hlength := t.length_le
  rw [entries, List.length_take, Vector.length_toList, Nat.min_eq_left hlength]

theorem getElem?_entries (i : Nat) :
    t.entries[i]? = if i < t.length then t.table[i]? else none := by
  rw [entries, List.getElem?_take, Vector.getElem?_toList]

theorem take_eq {table : Vector TrackedInput maxTracked} {n : Nat} {inputs : List TrackedInput}
    (h : ∀ i : Nat, (if i < n then table[i]? else none) = inputs[i]?) :
    table.toList.take n = inputs := by
  refine List.ext_getElem? fun i => ?_
  rw [List.getElem?_take, Vector.getElem?_toList, h]

theorem get?_eq (h : Handle) : t.get? h = t.entries[h.index]? := (t.getElem?_entries h.index).symm

theorem place?_ofNat {n : Nat} (hn : n < maxTracked) :
    (⟨UInt8.ofNat n⟩ : Handle).place? = some n := by
  have hindex : (⟨UInt8.ofNat n⟩ : Handle).index = n := by
    simp only [maxTracked] at hn
    simp only [Handle.index, UInt8.toNat_ofNat']
    omega
  have hvalid : (⟨UInt8.ofNat n⟩ : Handle).isValid = true := by
    have hne : (⟨UInt8.ofNat n⟩ : Handle) ≠ .invalid := by
      intro heq
      have h255 : n = 255 := hindex.symm.trans (congrArg Handle.index heq)
      simp only [maxTracked] at hn
      omega
    exact decide_eq_true hne
  rw [Handle.place?, if_pos hvalid, hindex]

theorem roster_track (kind : InputKind) (id : UInt8) :
    TrackerAnswer.place (t.track kind id).1.place? = (t.roster.perform (.track kind id)).1 ∧
      (t.track kind id).2.roster = (t.roster.perform (.track kind id)).2 := by
  simp only [Roster.perform, track, roster, length_entries]
  by_cases hfree : t.length < maxTracked
  · rw [dif_pos hfree, if_pos hfree]
    refine ⟨congrArg _ (place?_ofNat hfree), ?_⟩
    refine congrArg (Roster.mk · t.debounce t.stickDebounce) (take_eq fun i => ?_)
    rw [List.getElem?_append, length_entries, getElem?_entries, Vector.getElem?_set]
    rcases Nat.lt_trichotomy i t.length with hlt | heq | hgt
    · have hne : t.length ≠ i := by omega
      rw [if_pos (Nat.lt_succ_of_lt hlt), if_neg hne, if_pos hlt, if_pos hlt]
    · subst heq
      simp
    · have hpast : ¬i < t.length + 1 := by omega
      have hbehind : 1 ≤ i - t.length := by omega
      rw [if_neg hpast, if_neg (by omega), List.getElem?_eq_none hbehind]
  · rw [dif_neg hfree, if_neg hfree]
    exact ⟨rfl, rfl⟩

theorem Freed.roster {place : Nat} {u : Tracker} (h : t.Freed place u) :
    u.roster = { t.roster with inputs := t.entries.eraseIdx place } := by
  have hlength := t.length_le
  have hused := h.used
  have hless := h.length
  rw [Tracker.roster, h.debounce, h.stickDebounce]
  refine congrArg (Roster.mk · t.debounce t.stickDebounce) (take_eq fun i => ?_)
  rw [List.getElem?_eraseIdx, getElem?_entries, getElem?_entries]
  by_cases hkept : i < u.length
  · have hplace : i < maxTracked := by omega
    have hnext : i + 1 < maxTracked := by omega
    have hmoved : i + 1 < t.length := by omega
    rw [if_pos hkept, if_pos (Nat.lt_of_succ_lt hmoved), if_pos hmoved,
      Vector.getElem?_eq_getElem hplace]
    by_cases hbefore : i < place
    · rw [if_pos hbefore, h.before hplace hbefore, Vector.getElem?_eq_getElem hplace]
    · rw [if_neg hbefore, h.moved hnext (Nat.le_of_not_lt hbefore) hmoved,
        Vector.getElem?_eq_getElem hnext]
  · have hpast : ¬i + 1 < t.length := by omega
    rw [if_neg hkept, if_neg hpast]
    split
    · omega
    · rfl

theorem roster_untrack (h : Handle) :
    TrackerAnswer.flag (t.untrack h).1 = (t.roster.perform (.untrack h)).1 ∧
      (t.untrack h).2.roster = (t.roster.perform (.untrack h)).2 := by
  have hinputs : t.roster.inputs = t.entries := rfl
  simp only [Roster.perform, hinputs, length_entries]
  by_cases hused : h.index < t.length
  · obtain ⟨u, hrun, hfreed⟩ := t.untrack_of_used hused
    rw [if_pos hused, hrun]
    exact ⟨rfl, hfreed.roster⟩
  · rw [if_neg hused, t.untrack_of_unused hused]
    exact ⟨rfl, rfl⟩

theorem roster_observed (s : InputSnapshot) (now : UInt32) (i : TrackedInput) :
    t.roster.observed s now i = t.observed s now i := by
  unfold Roster.observed Tracker.observed
  cases i.kind <;> rfl

theorem roster_update (h : Handle) (s : InputSnapshot) (now : UInt32) :
    TrackerAnswer.flag (t.update h s now).1 = (t.roster.perform (.update h s now)).1 ∧
      (t.update h s now).2.roster = (t.roster.perform (.update h s now)).2 := by
  have hlength := t.length_le
  have hinputs : t.roster.inputs = t.entries := rfl
  simp only [Roster.perform, update, hinputs, length_entries]
  by_cases hused : h.index < t.length
  · rw [dif_pos hused, if_pos hused]
    refine ⟨rfl, congrArg (Roster.mk · t.debounce t.stickDebounce) (take_eq fun i => ?_)⟩
    by_cases hi : h.index = i
    · subst hi
      have hplace : h.index < maxTracked := by omega
      rw [List.getElem?_modify_eq, getElem?_entries, if_pos hused, if_pos hused,
        Vector.getElem?_set_self, Vector.getElem?_eq_getElem hplace]
      exact congrArg some (t.roster_observed s now _).symm
    · rw [List.getElem?_modify_ne _ _ hi, getElem?_entries, Vector.getElem?_set_ne _ hi]
  · rw [dif_neg hused, if_neg hused]
    exact ⟨rfl, rfl⟩

theorem roster_updateAll (s : InputSnapshot) (now : UInt32) :
    (t.updateAll s now).roster = (t.roster.perform (.updateAll s now)).2 := by
  have hlength := t.length_le
  simp only [Roster.perform, updateAll_eq]
  refine congrArg (Roster.mk · t.debounce t.stickDebounce) (take_eq fun i => ?_)
  change (if i < t.length then (t.observedTo s now t.length).table[i]? else none) =
    (t.entries.map (t.roster.observed s now))[i]?
  rw [List.getElem?_map, getElem?_entries]
  by_cases hused : i < t.length
  · have hplace : i < maxTracked := by omega
    rw [if_pos hused, if_pos hused, Vector.getElem?_eq_getElem hplace,
      Vector.getElem?_eq_getElem hplace, getElem_observedTo, if_pos hused]
    exact congrArg some (t.roster_observed s now _).symm
  · rw [if_neg hused, if_neg hused]
    rfl

/-- The table answers every call, in the way that the list of its entries does, and is that list
afterwards. -/
theorem perform_roster (call : TrackerCall) :
    ∃ d, t.perform call = .ok d ∧ d.1 = (t.roster.perform call).1 ∧
      d.2.roster = (t.roster.perform call).2 := by
  cases call with
  | track kind id => exact ⟨_, rfl, t.roster_track kind id⟩
  | untrack h => exact ⟨_, t.perform_untrack h, t.roster_untrack h⟩
  | update h s now => exact ⟨_, rfl, t.roster_update h s now⟩
  | updateAll s now => exact ⟨_, rfl, rfl, t.roster_updateAll s now⟩
  | configure config => exact ⟨_, rfl, rfl, rfl⟩
  | clear => exact ⟨_, rfl, rfl, rfl⟩
  | get h => exact ⟨_, rfl, congrArg TrackerAnswer.input (t.get?_eq h), rfl⟩
  | isActive h =>
    have hactive := congrArg (Option.any TrackedInput.isActive) (t.get?_eq h)
    exact ⟨_, rfl, congrArg TrackerAnswer.flag hactive, rfl⟩
  | entries => exact ⟨_, rfl, rfl, rfl⟩
  | length => exact ⟨_, rfl, congrArg TrackerAnswer.count t.length_entries.symm, rfl⟩

theorem run_roster (calls : List TrackerCall) :
    ∃ d, t.run calls = .ok d ∧ d.1 = (t.roster.run calls).1 ∧
      d.2.roster = (t.roster.run calls).2 := by
  induction calls generalizing t with
  | nil => exact ⟨_, rfl, rfl, rfl⟩
  | cons call calls ih =>
    obtain ⟨d, hd, hanswer, hroster⟩ := t.perform_roster call
    obtain ⟨e, he, hanswers, hend⟩ := ih d.2
    rw [hroster] at hanswers hend
    refine ⟨(d.1 :: e.1, e.2), ?_, congrArg₂ List.cons hanswer hanswers, hend⟩
    rw [run, hd]
    exact congrArg (· >>= fun r => .ok (d.1 :: r.1, r.2)) he

theorem length_roster_le : t.roster.inputs.length ≤ maxTracked :=
  t.length_entries.trans_le t.length_le

end

/-- From the start on, a tracker answers every call as the list does, is never longer than the
table, and shows at every moment exactly the list. No call makes it stop. -/
theorem behaves_as_list (config : ScannerConfig) (calls : List TrackerCall) :
    ∃ d, (ofConfig config).run calls = .ok d ∧
      d.1 = ((Roster.ofConfig config).run calls).1 ∧
      d.2.roster = ((Roster.ofConfig config).run calls).2 ∧
      ((Roster.ofConfig config).run calls).2.inputs.length ≤ maxTracked := by
  obtain ⟨d, hd, hanswers, hroster⟩ := (ofConfig config).run_roster calls
  have hstart : (ofConfig config).roster = Roster.ofConfig config := rfl
  rw [hstart] at hanswers hroster
  refine ⟨d, hd, hanswers, hroster, ?_⟩
  rw [← hroster]
  exact length_roster_le _

end Tracker

end TwinStick
