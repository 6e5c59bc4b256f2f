import TwinStick.Proofs.PairedRuns
import TwinStick.Tracker.Call

/-! Tables of tracked inputs side by side. A relation that fresh inputs are in and that looks at
the inputs keep is kept, entry by entry, by all that can be asked of two tables. -/

namespace TwinStick

namespace Tracker

section

variable (t : Tracker)

def observed (s : InputSnapshot) (now : UInt32) (i : TrackedInput) : TrackedInput :=
  i.observe (t.window i.kind) (s.isActive i.kind i.id) now

def observedTo (s : InputSnapshot) (now : UInt32) (n : Nat) : Tracker :=
  { t with
    table := t.table.mapIdx fun i entry => if i < n then t.observed s now entry else entry }

theorem getElem_observedTo (s : InputSnapshot) (now : UInt32) (n : Nat) {i : Nat}
    (hi : i < maxTracked) : (t.observedTo s now n).table[i] =
      if i < n then t.observed s now t.table[i] else t.table[i] := Vector.getElem_mapIdx ..

theorem update_observedTo (s : InputSnapshot) (now : UInt32) {n : Nat} (hn : n < t.length) :
    ((t.observedTo s now n).update ⟨UInt8.ofNat n⟩ s now).2 = t.observedTo s now (n + 1) := by
  have hplace : n < maxTracked := Nat.lt_of_lt_of_le hn t.length_le
  have hindex : (⟨UInt8.ofNat n⟩ : Handle).index = n := by
    simp only [maxTracked] at hplace
    simp only [Handle.index, UInt8.toNat_ofNat']
    omega
  have hlength : (⟨UInt8.ofNat n⟩ : Handle).index < (t.observedTo s now n).length :=
    hindex.symm ▸ hn
  have hentry : (t.observedTo s now n).table[n] = t.table[n] := by
    rw [getElem_observedTo, if_neg n.lt_irrefl]
  rw [update, dif_pos hlength]
  simp only [hindex, hentry]
  have htable : (t.observedTo s now n).table.set n (t.observed s now t.table[n]) hplace =
      (t.observedTo s now (n + 1)).table := by
    refine Vector.ext fun i hi => ?_
    rw [Vector.getElem_set, getElem_observedTo, getElem_observedTo]
    by_cases hni : n = i
    · subst hni
      rw [if_pos rfl, if_pos n.lt_succ_self]
    · have hsame : i < n ↔ i < n + 1 := by omega
      rw [if_neg hni]
      simp only [hsame]
  exact congrArg (fun table => { t with table }) htable

theorem updateAll_eq (s : InputSnapshot) (now : UInt32) :
    t.updateAll s now = t.observedTo s now t.length := by
  have hprefix : ∀ n ≤ t.length, (List.range n).foldl
      (fun t i => (t.update ⟨UInt8.ofNat i⟩ s now).2) t = t.observedTo s now n := by
    intro n hn
    induction n with
    | zero =>
      have htable : (t.observedTo s now 0).table = t.table := by
        refine Vector.ext fun i hi => ?_
        rw [getElem_observedTo, if_neg i.not_lt_zero]
      exact congrArg (fun table => { t with table }) htable.symm
    | succ n ih =>
      -- the next update finds its entry as it was, since each is made once
      rw [List.range_succ, List.foldl_append, ih (Nat.le_of_succ_le hn)]
      exact t.update_observedTo s now hn
  exact hprefix t.length (Nat.le_refl _)

theorem getElem_updateAll (s : InputSnapshot) (now : UInt32) {i : Nat} (hi : i < maxTracked) :
    (t.updateAll s now).table[i] =
      if i < t.length then t.observed s now t.table[i] else t.table[i] := by
  rw [updateAll_eq, getElem_observedTo]

theorem mem_entries {i : TrackedInput} :
    i ∈ t.entries ↔ ∃ n < t.length, t.table[n]? = some i := by
  have hlength := t.length_le
  rw [entries, List.mem_take_iff_getElem]
  simp only [Vector.length_toList, Vector.getElem_toList, Nat.min_eq_left hlength,
    Vector.getElem?_eq_some_iff]
  constructor
  · rintro ⟨n, hn, rfl⟩
    exact ⟨n, hn, Nat.lt_of_lt_of_le hn hlength, rfl⟩
  · rintro ⟨n, hn, -, rfl⟩
    exact ⟨n, hn, rfl⟩

theorem untrack_of_used {h : Handle} (hused : h.index < t.length) :
    ∃ u, t.untrack h = (true, u) ∧ t.Freed h.index u := by
  obtain ⟨u, hrun, hfreed⟩ := release_of_used hused
  exact ⟨u, Except.ok.inj ((t.release_eq_untrack h).symm.trans hrun), hfreed⟩

theorem untrack_of_unused {h : Handle} (hunused : ¬h.index < t.length) :
    t.untrack h = (false, t) :=
  Except.ok.inj ((t.release_eq_untrack h).symm.trans (if_neg hunused))

end

end Tracker

/-- What is seen at a time, and what is seen at another. -/
abbrev LookRelation := InputSnapshot → UInt32 → InputSnapshot → UInt32 → Prop

/-- Fresh inputs are related, and inputs stay so under such looks at them. -/
structure TrackedInput.Kept (O : LookRelation) (R : TrackedInput → TrackedInput → Prop) : Prop where
  fresh (kind : InputKind) (id : UInt8) : R { kind, id } { kind, id }
  observe {s s' : InputSnapshot} {now now' : UInt32} (ho : O s now s' now') {i i' : TrackedInput}
    (hi : R i i') (window : InputKind → UInt32) :
    R (i.observe (window i.kind) (s.isActive i.kind i.id) now)
      (i'.observe (window i'.kind) (s'.isActive i'.kind i'.id) now')

namespace TrackerCall

/-- The call shows the tracker something. -/
def Looks : TrackerCall → Prop
  | update .. | updateAll .. => True
  | _ => False

/-- The same call, with such looks. -/
inductive Paired (O : LookRelation) : TrackerCall → TrackerCall → Prop
  | same (call : TrackerCall) (h : ¬call.Looks) : Paired O call call
  | update (h : Handle) {s s' : InputSnapshot} {now now' : UInt32} (ho : O s now s' now') :
    Paired O (update h s now) (update h s' now')
  | updateAll {s s' : InputSnapshot} {now now' : UInt32} (ho : O s now s' now') :
    Paired O (updateAll s now) (updateAll s' now')

theorem paired_self {O : LookRelation} (call : TrackerCall) (hO : ∀ s now, O s now s now) :
    Paired O call call := by
  cases call with
  | update h s now => exact .update h (hO s now)
  | updateAll s now => exact .updateAll (hO s now)
  | _ => exact .same _ id

end TrackerCall

namespace Tracker

structure Paired (R : TrackedInput → TrackedInput → Prop) (t t' : Tracker) : Prop where
  length : t'.length = t.length
  debounce : t'.debounce = t.debounce
  stickDebounce : t'.stickDebounce = t.stickDebounce
  table {i : Nat} (hi : i < maxTracked) : R t.table[i] t'.table[i]

theorem paired_self {R : TrackedInput → TrackedInput → Prop} (hR : ∀ i, R i i) (t : Tracker) :
    Paired R t t := ⟨rfl, rfl, rfl, fun _ => hR _⟩

namespace Paired

variable {O : LookRelation} {R : TrackedInput → TrackedInput → Prop} {t t' : Tracker}

theorem window (h : Paired R t t') : t'.window = t.window := by
  funext kind
  cases kind <;> simp only [Tracker.window, h.debounce, h.stickDebounce]

theorem withConfig (h : Paired R t t') (config : ScannerConfig) :
    Paired R (t.withConfig config) (t'.withConfig config) := ⟨h.length, rfl, rfl, h.table⟩

section

variable (hR : TrackedInput.Kept O R)

include hR

theorem clear (h : Paired R t t') : Paired R t.clear t'.clear :=
  ⟨rfl, h.debounce, h.stickDebounce, fun _ => by simpa [Tracker.clear] using hR.fresh _ _⟩

theorem track (h : Paired R t t') (kind : InputKind) (id : UInt8) :
    Paired R (t.track kind id).2 (t'.track kind id).2 := by
  rw [Tracker.track, Tracker.track]
  simp only [h.length]
  split
  · refine ⟨rfl, h.debounce, h.stickDebounce, fun hi => ?_⟩
    rw [Vector.getElem_set, Vector.getElem_set]
    split
    · exact hR.fresh kind id
    · exact h.table hi
  · exact h

theorem trackAll (h : Paired R t t') (inputs : List (InputKind × UInt8)) :
    Paired R (inputs.foldl (fun t (kind, id) => (t.track kind id).2) t)
      (inputs.foldl (fun t (kind, id) => (t.track kind id).2) t') := by
  induction inputs generalizing t t' with
  | nil => exact h
  | cons input rest ih => exact ih (h.track hR input.1 input.2)

theorem freed (h : Paired R t t') {place : Nat} {u u' : Tracker} (hu : t.Freed place u)
    (hu' : t'.Freed place u') : Paired R u u' := by
  have hlength := h.length
  have hless := hu.length
  have hless' := hu'.length
  refine ⟨by omega, ?_, ?_, fun {i} hi => ?_⟩
  · rw [hu.debounce, hu'.debounce, h.debounce]
  · rw [hu.stickDebounce, hu'.stickDebounce, h.stickDebounce]
  by_cases hbefore : i < place
  · rw [hu.before hi hbefore, hu'.before hi hbefore]
    exact h.table hi
  · have hbehind : place ≤ i := Nat.le_of_not_lt hbefore
    rcases Nat.lt_trichotomy (i + 1) t.length with hmoved | hlast | hunused
    · have hnext := Nat.lt_of_lt_of_le hmoved t.length_le
      rw [hu.moved hnext hbehind hmoved, hu'.moved hnext hbehind (hlength ▸ hmoved)]
      exact h.table hnext
    · rw [hu.last hi hlast, hu'.last hi (hlast.trans hlength.symm)]
      exact hR.fresh _ _
    · have hpast : t.length ≤ i := Nat.le_of_lt_succ hunused
      rw [hu.unused hi hpast, hu'.unused hi (hlength ▸ hpast)]
      exact h.table hi

theorem untrack (h : Paired R t t') (handle : Handle) :
    Paired R (t.untrack handle).2 (t'.untrack handle).2 := by
  by_cases hused : handle.index < t.length
  · obtain ⟨u, hrun, hu⟩ := t.untrack_of_used hused
    obtain ⟨u', hrun', hu'⟩ := t'.untrack_of_used (h.length ▸ hused)
    rw [hrun, hrun']
    exact h.freed hR hu hu'
  · rw [t.untrack_of_unused hused, t'.untrack_of_unused (h.length ▸ hused)]
    exact h

theorem observed (h : Paired R t t') {s s' : InputSnapshot} {now now' : UInt32}
    (ho : O s now s' now') {i i' : TrackedInput} (hi : R i i') :
    R (t.observed s now i) (t'.observed s' now' i') := by
  rw [Tracker.observed, Tracker.observed, h.window]
  exact hR.observe ho hi t.window

theorem update (h : Paired R t t') (handle : Handle) {s s' : InputSnapshot} {now now' : UInt32}
    (ho : O s now s' now') :
    Paired R (t.update handle s now).2 (t'.update handle s' now').2 := by
  rw [Tracker.update, Tracker.update]
  simp only [h.length]
  split
  · refine ⟨rfl, h.debounce, h.stickDebounce, fun hi => ?_⟩
    rw [Vector.getElem_set, Vector.getElem_set]
    split
    · exact h.observed hR ho (h.table _)
    · exact h.table hi
  · exact h

theorem updateAll (h : Paired R t t') {s s' : InputSnapshot} {now now' : UInt32}
    (ho : O s now s' now') : Paired R (t.updateAll s now) (t'.updateAll s' now') := by
  rw [updateAll_eq, updateAll_eq]
  refine ⟨h.length, h.debounce, h.stickDebounce, fun hi => ?_⟩
  rw [getElem_observedTo, getElem_observedTo, h.length]
  split
  · exact h.observed hR ho (h.table hi)
  · exact h.table hi

/-- Whatever is asked of both tables, they stay related. -/
theorem perform (h : Paired R t t') {call call' : TrackerCall} (hc : call.Paired O call') :
    Alike (fun d d' => Paired R d.2 d'.2) (t.perform call) (t'.perform call') := by
  cases hc with
  | update handle ho => exact .ok (h.update hR handle ho)
  | updateAll ho => exact .ok (h.updateAll hR ho)
  | same call hcall =>
    cases call with
    | update | updateAll => exact absurd trivial hcall
    | track kind id => exact .ok (h.track hR kind id)
    | untrack handle =>
      rw [perform_untrack, perform_untrack]
      exact .ok (h.untrack hR handle)
    | configure config => exact .ok (h.withConfig config)
    | clear => exact .ok (h.clear hR)
    | get | isActive | entries | length => exact .ok h

end

end Paired

end Tracker

end TwinStick
