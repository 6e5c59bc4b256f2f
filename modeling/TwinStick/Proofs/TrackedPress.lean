import Mathlib
import TwinStick.Proofs.Debounce
import TwinStick.Proofs.TrackedList

/-! An input in the tracker over its whole history. Wherever the table has put it meanwhile, its
entry tells of the looks at its source alone: when the press that goes on began, whether it has
lasted for the window, and when the last press that ended began and ended.

Histories have their newest entry first. -/

namespace TwinStick

namespace Look

/-- The last run of closed looks that ended: when it began, and when it was seen to be over. -/
def lastPress : List Look → Option (Nat × Nat)
  | [] => none
  | look :: earlier =>
    match runStart earlier with
    | some start => if look.closed then lastPress earlier else some (start, look.time)
    | none => lastPress earlier

variable {look : Look} {earlier : List Look}

theorem lastPress_idle (hr : runStart earlier = none) :
    lastPress (look :: earlier) = lastPress earlier := by
  simp only [lastPress, hr]

theorem lastPress_held {start : Nat} (hr : runStart earlier = some start)
    (h : look.closed = true) : lastPress (look :: earlier) = lastPress earlier := by
  simp only [lastPress, hr, h, if_true]

theorem lastPress_released {start : Nat} (hr : runStart earlier = some start)
    (h : look.closed = false) : lastPress (look :: earlier) = some (start, look.time) := by
  simp only [lastPress, hr, h, Bool.false_eq_true, if_false]

/-- Of the looks of a run the first one comes first in time. -/
theorem Paced.runStart_le_of_mem {window : UInt32} {looks : List Look} (h : Paced window looks)
    {start : Nat} (hs : runStart looks = some start) {found : Look} (hf : found ∈ run looks) :
    start ≤ found.time := by
  induction looks generalizing start with
  | nil => exact absurd hf List.not_mem_nil
  | cons look earlier ih =>
    cases hl : look.closed with
    | false =>
      rw [runStart_open hl] at hs
      exact nomatch hs
    | true =>
      rw [runStart_closed hl] at hs
      rw [run_closed hl] at hf
      obtain rfl := Option.some.inj hs
      rcases List.mem_cons.mp hf with rfl | hf
      · exact h.runStart_le
      · obtain ⟨start, hstart⟩ := runStart_of_mem hf
        rw [hstart, Option.getD_some]
        exact ih h.tail hstart hf

end Look

theorem Contact.releaseTime_note (c : Contact) (closed : Bool) (now : UInt32) :
    (c.note closed now).releaseTime = if !closed && c.closed then now else c.releaseTime := by
  cases closed <;> cases h : c.closed <;> simp [note, h]

namespace TrackedInput

/-- What debouncing promises of an input after the looks at it, the newest of them just now. -/
structure Debounced (window : UInt32) (looks : List Look) (now : Nat) (i : TrackedInput) :
    Prop where
  isActive : i.isActive = true ↔ ∃ first ∈ Look.run looks, first.time + window.toNat ≤ now
  pressTime : ∀ start, Look.runStart looks = some start → i.contact.pressTime = uptime start
  lastPress : ∀ pressed released, Look.lastPress looks = some (pressed, released) →
    i.contact.releaseTime = uptime released ∧
      i.duration = elapsed (uptime pressed) (uptime released)
  closed : i.contact.closed = (Look.runStart looks).isSome
  closed_of_settled : i.contact.settled = true → i.contact.closed = true

section

variable (kind : InputKind) (id : UInt8) (window : UInt32)

def after : List Look → TrackedInput
  | [] => { kind, id }
  | look :: earlier => (after earlier).observe window look.closed (uptime look.time)

theorem kind_after (looks : List Look) : (after kind id window looks).kind = kind := by
  induction looks with
  | nil => rfl
  | cons look earlier ih => exact ih

theorem id_after (looks : List Look) : (after kind id window looks).id = id := by
  induction looks with
  | nil => rfl
  | cons look earlier ih => exact ih

theorem contact_after (looks : List Look) :
    (after kind id window looks).contact = Contact.after window looks := by
  induction looks with
  | nil => rfl
  | cons look earlier ih => rw [after, observe, ih, Contact.after]

/-- Only the look that ends a press writes down anything about presses that have ended. -/
theorem lastPress_after {looks : List Look} (hp : Look.Paced window looks)
    {pressed released : Nat} (h : Look.lastPress looks = some (pressed, released)) :
    (after kind id window looks).contact.releaseTime = uptime released ∧
      (after kind id window looks).duration = elapsed (uptime pressed) (uptime released) := by
  induction looks with
  | nil => simp [Look.lastPress] at h
  | cons look earlier ih =>
    have hknows := Contact.knows_after hp.tail
    rw [← contact_after kind id] at hknows
    have hrelease : (after kind id window (look :: earlier)).contact.releaseTime =
        if !look.closed && (after kind id window earlier).contact.closed then uptime look.time
        else (after kind id window earlier).contact.releaseTime := Contact.releaseTime_note ..
    have hduration : (after kind id window (look :: earlier)).duration =
        if (after kind id window earlier).contact.closed && !look.closed then
          elapsed (after kind id window earlier).contact.pressTime (uptime look.time)
        else (after kind id window earlier).duration := rfl
    rw [hrelease, hduration, hknows.closed]
    cases hr : Look.runStart earlier with
    | none =>
      rw [Look.lastPress_idle hr] at h
      simpa using ih hp.tail h
    | some start =>
      cases hl : look.closed with
      | true =>
        rw [Look.lastPress_held hr hl] at h
        simpa using ih hp.tail h
      | false =>
        rw [Look.lastPress_released hr hl] at h
        obtain ⟨rfl, rfl⟩ := Prod.mk.inj (Option.some.inj h)
        rw [hknows.pressTime start hr]
        simp

theorem debounced_after {look : Look} {earlier : List Look}
    (hp : Look.Paced window (look :: earlier)) :
    (after kind id window (look :: earlier)).Debounced window (look :: earlier) look.time := by
  have hknows := Contact.knows_after hp
  rw [← contact_after kind id] at hknows
  have hclosed : (after kind id window (look :: earlier)).contact.settled = true →
      (after kind id window (look :: earlier)).contact.closed = true := by
    intro hsettled
    obtain ⟨start, hstart, -⟩ := hknows.settled.mp hsettled
    rw [hknows.closed, hstart, Option.isSome_some]
  refine ⟨?_, hknows.pressTime, fun _ _ h => lastPress_after kind id window hp h, hknows.closed,
    hclosed⟩
  rw [isActive, Bool.and_eq_true, and_iff_right_of_imp hclosed, hknows.settled, hp.held_iff]
  constructor
  · rintro ⟨start, hstart, hlong⟩
    obtain ⟨first, hfirst, rfl⟩ := Look.exists_of_runStart hstart
    exact ⟨first, hfirst, hlong⟩
  · rintro ⟨first, hfirst, hlong⟩
    obtain ⟨start, hstart⟩ := Look.runStart_of_mem hfirst
    have hle := hp.runStart_le_of_mem hstart hfirst
    exact ⟨start, hstart, by omega⟩

end

end TrackedInput

namespace Roster

variable {r : Roster} {place : Nat} {i : TrackedInput}

theorem getElem?_track (h : r.inputs[place]? = some i) (kind : InputKind) (id : UInt8) :
    (r.perform (.track kind id)).2.inputs[place]? = some i := by
  have hused : place < r.inputs.length := (List.getElem?_eq_some_iff.mp h).1
  rw [perform]
  split
  · exact (List.getElem?_append_left hused).trans h
  · exact h

theorem getElem?_track_self (hfree : r.inputs.length < maxTracked) (kind : InputKind) (id : UInt8) :
    (r.perform (.track kind id)).2.inputs[r.inputs.length]? = some { kind, id } := by
  rw [perform, if_pos hfree]
  exact List.getElem?_concat_length

/-- Whatever else leaves the table, an input is found where the others have moved it to. -/
theorem getElem?_untrack (h : r.inputs[place]? = some i) {other : Handle}
    (hne : other.index ≠ place) : (r.perform (.untrack other)).2.inputs[
      if other.index < place then place - 1 else place]? = some i := by
  have hused : place < r.inputs.length := (List.getElem?_eq_some_iff.mp h).1
  rw [perform]
  by_cases hother : other.index < r.inputs.length
  · rw [if_pos hother]
    by_cases hbefore : other.index < place
    · have hpast : ¬place - 1 < other.index := by omega
      have hplace : place - 1 + 1 = place := by omega
      rw [if_pos hbefore, List.getElem?_eraseIdx, if_neg hpast, hplace, h]
    · have hlt : place < other.index := by omega
      rw [if_neg hbefore, List.getElem?_eraseIdx, if_pos hlt, h]
  · have hbehind : ¬other.index < place := by omega
    rw [if_neg hother, if_neg hbehind, h]

theorem getElem?_update_of_ne (h : r.inputs[place]? = some i) {other : Handle}
    (hne : other.index ≠ place) (s : InputSnapshot) (now : UInt32) :
    (r.perform (.update other s now)).2.inputs[place]? = some i := by
  rw [perform]
  split
  · exact (List.getElem?_modify_ne _ _ hne).trans h
  · exact h

theorem getElem?_update_self (h : r.inputs[place]? = some i) {own : Handle}
    (hown : own.index = place) (s : InputSnapshot) (now : UInt32) :
    (r.perform (.update own s now)).2.inputs[place]? = some (r.observed s now i) := by
  subst hown
  have hused : own.index < r.inputs.length := (List.getElem?_eq_some_iff.mp h).1
  rw [perform, if_pos hused, List.getElem?_modify_eq, h]
  rfl

theorem getElem?_updateAll (h : r.inputs[place]? = some i) (s : InputSnapshot) (now : UInt32) :
    (r.perform (.updateAll s now)).2.inputs[place]? = some (r.observed s now i) := by
  rw [perform, List.getElem?_map, h]
  rfl

end Roster

namespace Tracker

/-- An input that was registered is at a place of the table now, after these looks at it. Others
come and go meanwhile, and are updated at whatever time. -/
inductive Keeps (kind : InputKind) (id : UInt8) : Tracker → Nat → List Look → Prop
  | register {t : Tracker} (free : t.length < maxTracked) :
    Keeps kind id (t.track kind id).2 t.length []
  | track {t : Tracker} {place : Nat} {looks : List Look} (h : Keeps kind id t place looks)
    (otherKind : InputKind) (otherId : UInt8) :
    Keeps kind id (t.track otherKind otherId).2 place looks
  | untrack {t : Tracker} {place : Nat} {looks : List Look} (h : Keeps kind id t place looks)
    {other : Handle} (hne : other.index ≠ place) :
    Keeps kind id (t.untrack other).2 (if other.index < place then place - 1 else place) looks
  | updateOther {t : Tracker} {place : Nat} {looks : List Look} (h : Keeps kind id t place looks)
    {other : Handle} (hne : other.index ≠ place) (s : InputSnapshot) (now : UInt32) :
    Keeps kind id (t.update other s now).2 place looks
  | update {t : Tracker} {place : Nat} {looks : List Look} (h : Keeps kind id t place looks)
    {own : Handle} (hown : own.index = place) (s : InputSnapshot) (time : Nat) :
    Keeps kind id (t.update own s (uptime time)).2 place (⟨time, s.isActive kind id⟩ :: looks)
  | updateAll {t : Tracker} {place : Nat} {looks : List Look} (h : Keeps kind id t place looks)
    (s : InputSnapshot) (time : Nat) :
    Keeps kind id (t.updateAll s (uptime time)) place (⟨time, s.isActive kind id⟩ :: looks)

variable {kind : InputKind} {id : UInt8} {t : Tracker} {place : Nat} {looks : List Look}

theorem window_track (t : Tracker) (kind : InputKind) (id : UInt8) :
    (t.track kind id).2.window = t.window := by
  rw [Tracker.track]
  split <;> rfl

theorem window_untrack (t : Tracker) (h : Handle) : (t.untrack h).2.window = t.window := by
  by_cases hused : h.index < t.length
  · obtain ⟨u, hrun, hfreed⟩ := t.untrack_of_used hused
    rw [hrun]
    funext kind
    cases kind <;> simp only [window, hfreed.debounce, hfreed.stickDebounce]
  · rw [t.untrack_of_unused hused]

theorem window_update (t : Tracker) (h : Handle) (s : InputSnapshot) (now : UInt32) :
    (t.update h s now).2.window = t.window := by
  rw [Tracker.update]
  split <;> rfl

theorem window_updateAll (t : Tracker) (s : InputSnapshot) (now : UInt32) :
    (t.updateAll s now).window = t.window := by
  rw [updateAll_eq]
  rfl

theorem observed_after (t : Tracker) (s : InputSnapshot) (time : Nat) (looks : List Look) :
    t.roster.observed s (uptime time) (.after kind id (t.window kind) looks) =
      .after kind id (t.window kind) (⟨time, s.isActive kind id⟩ :: looks) := by
  rw [roster_observed, observed, TrackedInput.kind_after, TrackedInput.id_after]
  rfl

/-- The entry at the place is what the looks alone have made of it. -/
theorem Keeps.entry (h : Keeps kind id t place looks) :
    t.roster.inputs[place]? = some (.after kind id (t.window kind) looks) := by
  induction h with
  | @register t free =>
    have hlength : t.roster.inputs.length = t.length := t.length_entries
    have hentry := Roster.getElem?_track_self (hlength ▸ free) kind id
    rw [hlength, ← (t.roster_track kind id).2] at hentry
    exact hentry
  | @track t place looks _ otherKind otherId ih =>
    rw [window_track]
    have hentry := Roster.getElem?_track ih otherKind otherId
    rw [← (t.roster_track otherKind otherId).2] at hentry
    exact hentry
  | @untrack t place looks _ other hne ih =>
    rw [window_untrack]
    have hentry := Roster.getElem?_untrack ih hne
    rw [← (t.roster_untrack other).2] at hentry
    exact hentry
  | @updateOther t place looks _ other hne s now ih =>
    rw [window_update]
    have hentry := Roster.getElem?_update_of_ne ih hne s now
    rw [← (t.roster_update other s now).2] at hentry
    exact hentry
  | @update t place looks _ own hown s time ih =>
    rw [window_update]
    have hentry := Roster.getElem?_update_self ih hown s (uptime time)
    rw [← (t.roster_update own s (uptime time)).2, observed_after] at hentry
    exact hentry
  | @updateAll t place looks _ s time ih =>
    rw [window_updateAll]
    have hentry := Roster.getElem?_updateAll ih s (uptime time)
    rw [← t.roster_updateAll s (uptime time), observed_after] at hentry
    exact hentry

/-- After every look that is not too late after the one before it, the tracker answers for an
input, wherever it has come to be, as debouncing over true time wants it. -/
theorem Keeps.debounced {look : Look} {earlier : List Look}
    (h : Keeps kind id t place (look :: earlier))
    (hp : Look.Paced (t.window kind) (look :: earlier)) {own : Handle} (hown : own.index = place) :
    ∃ i, t.get? own = some i ∧ i.kind = kind ∧ i.id = id ∧ t.isActive own = i.isActive ∧
      i.Debounced (t.window kind) (look :: earlier) look.time := by
  have hget : t.get? own = some (.after kind id (t.window kind) (look :: earlier)) := by
    rw [get?_eq, hown]
    exact h.entry
  refine ⟨_, hget, TrackedInput.kind_after .., TrackedInput.id_after .., ?_,
    TrackedInput.debounced_after kind id _ hp⟩
  rw [isActive, hget, Option.any_some]

/-- What a tracker is shown of a world in which nothing happens but to the panel. -/
def ofTouch (touching : Bool) : InputSnapshot where
  matrix := .ofConfig {}
  sampler := .ofConfig {}
  touching

/-- A touch behind a key: the panel is touched, let go and touched again, and the key has left the
table by the time the counter wraps. -/
def shifted : Tracker :=
  let t := ((ofConfig {}).track .button 0).2
  let t := (t.track .touch 0).2.updateAll (ofTouch true) (uptime 4294967270)
  let t := t.updateAll (ofTouch false) (uptime 4294967280)
  let t := t.updateAll (ofTouch true) (uptime 4294967290)
  ((t.untrack ⟨0⟩).2.update ⟨0⟩ (ofTouch true) (uptime 4294967299)).2

theorem keeps_shifted : Keeps .touch 0 shifted 0
    [⟨4294967299, true⟩, ⟨4294967290, true⟩, ⟨4294967280, false⟩, ⟨4294967270, true⟩] := by
  let t := ((ofConfig {}).track .button 0).2
  have hfree : t.length < maxTracked := by decide
  have htouch : Keeps .touch 0 (t.track .touch 0).2 t.length [] := .register hfree
  have hlooks := ((htouch.updateAll (ofTouch true) 4294967270).updateAll (ofTouch false)
    4294967280).updateAll (ofTouch true) 4294967290
  have hother : (⟨0⟩ : Handle).index ≠ t.length := by decide
  have hmoved : (⟨0⟩ : Handle).index = if (⟨0⟩ : Handle).index < t.length then t.length - 1
    else t.length := rfl
  exact (hlooks.untrack hother).update hmoved (ofTouch true) 4294967299

theorem debounced_shifted :
    Keeps .touch 0 shifted 0
        [⟨4294967299, true⟩, ⟨4294967290, true⟩, ⟨4294967280, false⟩, ⟨4294967270, true⟩] ∧
      shifted.isActive ⟨0⟩ = true ∧ ∃ i, shifted.get? ⟨0⟩ = some i ∧
        i.contact.pressTime = 4294967290 ∧ i.contact.releaseTime = 4294967280 ∧
        i.duration = 10 := by
  have hpaced : Look.Paced (shifted.window .touch)
      [⟨4294967299, true⟩, ⟨4294967290, true⟩, ⟨4294967280, false⟩, ⟨4294967270, true⟩] := by
    have hwindow : shifted.window .touch = 5 := by decide +kernel
    rw [hwindow]
    simp only [Look.Paced, List.isChain_cons_cons, List.isChain_singleton]
    decide
  have hfirst : (⟨0⟩ : Handle).index = 0 := rfl
  obtain ⟨i, hget, -, -, hactive, hdebounced⟩ := keeps_shifted.debounced hpaced hfirst
  obtain ⟨hreleased, hduration⟩ :=
    hdebounced.lastPress 4294967270 4294967280 (by decide +kernel)
  refine ⟨keeps_shifted, ?_, i, hget,
    hdebounced.pressTime 4294967290 (by decide +kernel), hreleased,
    hduration⟩
  rw [hactive, hdebounced.isActive]
  exact ⟨⟨4294967290, true⟩, by simp [Look.run], by decide +kernel⟩

end Tracker

end TwinStick
