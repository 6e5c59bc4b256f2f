import Mathlib
import TwinStick.Proofs.TrueTime
import TwinStick.Keys.Scanner

/-! Debouncing over whole histories. A contact that is looked at often enough knows, however
long it is held and however often the counter wraps, since when it has been closed without a
break, and is settled exactly from the first look at which that is the whole window.

Histories have their newest entry first. -/

namespace TwinStick

/-- What a look at a contact found. -/
structure Look where
  time : Nat
  closed : Bool

namespace Look

/-- The unbroken run of closed looks that the newest one ends. -/
def run (looks : List Look) : List Look := looks.takeWhile (·.closed)

/-- When that run began. -/
def runStart (looks : List Look) : Option Nat := (run looks).getLast?.map (·.time)

/-- The run lasted for the window at one of its looks. -/
def Held (window : UInt32) (looks : List Look) : Prop :=
  ∃ start, runStart looks = some start ∧ ∃ look ∈ run looks, start + window.toNat ≤ look.time

/-- Looks in order, so close together that a contact not settled at one of them cannot have
been closed for the counter's range at the next. -/
def Paced (window : UInt32) (looks : List Look) : Prop :=
  looks.IsChain fun later earlier =>
    earlier.time ≤ later.time ∧ later.time + window.toNat ≤ earlier.time + wrap

section

variable {window : UInt32} {look : Look} {earlier : List Look} {start : Nat}

theorem runStart_nil : runStart [] = none := rfl

theorem run_open (h : look.closed = false) : run (look :: earlier) = [] := by
  rw [run, List.takeWhile_cons, h]
  rfl

theorem run_closed (h : look.closed = true) : run (look :: earlier) = look :: run earlier := by
  rw [run, List.takeWhile_cons, h]
  rfl

theorem runStart_open (h : look.closed = false) : runStart (look :: earlier) = none := by
  rw [runStart, run_open h]
  rfl

theorem runStart_closed (h : look.closed = true) :
    runStart (look :: earlier) = some ((runStart earlier).getD look.time) := by
  rw [runStart, run_closed h, runStart]
  cases run earlier with
  | nil => rfl
  | cons next rest =>
    rw [List.getLast?_cons_cons, List.getLast?_cons]
    rfl

theorem mem_of_mem_run {looks : List Look} (h : look ∈ run looks) : look ∈ looks :=
  (List.takeWhile_sublist _).subset h

theorem exists_of_runStart {looks : List Look} (h : runStart looks = some start) :
    ∃ first ∈ run looks, first.time = start := by
  obtain ⟨first, hfirst, rfl⟩ := Option.map_eq_some_iff.mp h
  exact ⟨first, List.mem_of_getLast? hfirst, rfl⟩

theorem runStart_of_mem {looks : List Look} (h : look ∈ run looks) :
    ∃ start, runStart looks = some start := by
  rw [runStart]
  cases hl : (run looks).getLast? with
  | none =>
    rw [List.getLast?_eq_none_iff.mp hl] at h
    exact absurd h List.not_mem_nil
  | some first => exact ⟨first.time, rfl⟩

theorem not_held_open (h : look.closed = false) : ¬Held window (look :: earlier) := by
  rintro ⟨start, hstart, -⟩
  rw [runStart_open h] at hstart
  exact nomatch hstart

theorem held_closed (h : look.closed = true) :
    Held window (look :: earlier) ↔
      Held window earlier ∨ (runStart earlier).getD look.time + window.toNat ≤ look.time := by
  rw [Held, runStart_closed h, run_closed h]
  constructor
  · rintro ⟨start, hstart, found, hmem, hlong⟩
    rw [← Option.some.inj hstart] at hlong
    rcases List.mem_cons.mp hmem with rfl | hrun
    · exact .inr hlong
    · obtain ⟨start, hstart⟩ := runStart_of_mem hrun
      rw [hstart] at hlong
      exact .inl ⟨start, hstart, found, hrun, hlong⟩
  · rintro (⟨start, hstart, found, hrun, hlong⟩ | hlong)
    · exact ⟨start, by rw [hstart]; rfl, found, List.mem_cons_of_mem _ hrun, hlong⟩
    · exact ⟨_, rfl, look, List.mem_cons_self, hlong⟩

theorem not_held_iff (looks : List Look) (otherwise : Nat) :
    ¬Held window looks ↔
      ∀ found ∈ run looks, found.time < (runStart looks).getD otherwise + window.toNat := by
  refine ⟨fun hshort found hfound => ?_, ?_⟩
  · obtain ⟨start, hstart⟩ := runStart_of_mem hfound
    by_contra hlong
    rw [hstart, Option.getD_some, Nat.not_lt] at hlong
    exact hshort ⟨start, hstart, found, hfound, hlong⟩
  · rintro hshort ⟨start, hstart, found, hfound, hlong⟩
    have hlt := hshort found hfound
    rw [hstart, Option.getD_some] at hlt
    omega

theorem Paced.tail (h : Paced window (look :: earlier)) : Paced window earlier :=
  List.IsChain.of_cons h

theorem Paced.time_le (h : Paced window (look :: earlier)) {found : Look}
    (hf : found ∈ earlier) : found.time ≤ look.time := by
  induction earlier generalizing look with
  | nil => exact absurd hf List.not_mem_nil
  | cons next rest ih =>
    have hnext := (List.isChain_cons_cons.mp h).1.1
    rcases List.mem_cons.mp hf with rfl | hrest
    · exact hnext
    · exact (ih h.tail hrest).trans hnext

theorem Paced.runStart_le (h : Paced window (look :: earlier)) :
    (runStart earlier).getD look.time ≤ look.time := by
  cases hs : runStart earlier with
  | none => exact le_rfl
  | some start =>
    obtain ⟨first, hfirst, rfl⟩ := exists_of_runStart hs
    exact h.time_le (mem_of_mem_run hfirst)

/-- A run that was too short at the look before began less than a round of the counter ago. -/
theorem Paced.soon (h : Paced window (look :: earlier)) (hshort : ¬Held window earlier) :
    look.time < (runStart earlier).getD look.time + wrap := by
  have hwrap : 0 < wrap := by decide
  cases earlier with
  | nil => exact Nat.lt_add_of_pos_right hwrap
  | cons previous rest =>
    cases hclosed : previous.closed with
    | false =>
      rw [runStart_open hclosed]
      exact Nat.lt_add_of_pos_right hwrap
    | true =>
      -- the run was younger than the window at the look before, and the rest of the range
      -- is all that may lie between two looks
      have hgap := (List.isChain_cons_cons.mp h).1.2
      rw [held_closed hclosed, not_or] at hshort
      rw [runStart_closed hclosed, Option.getD_some]
      omega

/-- Times only grow, so a run that ever lasted for the window still does. -/
theorem Paced.held_iff (h : Paced window (look :: earlier)) :
    Held window (look :: earlier) ↔
      ∃ start, runStart (look :: earlier) = some start ∧ start + window.toNat ≤ look.time := by
  refine exists_congr fun start => and_congr_right fun hstart => ⟨?_, fun hlong => ?_⟩
  · rintro ⟨found, hfound, hlong⟩
    rcases List.mem_cons.mp (mem_of_mem_run hfound) with rfl | hrest
    · exact hlong
    · exact hlong.trans (h.time_le hrest)
  · refine ⟨look, ?_, hlong⟩
    cases hclosed : look.closed with
    | false =>
      rw [runStart_open hclosed] at hstart
      exact nomatch hstart
    | true =>
      rw [run_closed hclosed]
      exact List.mem_cons_self

end

end Look

namespace Contact

def after (window : UInt32) : List Look → Contact
  | [] => {}
  | look :: earlier => (after window earlier).observe window look.closed (uptime look.time)

theorem pressTime_note (c : Contact) (closed : Bool) (now : UInt32) :
    (c.note closed now).pressTime = if closed && !c.closed then now else c.pressTime := by
  cases closed <;> cases h : c.closed <;> simp [note, h]

theorem settled_note (c : Contact) (closed : Bool) (now : UInt32) :
    (c.note closed now).settled = (closed == c.closed && c.settled) := by
  cases closed <;> cases h : c.closed <;> simp [note, h]

/-- What a contact knows of the looks at it. -/
structure Knows (window : UInt32) (looks : List Look) (c : Contact) : Prop where
  closed : c.closed = (Look.runStart looks).isSome
  settled : c.settled = true ↔ Look.Held window looks
  pressTime : ∀ start, Look.runStart looks = some start → c.pressTime = uptime start

section

variable {window : UInt32} {look : Look} {earlier : List Look} {c : Contact}

theorem Knows.open_of_runStart (h : Knows window earlier c) (hs : Look.runStart earlier = none) :
    c.closed = false ∧ c.settled = false := by
  refine ⟨by rw [h.closed, hs]; rfl, ?_⟩
  rw [← Bool.not_eq_true, h.settled]
  rintro ⟨start, hstart, -⟩
  exact nomatch hs.symm.trans hstart

theorem Knows.note_pressTime (h : Knows window earlier c) (hl : look.closed = true) :
    (c.note look.closed (uptime look.time)).pressTime =
      uptime ((Look.runStart earlier).getD look.time) := by
  rw [pressTime_note, hl, h.closed]
  cases hs : Look.runStart earlier with
  | none => rfl
  | some start => exact h.pressTime start hs

theorem Knows.note_settled (h : Knows window earlier c) (hl : look.closed = true) :
    (c.note look.closed (uptime look.time)).settled = true ↔ Look.Held window earlier := by
  rw [settled_note, hl, ← h.settled]
  cases hs : Look.runStart earlier with
  | none =>
    obtain ⟨hopen, hunsettled⟩ := h.open_of_runStart hs
    rw [hopen, hunsettled]
    rfl
  | some start =>
    have hclosed : c.closed = true := by rw [h.closed, hs]; rfl
    rw [hclosed]
    rfl

/-- A contact settles at the first look at which its run has lasted for the window. -/
theorem Knows.settles_iff (h : Knows window earlier c) (hp : Look.Paced window (look :: earlier)) :
    (c.note look.closed (uptime look.time)).settles window (uptime look.time) = true ↔
      look.closed = true ∧ ¬Look.Held window earlier ∧
        (Look.runStart earlier).getD look.time + window.toNat ≤ look.time := by
  rw [settles, note_closed]
  cases hl : look.closed with
  | false => simp
  | true =>
    have hpress := h.note_pressTime hl
    have hsettled := h.note_settled hl
    rw [hl] at hpress hsettled
    simp only [Bool.true_and, Bool.and_eq_true, Bool.not_eq_true', decide_eq_true_iff, hpress,
      true_and]
    rw [← Bool.not_eq_true, hsettled]
    -- only an unsettled contact asks for the distance, and so never after a whole round
    refine and_congr_right fun hshort => ?_
    exact le_elapsed_iff hp.runStart_le (.inl (hp.soon hshort))

theorem Knows.observe (h : Knows window earlier c) (hp : Look.Paced window (look :: earlier)) :
    Knows window (look :: earlier) (c.observe window look.closed (uptime look.time)) := by
  have hsettles := h.settles_iff hp
  cases hl : look.closed with
  | false =>
    refine ⟨?_, ?_, fun start hstart => ?_⟩
    · rw [observe_closed, Look.runStart_open hl]
      rfl
    · have hunsettled : (c.note false (uptime look.time)).settled = false := by
        rw [settled_note]
        cases hc : c.closed with
        | true => rfl
        | false =>
          refine (h.open_of_runStart ?_).2
          rwa [h.closed, Option.isSome_eq_false_iff, Option.isNone_iff_eq_none] at hc
      rw [hl] at hsettles
      refine iff_of_false ?_ (Look.not_held_open hl)
      rw [Contact.observe, hunsettled, Bool.false_or, hsettles]
      exact fun hs => Bool.false_ne_true hs.1
    · rw [Look.runStart_open hl] at hstart
      exact nomatch hstart
  | true =>
    have hpress := h.note_pressTime hl
    have hsettled := h.note_settled hl
    rw [hl] at hpress hsettled hsettles
    refine ⟨?_, ?_, fun start hstart => ?_⟩
    · rw [observe_closed, Look.runStart_closed hl]
      rfl
    · rw [Look.held_closed hl, Contact.observe]
      dsimp only
      rw [Bool.or_eq_true, hsettled, hsettles]
      tauto
    · rw [Look.runStart_closed hl] at hstart
      rw [← Option.some.inj hstart]
      exact hpress

theorem knows_after {looks : List Look} (h : Look.Paced window looks) :
    Knows window looks (after window looks) := by
  induction looks with
  | nil =>
    have hheld : ¬ Look.Held window [] := by simp [Look.Held, Look.runStart_nil]
    exact ⟨rfl, iff_of_false Bool.false_ne_true hheld, nofun⟩
  | cons look earlier ih => exact (ih h.tail).observe h

end

end Contact

namespace KeyCell

def after (window : UInt32) : List Look → KeyCell
  | [] => {}
  | look :: earlier => (after window earlier).sweep window (uptime look.time) look.closed

theorem contact_after (window : UInt32) (looks : List Look) :
    (after window looks).contact = Contact.after window looks := by
  induction looks with
  | nil => rfl
  | cons look earlier ih => rw [after, sweep, ih, Contact.after]

/-- What debouncing promises of a switch after the sweeps that found this. It is settled while
the run that began at a time has lasted for the window, and newly so at the first such sweep. -/
structure Debounced (window : UInt32) (looks : List Look) (now : Nat) (cell : KeyCell) :
    Prop where
  settled : cell.contact.settled = true ↔
    ∃ start, Look.runStart looks = some start ∧ start + window.toNat ≤ now
  justPressed : cell.justPressed = true ↔
    ∃ start, Look.runStart looks = some start ∧ start + window.toNat ≤ now ∧
      ∀ look ∈ (Look.run looks).tail, look.time < start + window.toNat
  pressTime : ∀ start, Look.runStart looks = some start → cell.contact.pressTime = uptime start

theorem debounced_after {window : UInt32} {look : Look} {earlier : List Look}
    (h : Look.Paced window (look :: earlier)) :
    Debounced window (look :: earlier) look.time (after window (look :: earlier)) := by
  have hknows := Contact.knows_after h
  have hbefore := Contact.knows_after h.tail
  rw [← contact_after] at hknows
  refine ⟨hknows.settled.trans h.held_iff, ?_, hknows.pressTime⟩
  have hsettles := hbefore.settles_iff h
  rw [← contact_after] at hsettles
  rw [justPressed, after, sweep, Contact.observe_closed, Bool.and_eq_true, hsettles]
  cases hl : look.closed with
  | false =>
    refine iff_of_false (fun hclosed => Bool.false_ne_true hclosed.1) ?_
    rintro ⟨start, hstart, -⟩
    exact nomatch (Look.runStart_open hl).symm.trans hstart
  | true =>
    rw [Look.runStart_closed hl, Look.run_closed hl, List.tail_cons,
      Look.not_held_iff earlier look.time]
    simp only [Option.some.injEq, exists_eq_left']
    tauto

end KeyCell

/-- What a scan of the whole matrix would find, if it sweeps. -/
structure Scan where
  time : Nat
  closed : Nat → Nat → Bool

def Scan.look (scan : Scan) (row col : Nat) : Look := ⟨scan.time, scan.closed row col⟩

namespace Scanner

section

variable (rows cols : Nat) (config : ScannerConfig)

def after : List Scan → Scanner rows cols
  | [] => .ofConfig config
  | scan :: earlier => ((after earlier).scan scan.closed (uptime scan.time)).2

/-- Whether a scan after these others sweeps the matrix. -/
def Sweeps (scan : Scan) (earlier : List Scan) : Prop :=
  ((after rows cols config earlier).scan scan.closed (uptime scan.time)).1 = true

instance (scan : Scan) (earlier : List Scan) : Decidable (Sweeps rows cols config scan earlier) :=
  inferInstanceAs (Decidable (_ = _))

/-- The scans that swept the matrix. -/
def sweeps : List Scan → List Scan
  | [] => []
  | scan :: earlier =>
    if Sweeps rows cols config scan earlier then scan :: sweeps earlier else sweeps earlier

/-- Scans in order, so close together that neither an interval nor a window can have passed
unnoticed. -/
def Paced (scans : List Scan) : Prop :=
  scans.IsChain fun later earlier => earlier.time ≤ later.time ∧
    later.time + config.interval.toNat + config.debounce.toNat ≤ earlier.time + wrap

end

section

variable {rows cols : Nat} {config : ScannerConfig} {scan : Scan} {earlier : List Scan}

theorem scan_of_due {s : Scanner rows cols} {now : UInt32} (h : s.cadence.due now = true)
    (closed : Nat → Nat → Bool) :
    s.scan closed now = (true, { s with
      cells := s.cells.mapIdx fun row cells =>
        cells.mapIdx fun col cell => cell.sweep s.config.debounce now (closed row col)
      cadence := { s.cadence with last := some now } }) := by
  rw [Scanner.scan, Cadence.poll_of_due h]
  rfl

theorem scan_of_not_due {s : Scanner rows cols} {now : UInt32} (h : s.cadence.due now = false)
    (closed : Nat → Nat → Bool) : s.scan closed now = (false, s) := by
  rw [Scanner.scan, Cadence.poll_of_not_due h]
  rfl

theorem cell?_scan_of_due {s : Scanner rows cols} {now : UInt32} (h : s.cadence.due now = true)
    (closed : Nat → Nat → Bool) (row col : Nat) :
    (s.scan closed now).2.cell? row col =
      (s.cell? row col).map (·.sweep s.config.debounce now (closed row col)) := by
  rw [scan_of_due h, cell?, cell?]
  simp only [Vector.getElem?_mapIdx]
  cases s.cells[row]? with
  | none => rfl
  | some cells => exact Vector.getElem?_mapIdx

theorem sweeps_iff_due : Sweeps rows cols config scan earlier ↔
    (after rows cols config earlier).cadence.due (uptime scan.time) = true := by
  cases hdue : (after rows cols config earlier).cadence.due (uptime scan.time) with
  | false => rw [Sweeps, scan_of_not_due hdue]
  | true => rw [Sweeps, scan_of_due hdue]

theorem after_of_not_sweeps (h : ¬Sweeps rows cols config scan earlier) :
    after rows cols config (scan :: earlier) = after rows cols config earlier := by
  rw [sweeps_iff_due, Bool.not_eq_true] at h
  rw [after, scan_of_not_due h]

theorem config_after (scans : List Scan) : (after rows cols config scans).config = config := by
  induction scans with
  | nil => rfl
  | cons scan earlier ih =>
    by_cases h : Sweeps rows cols config scan earlier
    · rw [after, scan_of_due (sweeps_iff_due.mp h)]
      exact ih
    · rw [after_of_not_sweeps h, ih]

theorem cadence_after (scans : List Scan) : (after rows cols config scans).cadence =
    ⟨config.interval, (sweeps rows cols config scans).head?.map (uptime ·.time)⟩ := by
  induction scans with
  | nil => rfl
  | cons scan earlier ih =>
    rw [sweeps]
    by_cases h : Sweeps rows cols config scan earlier
    · rw [after, scan_of_due (sweeps_iff_due.mp h), if_pos h, ih]
      rfl
    · rw [after_of_not_sweeps h, if_neg h, ih]

/-- A cell has seen what the sweeps found at its place, and nothing else. -/
theorem cell?_after (scans : List Scan) {row col : Nat} (hrow : row < rows) (hcol : col < cols) :
    (after rows cols config scans).cell? row col = some (.after config.debounce
      ((sweeps rows cols config scans).map (·.look row col))) := by
  induction scans with
  | nil => simp [after, ofConfig, cell?, hrow, hcol, sweeps, KeyCell.after]
  | cons scan earlier ih =>
    rw [sweeps]
    by_cases h : Sweeps rows cols config scan earlier
    · rw [after, cell?_scan_of_due (sweeps_iff_due.mp h), if_pos h, config_after, ih]
      rfl
    · rw [after_of_not_sweeps h, if_neg h, ih]

theorem cadence_last_after {last : Scan} {rest : List Scan}
    (h : sweeps rows cols config earlier = last :: rest) :
    (after rows cols config earlier).cadence.last = some (uptime last.time) := by
  rw [cadence_after, h]
  rfl

theorem period_after (scans : List Scan) :
    (after rows cols config scans).cadence.period = config.interval := by
  rw [cadence_after]

theorem sweeps_first (scan : Scan) : Sweeps rows cols config scan [] :=
  sweeps_iff_due.mpr (Cadence.due_none rfl _)

theorem sweeps_iff_of_last {last : Scan} {rest : List Scan}
    (hlast : sweeps rows cols config earlier = last :: rest) (hle : last.time ≤ scan.time)
    (hsoon : scan.time < last.time + wrap ∨ config.interval.toNat = 0) :
    Sweeps rows cols config scan earlier ↔
      last.time + config.interval.toNat ≤ scan.time := by
  rw [sweeps_iff_due, Cadence.due_iff (cadence_last_after hlast) hle (by rwa [period_after]),
    period_after]

/-- Since the last sweep less than an interval has passed, or nothing has. -/
def Recent (config : ScannerConfig) (last scan : Scan) : Prop :=
  last.time ≤ scan.time ∧
    (scan.time = last.time ∨ scan.time < last.time + config.interval.toNat)

theorem Recent.gap {last previous : Scan} (h : Recent config last previous)
    (hp : Paced config (scan :: previous :: earlier)) :
    last.time ≤ scan.time ∧ scan.time + config.debounce.toNat ≤ last.time + wrap ∧
      (scan.time < last.time + wrap ∨ config.interval.toNat = 0) := by
  obtain ⟨hnext, -⟩ := List.isChain_cons_cons.mp hp
  unfold Recent at h
  omega

variable (rows cols) in
theorem Paced.recent (h : Paced config (scan :: earlier)) :
    ∃ last rest, sweeps rows cols config (scan :: earlier) = last :: rest ∧
      Recent config last scan := by
  induction earlier generalizing scan with
  | nil => exact ⟨scan, [], if_pos (sweeps_first scan), le_rfl, .inl rfl⟩
  | cons previous earlier ih =>
    obtain ⟨last, rest, hlast, hrecent⟩ := ih (List.IsChain.of_cons h)
    obtain ⟨hle, -, hsoon⟩ := hrecent.gap h
    have hiff := sweeps_iff_of_last hlast hle hsoon
    by_cases hs : Sweeps rows cols config scan (previous :: earlier)
    · exact ⟨scan, _, if_pos hs, le_rfl, .inl rfl⟩
    · refine ⟨last, rest, (if_neg hs).trans hlast, hle, .inr ?_⟩
      rw [hiff] at hs
      exact Nat.lt_of_not_le hs

/-- A scan sweeps if it is the first, or at least an interval after the last sweep. -/
theorem Paced.sweeps_iff (h : Paced config (scan :: earlier)) :
    Sweeps rows cols config scan earlier ↔ earlier = [] ∨
      ∃ last, (sweeps rows cols config earlier).head? = some last ∧
        last.time + config.interval.toNat ≤ scan.time := by
  cases earlier with
  | nil => exact iff_of_true (sweeps_first scan) (.inl rfl)
  | cons previous earlier =>
    obtain ⟨last, rest, hlast, hrecent⟩ :=
      Paced.recent rows cols (List.IsChain.of_cons h)
    obtain ⟨hle, -, hsoon⟩ := hrecent.gap h
    rw [sweeps_iff_of_last hlast hle hsoon, hlast]
    simp

variable (rows cols) in
theorem Paced.looks (h : Paced config earlier) (row col : Nat) :
    Look.Paced config.debounce ((sweeps rows cols config earlier).map (·.look row col)) := by
  induction earlier with
  | nil => exact List.isChain_nil
  | cons scan earlier ih =>
    have hrest := ih (List.IsChain.of_cons h)
    rw [sweeps]
    split
    · cases earlier with
      | nil => exact List.isChain_singleton _
      | cons previous earlier =>
        obtain ⟨last, rest, hlast, hrecent⟩ :=
          Paced.recent rows cols (List.IsChain.of_cons h)
        obtain ⟨hle, hgap, -⟩ := hrecent.gap h
        rw [hlast] at hrest ⊢
        exact List.isChain_cons_cons.mpr ⟨⟨hle, hgap⟩, hrest⟩
    · exact hrest

/-- The sweeps that were made depend on the times only, and what they found at a place on what
was there. -/
theorem sweeps_congr {row col : Nat} {scans scans' : List Scan}
    (h : scans.map (·.look row col) = scans'.map (·.look row col)) :
    (sweeps rows cols config scans).map (·.look row col) =
      (sweeps rows cols config scans').map (·.look row col) := by
  induction scans generalizing scans' with
  | nil => rw [List.map_eq_nil_iff.mp h.symm]
  | cons scan earlier ih =>
    obtain ⟨scan', earlier', rfl, hscan, hearlier⟩ := List.map_eq_cons_iff.mp h.symm
    have hrest := ih hearlier.symm
    have htime : scan'.time = scan.time := congrArg Look.time hscan
    -- whether it is time to sweep depends on the last sweep, which the looks of one cell show
    have hsame : Sweeps rows cols config scan' earlier' ↔ Sweeps rows cols config scan earlier := by
      have hlast : ∀ found : List Scan, found.head?.map (uptime ·.time) =
          (found.map (·.look row col)).head?.map (uptime ·.time) := by
        intro found
        rw [List.head?_map, Option.map_map]
        rfl
      rw [sweeps_iff_due, sweeps_iff_due, htime, cadence_after, cadence_after, hlast, hlast, hrest]
    rw [sweeps, sweeps]
    by_cases hs : Sweeps rows cols config scan earlier
    · rw [if_pos hs, if_pos (hsame.mpr hs), List.map_cons, List.map_cons, hscan, hrest]
    · rw [if_neg hs, if_neg (mt hsame.mp hs), hrest]

/-- The matrix is debounced in unbounded time, each switch by itself. -/
theorem debounces (h : Paced config (scan :: earlier)) :
    (Sweeps rows cols config scan earlier ↔ earlier = [] ∨
      ∃ last, (sweeps rows cols config earlier).head? = some last ∧
        last.time + config.interval.toNat ≤ scan.time) ∧
    (¬Sweeps rows cols config scan earlier →
      after rows cols config (scan :: earlier) = after rows cols config earlier) ∧
    ∀ row < rows, ∀ col < cols,
      (Sweeps rows cols config scan earlier →
        ∃ cell, (after rows cols config (scan :: earlier)).cell? row col = some cell ∧
          cell.Debounced config.debounce
            ((scan :: sweeps rows cols config earlier).map (·.look row col)) scan.time) ∧
      ∀ others : List Scan,
        others.map (·.look row col) = (scan :: earlier).map (·.look row col) →
          (after rows cols config others).cell? row col =
            (after rows cols config (scan :: earlier)).cell? row col := by
  refine ⟨h.sweeps_iff, after_of_not_sweeps, fun row hrow col hcol => ⟨fun hs => ?_, ?_⟩⟩
  · have hsweeps : sweeps rows cols config (scan :: earlier) =
        scan :: sweeps rows cols config earlier := if_pos hs
    have hlooks := Paced.looks rows cols h row col
    rw [hsweeps] at hlooks
    refine ⟨_, cell?_after _ hrow hcol, ?_⟩
    rw [hsweeps]
    exact KeyCell.debounced_after hlooks
  · intro others hothers
    rw [cell?_after _ hrow hcol, cell?_after _ hrow hcol, sweeps_congr hothers]

/-- A key that is closed when the counter wraps counts as pressed as soon as any other. -/
theorem debounces_across_wrap :
    ∃ cell, (after 2 4 {} [⟨4294967300, fun _ _ => true⟩, ⟨4294967294, fun _ _ => true⟩,
        ⟨4294967288, fun _ _ => false⟩]).cell? 1 3 = some cell ∧
      cell.contact.settled = true ∧ cell.justPressed = true := by
  have hpaced : Paced {} [⟨4294967300, fun _ _ => true⟩, ⟨4294967294, fun _ _ => true⟩,
      ⟨4294967288, fun _ _ => false⟩] := by
    simp only [Paced, List.isChain_cons_cons, List.isChain_singleton]
    decide
  obtain ⟨-, -, hcells⟩ := @debounces 2 4 _ _ _ hpaced
  obtain ⟨cell, hcell, hdebounced⟩ := (hcells 1 (by decide) 3 (by decide)).1 (by decide +kernel)
  refine ⟨cell, hcell, hdebounced.settled.mpr ?_, hdebounced.justPressed.mpr ?_⟩
  · exact ⟨4294967294, by decide +kernel, by decide⟩
  · exact ⟨4294967294, by decide +kernel, by decide, by decide +kernel⟩

end

end Scanner

end TwinStick
