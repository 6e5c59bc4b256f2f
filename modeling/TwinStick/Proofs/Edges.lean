import Mathlib
import TwinStick.Proofs.Debounce

/-! The edges that the matrix reports of a switch. A press is reported once a closure has lasted
for the window, a release at the end of every closure, so the two alternate exactly as long as no
closure ended before its press was reported.

Histories have their newest entry first. -/

namespace TwinStick

/-- What a sweep found at a switch, and the window in force then. -/
structure Sweep where
  time : UInt32
  window : UInt32
  closed : Bool

namespace Sweep

/-- When the closure that the newest sweep is part of began. -/
def since : List Sweep → Option UInt32
  | [] => none
  | sweep :: earlier => if sweep.closed then some ((since earlier).getD sweep.time) else none

/-- That closure lasted for the window at one of its sweeps. -/
def lasted : List Sweep → Bool
  | [] => false
  | sweep :: earlier => sweep.closed &&
      (lasted earlier || sweep.window ≤ elapsed ((since earlier).getD sweep.time) sweep.time)

/-- Some closure ended before it had lasted. -/
def bounced : List Sweep → Bool
  | [] => false
  | sweep :: earlier => bounced earlier ||
      (!sweep.closed && (since earlier).isSome && !lasted earlier)

section

variable {sweep : Sweep} {earlier : List Sweep}

theorem since_open (h : sweep.closed = false) : since (sweep :: earlier) = none := by
  rw [since, h]
  rfl

theorem since_closed (h : sweep.closed = true) :
    since (sweep :: earlier) = some ((since earlier).getD sweep.time) := by
  rw [since, h]
  rfl

theorem lasted_open (h : sweep.closed = false) : lasted (sweep :: earlier) = false := by
  rw [lasted, h]
  rfl

theorem lasted_closed (h : sweep.closed = true) : lasted (sweep :: earlier) =
    (lasted earlier || decide (sweep.window ≤
      elapsed ((since earlier).getD sweep.time) sweep.time)) := by
  rw [lasted, h, Bool.true_and]

theorem lasted_of_since_none {sweeps : List Sweep} (h : since sweeps = none) :
    lasted sweeps = false := by
  cases sweeps with
  | nil => rfl
  | cons sweep earlier =>
    cases hc : sweep.closed with
    | false => exact lasted_open hc
    | true =>
      rw [since_closed hc] at h
      exact nomatch h

theorem bounced_closed (h : sweep.closed = true) :
    bounced (sweep :: earlier) = bounced earlier := by
  rw [bounced, h]
  exact Bool.or_false _

theorem bounced_open (h : sweep.closed = false) : bounced (sweep :: earlier) =
    (bounced earlier || ((since earlier).isSome && !lasted earlier)) := by
  rw [bounced, h]
  rfl

end

end Sweep

inductive Edge
  | press
  | release
deriving DecidableEq

namespace Edge

/-- Presses and releases take turns, and the first of them is a press. -/
def Alternate (edges : List Edge) : Prop :=
  edges.IsChain (· ≠ ·) ∧ ∀ first ∈ edges.getLast?, first = press

instance : DecidablePred Alternate := fun _ => inferInstanceAs (Decidable (_ ∧ _))

/-- What sweeps of a switch are to report of it. -/
def ofSweeps : List Sweep → List Edge
  | [] => []
  | sweep :: earlier =>
    (if Sweep.lasted (sweep :: earlier) && !Sweep.lasted earlier then [press] else []) ++
      (if !sweep.closed && (Sweep.since earlier).isSome then [release] else []) ++
      ofSweeps earlier

theorem alternate_press (edges : List Edge) :
    Alternate (press :: edges) ↔ Alternate edges ∧ edges.head? ≠ some press := by
  cases edges with
  | nil => decide
  | cons edge rest =>
    rw [Alternate, Alternate, List.isChain_cons_cons, List.getLast?_cons_cons, List.head?_cons]
    rw [Ne, Ne, Option.some.injEq, eq_comm]
    tauto

theorem alternate_release (edges : List Edge) :
    Alternate (release :: edges) ↔ Alternate edges ∧ edges.head? = some press := by
  cases edges with
  | nil => decide
  | cons edge rest =>
    rw [Alternate, Alternate, List.isChain_cons_cons, List.getLast?_cons_cons, List.head?_cons]
    cases edge <;> simp

section

variable {sweep : Sweep} {earlier : List Sweep}

theorem ofSweeps_closed (h : sweep.closed = true) : ofSweeps (sweep :: earlier) =
    if Sweep.lasted (sweep :: earlier) && !Sweep.lasted earlier then press :: ofSweeps earlier
    else ofSweeps earlier := by
  rw [ofSweeps, h]
  split <;> rfl

theorem ofSweeps_open (h : sweep.closed = false) : ofSweeps (sweep :: earlier) =
    if (Sweep.since earlier).isSome then release :: ofSweeps earlier else ofSweeps earlier := by
  rw [ofSweeps, h, Sweep.lasted_open h]
  cases (Sweep.since earlier).isSome <;> rfl

/-- The last edge was a press exactly while the closure has lasted. -/
theorem head_ofSweeps (sweeps : List Sweep) :
    (ofSweeps sweeps).head? = some press ↔ Sweep.lasted sweeps = true := by
  induction sweeps with
  | nil => decide
  | cons sweep earlier ih =>
    cases hc : sweep.closed with
    | false =>
      rw [ofSweeps_open hc, Sweep.lasted_open hc]
      cases hs : Sweep.since earlier with
      | none =>
        rw [Sweep.lasted_of_since_none hs] at ih
        exact ih
      | some start => simp
    | true =>
      rw [ofSweeps_closed hc]
      cases hbefore : Sweep.lasted earlier with
      | false =>
        rw [hbefore] at ih
        cases hnow : Sweep.lasted (sweep :: earlier) with
        | false => exact ih
        | true => simp
      | true =>
        have hnow : Sweep.lasted (sweep :: earlier) = true := by
          rw [Sweep.lasted_closed hc, hbefore, Bool.true_or]
        rw [hnow, Bool.not_true, Bool.and_false, if_neg Bool.false_ne_true, ih, hbefore]

theorem alternate_ofSweeps (sweeps : List Sweep) :
    Alternate (ofSweeps sweeps) ↔ Sweep.bounced sweeps = false := by
  induction sweeps with
  | nil => exact iff_of_true (by decide) rfl
  | cons sweep earlier ih =>
    have hhead := head_ofSweeps earlier
    cases hc : sweep.closed with
    | false =>
      rw [ofSweeps_open hc, Sweep.bounced_open hc]
      cases hs : Sweep.since earlier with
      | none => simpa using ih
      | some start =>
        rw [Option.isSome_some, if_pos rfl, alternate_release, ih, hhead, Bool.true_and,
          Bool.or_eq_false_iff, Bool.not_eq_false']
    | true =>
      rw [ofSweeps_closed hc, Sweep.bounced_closed hc]
      split
      · rename_i hpress
        have hbefore : Sweep.lasted earlier ≠ true := by simp_all
        rw [alternate_press, ih, Ne, hhead]
        exact and_iff_left hbefore
      · exact ih

end

end Edge

namespace KeyCell

def ofSweeps : List Sweep → KeyCell
  | [] => {}
  | sweep :: earlier => (ofSweeps earlier).sweep sweep.window sweep.time sweep.closed

/-- What a switch tells of the sweeps of it. -/
structure Tells (sweeps : List Sweep) (cell : KeyCell) : Prop where
  closed : cell.contact.closed = (Sweep.since sweeps).isSome
  settled : cell.contact.settled = Sweep.lasted sweeps
  pressTime : ∀ start, Sweep.since sweeps = some start → cell.contact.pressTime = start

section

variable {sweep : Sweep} {earlier : List Sweep} {cell : KeyCell}

theorem Tells.note_pressTime (h : Tells earlier cell) :
    (cell.contact.note true sweep.time).pressTime =
      (Sweep.since earlier).getD sweep.time := by
  rw [Contact.pressTime_note, h.closed]
  cases hs : Sweep.since earlier with
  | none => rfl
  | some start => exact h.pressTime start hs

theorem Tells.note_settled (h : Tells earlier cell) :
    (cell.contact.note true sweep.time).settled = Sweep.lasted earlier := by
  rw [Contact.settled_note, h.closed, h.settled]
  cases hs : Sweep.since earlier with
  | none => rw [Sweep.lasted_of_since_none hs, Bool.and_false]
  | some start => rfl

theorem Tells.settles (h : Tells earlier cell) (sweep : Sweep) :
    (cell.contact.note sweep.closed sweep.time).settles sweep.window sweep.time =
      (Sweep.lasted (sweep :: earlier) && !Sweep.lasted earlier) := by
  cases hc : sweep.closed with
  | false => rw [Contact.settles, Contact.note_closed, Sweep.lasted_open hc]; rfl
  | true =>
    rw [Contact.settles, Contact.note_closed, h.note_pressTime, h.note_settled,
      Sweep.lasted_closed hc]
    cases Sweep.lasted earlier <;> simp

theorem Tells.swept (h : Tells earlier cell) :
    Tells (sweep :: earlier) (cell.sweep sweep.window sweep.time sweep.closed) := by
  have hsettles := h.settles sweep
  cases hc : sweep.closed with
  | false =>
    rw [hc] at hsettles
    refine ⟨?_, ?_, fun start hstart => ?_⟩
    · rw [KeyCell.sweep, Contact.observe_closed, Sweep.since_open hc]
      rfl
    · have hunsettled : (cell.contact.note false sweep.time).settled = false := by
        rw [Contact.settled_note, h.closed, h.settled]
        cases hs : Sweep.since earlier with
        | none => rw [Sweep.lasted_of_since_none hs, Bool.and_false]
        | some start => rfl
      rw [KeyCell.sweep, Contact.observe]
      dsimp only
      rw [hunsettled, hsettles, Sweep.lasted_open hc]
      rfl
    · rw [Sweep.since_open hc] at hstart
      cases hstart
  | true =>
    rw [hc] at hsettles
    refine ⟨?_, ?_, fun start hstart => ?_⟩
    · rw [KeyCell.sweep, Contact.observe_closed, Sweep.since_closed hc]
      rfl
    · rw [KeyCell.sweep, Contact.observe]
      dsimp only
      rw [h.note_settled, hsettles, Sweep.lasted_closed hc]
      cases Sweep.lasted earlier <;> simp
    · rw [Sweep.since_closed hc] at hstart
      rw [← Option.some.inj hstart]
      exact h.note_pressTime

theorem tells_ofSweeps (sweeps : List Sweep) : Tells sweeps (ofSweeps sweeps) := by
  induction sweeps with
  | nil => exact ⟨rfl, rfl, nofun⟩
  | cons sweep earlier ih => exact ih.swept

theorem justPressed_ofSweeps (sweep : Sweep) (earlier : List Sweep) :
    (ofSweeps (sweep :: earlier)).justPressed =
      (Sweep.lasted (sweep :: earlier) && !Sweep.lasted earlier) := by
  have hsettles := (tells_ofSweeps earlier).settles sweep
  rw [justPressed, ofSweeps, KeyCell.sweep]
  dsimp only
  rw [Contact.observe_closed, hsettles]
  cases hc : sweep.closed with
  | false => rw [Sweep.lasted_open hc]; rfl
  | true => rw [Bool.true_and]

theorem justReleased_ofSweeps (sweep : Sweep) (earlier : List Sweep) :
    (ofSweeps (sweep :: earlier)).justReleased =
      (!sweep.closed && (Sweep.since earlier).isSome) := by
  rw [justReleased, ofSweeps, KeyCell.sweep]
  dsimp only
  rw [Contact.observe_closed, Contact.observe_wasClosed, (tells_ofSweeps earlier).closed]

end

end KeyCell

/-- What can be done with a matrix between two looks at it. -/
inductive MatrixCall
  | scan (closed : Nat → Nat → Bool) (now : UInt32)
  | configure (config : ScannerConfig)

namespace Scanner

section

variable (rows cols : Nat) (config : ScannerConfig)

/-- A matrix after these calls. -/
def ran : List MatrixCall → Scanner rows cols
  | [] => .ofConfig config
  | .scan closed now :: earlier => ((ran earlier).scan closed now).2
  | .configure config :: earlier => (ran earlier).withConfig config

/-- What the scans that swept the matrix found at a place. -/
def sweepsAt (row col : Nat) : List MatrixCall → List Sweep
  | [] => []
  | .scan closed now :: earlier =>
    if ((ran rows cols config earlier).scan closed now).1 then
      ⟨now, (ran rows cols config earlier).config.debounce, closed row col⟩ ::
        sweepsAt row col earlier
    else sweepsAt row col earlier
  | .configure _ :: earlier => sweepsAt row col earlier

/-- What the matrix answers when it is asked for the edges at a place. -/
def edges {rows cols : Nat} (s : Scanner rows cols) (row col : Nat) : List Edge :=
  (if s.justPressed row col then [.press] else []) ++
    (if s.justReleased row col then [.release] else [])

/-- The edges at a place, asked for after every sweep. -/
def edgesAt (row col : Nat) : List MatrixCall → List Edge
  | [] => []
  | .scan closed now :: earlier =>
    if ((ran rows cols config earlier).scan closed now).1 then
      (ran rows cols config (.scan closed now :: earlier)).edges row col ++
        edgesAt row col earlier
    else edgesAt row col earlier
  | .configure _ :: earlier => edgesAt row col earlier

theorem cell?_ran (calls : List MatrixCall) {row col : Nat} (hrow : row < rows)
    (hcol : col < cols) : (ran rows cols config calls).cell? row col =
      some (.ofSweeps (sweepsAt rows cols config row col calls)) := by
  induction calls with
  | nil => simp [ran, ofConfig, cell?, hrow, hcol, sweepsAt, KeyCell.ofSweeps]
  | cons call earlier ih =>
    cases call with
    | configure config => exact ih
    | scan closed now =>
      rw [ran, sweepsAt]
      cases hdue : (ran rows cols config earlier).cadence.due now with
      | false =>
        rw [scan_of_not_due hdue, if_neg Bool.false_ne_true]
        exact ih
      | true =>
        rw [cell?_scan_of_due hdue, scan_of_due hdue, if_pos rfl, ih]
        rfl

theorem edges_of_cell? {rows cols : Nat} {s : Scanner rows cols} {row col : Nat} {sweep : Sweep}
    {earlier : List Sweep} (h : s.cell? row col = some (.ofSweeps (sweep :: earlier))) :
    s.edges row col ++ Edge.ofSweeps earlier = Edge.ofSweeps (sweep :: earlier) := by
  rw [edges, justPressed, justReleased, h, Option.any_some, Option.any_some,
    KeyCell.justPressed_ofSweeps, KeyCell.justReleased_ofSweeps, Edge.ofSweeps]

/-- The matrix reports of a switch what the sweeps of it are to tell. -/
theorem edgesAt_eq (calls : List MatrixCall) {row col : Nat} (hrow : row < rows)
    (hcol : col < cols) : edgesAt rows cols config row col calls =
      Edge.ofSweeps (sweepsAt rows cols config row col calls) := by
  induction calls with
  | nil => rfl
  | cons call earlier ih =>
    cases call with
    | configure config => exact ih
    | scan closed now =>
      have hcell := cell?_ran rows cols config (.scan closed now :: earlier) hrow hcol
      rw [sweepsAt] at hcell
      rw [edgesAt, sweepsAt]
      by_cases hswept : ((ran rows cols config earlier).scan closed now).1 = true
      · rw [if_pos hswept] at hcell
        rw [if_pos hswept, if_pos hswept, ih]
        exact edges_of_cell? hcell
      · rw [if_neg hswept, if_neg hswept, ih]

/-- A press is reported where a closure has lasted for the window and a release where one ends,
and they alternate exactly if no closure ends before it has lasted. -/
theorem edges_alternate_iff (calls : List MatrixCall) {row col : Nat} (hrow : row < rows)
    (hcol : col < cols) :
    edgesAt rows cols config row col calls =
        Edge.ofSweeps (sweepsAt rows cols config row col calls) ∧
      (Edge.Alternate (edgesAt rows cols config row col calls) ↔
        Sweep.bounced (sweepsAt rows cols config row col calls) = false) := by
  have hedges := edgesAt_eq rows cols config calls hrow hcol
  refine ⟨hedges, ?_⟩
  rw [hedges]
  exact Edge.alternate_ofSweeps _

/-- A key that is held for the window, let go and tapped again for less than it. -/
theorem edges_alternate_iff_tapped :
    edgesAt 2 4 {} 1 3 [.scan (fun _ _ => false) 20, .scan (fun _ _ => true) 15,
        .scan (fun _ _ => false) 10, .scan (fun _ _ => true) 5, .scan (fun _ _ => true) 0] =
        [.release, .release, .press] ∧
      ¬Edge.Alternate (edgesAt 2 4 {} 1 3 [.scan (fun _ _ => false) 20,
        .scan (fun _ _ => true) 15, .scan (fun _ _ => false) 10, .scan (fun _ _ => true) 5,
        .scan (fun _ _ => true) 0]) := by
  obtain ⟨hedges, halternate⟩ := edges_alternate_iff 2 4 {}
    [.scan (fun _ _ => false) 20, .scan (fun _ _ => true) 15, .scan (fun _ _ => false) 10,
      .scan (fun _ _ => true) 5, .scan (fun _ _ => true) 0]
    (show 1 < 2 by decide) (show 3 < 4 by decide)
  rw [halternate, hedges]
  decide

/-- A switch that is found closed at one sweep only, for less than the window, gives a release
without a press. -/
theorem edges_not_alternate :
    ¬Edge.Alternate (edgesAt 1 1 {} 0 0 [.scan (fun _ _ => false) 10, .scan (fun _ _ => true) 5,
      .scan (fun _ _ => false) 0]) := by
  decide

end

end Scanner

end TwinStick
