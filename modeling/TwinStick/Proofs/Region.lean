import TwinStick.Proofs.Records
import TwinStick.Store.Basic

/-! The region in flash: gates that grant some accesses and refuse others, slices
that survive a write elsewhere, and records that lie side by side. -/

namespace TwinStick

namespace Gate

/-- How many of the next accesses are granted before one is refused. -/
def streak : Gate → Nat → Nat
  | _, 0 => 0
  | g, n + 1 => if g.ask.1 then g.ask.2.streak n + 1 else 0

/-- The gate once so many accesses were asked for, the refused one being the last. -/
def after : Gate → Nat → Gate
  | g, 0 => g
  | g, n + 1 => if g.ask.1 then g.ask.2.after n else g.ask.2

section

variable {g : Gate} (n : Nat)

theorem streak_succ_of_granted (h : g.ask.1 = true) : g.streak (n + 1) = g.ask.2.streak n + 1 :=
  if_pos h

theorem streak_succ_of_refused (h : g.ask.1 = false) : g.streak (n + 1) = 0 := by
  rw [streak, h]
  rfl

theorem after_succ_of_granted (h : g.ask.1 = true) : g.after (n + 1) = g.ask.2.after n :=
  if_pos h

theorem after_succ_of_refused (h : g.ask.1 = false) : g.after (n + 1) = g.ask.2 := by
  rw [after, h]
  rfl

end

/-- From now on every access is granted. -/
def Free (g : Gate) : Prop := g.isOpen = true ∧ ∀ k, g.asked ≤ k → g.allows k = true

theorem free_default : Free {} := ⟨rfl, fun _ _ => rfl⟩

theorem Free.granted {g : Gate} (h : g.Free) : g.ask.1 = true := by
  simp [ask, h.1, h.2 g.asked le_rfl]

theorem Free.ask {g : Gate} (h : g.Free) : g.ask.2.Free := by
  obtain ⟨ho, ha⟩ := h
  rw [Gate.ask, if_pos ho]
  exact ⟨ho, fun k hk => ha k (Nat.le_of_succ_le hk)⟩

theorem Free.streak {g : Gate} (h : g.Free) (n : Nat) : g.streak n = n := by
  induction n generalizing g with
  | zero => rfl
  | succ n ih => rw [streak_succ_of_granted n h.granted, ih h.ask]

theorem Free.after {g : Gate} (h : g.Free) (n : Nat) : (g.after n).Free := by
  induction n generalizing g with
  | zero => exact h
  | succ n ih =>
    rw [after_succ_of_granted n h.granted]
    exact ih h.ask

theorem streak_le (g : Gate) (n : Nat) : g.streak n ≤ n := by
  induction n generalizing g with
  | zero => exact le_rfl
  | succ n ih =>
    have hh := ih g.ask.2
    rw [streak]
    split <;> omega

end Gate

namespace Flash

theorem capacity_overwrite {f : Flash} {offset : Nat} {bytes : List UInt8}
    (h : offset + bytes.length ≤ f.capacity) :
    (f.overwrite offset bytes).capacity = f.capacity := by
  simp only [capacity, overwrite, List.length_append, List.length_take, List.length_drop] at h ⊢
  omega

theorem slice_overwrite_self {f : Flash} {offset : Nat} {bytes : List UInt8}
    (h : offset + bytes.length ≤ f.capacity) :
    (f.overwrite offset bytes).slice offset bytes.length = bytes := by
  have hl : (f.bytes.take offset).length = offset := by
    rw [capacity] at h
    rw [List.length_take]
    omega
  rw [slice, overwrite, List.append_assoc, List.drop_left' hl, List.take_left' rfl]

theorem getElem?_overwrite {f : Flash} {offset i : Nat} {bytes : List UInt8}
    (h : offset + bytes.length ≤ f.capacity) (hi : i < offset ∨ offset + bytes.length ≤ i) :
    (f.overwrite offset bytes).bytes[i]? = f.bytes[i]? := by
  rw [capacity] at h
  have hl : (f.bytes.take offset).length = offset := by
    rw [List.length_take]
    omega
  rcases hi with hi | hi
  · have hlt : i < (f.bytes.take offset).length := by omega
    rw [overwrite, List.append_assoc, List.getElem?_append_left hlt, List.getElem?_take, if_pos hi]
  · have hle : (f.bytes.take offset ++ bytes).length ≤ i := by
      rw [List.length_append]
      omega
    rw [overwrite, List.getElem?_append_right hle, List.getElem?_drop, List.length_append, hl]
    congr 1
    omega

theorem slice_overwrite_of_disjoint {f : Flash} {offset other length : Nat} {bytes : List UInt8}
    (h : offset + bytes.length ≤ f.capacity)
    (hd : other + length ≤ offset ∨ offset + bytes.length ≤ other) :
    (f.overwrite offset bytes).slice other length = f.slice other length := by
  apply List.ext_getElem?
  intro i
  rw [slice, slice, List.getElem?_take, List.getElem?_take]
  by_cases hi : i < length
  · rw [if_pos hi, if_pos hi, List.getElem?_drop, List.getElem?_drop,
      getElem?_overwrite h (by omega)]
  · rw [if_neg hi, if_neg hi]

end Flash

namespace Part

theorem size_quick : QuickWord.codec.size = 4 := rfl

theorem size_manager : ManagerRecord.codec.size = 11 := rfl

theorem size_profile : ProfileRecord.codec.size = 71 := rfl

theorem offset_add_length_le (p : Part) : p.offset + p.length ≤ regionLength := by
  cases p with
  | quick => decide
  | manager => decide
  | profile slot =>
    have hs := slot.isLt
    simp only [offset, length, regionLength, size_quick, size_manager, size_profile, maxProfiles]
      at hs ⊢
    omega

theorem disjoint_of_ne {p q : Part} (h : p ≠ q) :
    q.offset + q.length ≤ p.offset ∨ p.offset + p.length ≤ q.offset := by
  cases p <;> cases q <;>
    simp only [ne_eq, not_true_eq_false, reduceCtorEq, not_false_eq_true, profile.injEq, offset,
      length, size_quick, size_manager, size_profile] at h ⊢
  all_goals omega

end Part

namespace Store

/-- The bytes of a record in flash. -/
def stored (s : Store) (p : Part) : List UInt8 :=
  s.flash.slice (s.base.toNat + p.offset) p.length

def region (s : Store) : Records where
  quick := QuickWord.codec.read (s.stored .quick)
  manager := ManagerRecord.codec.read (s.stored .manager)
  profiles := .ofFn fun slot => ProfileRecord.codec.read (s.stored (.profile slot))

/-- Every record has an address, and flash has room for the region. -/
structure Placed (s : Store) : Prop where
  address_lt (p : Part) : s.base.toNat + p.offset < UInt32.size
  room : s.base.toNat + regionLength ≤ s.flash.capacity

/-- Every record has an address, whether there is memory or not. -/
def Addressed (s : Store) : Prop := ∀ p : Part, s.base.toNat + p.offset < UInt32.size

theorem Placed.addressed {s : Store} (h : s.Placed) : s.Addressed := h.address_lt

theorem Addressed.congr {s t : Store} (h : s.Addressed) (hb : t.base = s.base) : t.Addressed := by
  intro p
  rw [hb]
  exact h p

/-- It is enough that the last record has one. -/
theorem addressed_of_lt {s : Store}
    (h : s.base.toNat + (Part.profile 3).offset < UInt32.size) : s.Addressed := by
  intro p
  have hlast : p.offset ≤ (Part.profile 3).offset := by
    cases p with
    | quick | manager => decide
    | profile slot =>
      have hslot : slot.val ≤ 3 := Nat.le_of_lt_succ slot.isLt
      exact Nat.add_le_add_left (Nat.mul_le_mul_right _ hslot) _
  omega

@[simp] theorem profile_region (s : Store) (slot : Fin maxProfiles) :
    s.region.profile slot = ProfileRecord.codec.read (s.stored (.profile slot)) := by
  simp [region, Records.profile]

theorem Placed.of_room {s : Store} (hb : s.base.toNat + regionLength ≤ UInt32.size)
    (h : s.base.toNat + regionLength ≤ s.flash.capacity) : s.Placed := by
  refine ⟨fun p => ?_, h⟩
  have hp := p.offset_add_length_le
  have hl : 0 < p.length := by
    cases p <;> simp only [Part.length, Part.size_quick, Part.size_manager, Part.size_profile,
      Nat.zero_lt_succ]
  omega

theorem placed_erased : (ofFlash (.erased regionLength) 0).Placed :=
  .of_room (by decide) (by simp [ofFlash, Flash.capacity, Flash.erased])

set_option maxRecDepth 100000 in
theorem isValid_erased :
    (ofFlash (.erased regionLength) 0).region.manager.isValid = false := by
  decide +kernel

theorem Placed.congr {s t : Store} (h : s.Placed) (hb : t.base = s.base)
    (hc : t.flash.capacity = s.flash.capacity) : t.Placed := by
  refine ⟨?_, ?_⟩
  · rw [hb]
    exact h.address_lt
  · rw [hb, hc]
    exact h.room

theorem Placed.end_le {s : Store} (h : s.Placed) (p : Part) :
    s.base.toNat + p.offset + p.length ≤ s.flash.capacity := by
  have hp := p.offset_add_length_le
  have hr := h.room
  omega

theorem Placed.length_stored {s : Store} (h : s.Placed) (p : Part) :
    (s.stored p).length = p.length := by
  have he := h.end_le p
  rw [Flash.capacity] at he
  rw [stored, Flash.slice, List.length_take, List.length_drop]
  omega

theorem Addressed.address {s : Store} (h : s.Addressed) (p : Part) :
    ∃ a, s.address p = .ok a ∧ a.toNat = s.base.toNat + p.offset := by
  have ha := h p
  have ho : (UInt32.ofNat p.offset).toNat = p.offset := by
    rw [UInt32.toNat_ofNat']
    exact Nat.mod_eq_of_lt (lt_of_le_of_lt (Nat.le_add_left _ _) ha)
  refine ⟨s.base + UInt32.ofNat p.offset, ?_, ?_⟩
  · rw [Store.address, Checked.addUInt32, ho, if_pos ha]
  · rw [UInt32.toNat_add, ho]
    exact Nat.mod_eq_of_lt ha

theorem Placed.address {s : Store} (h : s.Placed) (p : Part) :
    ∃ a, s.address p = .ok a ∧ a.toNat = s.base.toNat + p.offset :=
  h.addressed.address p

theorem toNat_address {s : Store} {p : Part} {a : UInt32} (h : s.address p = .ok a) :
    a.toNat = s.base.toNat + p.offset := by
  have ho : (UInt32.ofNat p.offset).toNat = p.offset := by
    have hl := p.offset_add_length_le
    rw [regionLength_eq] at hl
    rw [UInt32.toNat_ofNat']
    exact Nat.mod_eq_of_lt (by omega)
  rw [address, Checked.addUInt32] at h
  split at h
  · next hlt =>
    obtain rfl := Except.ok.inj h
    rw [ho] at hlt
    rw [UInt32.toNat_add, ho]
    exact Nat.mod_eq_of_lt hlt
  · cases h

end Store

end TwinStick
