import TwinStick.Proofs.Access

/-! Two routines side by side. They are paired if from related states both stop at the same
fault, or both end with related values, in related states, and after related events. -/

namespace TwinStick

/-- Both are the same error, or none is and they are related. -/
inductive Alike (P : α → β → Prop) : Except ε α → Except ε β → Prop
  | fault (e : ε) : Alike P (.error e) (.error e)
  | ok {a : α} {b : β} (h : P a b) : Alike P (.ok a) (.ok b)

theorem Alike.of_eq {P : α → α → Prop} (hP : ∀ a, P a a) {x y : Except ε α} (h : y = x) :
    Alike P x y := by
  rw [h]
  cases x with
  | error e => exact .fault e
  | ok a => exact .ok (hP a)

theorem Alike.map {P : α → β → Prop} {Q : γ → δ → Prop} {x : Except ε α} {y : Except ε β}
    (h : Alike P x y) {f : α → γ} {g : β → δ} (hfg : ∀ a b, P a b → Q (f a) (g b)) :
    Alike Q (x.map f) (y.map g) := by
  cases h with
  | fault e => exact .fault e
  | ok hab => exact .ok (hfg _ _ hab)

theorem Alike.mapError {P : α → β → Prop} {x : Except ε α} {y : Except ε β} (h : Alike P x y)
    (f : ε → ε') : Alike P (x.mapError f) (y.mapError f) := by
  cases h with
  | fault e => exact .fault (f e)
  | ok hab => exact .ok hab

theorem Alike.mono {P Q : α → β → Prop} {x : Except ε α} {y : Except ε β} (h : Alike P x y)
    (hPQ : ∀ a b, P a b → Q a b) : Alike Q x y := by
  cases h with
  | fault e => exact .fault e
  | ok hab => exact .ok (hPQ _ _ hab)

theorem Alike.eq {x y : Except ε α} (h : Alike Eq x y) : x = y := by
  cases h with
  | fault => rfl
  | ok h => rw [h]

theorem Alike.of_ok {P : α → β → Prop} {x : Except ε α} {y : Except ε β} (h : Alike P x y)
    {a : α} (hx : x = .ok a) : ∃ b, y = .ok b ∧ P a b := by
  subst hx
  cases h with
  | ok hab => exact ⟨_, rfl, hab⟩

/-- Outcomes whose values, states and events are related. -/
structure Outcome.Paired (E : Event → Event → Prop) (S : σ → τ → Prop) (V : α → β → Prop)
    (d : Outcome σ α) (d' : Outcome τ β) : Prop where
  value : V d.value d'.value
  state : S d.state d'.state
  events : List.Forall₂ E d.events d'.events

namespace Routine

/-- Runs of the two from related states go alike. -/
def Paired (E : Event → Event → Prop) (S : σ → τ → Prop) (V : α → β → Prop) (r : Routine σ α)
    (r' : Routine τ β) : Prop :=
  ∀ s s', S s s' → Alike (Outcome.Paired E S V) (r.run s) (r'.run s')

section

variable {E : Event → Event → Prop} {S : σ → τ → Prop} {V : α → β → Prop} {W : γ → δ → Prop}
  {r : Routine σ α} {r' : Routine τ β}

theorem Paired.bind {f : α → Routine σ γ} {f' : β → Routine τ δ} (hr : Paired E S V r r')
    (hf : ∀ a b, V a b → Paired E S W (f a) (f' b)) : Paired E S W (r >>= f) (r' >>= f') := by
  intro s s' h
  have hfirst := hr s s' h
  rw [run_bind, run_bind]
  generalize r.run s = x at hfirst
  generalize r'.run s' = x' at hfirst
  cases hfirst with
  | fault e => exact .fault e
  | @ok d d' hd =>
    have hsecond := hf d.value d'.value hd.value d.state d'.state hd.state
    simp only [Except.bind]
    generalize (f d.value).run d.state = y at hsecond
    generalize (f' d'.value).run d'.state = y' at hsecond
    cases hsecond with
    | fault e => exact .fault e
    | ok he => exact .ok ⟨he.value, he.state, List.rel_append hd.events he.events⟩

/-- As for a sequence whose first part returns the same in both runs. -/
theorem Paired.bind_eq {f : α → Routine σ γ} {f' : α → Routine τ δ} {r' : Routine τ α}
    (hr : Paired E S Eq r r') (hf : ∀ a, Paired E S W (f a) (f' a)) :
    Paired E S W (r >>= f) (r' >>= f') :=
  hr.bind fun a b hab => by
    subst hab
    exact hf a

theorem Paired.get_bind {f : σ → Routine σ γ} {f' : τ → Routine τ δ}
    (hf : ∀ s s', S s s' → Paired E S W (f s) (f' s')) :
    Paired E S W (get >>= f) (get >>= f') := by
  intro s s' h
  rw [run_bind_of_silent (run_get s), run_bind_of_silent (run_get s')]
  exact hf s s' h s s' h

theorem Paired.mono {V' : α → β → Prop} (hr : Paired E S V r r') (h : ∀ a b, V a b → V' a b) :
    Paired E S V' r r' :=
  fun s s' hs => (hr s s' hs).mono fun _ _ hd => ⟨h _ _ hd.value, hd.state, hd.events⟩

theorem paired_pure {a : α} {b : β} (h : V a b) : Paired E S V (pure a) (pure b) :=
  fun _ _ hs => .ok ⟨h, hs, .nil⟩

theorem paired_set {s : σ} {s' : τ} (h : S s s') :
    Paired E S Eq (set s : Routine σ PUnit) (set s' : Routine τ PUnit) :=
  fun _ _ _ => .ok ⟨rfl, h, .nil⟩

theorem paired_modify {g : σ → σ} {g' : τ → τ} (h : ∀ s s', S s s' → S (g s) (g' s')) :
    Paired E S Eq (modify g : Routine σ PUnit) (modify g' : Routine τ PUnit) :=
  fun s s' hs => .ok ⟨rfl, h s s' hs, .nil⟩

theorem paired_emit {events events' : List Event} (h : List.Forall₂ E events events') :
    Paired E S Eq (emit events) (emit events') :=
  fun _ _ hs => .ok ⟨rfl, hs, h⟩

theorem paired_liftM {x : Except Fault α} {x' : Except Fault β} (h : Alike V x x') :
    Paired E S V (liftM x) (liftM x') := by
  intro s s' hs
  cases h with
  | fault e => exact .fault e
  | ok hv => exact .ok ⟨hv, hs, .nil⟩

theorem paired_liftM_self (x : Except Fault α) : Paired E S Eq (liftM x) (liftM x) :=
  paired_liftM (.of_eq (fun _ => rfl) rfl)

theorem paired_onPart {part : σ → ρ} {part' : τ → ρ'} {put : ρ → σ → σ} {put' : ρ' → τ → τ}
    {R : ρ → ρ' → Prop} {q : Routine ρ α} {q' : Routine ρ' β} (hq : Paired E R V q q')
    (hpart : ∀ s s', S s s' → R (part s) (part' s'))
    (hput : ∀ s s' u u', S s s' → R u u' → S (put u s) (put' u' s')) :
    Paired E S V (onPart part put q) (onPart part' put' q') := by
  intro s s' hs
  have hrun := hq (part s) (part' s') (hpart s s' hs)
  exact hrun.map fun _ _ hd => ⟨hd.value, hput s s' _ _ hs hd.state, hd.events⟩

/-- A routine is paired with itself on states that are the same. -/
theorem paired_self (hE : ∀ e, E e e) (r : Routine σ α) : Paired E Eq Eq r r := by
  intro s s' hs
  subst hs
  exact .of_eq (fun d => ⟨rfl, rfl, List.forall₂_same.mpr fun e _ => hE e⟩) rfl

end

end Routine

namespace Flash

variable {E : Event → Event → Prop} {S : Flash → Flash → Prop} {offset : UInt32}

/-- Reads of memories that grant the same. What is read is all there is to show. -/
theorem paired_read {V : List UInt8 → List UInt8 → Prop} {length : Nat}
    (hsame : ∀ f f', S f f' → f'.capacity = f.capacity ∧ f'.reads = f.reads)
    (hask : ∀ f f' reads, S f f' → S { f with reads } { f' with reads })
    (hslice : ∀ f f', S f f' → offset.toNat + length ≤ f.capacity →
      V (f.slice offset.toNat length) (f'.slice offset.toNat length)) :
    Routine.Paired E S (Alike V) (read offset length) (read offset length) := by
  refine .get_bind fun f f' h => ?_
  obtain ⟨hcapacity, hreads⟩ := hsame f f' h
  rw [hcapacity]
  split
  · exact Routine.paired_pure (.fault _)
  · next hroom =>
    rw [hreads]
    refine (Routine.paired_set (hask _ _ _ h)).bind_eq fun _ => Routine.paired_pure ?_
    split
    · exact .ok (hslice _ _ h (Nat.le_of_not_lt hroom))
    · exact .fault _

/-- Writes of the same length to memories that grant the same. What they make of memory is all
there is to show. -/
theorem paired_write {bytes bytes' : List UInt8} (hE : ∀ e, E e e)
    (hlength : bytes'.length = bytes.length)
    (hevent : E (.write offset bytes) (.write offset bytes'))
    (hsame : ∀ f f', S f f' → f'.capacity = f.capacity ∧ f'.writes = f.writes)
    (hask : ∀ f f' writes, S f f' → S { f with writes } { f' with writes })
    (hwrite : ∀ f f', S f f' → offset.toNat + bytes.length ≤ f.capacity →
      S (f.overwrite offset.toNat bytes) (f'.overwrite offset.toNat bytes')) :
    Routine.Paired E S Eq (write offset bytes) (write offset bytes') := by
  have hrefused : Routine.Paired E S Eq
      (do
        Routine.emit [.writeFailed offset bytes.length]
        return .error .outOfBounds : Routine Flash (Except FlashError Unit))
      (do
        Routine.emit [.writeFailed offset bytes.length]
        return .error .outOfBounds) :=
    (Routine.paired_emit (.cons (hE _) .nil)).bind_eq fun _ => Routine.paired_pure rfl
  refine .get_bind fun f f' h => ?_
  obtain ⟨hcapacity, hwrites⟩ := hsame f f' h
  rw [hcapacity, hlength]
  split
  · exact hrefused
  · next hroom =>
    have hasked := hask _ _ f.writes.ask.2 h
    rw [hwrites]
    refine (Routine.paired_set hasked).bind_eq fun _ => ?_
    dsimp only
    split
    · refine (Routine.paired_set (hwrite _ _ hasked (Nat.le_of_not_lt hroom))).bind_eq fun _ => ?_
      refine (Routine.paired_emit (.cons hevent .nil)).bind_eq fun _ => ?_
      exact Routine.paired_pure rfl
    · exact hrefused

end Flash

/-- Stores at one base have the same addresses. -/
theorem Store.paired_address_bind {E : Event → Event → Prop} {S : Store → Store → Prop}
    {V : β → γ → Prop} {base : UInt32} {s s' : Store} (hs : s.base = base) (hs' : s'.base = base)
    (p : Part) {f : UInt32 → Routine Store β} {f' : UInt32 → Routine Store γ}
    (hf : ∀ a, a.toNat = base.toNat + p.offset → Routine.Paired E S V (f a) (f' a)) :
    Routine.Paired E S V (liftM (s.address p) >>= f) (liftM (s'.address p) >>= f') := by
  have hsame : s'.address p = s.address p := by rw [address, address, hs, hs']
  have hplace : ∀ a, s.address p = .ok a → a.toNat = base.toNat + p.offset := by
    intro a ha
    rw [← hs]
    exact toNat_address ha
  rw [hsame]
  generalize s.address p = x at hplace
  have hlift : Routine.Paired E S (fun a b => b = a ∧ a.toNat = base.toNat + p.offset)
      (liftM x) (liftM x) := by
    refine Routine.paired_liftM ?_
    cases x with
    | error e => exact .fault e
    | ok a => exact .ok ⟨rfl, hplace a rfl⟩
  refine hlift.bind ?_
  rintro a _ ⟨rfl, ha⟩
  exact hf _ ha

end TwinStick
