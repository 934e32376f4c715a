import Mathlib.Logic.Basic

/-!
# Programs that block or return early

A statement of an imperative function changes the state and goes on with a value, returns from the
function, or waits for something that never comes. Triples give a postcondition for each of the
three.

## Main definitions

* `Outcome`, `Program`: what a statement comes to, and statements
* `Program.exit`, `Program.call`: `return r`, and the call of a function
* `Program.Triple`: the three postconditions of a statement

## Main results

* `Program.Triple.bind`, `Program.Triple.call`, `Program.Triple.conseq`: the rules
-/

namespace Imperative

variable {σ ρ α β : Type}

/-- What a statement comes to: it goes on with a value, returns from its function, or blocks. -/
inductive Outcome (ρ α : Type) where
  | value (a : α)
  | returned (r : ρ)
  | blocked

/-- **Statements** over the state `σ`, in a function that returns a `ρ`. -/
def Program (σ ρ α : Type) := σ → Outcome ρ α × σ

namespace Program

instance : Monad (Program σ ρ) where
  pure a := fun s => (Outcome.value a, s)
  bind x f := fun s =>
    match x s with
    | (Outcome.value a, s) => f a s
    | (Outcome.returned r, s) => (Outcome.returned r, s)
    | (Outcome.blocked, s) => (Outcome.blocked, s)

/-- `return r`. -/
def exit (r : ρ) : Program σ ρ α := fun s => (Outcome.returned r, s)

/-- The call of a function: what it returns is its value. -/
def call {ρ' : Type} (x : Program σ ρ ρ) : Program σ ρ' ρ := fun s =>
  match x s with
  | (Outcome.value r, s) => (Outcome.value r, s)
  | (Outcome.returned r, s) => (Outcome.value r, s)
  | (Outcome.blocked, s) => (Outcome.blocked, s)

/-- The postconditions for a value, a return and a block. -/
def Meets (V : α → σ → Prop) (R : ρ → σ → Prop) (B : σ → Prop) : Outcome ρ α × σ → Prop
  | (Outcome.value a, t) => V a t
  | (Outcome.returned r, t) => R r t
  | (Outcome.blocked, t) => B t

/-- **A triple**: from a state in `P` the statement goes on in `V`, returns in `R` or blocks
in `B`. -/
def Triple (P : σ → Prop) (x : Program σ ρ α) (V : α → σ → Prop) (R : ρ → σ → Prop)
    (B : σ → Prop) : Prop :=
  ∀ s, P s → Meets V R B (x s)

namespace Triple

variable {P P' : σ → Prop} {x : Program σ ρ α} {V V' : α → σ → Prop} {R R' : ρ → σ → Prop}
  {B B' : σ → Prop}

theorem pure {a : α} (h : ∀ s, P s → V a s) :
    Triple P (Pure.pure a : Program σ ρ α) V R B := h

theorem exit {r : ρ} (h : ∀ s, P s → R r s) :
    Triple P (Program.exit r : Program σ ρ α) V R B := h

/-- **One statement after the other**: what goes on meets the second one, the rest is final. -/
theorem bind {f : α → Program σ ρ β} {W : β → σ → Prop} (hx : Triple P x V R B)
    (hf : ∀ a, Triple (V a) (f a) W R B) : Triple P (x >>= f) W R B := by
  intro s hs
  have h := hx s hs
  simp only [Bind.bind]
  generalize x s = o at h ⊢
  rcases o with ⟨_ | _ | _, t⟩
  · exact hf _ t h
  · exact h
  · exact h

/-- The call of a function that may fall through to its end or return. -/
theorem call {ρ' : Type} {x : Program σ ρ ρ} {V : ρ → σ → Prop} {R : ρ' → σ → Prop}
    (hx : Triple P x V V B) : Triple P (Program.call x : Program σ ρ' ρ) V R B := by
  intro s hs
  have h := hx s hs
  simp only [Program.call]
  generalize x s = o at h ⊢
  rcases o with ⟨_ | _ | _, t⟩ <;> exact h

theorem conseq (hx : Triple P x V R B) (hP : ∀ s, P' s → P s) (hV : ∀ a s, V a s → V' a s)
    (hR : ∀ r s, R r s → R' r s) (hB : ∀ s, B s → B' s) : Triple P' x V' R' B' := by
  intro s hs
  have h := hx s (hP s hs)
  generalize x s = o at h ⊢
  rcases o with ⟨_ | _ | _, t⟩
  · exact hV _ _ h
  · exact hR _ _ h
  · exact hB _ h

theorem pre (hx : Triple P x V R B) (hP : ∀ s, P' s → P s) : Triple P' x V R B :=
  hx.conseq hP (fun _ _ h => h) (fun _ _ h => h) (fun _ h => h)

theorem post (hx : Triple P x V R B) (hV : ∀ a s, V a s → V' a s) : Triple P x V' R B :=
  hx.conseq (fun _ h => h) hV (fun _ _ h => h) (fun _ h => h)

theorem returns (hx : Triple P x V R B) (hR : ∀ r s, R r s → R' r s) : Triple P x V R' B :=
  hx.conseq (fun _ h => h) (fun _ _ h => h) hR (fun _ h => h)

theorem blocks (hx : Triple P x V R B) (hB : ∀ s, B s → B' s) : Triple P x V R B' :=
  hx.conseq (fun _ h => h) (fun _ _ h => h) (fun _ _ h => h) hB

/-- A statement that neither returns nor blocks goes on. -/
theorem exists_value (hx : Triple P x V (fun _ _ => False) fun _ => False) {s : σ} (hs : P s) :
    ∃ a t, x s = (.value a, t) ∧ V a t := by
  have h := hx s hs
  generalize x s = o at h ⊢
  rcases o with ⟨a | _ | _, t⟩
  · exact ⟨a, t, rfl, h⟩
  · exact h.elim
  · exact h.elim

/-- What does not depend on the state may be assumed. -/
theorem assuming {c : Prop} (hx : c → Triple P x V R B) : Triple (fun s => P s ∧ c) x V R B :=
  fun s hs => hx hs.2 s hs.1

/-- A condition on the state may be known for the rest of the statement. -/
theorem ite {c : Prop} [Decidable c] {y : Program σ ρ α} (hx : c → Triple P x V R B)
    (hy : ¬ c → Triple P y V R B) : Triple P (if c then x else y) V R B := by
  by_cases hc : c
  · rw [if_pos hc]
    exact hx hc
  · rw [if_neg hc]
    exact hy hc

end Triple

end Program

end Imperative
