import Mathlib.Order.WellFounded
import RkIpc.Transition.Fuel

/-!
# Loops

A round of a loop goes on with a state or ends with a result. The loop ends if a relation without
infinite descent goes down in every round, and what the rounds keep is known of the result.

## Main definitions

* `Round`, `loop`: a round, and the loop under fuel
* `Round.checked`: a round that may fail

## Main results

* `loop_next`, `loop_done`: one round of the loop
* `exists_loop_yields`: an invariant and a descent give a result
-/

namespace Transition

variable {σ ρ : Type*}

/-- **A round of a loop.** -/
inductive Round (σ ρ : Type*) where
  | next (s : σ)
  | done (r : ρ)

/-- A round that may fail, which ends the loop. -/
def Round.checked : Option (Round σ ρ) → Round σ (Option ρ)
  | none => .done none
  | some (.next s) => .next s
  | some (.done r) => .done (some r)

/-- **The loop**, of at most `fuel` rounds. -/
def loop (round : σ → Round σ ρ) : ℕ → σ → Option ρ
  | 0, _ => none
  | fuel + 1, s =>
    match round s with
    | .next s' => loop round fuel s'
    | .done r => some r

variable {round : σ → Round σ ρ} {s s' : σ} {r : ρ}

/-- A round that ends the loop. -/
theorem loop_done (h : round s = .done r) : Yields (fun fuel => loop round fuel s) r := by
  refine ⟨1, fun fuel hfuel => ?_⟩
  obtain ⟨n, rfl⟩ := Nat.exists_eq_add_of_le' hfuel
  simp only [loop, h]

/-- A round that goes on. -/
theorem loop_next (h : round s = .next s') (hr : Yields (fun fuel => loop round fuel s') r) :
    Yields (fun fuel => loop round fuel s) r := by
  obtain ⟨n, hn⟩ := hr
  refine ⟨n + 1, fun fuel hfuel => ?_⟩
  obtain ⟨m, rfl⟩ := Nat.exists_eq_add_of_le' (Nat.le_of_add_left_le hfuel)
  simp only [loop, h]
  exact hn m (by omega)

/-- **Total correctness**: a round keeps the invariant `I` and goes down, or ends with `Q`. -/
theorem exists_loop_yields {I : σ → Prop} {Q : ρ → Prop} {down : σ → σ → Prop}
    (hdown : WellFounded down)
    (hnext : ∀ s s', I s → round s = .next s' → I s' ∧ down s' s)
    (hdone : ∀ s r, I s → round s = .done r → Q r) (hs : I s) :
    ∃ r, Yields (fun fuel => loop round fuel s) r ∧ Q r := by
  induction s using hdown.induction with
  | _ s ih =>
    cases h : round s with
    | next s' =>
      obtain ⟨hs', hlt⟩ := hnext s s' hs h
      obtain ⟨r, hr, hq⟩ := ih s' hlt hs'
      exact ⟨r, loop_next h hr, hq⟩
    | done r => exact ⟨r, loop_done h, hdone s r hs h⟩

end Transition
