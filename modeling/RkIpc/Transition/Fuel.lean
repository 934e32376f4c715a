import Mathlib.Data.Nat.Init

/-!
# Results under enough fuel

A loop that need not end is run with a bound on its rounds and is `none` when the bound does not
suffice. It yields `r` when every sufficiently large bound gives `r`: the loop ends, and the
result does not depend on the bound.

## Main definitions

* `Yields f r`: `f` gives `r` under enough fuel

## Main results

* `Yields.unique`: the result is determined
* `Yields.bind`: a computation that yields, followed by one that yields
-/

namespace Transition

variable {β γ : Type*}

/-- **`f` yields `r`**: with enough fuel the result is `r`. -/
def Yields (f : ℕ → Option β) (r : β) : Prop := ∃ n₀, ∀ n, n₀ ≤ n → f n = some r

namespace Yields

theorem pure (r : β) : Yields (fun _ => some r) r := ⟨0, fun _ _ => rfl⟩

/-- The result under enough fuel is determined. -/
theorem unique {f : ℕ → Option β} {r s : β} (hr : Yields f r) (hs : Yields f s) : r = s := by
  obtain ⟨n, hn⟩ := hr
  obtain ⟨m, hm⟩ := hs
  -- with the larger of the two bounds both give their result
  have h := hn (max n m) (Nat.le_max_left ..)
  rw [hm (max n m) (Nat.le_max_right ..)] at h
  exact (Option.some.inj h).symm

/-- Computations in sequence, under the same fuel. -/
theorem bind {f : ℕ → Option β} {g : ℕ → β → Option γ} {r : β} {s : γ} (hf : Yields f r)
    (hg : Yields (fun n => g n r) s) : Yields (fun n => (f n).bind (g n)) s := by
  obtain ⟨n, hn⟩ := hf
  obtain ⟨m, hm⟩ := hg
  -- the larger of the two bounds suffices for both
  refine ⟨max n m, fun k hk => ?_⟩
  show (f k).bind (g k) = some s
  rw [hn k (by omega)]
  exact hm k (by omega)

end Yields

end Transition
