import Mathlib.Algebra.Order.Ring.Int
import Mathlib.Tactic.Ring

/-!
# Loops that lower a variable

`while (limit < read v) v = store (v - step);` takes `step` off a variable as long as a measure of
it is above a limit. The measure and the variable may be kept in machine words, so that both of
them wrap around. As long as the measure does not, the loop ends with the first measure that is not
above the limit.

## Main definitions

* `Ends`: a loop that ends, and what with
* `lowerLoop`: the loop for a bounded number of rounds
* `lowered`: the measure at the end
* `Tracks`: the variable is determined by its measure

## Main results

* `Tracks.lowerLoop_eq`, `Tracks.ends`: what the loop ends with
-/

namespace Transition

/-- **A loop ends** with `u`, from `v` on. -/
inductive Ends {α : Type*} (cond : α → Prop) (body : α → α) : α → α → Prop
  | done {v : α} : ¬ cond v → Ends cond body v v
  | round {v u : α} : cond v → Ends cond body (body v) u → Ends cond body v u

/-- `while (limit < read v) v = store (v - step);`, for at most `fuel` rounds. -/
def lowerLoop (read store : ℤ → ℤ) (step limit : ℤ) : ℕ → ℤ → ℤ
  | 0, v => v
  | fuel + 1, v =>
    if limit < read v then lowerLoop read store step limit fuel (store (v - step)) else v

/-- The loop has ended if its condition fails after the rounds. -/
theorem ends_lowerLoop {read store : ℤ → ℤ} {step limit : ℤ} (fuel : ℕ) (v : ℤ)
    (h : read (lowerLoop read store step limit fuel v) ≤ limit) :
    Ends (fun v => limit < read v) (fun v => store (v - step)) v
      (lowerLoop read store step limit fuel v) := by
  induction fuel generalizing v with
  | zero => exact .done (not_lt.mpr h)
  | succ fuel ih =>
    rw [lowerLoop] at h ⊢
    split at h
    · next hv =>
      rw [if_pos hv]
      exact .round hv (ih _ h)
    · next hv =>
      rw [if_neg hv]
      exact .done hv

/-! ## The measure -/

/-- The first measure not above the limit, in steps from `s` down. -/
def lowered (step limit s : ℤ) : ℤ := if limit < s then limit - (limit - s) % step else s

section Lowered

variable {step limit s : ℤ}

theorem lowered_of_le (h : s ≤ limit) : lowered step limit s = s := if_neg (not_lt.mpr h)

theorem lowered_of_lt (h : limit < s) : lowered step limit s = limit - (limit - s) % step :=
  if_pos h

theorem lowered_le (hstep : 0 < step) : lowered step limit s ≤ limit := by
  unfold lowered
  split
  · have := Int.emod_nonneg (limit - s) hstep.ne'
    omega
  · omega

/-- A round makes no difference. -/
theorem lowered_sub (h : limit < s) :
    lowered step limit (s - step) = lowered step limit s := by
  rw [lowered_of_lt h]
  have hmod : (limit - (s - step)) % step = (limit - s) % step := by
    rw [show limit - (s - step) = limit - s + step by ring, Int.add_emod_right]
  by_cases hs : limit < s - step
  · rw [lowered_of_lt hs, hmod]
  · rw [lowered_of_le (by omega), ← hmod, Int.emod_eq_of_lt (by omega) (by omega)]
    ring

end Lowered

/-- **The variable is determined by its measure**: where the measure is `t`, the variable is `f t`,
and a round takes `step` off both. `P` says which measures there can be. -/
structure Tracks (read store : ℤ → ℤ) (step limit : ℤ) (P : ℤ → Prop) (f : ℤ → ℤ) : Prop where
  read : ∀ t, P t → read (f t) = t
  store : ∀ t, P t → limit < t → store (f t - step) = f (t - step)
  next : ∀ t, P t → limit < t → P (t - step)

namespace Tracks

variable {read store : ℤ → ℤ} {step limit s : ℤ} {P : ℤ → Prop} {f : ℤ → ℤ}

/-- **What the loop comes to** in as many rounds as the measure is above the limit. -/
theorem lowerLoop_eq (h : Tracks read store step limit P f) (hstep : 0 < step) (hs : P s) (fuel : ℕ)
    (hfuel : s - limit ≤ fuel) :
    lowerLoop read store step limit fuel (f s) = f (lowered step limit s) := by
  induction fuel generalizing s with
  | zero => rw [lowerLoop, lowered_of_le (by push_cast at hfuel; omega)]
  | succ fuel ih =>
    rw [lowerLoop, h.read s hs]
    split
    · next hlt =>
      rw [h.store s hs hlt, ih (h.next s hs hlt) (by push_cast at hfuel; omega),
        lowered_sub hlt]
    · next hle => rw [lowered_of_le (not_lt.mp hle)]

/-- The measures on the way are among those there can be. -/
theorem lowered_mem (h : Tracks read store step limit P f) (hstep : 0 < step) (hs : P s) :
    P (lowered step limit s) := by
  obtain ⟨n, hn⟩ : ∃ n : ℕ, s - limit ≤ n := ⟨_, Int.self_le_toNat _⟩
  induction n generalizing s with
  | zero => rwa [lowered_of_le (by push_cast at hn; omega)]
  | succ n ih =>
    by_cases hlt : limit < s
    · rw [← lowered_sub hlt]
      exact ih (h.next s hs hlt) (by push_cast at hn; omega)
    · rwa [lowered_of_le (not_lt.mp hlt)]

/-- **The loop ends.** -/
theorem ends (h : Tracks read store step limit P f) (hstep : 0 < step) (hs : P s) :
    Ends (fun v => limit < read v) (fun v => store (v - step)) (f s)
      (f (lowered step limit s)) := by
  rw [← h.lowerLoop_eq hstep hs _ (Int.self_le_toNat _)]
  apply ends_lowerLoop
  rw [h.lowerLoop_eq hstep hs _ (Int.self_le_toNat _), h.read _ (h.lowered_mem hstep hs)]
  exact lowered_le hstep

end Tracks

end Transition
