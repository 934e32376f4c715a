import Mathlib.Algebra.BigOperators.Group.List.Basic
import Mathlib.Algebra.Order.Ring.Nat
import Mathlib.Tactic.Ring
import Mathlib.Tactic.Linarith

/-!
# Shares rounded down

Each amount of a list has the share `m * x / t` of a whole `t`, in `m`-ths and rounded down.
Rounding loses less than one `m`-th for each positive amount.

## Main results

* `lt_sum_share_add_count`: the shares of a list with sum `t` fall short of `m` by less than the
  number of positive amounts
* `sum_add_count_le`: they fall short by at least that number if one of them loses `M`, none has
  more than `M` in multiples, and the amounts are few
-/

namespace Apportion

/-- The share of `x` in `t`, in `m`-ths, rounded down. -/
def share (m t x : ℕ) : ℕ := x * m / t

theorem share_zero (m t : ℕ) : share m t 0 = 0 := by simp [share]

theorem share_mono {m t x y : ℕ} (h : x ≤ y) : share m t x ≤ share m t y :=
  Nat.div_le_div_right (Nat.mul_le_mul_right m h)

/-- The number of positive amounts. -/
def countPos (xs : List ℕ) : ℕ := xs.countP (0 < ·)

/-- Rounding a share down loses at most `t - 1` of its multiple, and nothing at zero. -/
theorem mul_le_share_mul_add {m t x : ℕ} (ht : 0 < t) :
    x * m ≤ share m t x * t + (t - 1) * countPos [x] := by
  rcases Nat.eq_zero_or_pos x with rfl | hx
  -- nothing has no share, and no loss
  · simp
  -- the remainder of the division is below `t`
  · have hlt := Nat.lt_div_mul_add (a := x * m) ht
    have hc : countPos [x] = 1 := by simp [countPos, hx]
    rw [hc, Nat.mul_one]
    unfold share
    omega

theorem sum_mul_le (m : ℕ) {t : ℕ} (ht : 0 < t) (xs : List ℕ) :
    xs.sum * m ≤ (xs.map (share m t)).sum * t + (t - 1) * countPos xs := by
  induction xs with
  | nil => simp
  | cons x xs ih =>
    have hx := mul_le_share_mul_add (m := m) (x := x) ht
    -- the losses add up as the counts do
    have hc : countPos (x :: xs) = countPos [x] + countPos xs := by
      simp only [countPos, List.countP_cons, List.countP_nil]
      omega
    rw [List.sum_cons, List.map_cons, List.sum_cons, hc]
    nlinarith

/-- **The rounding loss is below the number of positive amounts.** -/
theorem lt_sum_share_add_count (m : ℕ) {xs : List ℕ} (hpos : 0 < xs.sum) :
    m < (xs.map (share m xs.sum)).sum + countPos xs := by
  have hle := sum_mul_le m hpos xs
  -- some amount is positive, or the sum would be zero
  have hcount : 0 < countPos xs := by
    by_contra hnone
    have hzero : ∀ x ∈ xs, x = 0 := by
      simpa [countPos] using hnone
    have := List.sum_eq_zero hzero
    omega
  -- the loss is below `t` for each positive amount, and there is at least one
  by_contra hge
  have hsplit : (xs.sum - 1) * countPos xs + countPos xs = xs.sum * countPos xs := by
    rw [← Nat.succ_mul, Nat.succ_eq_add_one, Nat.sub_add_cancel hpos]
  nlinarith

/-- What a list of shares can have at most, when their multiples are bounded one by one. -/
theorem sum_mul_le_of_forall {m t : ℕ} {s : ℕ → ℕ} {xs : List ℕ}
    (hle : ∀ x ∈ xs, s x * t ≤ x * m) : (xs.map s).sum * t ≤ xs.sum * m := by
  induction xs with
  | nil => simp
  | cons x xs ih =>
    have hx := hle x List.mem_cons_self
    have hxs := ih fun y hy => hle y (List.mem_cons_of_mem x hy)
    rw [List.map_cons, List.sum_cons, List.sum_cons, Nat.add_mul, Nat.add_mul]
    exact Nat.add_le_add hx hxs

/-- One share that loses `M` takes as much off the sum. -/
theorem sum_mul_add_le {m t M : ℕ} {s : ℕ → ℕ} {xs : List ℕ}
    (hle : ∀ x ∈ xs, s x * t ≤ x * m) (hx : ∃ x ∈ xs, s x * t + M ≤ x * m) :
    (xs.map s).sum * t + M ≤ xs.sum * m := by
  obtain ⟨x, hmem, hx⟩ := hx
  obtain ⟨pre, post, rfl⟩ := List.append_of_mem hmem
  have hpre := sum_mul_le_of_forall fun y hy => hle y (List.mem_append_left _ hy)
  have hpost := sum_mul_le_of_forall fun y hy =>
    hle y (List.mem_append_right _ (List.mem_cons_of_mem x hy))
  simp only [List.map_append, List.map_cons, List.sum_append, List.sum_cons, Nat.add_mul]
  omega

/-- Shares below `k` add up to at most `k - 1` for each positive amount. -/
theorem sum_add_count_le_mul {s : ℕ → ℕ} {k : ℕ} {xs : List ℕ} (hzero : s 0 = 0)
    (hlt : ∀ x ∈ xs, s x < k) : (xs.map s).sum + countPos xs ≤ k * countPos xs := by
  induction xs with
  | nil => simp [countPos]
  | cons x xs ih =>
    have hx := hlt x List.mem_cons_self
    have hxs := ih fun y hy => hlt y (List.mem_cons_of_mem x hy)
    rw [List.map_cons, List.sum_cons]
    rcases Nat.eq_zero_or_pos x with rfl | hpos
    -- nothing has no share, and is not counted
    · rw [hzero, countPos, List.countP_cons_of_neg (by simp), ← countPos]
      omega
    · rw [countPos, List.countP_cons_of_pos (by simpa using hpos), ← countPos, Nat.mul_add,
        Nat.mul_one]
      omega

/-- **Too much is lost**: shares of a list with sum `t`, none of which has `M` in multiples and one
of which falls short by `M`, fall short of `m` by the number of positive amounts, if the square of
that number is at most `m`. -/
theorem sum_add_count_le {m M : ℕ} {s : ℕ → ℕ} {xs : List ℕ} (hpos : 0 < xs.sum)
    (hle : ∀ x ∈ xs, s x * xs.sum ≤ x * m) (hlt : ∀ x ∈ xs, s x * xs.sum < M)
    (hx : ∃ x ∈ xs, s x * xs.sum + M ≤ x * m) (hzero : s 0 = 0)
    (hfew : countPos xs * countPos xs ≤ m) : (xs.map s).sum + countPos xs ≤ m := by
  rcases le_or_gt (countPos xs * xs.sum) M with hM | hM
  -- the one share alone loses enough
  · have hsum := sum_mul_add_le hle hx
    have hmul : ((xs.map s).sum + countPos xs) * xs.sum ≤ m * xs.sum := by
      rw [Nat.add_mul, Nat.mul_comm m]
      omega
    exact Nat.le_of_mul_le_mul_right hmul hpos
  -- each share is below the number of amounts
  · have hbelow : ∀ x ∈ xs, s x < countPos xs := by
      intro x hx
      exact Nat.lt_of_mul_lt_mul_right ((hlt x hx).trans hM)
    exact (sum_add_count_le_mul hzero hbelow).trans hfew

end Apportion
