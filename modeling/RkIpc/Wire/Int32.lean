import Mathlib.Algebra.Order.Ring.Nat
import Mathlib.Data.Int.Notation

/-!
# Machine words on a wire

A 32-bit integer as the four bytes that represent it in memory, the lowest first.

## Main definitions

* `encode32`, `decode32`: the bytes of an integer, and the integer four bytes stand for

## Main results

* `decode32_encode32`: an integer in range is read as it was written
-/

namespace Wire

/-- The bytes of an `int`. -/
def encode32 (v : ℤ) : List UInt8 :=
  let u := (v % 2 ^ 32).toNat
  [UInt8.ofNat (u % 256), UInt8.ofNat (u / 256 % 256), UInt8.ofNat (u / 65536 % 256),
    UInt8.ofNat (u / 16777216 % 256)]

/-- The `int` in the first four bytes of `mem`. -/
def decode32 (mem : ℕ → UInt8) : ℤ :=
  let u : ℕ := (mem 0).toNat + 256 * (mem 1).toNat + 65536 * (mem 2).toNat +
    16777216 * (mem 3).toNat
  if u < 2 ^ 31 then u else u - 2 ^ 32

/-- The integers an `int` can hold. -/
def InRange (v : ℤ) : Prop := -2 ^ 31 ≤ v ∧ v < 2 ^ 31

instance (v : ℤ) : Decidable (InRange v) :=
  inferInstanceAs (Decidable (-2 ^ 31 ≤ v ∧ v < 2 ^ 31))

/-- **An integer in range is read as it was written.** -/
theorem decode32_encode32 {v : ℤ} (hv : InRange v) {mem : ℕ → UInt8}
    (hmem : encode32 v = [mem 0, mem 1, mem 2, mem 3]) : decode32 mem = v := by
  obtain ⟨hlo, hhi⟩ := hv
  simp only [encode32, List.cons.injEq, and_true] at hmem
  obtain ⟨h0, h1, h2, h3⟩ := hmem
  have hmod : ∀ n : ℕ, (UInt8.ofNat (n % 256)).toNat = n % 256 := fun n =>
    UInt8.toNat_ofNat_of_lt' (Nat.mod_lt _ (by omega))
  simp only [decode32, ← h0, ← h1, ← h2, ← h3, hmod]
  -- the word is the integer, or the integer from the other end of the range
  generalize hu : (v % 2 ^ 32).toNat = u
  have hsum : u % 256 + 256 * (u / 256 % 256) + 65536 * (u / 65536 % 256) +
      16777216 * (u / 16777216 % 256) = u := by
    omega
  rw [hsum]
  split <;> omega

end Wire
