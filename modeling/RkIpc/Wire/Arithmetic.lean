import Mathlib.Tactic.Linarith
import RkIpc.Wire.Int32

/-!
# Machine arithmetic

The operations on 32-bit words give the result modulo `2 ^ 32`. So a word holds a product or a sum
exactly if the result is in range; for a sum it does not matter whether its parts are.

## Main definitions

* `signed`: the result of a signed operation

## Main results

* `toInt_mul_eq_iff`, `toInt_sum_eq_iff`: when a product or a sum is exact
* `toInt_mul_div_eq_iff`: a quotient is exact if and only if the product divided is
* `toNat_mul_shiftRight_eq_iff`: so is a product that is shifted
-/

namespace Wire

/-- What a signed word holds of an integer is the integer if and only if that is in range. -/
theorem bmod_eq_self_iff {v : ℤ} : v.bmod (2 ^ 32) = v ↔ InRange v := by
  rw [InRange, Int.bmod_def]
  split <;> omega

theorem inRange_toInt (x : Int32) : InRange x.toInt := ⟨x.le_toInt, x.toInt_lt⟩

/-- **What a signed operation gives.** Nothing is said about a result that is not in range. -/
def signed (v : ℤ) : Option ℤ := if InRange v then some v else none

theorem signed_eq_some_iff {v w : ℤ} : signed v = some w ↔ InRange v ∧ v = w := by
  unfold signed
  split <;> simp_all

theorem signed_of_inRange {v : ℤ} (h : InRange v) : signed v = some v := if_pos h

/-- **A product is exact** if and only if it is in range. -/
theorem toInt_mul_eq_iff {x y : Int32} :
    (x * y).toInt = x.toInt * y.toInt ↔ InRange (x.toInt * y.toInt) := by
  rw [Int32.toInt_mul, bmod_eq_self_iff]

theorem toInt_foldl_add (xs : List Int32) (t : Int32) :
    (xs.foldl (· + ·) t).toInt = (t.toInt + (xs.map Int32.toInt).sum).bmod (2 ^ 32) := by
  induction xs generalizing t with
  | nil =>
    rw [List.foldl_nil, List.map_nil, List.sum_nil, Int.add_zero]
    exact (bmod_eq_self_iff.mpr (inRange_toInt t)).symm
  | cons x xs ih =>
    rw [List.foldl_cons, ih, Int32.toInt_add, Int.bmod_add_bmod, List.map_cons, List.sum_cons,
      Int.add_assoc]

/-- **A sum is exact** if and only if it is in range. -/
theorem toInt_sum_eq_iff {xs : List Int32} :
    (xs.foldl (· + ·) 0).toInt = (xs.map Int32.toInt).sum ↔
      InRange (xs.map Int32.toInt).sum := by
  rw [toInt_foldl_add, Int32.toInt_zero, Int.zero_add, bmod_eq_self_iff]

/-- The quotient of a word by a positive one is exact. -/
theorem toInt_div_of_pos {w t : Int32} (ht : 0 < t.toInt) :
    (w / t).toInt = w.toInt.tdiv t.toInt := by
  rw [Int32.toInt_div, bmod_eq_self_iff]
  obtain ⟨hlo, hhi⟩ := inRange_toInt w
  have habs := Int.natAbs_tdiv_le_natAbs w.toInt t.toInt
  constructor
  · omega
  · -- no more than the dividend, and nothing if that is negative
    rcases le_or_gt 0 w.toInt with h | h
    · omega
    · have hneg : 0 ≤ (-w.toInt).tdiv t.toInt := Int.tdiv_nonneg (by omega) ht.le
      rw [Int.neg_tdiv] at hneg
      omega

/-- **The quotient of a product** of amounts is exact if and only if the product is in range. -/
theorem toInt_mul_div_eq_iff {x y t : Int32} (hprod : 0 ≤ x.toInt * y.toInt) (ht : 0 < t.toInt) :
    (x * y / t).toInt = x.toInt * y.toInt / t.toInt ↔ InRange (x.toInt * y.toInt) := by
  rw [toInt_div_of_pos ht]
  constructor
  · intro heq
    by_contra hrange
    have hbig : 2 ^ 31 ≤ x.toInt * y.toInt := by
      by_contra hlt
      exact hrange ⟨by omega, by omega⟩
    -- the word holds less than the product by at least `2 ^ 32`
    have hless : (x * y).toInt + 2 ^ 32 ≤ x.toInt * y.toInt := by
      rw [Int32.toInt_mul]
      generalize x.toInt * y.toInt = p at hbig
      rw [Int.bmod_def]
      split <;> omega
    have hfloor : (x * y).toInt / t.toInt * t.toInt ≤ (x * y).toInt :=
      Int.ediv_mul_le _ ht.ne'
    have hround : (x * y).toInt.tdiv t.toInt ≤ (x * y).toInt / t.toInt + 1 := by
      rw [Int.tdiv_eq_ediv, Int.sign_eq_one_of_pos ht]
      split <;> omega
    have htwo : (x * y).toInt / t.toInt + 2 ≤ x.toInt * y.toInt / t.toInt := by
      rw [Int.le_ediv_iff_mul_le ht]
      have hlt := t.toInt_lt
      linarith
    omega
  · intro hrange
    rw [toInt_mul_eq_iff.mpr hrange, Int.tdiv_eq_ediv_of_nonneg hprod]

/-- **A product of unsigned words, shifted right**, is exact if and only if the product is below
`2 ^ 32`. -/
theorem toNat_mul_shiftRight_eq_iff {x y : UInt32} :
    ((x * y) >>> 10).toNat = x.toNat * y.toNat / 1024 ↔ x.toNat * y.toNat < 2 ^ 32 := by
  rw [UInt32.toNat_shiftRight, UInt32.toNat_mul]
  show (x.toNat * y.toNat % 2 ^ 32) >>> 10 = _ ↔ _
  rw [Nat.shiftRight_eq_div_pow]
  generalize x.toNat * y.toNat = p
  omega

/-- An unsigned word below `2 ^ 31` is the same as a signed one. -/
theorem toInt_toInt32 {x : UInt32} (h : x.toNat < 2 ^ 31) : x.toInt32.toInt = x.toNat := by
  show x.toBitVec.toInt = _
  rw [BitVec.toInt_eq_toNat_bmod]
  exact bmod_eq_self_iff.mpr ⟨by simp only [UInt32.toNat] at h; omega, by exact_mod_cast h⟩

end Wire
