import Mathlib.Data.Nat.Bitwise
import RkIpc.Network.Encode
import RkIpc.Text.Group

/-!
# The shape of UTF-8

`RK_encode_is_utf8` of `common/network/RK_encode.c`, on the bytes of a buffer. One variable counts
the bytes that are missing and the bits of a head that are set. What the bytes stand for is not
looked at: heads of up to six bytes are taken, and characters that are longer than they need be.

## Main definitions

* `leadBits`, `isUtf8Step`: the inner loop, and a round of the outer one
* `rkEncodeIsUtf8Size`: the function
* `single`, `multiple`: bytes below 128, and groups with as many bytes as bits of the head are set

## Main results

* `leadBits_eq_some_iff`: what the inner loop counts
* `rkEncodeIsUtf8Size_iff`: the buffers that are accepted
* `rkEncodeIsUtf8Size_of_str`: the test on strings is the test on buffers
-/

namespace RkIpc.Network

open Text Computability

/-! ## The function -/

/-- The inner loop: bits that are set, up to the sixth. -/
def leadBits (temp : UInt8) (bit1num : ℕ) : Option ℕ :=
  if temp.toNat <<< bit1num &&& 0x80 ≠ 0 then
    if 6 < bit1num + 1 then none else leadBits temp (bit1num + 1)
  else some bit1num
termination_by 7 - bit1num

/-- **A round** of the outer loop; there is no result where it returns. -/
def isUtf8Step (bit1num : ℕ) (c : UInt8) : Option ℕ :=
  if bit1num = 0 ∧ c &&& 0x80 = 0 then some bit1num
  else if bit1num ≠ 0 ∧ c &&& 0xc0 = 0x80 then some (bit1num - 1)
  else if bit1num ≠ 0 ∧ c &&& 0xc0 ≠ 0x80 then none
  else (leadBits c 0).bind fun bit1num => if bit1num < 2 then none else some (bit1num - 1)

/-- The `size` bytes from `buf` on. -/
def bytesAt (buf : ℕ → UInt8) (size : ℤ) : List UInt8 := (List.range size.toNat).map buf

/-- **`RK_encode_is_utf8`**, with the memory from `buf` on. -/
def rkEncodeIsUtf8Size (buf : ℕ → UInt8) (size : ℤ) : ℤ :=
  if size = 0 ∨ buf 0 = 0 then 1
  else
    match (bytesAt buf size).foldlM isUtf8Step 0 with
    | none => 0
    | some bit1num => if bit1num ≠ 0 then 0 else 1

/-! ## The shape -/

/-- **The first `k` bits are set**, and the next one is not. -/
structure LeadingOnes (k : ℕ) (c : UInt8) : Prop where
  ones : ∀ j < k, c.toNat.testBit (7 - j) = true
  zero : c.toNat.testBit (7 - k) = false

/-- A byte below 128. -/
def single : Language UInt8 := {w | ∃ c, c < 0x80 ∧ w = [c]}

/-- **A head with two to six bits**, and behind it one byte less that begin with a single bit. -/
def multiple : Language UInt8 :=
  {w | ∃ k c t, 2 ≤ k ∧ k ≤ 6 ∧ LeadingOnes k c ∧ w = c :: t ∧ t.length = k - 1 ∧
    ∀ d ∈ t, LeadingOnes 1 d}

/-- The groups, as they are read. -/
def utf8Grouping : Grouping UInt8 where
  head := isUtf8Step 0
  tail c := c &&& 0xc0 = 0x80

instance : DecidablePred utf8Grouping.tail := fun c =>
  inferInstanceAs (Decidable (c &&& 0xc0 = 0x80))

/-! ## Bits -/

theorem LeadingOnes.unique {k l : ℕ} {c : UInt8} (hk : LeadingOnes k c) (hl : LeadingOnes l c) :
    k = l := by
  rcases Nat.lt_trichotomy k l with h | h | h
  · exact absurd (hl.ones k h) (by simp [hk.zero])
  · exact h
  · exact absurd (hk.ones l h) (by simp [hl.zero])

/-- The condition of the inner loop. -/
theorem shiftLeft_and_ne_zero_iff {x b : ℕ} (hb : b ≤ 7) :
    x <<< b &&& 0x80 ≠ 0 ↔ x.testBit (7 - b) = true := by
  have hshift : (x <<< b).testBit 7 = x.testBit (7 - b) := by
    rw [Nat.testBit_shiftLeft, decide_eq_true hb, Bool.true_and]
  have hand : x <<< b &&& 0x80 = (x.testBit (7 - b)).toNat * 2 ^ 7 := by
    rw [← hshift]
    exact Nat.and_two_pow (x <<< b) 7
  rw [hand]
  cases x.testBit (7 - b) <;> simp

/-- The masks of the outer loop. -/
theorem and_mask (c : UInt8) : (c &&& 0x80 = 0 ↔ c < 0x80) ∧
    (c &&& 0x80 = 0 ↔ c.toNat.testBit 7 = false) ∧
    (c &&& 0xc0 = 0x80 ↔ c.toNat.testBit 7 = true ∧ c.toNat.testBit 6 = false) := by
  have hall : ∀ n < 256, (UInt8.ofNat n &&& 0x80 = 0 ↔ UInt8.ofNat n < 0x80) ∧
      (UInt8.ofNat n &&& 0x80 = 0 ↔ n.testBit 7 = false) ∧
      (UInt8.ofNat n &&& 0xc0 = 0x80 ↔ n.testBit 7 = true ∧ n.testBit 6 = false) := by
    decide +kernel
  have h := hall c.toNat c.toNat_lt
  rwa [UInt8.ofNat_toNat] at h

theorem leadingOnes_one_iff {c : UInt8} : LeadingOnes 1 c ↔ c &&& 0xc0 = 0x80 := by
  rw [(and_mask c).2.2]
  constructor
  · intro h
    exact ⟨h.ones 0 Nat.one_pos, h.zero⟩
  · rintro ⟨hone, hzero⟩
    refine ⟨fun j hj => ?_, hzero⟩
    rw [Nat.lt_one_iff.mp hj]
    exact hone

/-- **The inner loop** counts the bits that are set, if these are six at most. -/
theorem leadBits_eq_some_iff {c : UInt8} {b k : ℕ} (hb : b ≤ 6) : leadBits c b = some k ↔
    b ≤ k ∧ k ≤ 6 ∧ (∀ j, b ≤ j → j < k → c.toNat.testBit (7 - j) = true) ∧
      c.toNat.testBit (7 - k) = false := by
  fun_induction leadBits c b with
  | case1 b h h6 =>
    -- the seventh bit
    rw [shiftLeft_and_ne_zero_iff (by omega)] at h
    refine iff_of_false (by simp) ?_
    rintro ⟨hlo, hhi, -, hzero⟩
    obtain rfl : k = b := by omega
    rw [hzero] at h
    cases h
  | case2 b h h6 ih =>
    rw [shiftLeft_and_ne_zero_iff (by omega)] at h
    rw [ih (by omega)]
    constructor
    · rintro ⟨hlo, hhi, hones, hzero⟩
      refine ⟨by omega, hhi, fun j hj hjk => ?_, hzero⟩
      rcases Nat.eq_or_lt_of_le hj with rfl | hlt
      · exact h
      · exact hones j hlt hjk
    · rintro ⟨hlo, hhi, hones, hzero⟩
      have hne : b ≠ k := by
        rintro rfl
        rw [hzero] at h
        cases h
      exact ⟨by omega, hhi, fun j hj => hones j (by omega), hzero⟩
  | case3 b h =>
    rw [shiftLeft_and_ne_zero_iff (by omega), Bool.not_eq_true] at h
    constructor
    · intro heq
      cases heq
      exact ⟨le_refl _, hb, fun j hlo hhi => by omega, h⟩
    · rintro ⟨hlo, hhi, hones, -⟩
      rcases Nat.eq_or_lt_of_le hlo with rfl | hlt
      · rfl
      · rw [hones b (le_refl _) hlt] at h
        cases h

theorem leadBits_zero_eq_some_iff {c : UInt8} {k : ℕ} :
    leadBits c 0 = some k ↔ k ≤ 6 ∧ LeadingOnes k c := by
  rw [leadBits_eq_some_iff (Nat.zero_le 6)]
  constructor
  · rintro ⟨-, hk, hones, hzero⟩
    exact ⟨hk, fun j hj => hones j (Nat.zero_le j) hj, hzero⟩
  · rintro ⟨hk, hones, hzero⟩
    exact ⟨Nat.zero_le k, hk, fun j _ hj => hones j hj, hzero⟩

/-! ## The rounds -/

theorem isUtf8Step_eq : isUtf8Step = utf8Grouping.step := by
  funext n c
  cases n with
  | zero => rfl
  | succ n =>
    rw [isUtf8Step, if_neg (by omega), Grouping.step]
    by_cases h : c &&& 0xc0 = 0x80
    · rw [if_pos ⟨by omega, h⟩, if_pos (show utf8Grouping.tail c from h), Nat.add_sub_cancel]
    · rw [if_neg (fun h' => h h'.2), if_pos ⟨by omega, h⟩,
        if_neg (show ¬ utf8Grouping.tail c from h)]

/-- **A byte that begins a group.** -/
theorem isUtf8Step_zero_eq_some_iff {c : UInt8} {n : ℕ} : isUtf8Step 0 c = some n ↔
    c < 0x80 ∧ n = 0 ∨ ∃ k, 2 ≤ k ∧ k ≤ 6 ∧ LeadingOnes k c ∧ n = k - 1 := by
  obtain ⟨hascii, hbit, -⟩ := and_mask c
  rw [isUtf8Step]
  by_cases h : c &&& 0x80 = 0
  · rw [if_pos ⟨rfl, h⟩]
    constructor
    · intro heq
      exact .inl ⟨hascii.mp h, (Option.some.inj heq).symm⟩
    · rintro (⟨-, rfl⟩ | ⟨k, hk, -, hones, -⟩)
      · rfl
      · have hone := hones.ones 0 (by omega)
        rw [hbit.mp h] at hone
        cases hone
  · rw [if_neg fun h' => h h'.2, if_neg fun h' => h'.1 rfl, if_neg fun h' => h'.1 rfl,
      Option.bind_eq_some_iff]
    constructor
    · rintro ⟨k, hk, heq⟩
      obtain ⟨h6, hones⟩ := leadBits_zero_eq_some_iff.mp hk
      split at heq
      · cases heq
      · exact .inr ⟨k, by omega, h6, hones, (Option.some.inj heq).symm⟩
    · rintro (⟨hlt, -⟩ | ⟨k, hk, h6, hones, rfl⟩)
      · exact absurd (hascii.mpr hlt) h
      · exact ⟨k, leadBits_zero_eq_some_iff.mpr ⟨h6, hones⟩, if_neg (by omega)⟩

/-- **The groups** are single bytes, and bytes behind a head. -/
theorem groups_utf8Grouping : utf8Grouping.groups = single + multiple := by
  ext w
  rw [Language.mem_add]
  constructor
  · rintro ⟨c, t, rfl, hhead, htail⟩
    rcases isUtf8Step_zero_eq_some_iff.mp hhead with ⟨hlt, ht⟩ | ⟨k, hk, h6, hones, ht⟩
    · rw [List.length_eq_zero_iff.mp ht]
      exact .inl ⟨c, hlt, rfl⟩
    · exact .inr ⟨k, c, t, hk, h6, hones, rfl, ht, fun d hd => leadingOnes_one_iff.mpr (htail d hd)⟩
  · rintro (⟨c, hlt, rfl⟩ | ⟨k, c, t, hk, h6, hones, rfl, ht, htail⟩)
    · exact ⟨c, [], rfl, isUtf8Step_zero_eq_some_iff.mpr (.inl ⟨hlt, rfl⟩), by simp⟩
    · exact ⟨c, t, rfl, isUtf8Step_zero_eq_some_iff.mpr (.inr ⟨k, hk, h6, hones, ht⟩),
        fun d hd => leadingOnes_one_iff.mp (htail d hd)⟩

/-- **The loop** ends without a missing byte if and only if the bytes are groups. -/
theorem foldlM_isUtf8Step_iff {w : List UInt8} :
    w.foldlM isUtf8Step 0 = some 0 ↔ w ∈ (single + multiple)∗ := by
  rw [isUtf8Step_eq, Grouping.foldlM_step_iff, Grouping.rest_zero, groups_utf8Grouping]

/-- The result, by what the loop leaves. -/
theorem rkEncodeIsUtf8Size_eq (buf : ℕ → UInt8) (size : ℤ) : rkEncodeIsUtf8Size buf size =
    if size = 0 ∨ buf 0 = 0 ∨ (bytesAt buf size).foldlM isUtf8Step 0 = some 0 then 1 else 0 := by
  rw [rkEncodeIsUtf8Size]
  simp only [← or_assoc]
  split
  · next h => exact (if_pos (.inl h)).symm
  · next h =>
    cases (bytesAt buf size).foldlM isUtf8Step 0 with
    | none => exact (if_neg (not_or.mpr ⟨h, by simp⟩)).symm
    | some bit1num =>
      by_cases h0 : bit1num = 0
      · rw [if_pos (.inr (congrArg some h0)), h0]
        rfl
      · rw [if_neg (not_or.mpr ⟨h, fun h' => h0 (Option.some.inj h')⟩)]
        exact if_pos h0

/-- **The buffers that are accepted**, and those that are not. -/
theorem rkEncodeIsUtf8Size_iff (buf : ℕ → UInt8) (size : ℤ) :
    (rkEncodeIsUtf8Size buf size = 1 ↔
      size = 0 ∨ buf 0 = 0 ∨ bytesAt buf size ∈ (single + multiple)∗) ∧
    (rkEncodeIsUtf8Size buf size = 0 ↔
      ¬ (size = 0 ∨ buf 0 = 0 ∨ bytesAt buf size ∈ (single + multiple)∗)) := by
  rw [← foldlM_isUtf8Step_iff, rkEncodeIsUtf8Size_eq]
  split
  · next h => exact ⟨iff_of_true rfl h, iff_of_false (by decide) fun h' => h' h⟩
  · next h => exact ⟨iff_of_false (by decide) h, iff_of_true rfl h⟩

/-! ## Strings -/

/-- Both ways to count the bits. -/
theorem bit1num_eq_iff {c : UInt8} {k : ℕ} (hk : k ≤ 6) : bit1num c = k ↔ LeadingOnes k c := by
  have hall : ∀ n < 256, ∀ k < 7, bit1num (UInt8.ofNat n) = k ↔
      (∀ j < k, n.testBit (7 - j) = true) ∧ n.testBit (7 - k) = false := by
    decide +kernel
  have h := hall c.toNat c.toNat_lt k (Nat.lt_succ_of_le hk)
  rw [UInt8.ofNat_toNat] at h
  rw [h]
  constructor
  · rintro ⟨hones, hzero⟩
    exact ⟨hones, hzero⟩
  · rintro ⟨hones, hzero⟩
    exact ⟨hones, hzero⟩

theorem leadBits_zero_eq (c : UInt8) :
    leadBits c 0 = if 6 < bit1num c then none else some (bit1num c) := by
  split
  · next h =>
    refine Option.eq_none_iff_forall_ne_some.mpr fun k hk => ?_
    obtain ⟨h6, hones⟩ := leadBits_zero_eq_some_iff.mp hk
    rw [(bit1num_eq_iff h6).mpr hones] at h
    omega
  · next h =>
    have h6 : bit1num c ≤ 6 := Nat.le_of_not_lt h
    exact leadBits_zero_eq_some_iff.mpr ⟨h6, (bit1num_eq_iff h6).mp rfl⟩

theorem isUtf8From_cons (n : ℕ) (c : UInt8) (s : Str) :
    isUtf8From n (c :: s) = ((isUtf8Step n c).map fun m => isUtf8From m s).getD false := by
  rw [isUtf8From, isUtf8Step, leadBits_zero_eq]
  split
  · next h => rw [h.1]; rfl
  split
  · rfl
  split
  · next h hmask hne =>
    rw [if_pos ⟨hne, fun h' => hmask ⟨hne, h'⟩⟩]
    rfl
  · next h hmask hne =>
    have hskip : ¬ (n ≠ 0 ∧ c &&& 0xc0 ≠ 0x80) := fun h' => hne h'.1
    rw [if_neg hskip]
    by_cases h6 : 6 < bit1num c
    · rw [if_pos (.inl h6), if_pos h6]
      rfl
    · rw [if_neg h6, Option.bind_some]
      by_cases h2 : bit1num c < 2
      · rw [if_pos (.inr h2), if_pos h2]
        rfl
      · rw [if_neg (not_or.mpr ⟨h6, h2⟩), if_neg h2]
        rfl

/-- **The loop on strings** is the loop on buffers. -/
theorem isUtf8From_iff (n : ℕ) (s : Str) :
    isUtf8From n s = true ↔ s.foldlM isUtf8Step n = some 0 := by
  induction s generalizing n with
  | nil =>
    rw [isUtf8From, decide_eq_true_iff]
    exact Option.some_inj.symm
  | cons c s ih =>
    rw [isUtf8From_cons, List.foldlM_cons]
    cases isUtf8Step n c with
    | none => exact iff_of_false (by simp) (by simp)
    | some m => exact ih m

/-- **A string is accepted as a buffer is.** -/
theorem rkEncodeIsUtf8Size_of_str {buf : ℕ → UInt8} {s : Str} (hs : bytesAt buf s.length = s)
    (h0 : 0 ∉ s) : rkEncodeIsUtf8Size buf s.length = 1 ↔ rkEncodeIsUtf8 s = true := by
  rw [rkEncodeIsUtf8Size_eq, hs, rkEncodeIsUtf8, isUtf8From_iff]
  cases s with
  | nil => exact iff_of_true rfl rfl
  | cons c s =>
    have hc : buf 0 = c := by
      rw [bytesAt, List.length_cons, Int.toNat_natCast, List.range_succ_eq_map, List.map_cons] at hs
      exact (List.cons.inj hs).1
    have hne : c ≠ 0 := fun h => h0 (h ▸ List.mem_cons_self)
    have hlen : ((c :: s).length : ℤ) ≠ 0 := by
      rw [List.length_cons]
      omega
    simp only [hc, hne, hlen, false_or]
    split
    · next h => exact iff_of_true rfl h
    · next h => exact iff_of_false (by decide) h

end RkIpc.Network
