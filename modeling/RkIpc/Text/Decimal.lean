import RkIpc.Text.Scan
import RkIpc.Wire.Int32

/-!
# Numbers in text

`%d` prints an `int` in decimal digits, behind a minus sign if it is negative. `strtol` with base
zero reads the longest number at the beginning of a string: octal behind a `0`, hexadecimal behind
a `0x`, decimal otherwise. A `long` has 32 bits.

## Main definitions

* `decimal`, `decimal02`: the text of an `int`, and with two digits at least
* `strtol`: the number a text begins with
* `scanInt`: `%d` of `scanf`

## Main results

* `strtol_decimal`, `scanInt_decimal`: what was printed is read back
* `decimal_injective`, `length_decimal_le_seven_iff`: different numbers have different texts, and
  which texts are short
* `strtol_take_one_iff`: the first byte of the text gives the number for digits only
-/

namespace Text

open Wire

/-- Digits. -/
def decimalNat (n : ℕ) : Str := (Nat.toDigits 10 n).map fun c => UInt8.ofNat c.toNat

/-- **`%d`.** -/
def decimal (v : ℤ) : Str := if v < 0 then 45 :: decimalNat v.natAbs else decimalNat v.natAbs

/-- `%02d`, of what is not negative. -/
def decimal02 (n : ℕ) : Str := if n < 10 then 48 :: decimalNat n else decimalNat n

/-- The value of a digit of any base. -/
def digitValue (c : UInt8) : Option ℕ :=
  if 48 ≤ c ∧ c ≤ 57 then some (c.toNat - 48)
  else if 97 ≤ c ∧ c ≤ 122 then some (c.toNat - 87)
  else if 65 ≤ c ∧ c ≤ 90 then some (c.toNat - 55)
  else none

/-- Digits are read as long as they belong to the base. -/
def readDigits (base : ℕ) : ℕ → Str → ℕ
  | n, [] => n
  | n, c :: s =>
    match digitValue c with
    | some d => if d < base then readDigits base (n * base + d) s else n
    | none => n

/-- Behind the sign: the base, and the number. -/
def readNumber : Str → ℕ
  | 48 :: x :: h :: s =>
    -- `0x` counts only if a hexadecimal digit follows
    if (x = 120 ∨ x = 88) ∧ ∃ d ∈ digitValue h, d < 16 then readDigits 16 0 (h :: s)
    else readDigits 8 0 (x :: h :: s)
  | 48 :: s => readDigits 8 0 s
  | s => readDigits 10 0 s

/-- The largest and the smallest `long` stand for what is beyond them. -/
def clamp (v : ℤ) : ℤ := max (-2147483648) (min v 2147483647)

/-- **`strtol(s, NULL, 0)`.** -/
def strtol (s : Str) : ℤ :=
  match stripLeft s with
  | 45 :: s => clamp (-(readNumber s : ℤ))
  | 43 :: s => clamp (readNumber s)
  | s => clamp (readNumber s)

/-! ## Digits -/

theorem digit_eq {d : ℕ} (h : d < 10) :
    UInt8.ofNat (Nat.digitChar d).toNat = UInt8.ofNat (48 + d) := by
  rw [Nat.toNat_digitChar_of_lt_ten h]

theorem decimalNat_of_lt {n : ℕ} (h : n < 10) : decimalNat n = [UInt8.ofNat (48 + n)] := by
  rw [decimalNat, Nat.toDigits_of_lt_base h, List.map_singleton, digit_eq h]

/-- The last digit. -/
theorem decimalNat_of_le {n : ℕ} (h : 10 ≤ n) :
    decimalNat n = decimalNat (n / 10) ++ [UInt8.ofNat (48 + n % 10)] := by
  rw [decimalNat, Nat.toDigits_of_base_le (by omega) h, List.map_append, List.map_singleton,
    digit_eq (Nat.mod_lt n (by omega))]
  rfl

theorem toNat_digit {d : ℕ} (h : d < 10) : (UInt8.ofNat (48 + d)).toNat = 48 + d :=
  UInt8.toNat_ofNat_of_lt' (show 48 + d < 256 by omega)

/-- A digit. -/
def IsDigit (c : UInt8) : Prop := 48 ≤ c ∧ c ≤ 57

theorem isDigit_iff {c : UInt8} : IsDigit c ↔ 48 ≤ c.toNat ∧ c.toNat ≤ 57 := by
  simp [IsDigit, UInt8.le_iff_toNat_le]

theorem isDigit_digit {d : ℕ} (h : d < 10) : IsDigit (UInt8.ofNat (48 + d)) := by
  rw [isDigit_iff, toNat_digit h]
  omega

theorem digitValue_digit {d : ℕ} (h : d < 10) : digitValue (UInt8.ofNat (48 + d)) = some d := by
  have hdigit : 48 ≤ UInt8.ofNat (48 + d) ∧ UInt8.ofNat (48 + d) ≤ 57 := isDigit_digit h
  rw [digitValue, if_pos hdigit, toNat_digit h]
  simp

/-- **Digits that were printed are read back.** -/
theorem readDigits_decimalNat (n : ℕ) (s : Str) :
    readDigits 10 0 (decimalNat n ++ s) = readDigits 10 n s := by
  have hstep : ∀ m d, d < 10 → ∀ s, readDigits 10 m (UInt8.ofNat (48 + d) :: s) =
      readDigits 10 (m * 10 + d) s := by
    intro m d hd s
    rw [readDigits, digitValue_digit hd]
    exact if_pos hd
  induction n using Nat.strong_induction_on generalizing s with
  | _ n ih =>
    rcases Nat.lt_or_ge n 10 with h | h
    · rw [decimalNat_of_lt h, List.singleton_append, hstep 0 n h, Nat.zero_mul, Nat.zero_add]
    · rw [decimalNat_of_le h, List.append_assoc, List.singleton_append, ih (n / 10) (by omega),
        hstep _ _ (Nat.mod_lt n (by omega)), Nat.div_add_mod' n 10]

theorem decimalNat_injective : Function.Injective decimalNat := by
  intro m n h
  have := readDigits_decimalNat m []
  rw [h, readDigits_decimalNat] at this
  simpa [readDigits] using this.symm

theorem isDigit_of_mem_decimalNat {n : ℕ} {c : UInt8} (h : c ∈ decimalNat n) : IsDigit c := by
  induction n using Nat.strong_induction_on with
  | _ n ih =>
    rcases Nat.lt_or_ge n 10 with hn | hn
    · rw [decimalNat_of_lt hn, List.mem_singleton] at h
      exact h ▸ isDigit_digit hn
    · rw [decimalNat_of_le hn, List.mem_append, List.mem_singleton] at h
      rcases h with h | rfl
      · exact ih (n / 10) (by omega) h
      · exact isDigit_digit (Nat.mod_lt n (by omega))

/-- A positive number does not begin with a zero. -/
theorem decimalNat_eq_cons {n : ℕ} (hn : 0 < n) : ∃ c s, decimalNat n = c :: s ∧ c ≠ 48 := by
  induction n using Nat.strong_induction_on with
  | _ n ih =>
    rcases Nat.lt_or_ge n 10 with h | h
    · refine ⟨_, [], decimalNat_of_lt h, fun h48 => ?_⟩
      have hnat := congrArg UInt8.toNat h48
      rw [toNat_digit h, show (48 : UInt8).toNat = 48 from rfl] at hnat
      omega
    · obtain ⟨c, s, hc, hne⟩ := ih (n / 10) (by omega) (by omega)
      exact ⟨c, _, by rw [decimalNat_of_le h, hc, List.cons_append], hne⟩

theorem readNumber_decimalNat (n : ℕ) : readNumber (decimalNat n) = n := by
  have hread := readDigits_decimalNat n []
  rw [List.append_nil] at hread
  rcases Nat.eq_zero_or_pos n with rfl | hn
  · rfl
  · obtain ⟨c, s, h, hc⟩ := decimalNat_eq_cons hn
    rw [h] at hread ⊢
    rw [← show readDigits 10 n [] = n from rfl, ← hread]
    unfold readNumber
    split
    · next heq => exact absurd (List.cons.inj heq).1 hc
    · next heq => exact absurd (List.cons.inj heq).1 hc
    · rfl

/-! ## Numbers -/

theorem decimal_of_nonneg {v : ℤ} (h : 0 ≤ v) : decimal v = decimalNat v.natAbs :=
  if_neg (by omega)

theorem decimal_of_neg {v : ℤ} (h : v < 0) : decimal v = 45 :: decimalNat v.natAbs := if_pos h

theorem decimalNat_ne_nil (n : ℕ) : decimalNat n ≠ [] := by
  simp [decimalNat]

/-- A text of digits begins with a digit. -/
theorem decimalNat_head (n : ℕ) : ∃ c s, decimalNat n = c :: s ∧ IsDigit c := by
  obtain ⟨c, s, h⟩ := List.exists_cons_of_ne_nil (decimalNat_ne_nil n)
  exact ⟨c, s, h, isDigit_of_mem_decimalNat (n := n) (h ▸ List.mem_cons_self)⟩

theorem IsDigit.not_isSpace {c : UInt8} (h : IsDigit c) : isSpace c = false := by
  unfold IsDigit at h
  unfold isSpace
  grind

/-- A digit is not the minus sign. -/
theorem IsDigit.ne_minus {c : UInt8} (h : IsDigit c) : c ≠ 45 ∧ c ≠ 43 := by
  unfold IsDigit at h
  grind

theorem isDigit_or_minus_of_mem_decimal {v : ℤ} {c : UInt8} (h : c ∈ decimal v) :
    c = 45 ∨ IsDigit c := by
  unfold decimal at h
  split at h
  · exact (List.mem_cons.mp h).imp id isDigit_of_mem_decimalNat
  · exact Or.inr (isDigit_of_mem_decimalNat h)

/-- The text of a number has no terminator in it. -/
theorem cstr_decimal (v : ℤ) : cstr (decimal v) = decimal v := by
  apply cstr_eq_self
  intro h0
  rcases isDigit_or_minus_of_mem_decimal h0 with h | h
  · exact absurd h (by decide)
  · exact absurd h.1 (by decide)

/-- **Different numbers have different texts.** -/
theorem decimal_injective : Function.Injective decimal := by
  have hminus : ∀ m n, decimalNat m ≠ 45 :: decimalNat n := by
    intro m n h
    obtain ⟨c, s, hc, hdigit⟩ := decimalNat_head m
    rw [hc] at h
    exact hdigit.ne_minus.1 (List.cons.inj h).1
  intro v w h
  rcases lt_or_ge v 0 with hv | hv <;> rcases lt_or_ge w 0 with hw | hw
  · rw [decimal_of_neg hv, decimal_of_neg hw] at h
    have := decimalNat_injective (List.cons.inj h).2
    omega
  · rw [decimal_of_neg hv, decimal_of_nonneg hw] at h
    exact absurd h.symm (hminus _ _)
  · rw [decimal_of_nonneg hv, decimal_of_neg hw] at h
    exact absurd h (hminus _ _)
  · rw [decimal_of_nonneg hv, decimal_of_nonneg hw] at h
    have := decimalNat_injective h
    omega

theorem clamp_eq_self {v : ℤ} (hv : InRange v) : clamp v = v := by
  unfold clamp
  unfold InRange at hv
  omega

/-- Without white space and sign, `strtol` is the number. -/
theorem strtol_of_isDigit {c : UInt8} {s : Str} (hc : IsDigit c) :
    strtol (c :: s) = clamp (readNumber (c :: s)) := by
  rw [strtol, stripLeft_eq_self fun d hd => by
    obtain rfl : c = d := by simpa using hd
    exact hc.not_isSpace]
  split
  · next heq => exact absurd (List.cons.inj heq).1 hc.ne_minus.1
  · next heq => exact absurd (List.cons.inj heq).1 hc.ne_minus.2
  · rfl

theorem strtol_minus (s : Str) : strtol (45 :: s) = clamp (-(readNumber s : ℤ)) := rfl

/-- **What was printed is read back.** -/
theorem strtol_decimal {v : ℤ} (hv : InRange v) : strtol (decimal v) = v := by
  rcases lt_or_ge v 0 with h | h
  · rw [decimal_of_neg h, strtol_minus, readNumber_decimalNat]
    have : -(v.natAbs : ℤ) = v := by omega
    rw [this, clamp_eq_self hv]
  · obtain ⟨c, s, hc, hdigit⟩ := decimalNat_head v.natAbs
    rw [decimal_of_nonneg h, hc, strtol_of_isDigit hdigit, ← hc, readNumber_decimalNat]
    have : (v.natAbs : ℤ) = v := by omega
    rw [this, clamp_eq_self hv]

/-- A digit is the text of its value. -/
theorem strtol_isDigit {c : UInt8} (hc : IsDigit c) : 0 ≤ strtol [c] ∧ strtol [c] ≤ 9 := by
  obtain ⟨hlo, hhi⟩ := isDigit_iff.mp hc
  obtain ⟨d, hd⟩ := Nat.exists_eq_add_of_le hlo
  have htext : decimal d = [c] := by
    rw [decimal_of_nonneg (by omega), Int.natAbs_natCast, decimalNat_of_lt (by omega), ← hd,
      UInt8.ofNat_toNat]
  rw [← htext, strtol_decimal ⟨by omega, by omega⟩]
  omega

theorem length_decimalNat_le_iff {n k : ℕ} (hk : 0 < k) :
    (decimalNat n).length ≤ k ↔ n < 10 ^ k := by
  rw [decimalNat, List.length_map, Nat.length_toDigits_le_iff (by omega) hk]

/-- **Which texts are short.** -/
theorem length_decimal_le_seven_iff {v : ℤ} :
    (decimal v).length ≤ 7 ↔ -999999 ≤ v ∧ v ≤ 9999999 := by
  rcases lt_or_ge v 0 with h | h
  · have := length_decimalNat_le_iff (n := v.natAbs) (k := 6) (by omega)
    rw [decimal_of_neg h, List.length_cons]
    omega
  · have := length_decimalNat_le_iff (n := v.natAbs) (k := 7) (by omega)
    rw [decimal_of_nonneg h]
    omega

/-- **The first byte of the text gives the number for digits only.** -/
theorem strtol_take_one_iff {v : ℤ} : strtol ((decimal v).take 1) = v ↔ 0 ≤ v ∧ v ≤ 9 := by
  rcases lt_or_ge v 0 with h | h
  · -- the minus sign alone is zero
    have hzero : strtol ((decimal v).take 1) = 0 := by
      rw [decimal_of_neg h]
      rfl
    omega
  · obtain ⟨c, s, hc, hdigit⟩ := decimalNat_head v.natAbs
    have htake : (decimal v).take 1 = [c] := by
      rw [decimal_of_nonneg h, hc, List.take_succ_cons, List.take_zero]
    have hlen := length_decimalNat_le_iff (n := v.natAbs) (k := 1) (by omega)
    rw [htake]
    constructor
    · have := strtol_isDigit hdigit
      omega
    · -- the text is that byte
      intro hv
      have hs : s = [] := List.length_eq_zero_iff.mp (by
        rw [hc, List.length_cons] at hlen
        omega)
      rw [← hs, ← hc, ← decimal_of_nonneg h]
      exact strtol_decimal ⟨by omega, by omega⟩

/-! ## Two digits -/

theorem decimal02_eq {n : ℕ} (h : n < 100) :
    decimal02 n = [UInt8.ofNat (48 + n / 10), UInt8.ofNat (48 + n % 10)] := by
  have hall : ∀ n < 100,
      decimal02 n = [UInt8.ofNat (48 + n / 10), UInt8.ofNat (48 + n % 10)] := by decide +kernel
  exact hall n h

theorem length_decimal02 {n : ℕ} (h : n < 100) : (decimal02 n).length = 2 := by
  rw [decimal02_eq h]
  rfl

theorem isDigit_of_mem_decimal02 {n : ℕ} {c : UInt8} (h : c ∈ decimal02 n) : IsDigit c := by
  unfold decimal02 at h
  split at h
  · rcases List.mem_cons.mp h with rfl | h
    · exact ⟨by decide, by decide⟩
    · exact isDigit_of_mem_decimalNat h
  · exact isDigit_of_mem_decimalNat h

/-! ## Scanning a number -/

instance (c : UInt8) : Decidable (IsDigit c) := inferInstanceAs (Decidable (48 ≤ c ∧ c ≤ 57))

/-- The digits a text begins with, if it does, and what follows them. -/
def scanNat (s : Str) : Option (ℕ × Str) :=
  let digits := s.takeWhile fun c => IsDigit c
  if digits = [] then none else some (readDigits 10 0 digits, s.dropWhile fun c => IsDigit c)

/-- **`%d` of `scanf`**: the number, and what follows it. -/
def scanInt (s : Str) : Option (ℤ × Str) :=
  match stripLeft s with
  | 45 :: s => (scanNat s).map fun r => (clamp (-(r.1 : ℤ)), r.2)
  | 43 :: s => (scanNat s).map fun r => (clamp r.1, r.2)
  | s => (scanNat s).map fun r => (clamp r.1, r.2)

theorem scanNat_decimalNat (n : ℕ) {s : Str} (hs : ∀ c ∈ s.head?, ¬ IsDigit c) :
    scanNat (decimalNat n ++ s) = some (n, s) := by
  have hdigits : ∀ c ∈ decimalNat n, decide (IsDigit c) = true := fun c hc =>
    decide_eq_true (isDigit_of_mem_decimalNat hc)
  -- the digits end with the number
  have htake : s.takeWhile (fun c => IsDigit c) = [] ∧ s.dropWhile (fun c => IsDigit c) = s := by
    cases s with
    | nil => exact ⟨rfl, rfl⟩
    | cons c s =>
      have hc : ¬ IsDigit c := hs c rfl
      exact ⟨List.takeWhile_cons_of_neg (by simpa using hc),
        List.dropWhile_cons_of_neg (by simpa using hc)⟩
  have hread := readDigits_decimalNat n []
  rw [List.append_nil] at hread
  rw [scanNat, List.takeWhile_append_of_pos hdigits, List.dropWhile_append_of_pos hdigits, htake.1,
    htake.2, List.append_nil, if_neg (decimalNat_ne_nil n), hread]
  rfl

/-- Digits are scanned up to the largest `long`. -/
theorem scanInt_decimalNat (n : ℕ) {s : Str} (hs : ∀ c ∈ s.head?, ¬ IsDigit c) :
    scanInt (decimalNat n ++ s) = some (clamp n, s) := by
  obtain ⟨c, t, hc, hdigit⟩ := decimalNat_head n
  have hstrip : stripLeft (decimalNat n ++ s) = decimalNat n ++ s :=
    stripLeft_eq_self fun d hd => by
      rw [hc] at hd
      obtain rfl : c = d := by simpa using hd
      exact hdigit.not_isSpace
  have hscan := scanNat_decimalNat n hs
  rw [scanInt, hstrip]
  rw [hc, List.cons_append] at hscan ⊢
  -- no sign
  split
  · next heq => exact absurd (List.cons.inj heq).1 hdigit.ne_minus.1
  · next heq => exact absurd (List.cons.inj heq).1 hdigit.ne_minus.2
  · rw [hscan, Option.map_some]

/-- **What was printed is scanned.** -/
theorem scanInt_decimal {v : ℤ} (hv : InRange v) {s : Str} (hs : ∀ c ∈ s.head?, ¬ IsDigit c) :
    scanInt (decimal v ++ s) = some (v, s) := by
  rcases lt_or_ge v 0 with h | h
  · have habs : -(v.natAbs : ℤ) = v := by omega
    have hstrip : stripLeft (45 :: decimalNat v.natAbs ++ s) = 45 :: (decimalNat v.natAbs ++ s) :=
      stripLeft_eq_self fun c hc => by
        obtain rfl : 45 = c := by simpa using hc
        rfl
    rw [decimal_of_neg h, scanInt, hstrip]
    change (scanNat (decimalNat v.natAbs ++ s)).map _ = _
    rw [scanNat_decimalNat _ hs, Option.map_some, habs, clamp_eq_self hv]
  · have habs : (v.natAbs : ℤ) = v := by omega
    rw [decimal_of_nonneg h, scanInt_decimalNat _ hs, habs, clamp_eq_self hv]

/-- What is read is in range. -/
theorem inRange_clamp (v : ℤ) : InRange (clamp v) := by
  unfold InRange clamp
  omega

theorem inRange_strtol (s : Str) : InRange (strtol s) := by
  unfold strtol
  split <;> exact inRange_clamp _

theorem inRange_scanInt {s : Str} {v : ℤ} {rest : Str} (h : scanInt s = some (v, rest)) :
    InRange v := by
  unfold scanInt at h
  split at h
  · obtain ⟨r, -, hr⟩ := Option.map_eq_some_iff.mp h
    exact (Prod.mk.inj hr).1 ▸ inRange_clamp _
  · obtain ⟨r, -, hr⟩ := Option.map_eq_some_iff.mp h
    exact (Prod.mk.inj hr).1 ▸ inRange_clamp _
  · obtain ⟨r, -, hr⟩ := Option.map_eq_some_iff.mp h
    exact (Prod.mk.inj hr).1 ▸ inRange_clamp _

/-- An `int` has at most eleven characters. -/
theorem length_decimal_le_eleven {v : ℤ} (h : InRange v) : (decimal v).length ≤ 11 := by
  unfold InRange at h
  have hlen := length_decimalNat_le_iff (n := v.natAbs) (k := 10) (by omega)
  unfold decimal
  split
  · rw [List.length_cons]
    omega
  · omega

theorem length_decimal_int32 (v : Int32) : (decimal v.toInt).length ≤ 11 :=
  length_decimal_le_eleven ⟨v.le_toInt, by
    have := v.toInt_lt
    omega⟩

end Text
