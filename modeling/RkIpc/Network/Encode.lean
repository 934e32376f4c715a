import RkIpc.Text.Utf8

/-!
# GBK and UTF-8

`common/network/RK_encode.c` and `gbk_to_utf8.c`: a test whether a string is UTF-8, and the
conversion of GBK to UTF-8. The test counts bytes only, and accepts more than UTF-8. The conversion
takes two bytes for a character if the first one is not ASCII, whatever the second one is.

## Main definitions

* `GbkTable`: the table of the conversion
* `gbkToUtf8`: the conversion
* `rkEncodeIsUtf8`: the test

## Main results

* `unicodeToUtf8_gbkToUnicode`: what the conversion yields for two bytes
* `rkEncodeIsUtf8_of_isUtf8`: the test accepts UTF-8
-/

namespace RkIpc.Network

open Text

/-! ## Conversion -/

/-- How many entries of `mb_gb2uni_table` are used. -/
def tableSize : ℕ := 24066

/-- **`mb_gb2uni_table`**. All entries that are used are characters; one is a question mark where
GBK has none, and no other is ASCII. -/
structure GbkTable where
  entry : ℕ → UInt16
  character : ∀ i < tableSize, (entry i).toNat = 63 ∨
    128 ≤ (entry i).toNat ∧ (entry i).toNat.isValidChar

/-- `gbk_to_unicode`. -/
def gbkToUnicode (table : GbkTable) (ch cl : UInt8) : UInt16 :=
  let ch := ch - 0x81
  let cl := cl - 0x40
  if ch ≤ 0x7d ∧ cl ≤ 0xbe then table.entry (ch.toNat * 0xbf + cl.toNat) else 0x1fff

/-- `unicode_to_utf8`; the bits that are masked are remainders here. -/
def unicodeToUtf8 (c : ℕ) : Str :=
  if c < 0x80 then cstr [UInt8.ofNat c]
  else
    (if c < 0x0800 then [UInt8.ofNat (0xC0 + c / 2 ^ 6 % 32)]
    else
      (if c < 0x010000 then [UInt8.ofNat (0xE0 + c / 2 ^ 12 % 16)]
      else
        (if c < 0x200000 then [UInt8.ofNat (0xF0 + c / 2 ^ 18 % 8)]
        else
          (if c < 0x04000000 then [UInt8.ofNat (0xF8 + c / 2 ^ 24 % 4)]
          else [UInt8.ofNat (0xFC + c / 2 ^ 30 % 2), UInt8.ofNat (0x80 + c / 2 ^ 24 % 64)]) ++
          [UInt8.ofNat (0x80 + c / 2 ^ 18 % 64)]) ++
        [UInt8.ofNat (0x80 + c / 2 ^ 12 % 64)]) ++
      [UInt8.ofNat (0x80 + c / 2 ^ 6 % 64)]) ++
    [UInt8.ofNat (0x80 + c % 64)]

/-- **`gbk_to_utf8`**. Behind the last byte the terminator is read. -/
def gbkToUtf8 (table : GbkTable) : Str → Str
  | [] => []
  | [c] =>
    if c < 0x80 then unicodeToUtf8 c.toNat else unicodeToUtf8 (gbkToUnicode table c 0).toNat
  | c :: d :: src =>
    if c < 0x80 then unicodeToUtf8 c.toNat ++ gbkToUtf8 table (d :: src)
    else unicodeToUtf8 (gbkToUnicode table c d).toNat ++ gbkToUtf8 table src

/-! ## The test -/

/-- The bits of a byte that are set, from the highest one on. -/
def bit1num (temp : UInt8) : ℕ :=
  ((List.range 8).takeWhile fun n => temp <<< UInt8.ofNat n &&& 0x80 ≠ 0).length

/-- The loop of `RK_encode_is_utf8`, while `n` bytes of a character are missing. -/
def isUtf8From : ℕ → Str → Bool
  | n, [] => n = 0
  | n, c :: buf =>
    if n = 0 ∧ c &&& 0x80 = 0 then isUtf8From 0 buf
    else if n ≠ 0 ∧ c &&& 0xc0 = 0x80 then isUtf8From (n - 1) buf
    else if n ≠ 0 then false
    else if 6 < bit1num c ∨ bit1num c < 2 then false
    else isUtf8From (bit1num c - 1) buf

/-- **`RK_encode_is_utf8`** on a string. -/
def rkEncodeIsUtf8 (buf : Str) : Bool := isUtf8From 0 buf

/-! ## UTF-8 is accepted -/

theorem isUtf8From_ascii {c : UInt8} (h : c < 128) (s : Str) :
    isUtf8From 0 (c :: s) = isUtf8From 0 s := by
  have hall : ∀ n < 128, UInt8.ofNat n &&& 0x80 = 0 := by decide
  have hbit := hall c.toNat (UInt8.lt_iff_toNat_lt.mp h)
  rw [UInt8.ofNat_toNat] at hbit
  rw [isUtf8From, if_pos ⟨rfl, hbit⟩]

theorem isUtf8From_trail (n k : ℕ) (s : Str) :
    isUtf8From (n + 1) (trail k :: s) = isUtf8From n s := by
  have hall : ∀ k < 64, UInt8.ofNat (k + 0x80) &&& 0xc0 = 0x80 := by decide
  have hbit : trail k &&& 0xc0 = 0x80 := hall (k % 64) (by omega)
  rw [isUtf8From, if_neg (by omega), if_pos ⟨by omega, hbit⟩, Nat.add_sub_cancel]

theorem isUtf8From_lead {c : UInt8} {n : ℕ} (hbit : c &&& 0x80 ≠ 0) (hn : bit1num c = n + 2)
    (h6 : n ≤ 4) (s : Str) : isUtf8From 0 (c :: s) = isUtf8From (n + 1) s := by
  rw [isUtf8From, if_neg fun h => hbit h.2, if_neg fun h => h.1 rfl, if_neg fun h => h rfl,
    if_neg (by omega), hn]
  rfl

/-- **The bytes of a character are accepted.** -/
theorem isUtf8From_utf8EncodeChar (c : Char) (s : Str) :
    isUtf8From 0 (String.utf8EncodeChar c ++ s) = isUtf8From 0 s := by
  have htwo : ∀ n < 32, UInt8.ofNat (n + 0xC0) &&& 0x80 ≠ 0 ∧
      bit1num (UInt8.ofNat (n + 0xC0)) = 2 := by
    decide
  have hthree : ∀ n < 16, UInt8.ofNat (n + 0xE0) &&& 0x80 ≠ 0 ∧
      bit1num (UInt8.ofNat (n + 0xE0)) = 3 := by
    decide
  have hfour : ∀ n < 8, UInt8.ofNat (n + 0xF0) &&& 0x80 ≠ 0 ∧
      bit1num (UInt8.ofNat (n + 0xF0)) = 4 := by
    decide
  obtain ⟨n, hn, h⟩ | ⟨n, k, h⟩ | ⟨n, k, l, h⟩ | ⟨n, k, l, m, h⟩ := utf8EncodeChar_cases c
  · rw [h]
    exact isUtf8From_ascii (UInt8.lt_iff_toNat_lt.mpr (by
      rw [UInt8.toNat_ofNat_of_lt' (show n < 256 by omega)]
      exact hn)) s
  · obtain ⟨hbit, hnum⟩ := htwo (n % 32) (by omega)
    rw [h]
    exact (isUtf8From_lead hbit hnum (by omega) _).trans (isUtf8From_trail 0 k s)
  · obtain ⟨hbit, hnum⟩ := hthree (n % 16) (by omega)
    rw [h]
    exact (isUtf8From_lead hbit hnum (by omega) _).trans
      ((isUtf8From_trail 1 k _).trans (isUtf8From_trail 0 l s))
  · obtain ⟨hbit, hnum⟩ := hfour (n % 8) (by omega)
    rw [h]
    exact (isUtf8From_lead hbit hnum (by omega) _).trans
      ((isUtf8From_trail 2 k _).trans ((isUtf8From_trail 1 l _).trans (isUtf8From_trail 0 m s)))

/-- **The test accepts UTF-8.** -/
theorem rkEncodeIsUtf8_of_isUtf8 {s : Str} (h : IsUtf8 s) : rkEncodeIsUtf8 s = true := by
  obtain ⟨cs, rfl⟩ := h
  induction cs with
  | nil => rfl
  | cons c cs ih =>
    rw [List.flatMap_cons, rkEncodeIsUtf8, isUtf8From_utf8EncodeChar]
    exact ih

/-! ## Characters -/

/-- A character of two or three bytes. -/
theorem unicodeToUtf8_eq {n : ℕ} (hlo : 128 ≤ n) (hhi : n < 65536) (h : n.isValidChar) :
    unicodeToUtf8 n = String.utf8EncodeChar (Char.ofNat n) := by
  rw [unicodeToUtf8, if_neg (by omega), String.utf8EncodeChar, toNat_ofNat h,
    if_neg (show ¬ n ≤ 127 by omega)]
  by_cases h2 : n < 2048
  · rw [if_pos h2, if_pos (show n ≤ 2047 by omega), Nat.add_comm 0xC0, Nat.add_comm 0x80]
    rfl
  · rw [if_neg h2, if_pos hhi, if_neg (show ¬ n ≤ 2047 by omega),
      if_pos (show n ≤ 65535 by omega), Nat.add_comm 0xE0, Nat.add_comm 0x80 (n / 2 ^ 6 % 64),
      Nat.add_comm 0x80 (n % 64)]
    rfl

/-- The character for two bytes is not ASCII, but for the question mark. -/
theorem gbkToUnicode_character (table : GbkTable) (c d : UInt8) :
    (gbkToUnicode table c d).toNat = 63 ∨
      128 ≤ (gbkToUnicode table c d).toNat ∧ (gbkToUnicode table c d).toNat.isValidChar := by
  unfold gbkToUnicode
  dsimp only
  split
  · next h =>
    have hch : (c - 0x81).toNat ≤ 125 := UInt8.le_iff_toNat_le.mp h.1
    have hcl : (d - 0x40).toNat ≤ 190 := UInt8.le_iff_toNat_le.mp h.2
    exact table.character _ (by
      unfold tableSize
      omega)
  · exact .inr ⟨by decide, .inl (by decide)⟩

/-- **The bytes for two bytes**: a question mark, or a character beyond ASCII. -/
theorem unicodeToUtf8_gbkToUnicode (table : GbkTable) (c d : UInt8) :
    unicodeToUtf8 (gbkToUnicode table c d).toNat = [63] ∨
      ∃ ch : Char, 128 ≤ ch.val.toNat ∧
        unicodeToUtf8 (gbkToUnicode table c d).toNat = String.utf8EncodeChar ch := by
  rcases gbkToUnicode_character table c d with h | ⟨hlo, hvalid⟩
  · rw [h]
    exact .inl rfl
  · refine .inr ⟨Char.ofNat _, ?_, unicodeToUtf8_eq hlo (gbkToUnicode table c d).toNat_lt hvalid⟩
    rw [toNat_ofNat hvalid]
    exact hlo

theorem unicodeToUtf8_ascii {c : UInt8} (h : c < 128) (h0 : c ≠ 0) :
    unicodeToUtf8 c.toNat = [c] := by
  have hlt : c.toNat < 128 := UInt8.lt_iff_toNat_lt.mp h
  rw [unicodeToUtf8, if_pos hlt, UInt8.ofNat_toNat]
  exact cstr_eq_self (by simpa using h0.symm)

end RkIpc.Network
