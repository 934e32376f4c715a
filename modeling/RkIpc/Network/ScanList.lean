import Mathlib.Data.Bool.AllAny
import Mathlib.Data.List.Infix
import RkIpc.Json.Parser
import RkIpc.Network.Encode
import RkIpc.Network.Ssid
import RkIpc.Param.IniParser

/-!
# The list of networks

`RK_wifi_scan_r_sec` turns the table of networks that `wpa_cli scan_r` prints into JSON. The name of
a network keeps its escapes on the way, and each column goes through a buffer of 128 bytes. Arrays
that are too short have no result, and neither has a loop that comes back to the same column.

## Main definitions

* `Names`: the names that are kept for later
* `ssidText`, `column`, `scanLine`, `rkWifiScanRSec`: a name, a column, a line and the list
* `InUtf8`: the name in UTF-8
* `PresentableName`: names that do not break the list

## Main results

* `isUtf8From_quotedByte`: escapes make no difference to the test for UTF-8
* `carried_gbkToUtf8`: a name in GBK is converted with its escapes as it is without them
* `ssidText_eq`: the name of a presentable network
-/

namespace RkIpc.Network

open Text Param

/-! ## The function -/

/-- **`m_gbk_head` and `m_nonpsk_head`**: names as they were found with the names that were sent,
the last one first. -/
structure Names where
  gbk : List (Str × Str)
  nonpsk : List (Str × Str)

/-- `encode_gbk_insert`. -/
def encodeGbkInsert (head : List (Str × Str)) (ori utf8 : Str) : List (Str × Str) :=
  if ori = [] ∨ utf8 = [] then head
  else if 128 ≤ ori.length ∨ 128 ≤ utf8.length then head
  else (ori, utf8) :: head

/-- `get_encode_gbk_utf8`. -/
def getEncodeGbkUtf8 (head : List (Str × Str)) (str : Str) : Str :=
  ((head.find? fun gbk => gbk.1 = str).map Prod.snd).getD str

/-- **The name that is sent**, and the names that are kept. -/
def ssidText (table : GbkTable) (isNonpsk : Bool) (names : Names) (token : Str) :
    Option (Str × Names) :=
  if token = [] then some ([], names)
  else do
    let dst ← (specCharConvers token).bind (inArray (token.length + 1))
    let dst := cstr dst
    let dstNoescape ← inArray (token.length + 1) (removeEscapeCharacter dst)
    if rkEncodeIsUtf8 dst then
      some (dst, if isNonpsk then
        { names with nonpsk := encodeGbkInsert names.nonpsk dstNoescape dstNoescape } else names)
    else
      let utf8 ← inArray (token.length + 1) (gbkToUtf8 table dst)
      let utf8Noescape ← inArray (token.length + 1) (removeEscapeCharacter utf8)
      let names := { names with gbk := encodeGbkInsert names.gbk dstNoescape utf8Noescape }
      -- `continue` comes back to the same token
      if rkEncodeIsUtf8 utf8 then
        some (utf8, if isNonpsk then
          { names with nonpsk := encodeGbkInsert names.nonpsk dstNoescape utf8Noescape } else names)
      else none

/-- `atoi`. -/
def atoi (s : Str) : ℤ := ((scanInt s).map Prod.fst).getD 0

theorem atoi_decimalNat_append (n : ℕ) {s : Str} (hs : ∀ c ∈ s.head?, ¬ IsDigit c) :
    atoi (decimalNat n ++ s) = clamp n := by
  rw [atoi, scanInt_decimalNat n hs]
  rfl

/-- The variables of the loop over the columns of a line. -/
structure Row where
  item : Str
  isNonpsk : Bool
  names : Names

/-- `snprintf` into `col[128]`, and `strcat` to `item[384]`. -/
def Row.add (row : Row) (text : Str) : Option Row :=
  (inArray 384 (row.item ++ text.take 127)).map fun item => { row with item }

/-- A member of the object. -/
def memberText (name : String) (text : Str) : Str := 34 :: lit name ++ 34 :: 58 :: text ++ [44]

/-- A string. -/
def quote (s : Str) : Str := 34 :: s ++ [34]

/-- **A column.** -/
def column (table : GbkTable) (cols : ℕ) (row : Row) (index : ℕ) (token : Str) : Option Row :=
  if ¬ cols.testBit index ∧ index ≠ 3 then some row
  else
    match index with
    | 0 => row.add (memberText "bssid" (quote token))
    | 1 => row.add (memberText "frequency" (decimal (atoi token)))
    | 2 => row.add (memberText "rssi" (decimal (atoi token)))
    | 3 =>
      let isNonpsk := row.isNonpsk ||
        decide (¬ lit "WPA" <:+: token ∧ ¬ lit "WEP" <:+: token)
      { row with isNonpsk }.add
        (if cols.testBit 3 then memberText "flags" (quote token) else [])
    | 4 => do
      let (utf8, names) ← ssidText table row.isNonpsk row.names token
      { row with names }.add (memberText "ssid" (quote utf8))
    | _ => row.add []

/-- A line without its end. -/
def chomp (s : Str) : Str := if s.getLast? = some 10 then s.dropLast else s

/-- The columns from `index` on. -/
def columns (table : GbkTable) (cols : ℕ) : ℕ → List Str → Row → Option Row
  | _, [], row => some row
  | index, token :: tokens, row =>
    (column table cols row index (chomp token)).bind (columns table cols (index + 1) tokens)

/-- The tokens of `strtok(line, "\t")`. -/
def strtok (line : Str) : List Str := (line.splitOn 9).filter (· ≠ [])

/-- A text without a comma at its end. -/
def dropComma (s : Str) : Str := if s.getLast? = some 44 then s.dropLast else s

/-- **A line**: the object, and a comma. -/
def scanLine (table : GbkTable) (cols : ℕ) (names : Names) (line : Str) : Option (Str × Names) := do
  let row ← columns table cols 0 (strtok line) ⟨[123], false, names⟩
  let item ← inArray 384 (dropComma row.item ++ [125, 44])
  some (item, row.names)

/-- The variables of the loop over the lines. -/
structure ScanR where
  size : ℕ
  scanR : Str
  names : Names

/-- The object is appended, to a larger block if there is little room. -/
def ScanR.append (s : ScanR) (item : Str) : Option ScanR :=
  let size := if s.size ≤ s.scanR.length + item.length + 3 then s.size + 512 else s.size
  (inArray size (s.scanR ++ item)).map fun scanR => { s with size, scanR }

/-- The lines. Each turn reads a byte at least. -/
def scanLoop (table : GbkTable) (cols : ℕ) : ℕ → List UInt8 → ScanR → Option ScanR
  | 0, _, s => some s
  | fuel + 1, file, s =>
    if file = [] then some s
    else do
      let (item, names) ← scanLine table cols s.names (cstr (fgets 254 file).1)
      let s ← { s with names }.append item
      scanLoop table cols fuel (fgets 254 file).2 s

/-- **`RK_wifi_scan_r_sec`**; `file` is `/tmp/scan_r.tmp`, if it can be opened. -/
def rkWifiScanRSec (table : GbkTable) (cols : ℕ) (names : Names) (file : Option (List UInt8)) :
    Option (Option Str × Names) :=
  if cols &&& 0x1F = 0 then some (some (lit "[]"), names)
  else
    match file with
    | none => some (none, names)
    | some file => do
      -- the first line is the heading
      let file := (fgets 255 file).2
      let s ← scanLoop table cols file.length file ⟨512, [91], ⟨[], []⟩⟩
      let scanR ← inArray s.size (dropComma s.scanR ++ [93])
      some (some scanR, s.names)

/-! ## Names that are presentable -/

/-- A byte that is written as JSON has it. -/
def Writable (c : UInt8) : Prop := 32 ≤ c ∨ c = 9 ∨ c = 10 ∨ c = 13

instance (c : UInt8) : Decidable (Writable c) := inferInstanceAs (Decidable (_ ∨ _))

/-- The backslashes at the beginning end with a slash. -/
def SlashBehind (s : Str) : Prop := (s.dropWhile (· = 92)).head? = some 47

instance (s : Str) : Decidable (SlashBehind s) := inferInstanceAs (Decidable (_ = _))

/-- **Text of GBK that is not torn apart**: no byte that begins a character stands before a byte
that is printed behind a backslash. If that one is a backslash itself, the backslash that is left
may escape a slash. -/
def GbkClear : Str → Prop
  | [] => True
  | [c] => Writable c
  | c :: d :: s =>
    if c < 0x80 then Writable c ∧ GbkClear (d :: s)
    else (quotedByte d = [d] ∨ d = 92 ∧ SlashBehind s) ∧ GbkClear s

/-- **Names that do not break the list.** -/
structure PresentableName (raw : Str) : Prop where
  backslash : ¬ [92, 120] <:+: raw
  encoding : (IsUtf8 raw ∧ ∀ c ∈ raw, Writable c) ∨
    (rkEncodeIsUtf8 raw = false ∧ 0 ∉ raw ∧ GbkClear raw)

/-- **The name in UTF-8**: a name that is not UTF-8 is GBK, which has no terminator. -/
def InUtf8 (table : GbkTable) (raw v : Str) : Prop :=
  (IsUtf8 raw ∧ v = raw) ∨ (¬ IsUtf8 raw ∧ 0 ∉ raw ∧ v = gbkToUtf8 table raw)

theorem Writable.ne_zero {c : UInt8} (h : Writable c) : c ≠ 0 := by
  rintro rfl
  exact absurd h (by decide)

theorem quotedByte_of_le {c : UInt8} (h : 32 ≤ c) (h34 : c ≠ 34) (h92 : c ≠ 92) :
    quotedByte c = [c] := by
  have hcontrol : controlLetter c = none := by
    have hne : c ≠ 9 ∧ c ≠ 10 ∧ c ≠ 13 ∧ c ≠ 27 := by grind
    simp [controlLetter, hne]
  rw [quotedByte, if_neg (by simp [h34, h92]), decodedByte, hcontrol]

theorem quotedByte_of_high {c : UInt8} (h : 128 ≤ c) : quotedByte c = [c] :=
  quotedByte_of_le (by grind) (by grind) (by grind)

/-- Text of ASCII stays ASCII, and is not cut. -/
theorem quotedByte_ascii {c : UInt8} (h : c < 128) (h0 : c ≠ 0) :
    ∀ d ∈ quotedByte c, d < 128 ∧ d ≠ 0 := by
  have hall : ∀ n < 128, n ≠ 0 → (quotedByte (UInt8.ofNat n)).all fun d => d < 128 ∧ d ≠ 0 := by
    decide +kernel
  have hc := hall c.toNat (UInt8.lt_iff_toNat_lt.mp h) fun h => h0 (UInt8.toNat_inj.mp h)
  rw [UInt8.ofNat_toNat] at hc
  exact List.all_iff_forall_prop.mp hc

/-- **A byte in the list is read as the byte.** -/
theorem chunk_quotedByte {c : UInt8} (h : Writable c) :
    Json.Chunk (quotedByte c) [c] := by
  obtain h | rfl | rfl | rfl := h
  · by_cases h34 : c = 34
    · exact h34 ▸ .escape rfl
    · by_cases h92 : c = 92
      · exact h92 ▸ .escape rfl
      · rw [quotedByte_of_le h h34 h92]
        exact .byte h34 h92 h
  · exact .escape rfl
  · exact .escape rfl
  · exact .escape rfl

theorem chunk_flatMap_quotedByte {raw : Str} (h : ∀ c ∈ raw, Writable c) :
    Json.Chunk (raw.flatMap quotedByte) raw := by
  have hall := Json.Chunk.flatMap (f := quotedByte) (g := fun c => [c]) raw fun c hc =>
    chunk_quotedByte (h c hc)
  rwa [List.flatMap_singleton'] at hall

theorem ofNat_high {n : ℕ} (hlo : 128 ≤ n) (hhi : n < 256) : 128 ≤ UInt8.ofNat n := by
  rw [UInt8.le_iff_toNat_le, UInt8.toNat_ofNat_of_lt' (show n < 2 ^ 8 from hhi)]
  exact hlo

/-- The bytes of a character beyond ASCII. -/
theorem utf8EncodeChar_high {c : Char} (h : 128 ≤ c.val.toNat) :
    ∀ d ∈ String.utf8EncodeChar c, 128 ≤ d := by
  intro d hd
  unfold String.utf8EncodeChar at hd
  dsimp only at hd
  rw [if_neg (by omega)] at hd
  split at hd
  · simp only [List.mem_cons, List.not_mem_nil, or_false] at hd
    rcases hd with rfl | rfl <;> exact ofNat_high (by omega) (by omega)
  · split at hd
    · simp only [List.mem_cons, List.not_mem_nil, or_false] at hd
      rcases hd with rfl | rfl | rfl <;> exact ofNat_high (by omega) (by omega)
    · simp only [List.mem_cons, List.not_mem_nil, or_false] at hd
      rcases hd with rfl | rfl | rfl | rfl <;> exact ofNat_high (by omega) (by omega)

/-- Bytes beyond ASCII stand for themselves. -/
theorem flatMap_quotedByte_high {s : Str} (h : ∀ c ∈ s, 128 ≤ c) : s.flatMap quotedByte = s := by
  induction s with
  | nil => rfl
  | cons c s ih =>
    obtain ⟨hc, hs⟩ := List.forall_mem_cons.mp h
    rw [List.flatMap_cons, quotedByte_of_high hc, ih hs]
    rfl

/-- **Escapes keep UTF-8.** -/
theorem isUtf8_quotedByte {raw : Str} (h : IsUtf8 raw) (h0 : 0 ∉ raw) :
    IsUtf8 (raw.flatMap quotedByte) := by
  obtain ⟨cs, rfl⟩ := h
  rw [List.flatMap_assoc]
  refine isUtf8_flatMap fun c hc => ?_
  by_cases hlow : c.val.toNat < 128
  · have hbyte : String.utf8EncodeChar c = [UInt8.ofNat c.val.toNat] := by
      rw [String.utf8EncodeChar]
      exact if_pos (by omega)
    have hlt : UInt8.ofNat c.val.toNat < 128 := by
      rw [UInt8.lt_iff_toNat_lt, UInt8.toNat_ofNat_of_lt' (show c.val.toNat < 2 ^ 8 by omega)]
      exact hlow
    have hne : UInt8.ofNat c.val.toNat ≠ 0 := fun h =>
      h0 (List.mem_flatMap.mpr ⟨c, hc, by rw [hbyte, h]; exact List.mem_cons_self⟩)
    rw [hbyte, List.flatMap_singleton]
    exact isUtf8_of_forall_lt fun d hd => (quotedByte_ascii hlt hne d hd).1
  · rw [flatMap_quotedByte_high (utf8EncodeChar_high (by omega))]
    exact isUtf8_utf8EncodeChar c

/-! ## The test and the conversion, with escapes -/

theorem isUtf8From_ascii_pos {n : ℕ} (hn : n ≠ 0) {c : UInt8} (h : c < 128) (s : Str) :
    isUtf8From n (c :: s) = false := by
  have hall : ∀ n < 128, UInt8.ofNat n &&& 0xc0 ≠ 0x80 := by decide +kernel
  have hbit := hall c.toNat (UInt8.lt_iff_toNat_lt.mp h)
  rw [UInt8.ofNat_toNat] at hbit
  rw [isUtf8From, if_neg fun h => hn h.1, if_neg fun h => hbit h.2, if_pos hn]

theorem isUtf8From_append_ascii {t : Str} (ht : ∀ d ∈ t, d < 128) (s : Str) :
    isUtf8From 0 (t ++ s) = isUtf8From 0 s := by
  induction t with
  | nil => rfl
  | cons d t ih =>
    obtain ⟨hd, ht⟩ := List.forall_mem_cons.mp ht
    rw [List.cons_append, isUtf8From_ascii hd, ih ht]

theorem quotedByte_ne_nil (c : UInt8) : quotedByte c ≠ [] := by
  unfold quotedByte decodedByte
  split
  · simp
  · split <;> simp

/-- **Escapes make no difference to the test.** -/
theorem isUtf8From_quotedByte {raw : Str} (h0 : 0 ∉ raw) (n : ℕ) :
    isUtf8From n (raw.flatMap quotedByte) = isUtf8From n raw := by
  induction raw generalizing n with
  | nil => rfl
  | cons c raw ih =>
    rw [List.mem_cons, not_or] at h0
    have ih := ih h0.2
    rw [List.flatMap_cons]
    by_cases hc : c < 128
    · have hascii := fun d hd => (quotedByte_ascii hc (Ne.symm h0.1) d hd).1
      by_cases hn : n = 0
      · rw [hn, isUtf8From_append_ascii hascii, isUtf8From_ascii hc, ih]
      · obtain ⟨d, t, ht⟩ := List.exists_cons_of_ne_nil (quotedByte_ne_nil c)
        rw [ht] at hascii ⊢
        rw [List.cons_append, isUtf8From_ascii_pos hn (hascii d List.mem_cons_self),
          isUtf8From_ascii_pos hn hc]
    · rw [quotedByte_of_high (UInt8.not_lt.mp hc), List.singleton_append, isUtf8From, isUtf8From]
      simp only [ih]

/-- **What becomes of a part of a name**: its text in the list, and what this text is read as. -/
structure Carried (raw t u : Str) : Prop where
  chunk : Json.Chunk t u
  utf8 : IsUtf8 t
  short : t.length ≤ 3 * raw.length
  fits : t.length ≤ (printfEncode raw).length

namespace Carried

variable {raw raw' t t' u u' : Str}

theorem nil : Carried [] [] [] := ⟨.nil, .nil, le_refl _, le_refl _⟩

theorem append (h : Carried raw t u) (h' : Carried raw' t' u') :
    Carried (raw ++ raw') (t ++ t') (u ++ u') where
  chunk := h.chunk.append h'.chunk
  utf8 := h.utf8.append h'.utf8
  short := by
    have := h.short
    have := h'.short
    rw [List.length_append, List.length_append]
    omega
  fits := by
    have := h.fits
    have := h'.fits
    rw [printfEncode, List.flatMap_append, List.length_append, List.length_append,
      ← printfEncode, ← printfEncode]
    omega

end Carried

theorem length_quotedByte_le_printf (c : UInt8) :
    (quotedByte c).length ≤ (printfQuoted c).length := by
  unfold quotedByte printfQuoted
  split
  · exact le_refl _
  · unfold decodedByte printfByte
    cases controlLetter c with
    | some l => exact le_refl _
    | none =>
      dsimp only
      split <;> simp

/-- A byte of ASCII. -/
theorem carried_ascii {c : UInt8} (hc : c < 128) (h : Writable c) :
    Carried [c] (quotedByte c) [c] where
  chunk := chunk_quotedByte h
  utf8 := isUtf8_of_forall_lt fun d hd => (quotedByte_ascii hc h.ne_zero d hd).1
  short := (length_quotedByte_le c).trans (by simp)
  fits := by
    rw [printfEncode, List.flatMap_singleton]
    exact length_quotedByte_le_printf c

theorem length_unicodeToUtf8_le {n : ℕ} (h : n < 65536) : (unicodeToUtf8 n).length ≤ 3 := by
  unfold unicodeToUtf8
  split
  · exact (List.takeWhile_sublist _).length_le.trans (by simp)
  · split
    · simp
    · simp

/-- A byte beyond ASCII is printed as four. -/
theorem length_printfQuoted_high {c : UInt8} (h : 128 ≤ c) : (printfQuoted c).length = 4 := by
  have hcontrol : controlLetter c = none := by
    have hne : c ≠ 9 ∧ c ≠ 10 ∧ c ≠ 13 ∧ c ≠ 27 := by grind
    simp [controlLetter, hne]
  have hprint : ¬ IsPrint c := by
    unfold IsPrint
    grind
  have hquoted : ¬ (c = 34 ∨ c = 92) := by grind
  rw [printfQuoted, if_neg hquoted, printfByte_of_hex hcontrol hprint]
  rfl

/-- A character of GBK. -/
theorem carried_gbk (table : GbkTable) {c d : UInt8} (hc : 128 ≤ c) (rest : Str) :
    Carried (c :: rest) (unicodeToUtf8 (gbkToUnicode table c d).toNat)
      (unicodeToUtf8 (gbkToUnicode table c d).toNat) where
  chunk := by
    refine .bytes fun b hb => ?_
    rcases unicodeToUtf8_gbkToUnicode table c d with h | ⟨ch, hch, h⟩
    · rw [h, List.mem_singleton] at hb
      exact hb ▸ by decide
    · rw [h] at hb
      have := utf8EncodeChar_high hch b hb
      exact ⟨by grind, by grind, by grind⟩
  utf8 := by
    rcases unicodeToUtf8_gbkToUnicode table c d with h | ⟨ch, -, h⟩
    · rw [h]
      exact isUtf8_of_lt (by decide)
    · rw [h]
      exact isUtf8_utf8EncodeChar ch
  short := by
    have := length_unicodeToUtf8_le (gbkToUnicode table c d).toNat_lt
    rw [List.length_cons]
    omega
  fits := by
    have := length_unicodeToUtf8_le (gbkToUnicode table c d).toNat_lt
    rw [printfEncode, List.flatMap_cons, List.length_append, length_printfQuoted_high hc]
    omega

theorem gbkToUtf8_ascii (table : GbkTable) {c : UInt8} (hc : c < 128) (h0 : c ≠ 0) (s : Str) :
    gbkToUtf8 table (c :: s) = c :: gbkToUtf8 table s := by
  have hone := unicodeToUtf8_ascii hc h0
  cases s with
  | nil => exact (if_pos hc).trans hone
  | cons d s => rw [gbkToUtf8, if_pos hc, hone, List.singleton_append]

/-- A character of two bytes. -/
theorem gbkToUtf8_pair (table : GbkTable) {c : UInt8} (hc : ¬ c < 128) (d : UInt8) (s : Str) :
    gbkToUtf8 table (c :: d :: s) =
      unicodeToUtf8 (gbkToUnicode table c d).toNat ++ gbkToUtf8 table s := by
  rw [gbkToUtf8, if_neg hc]

theorem gbkToUtf8_append_ascii (table : GbkTable) {t : Str} (ht : ∀ d ∈ t, d < 128 ∧ d ≠ 0)
    (s : Str) : gbkToUtf8 table (t ++ s) = t ++ gbkToUtf8 table s := by
  induction t with
  | nil => rfl
  | cons d t ih =>
    obtain ⟨hd, ht⟩ := List.forall_mem_cons.mp ht
    rw [List.cons_append, gbkToUtf8_ascii table hd.1 hd.2, ih ht, List.cons_append]

theorem GbkClear.tail {c : UInt8} {s : Str} (hc : c < 128) (h : GbkClear (c :: s)) :
    Writable c ∧ GbkClear s := by
  cases s with
  | nil => exact ⟨h, trivial⟩
  | cons d s =>
    rw [GbkClear] at h
    rwa [if_pos hc] at h

/-- **A name in GBK** is converted with its escapes as it is without them, and so is the rest behind
a backslash that is left. -/
theorem carried_gbkToUtf8 (table : GbkTable) {raw : Str} (h0 : 0 ∉ raw) (hclear : GbkClear raw) :
    Carried raw (gbkToUtf8 table (raw.flatMap quotedByte)) (gbkToUtf8 table raw) ∧
      (SlashBehind raw → Carried (92 :: raw) (92 :: gbkToUtf8 table (raw.flatMap quotedByte))
        (gbkToUtf8 table raw)) := by
  -- induction on the length, as a character may take two bytes
  induction hn : raw.length using Nat.strong_induction_on generalizing raw with
  | _ n ih =>
    rcases raw with _ | ⟨c, raw⟩
    · exact ⟨.nil, nofun⟩
    rw [List.length_cons] at hn
    rw [List.mem_cons, not_or] at h0
    by_cases hascii : c < 128
    · obtain ⟨hc, hclear⟩ := hclear.tail hascii
      obtain ⟨htail, hslash⟩ := ih raw.length (by omega) h0.2 hclear rfl
      rw [List.flatMap_cons, gbkToUtf8_append_ascii table (quotedByte_ascii hascii hc.ne_zero),
        gbkToUtf8_ascii table hascii hc.ne_zero]
      refine ⟨(carried_ascii hascii hc).append htail, fun h => ?_⟩
      by_cases h92 : c = 92
      · subst h92
        exact (carried_ascii hascii hc).append (hslash h)
      · have h47 : c = 47 := by simpa [SlashBehind, h92] using h
        subst h47
        have hescape : Carried [92, 47] [92, 47] [47] :=
          ⟨.escape rfl, isUtf8_of_forall_lt (by decide +kernel), by decide, by decide⟩
        exact hescape.append htail
    · have hhigh := UInt8.not_lt.mp hascii
      rw [List.flatMap_cons, quotedByte_of_high hhigh, List.singleton_append]
      refine ⟨?_, fun h => ?_⟩
      · cases raw with
        | nil =>
          rw [List.flatMap_nil, gbkToUtf8, if_neg hascii]
          exact carried_gbk table hhigh []
        | cons d raw =>
          rw [GbkClear, if_neg hascii] at hclear
          rw [List.length_cons] at hn
          rw [List.mem_cons, not_or] at h0
          obtain ⟨htail, hslash⟩ := ih raw.length (by omega) h0.2.2 hclear.2 rfl
          rw [List.flatMap_cons]
          rcases hclear.1 with hd | ⟨rfl, hbehind⟩
          · rw [hd, List.singleton_append, gbkToUtf8_pair table hascii,
              gbkToUtf8_pair table hascii]
            exact (carried_gbk table hhigh [d]).append htail
          · have hquoted : quotedByte 92 = [92, 92] := rfl
            rw [hquoted, List.cons_append, List.singleton_append, gbkToUtf8_pair table hascii,
              gbkToUtf8_pair table hascii, gbkToUtf8_ascii table (by decide) (by decide)]
            exact (carried_gbk table hhigh []).append (hslash hbehind)
      · have h92 : c ≠ 92 := by grind
        have h47 : c = 47 := by simpa [SlashBehind, h92] using h
        exact absurd h47 (by grind)

/-! ## A name -/

theorem PresentableName.zero_notMem {raw : Str} (h : PresentableName raw) : 0 ∉ raw := by
  rcases h.encoding with ⟨-, hbytes⟩ | ⟨-, h0, -⟩
  · exact fun h0 => (hbytes 0 h0).ne_zero rfl
  · exact h0

/-- **The name of a presentable network**: a text that is read as the name in UTF-8. -/
theorem ssidText_eq (table : GbkTable) {raw : Str} (h : PresentableName raw)
    (hlen : raw.length ≤ 32) :
    ∃ t v, (∀ isNonpsk names, ∃ names',
      ssidText table isNonpsk names (printfEncode raw) = some (t, names')) ∧
      InUtf8 table raw v ∧ Json.Chunk t v ∧ IsUtf8 t ∧ t.length ≤ 96 := by
  have h0 := h.zero_notMem
  have hspec := specCharConvers_printfEncode h.backslash
  have hdst := length_specCharConvers hspec
  have hcstr := cstr_eq_self (zero_notMem_quotedByte h0)
  have hescaped := length_removeEscapeCharacter_le (raw.flatMap quotedByte)
  have htest : rkEncodeIsUtf8 (raw.flatMap quotedByte) = rkEncodeIsUtf8 raw :=
    isUtf8From_quotedByte h0 0
  by_cases hnil : printfEncode raw = []
  · -- a hidden network
    have hempty : raw = [] := by
      rw [hnil] at hspec
      have hflat := Option.some.inj hspec
      cases raw with
      | nil => rfl
      | cons c raw =>
        rw [List.flatMap_cons] at hflat
        exact absurd (List.append_eq_nil_iff.mp hflat.symm).1 (quotedByte_ne_nil c)
    subst hempty
    exact ⟨[], [], fun _ names => ⟨names, if_pos hnil⟩, .inl ⟨.nil, rfl⟩, .nil, .nil, by simp⟩
  rcases h.encoding with ⟨hutf8, hbytes⟩ | ⟨hgbk, -, hclear⟩
  · refine ⟨raw.flatMap quotedByte, raw, fun isNonpsk names => ?_, .inl ⟨hutf8, rfl⟩,
      chunk_flatMap_quotedByte hbytes, isUtf8_quotedByte hutf8 h0, ?_⟩
    · rw [ssidText, if_neg hnil, hspec]
      simp only [Option.bind_eq_bind, Option.bind_some]
      rw [inArray_eq (by omega), Option.bind_some, hcstr, inArray_eq (by omega), Option.bind_some,
        htest, rkEncodeIsUtf8_of_isUtf8 hutf8, if_pos rfl]
      exact ⟨_, rfl⟩
    · have := length_flatMap_quotedByte_le raw
      omega
  · have hutf8 : ¬ IsUtf8 raw := fun hutf8 => by
      rw [rkEncodeIsUtf8_of_isUtf8 hutf8] at hgbk
      cases hgbk
    have hcarried := (carried_gbkToUtf8 table h0 hclear).1
    have hfits := hcarried.fits
    have hsent := length_removeEscapeCharacter_le (gbkToUtf8 table (raw.flatMap quotedByte))
    refine ⟨gbkToUtf8 table (raw.flatMap quotedByte), gbkToUtf8 table raw,
      fun isNonpsk names => ?_, .inr ⟨hutf8, h0, rfl⟩, hcarried.chunk, hcarried.utf8, ?_⟩
    · rw [ssidText, if_neg hnil, hspec]
      simp only [Option.bind_eq_bind, Option.bind_some]
      rw [inArray_eq (by omega), Option.bind_some, hcstr, inArray_eq (by omega), Option.bind_some,
        htest, hgbk, if_neg (by decide), inArray_eq (by omega), Option.bind_some,
        inArray_eq (by omega), Option.bind_some, rkEncodeIsUtf8_of_isUtf8 hcarried.utf8,
        if_pos rfl]
      exact ⟨_, rfl⟩
    · have := hcarried.short
      omega

end RkIpc.Network
