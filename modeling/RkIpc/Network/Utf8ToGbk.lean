import RkIpc.Network.ScanList
import RkIpc.Network.Utf8Shape

/-!
# UTF-8 to GBK

`utf8_to_gbk` of `common/network/utf8_to_gbk.c`. A character of three bytes is looked up in a table
that begins at U+4E00 and ends at U+9FA5, wherever the character lies; the table stands in a memory
that is read before and behind it as well. Heads of other lengths are refused.

## Main definitions

* `GbkRun`, `utf8ToGbk`: what a run reads from the table and writes, and the function
* `Symbol`: what a text is taken apart into
* `Inverse`: tables that undo each other on U+4E00 to U+9FA5
* `StaysInTable`: a text that is converted within the table, and back
* `Convertible`: the characters of the text are in the table, and there is no terminator

## Main results

* `utf8ToGbk_symbols`, `exists_symbols`: the function on a text that is taken apart
* `gbkToUtf8_utf8ToGbk`: there and back
* `staysInTable_iff`: the texts that are converted within the table
* `full_stop_before_table`: an ideographic full stop
-/

namespace RkIpc.Network

open Text

/-! ## The function -/

/-- **A run**: the entries that are read, the bytes that are written, and whether it is given up. -/
structure GbkRun where
  reads : List ℤ
  out : List UInt8
  refused : Bool

/-- What is returned. -/
def GbkRun.ret (r : GbkRun) : ℤ := if r.refused then -1 else r.out.length

/-- `unicode`. -/
def unicodeOf (b0 b1 b2 : UInt8) : ℕ :=
  (b0.toNat &&& 0x0F) <<< 12 ||| (b1.toNat &&& 0x3F) <<< 6 ||| (b2.toNat &&& 0x3F)

/-- Where a character is looked up. -/
def uniIndex (b0 b1 b2 : UInt8) : ℤ := unicodeOf b0 b1 b2 - 0x4e00

/-- The bytes of an entry. -/
def gbkBytes (gbk : UInt16) : List UInt8 :=
  [UInt8.ofNat (gbk.toNat / 256), UInt8.ofNat (gbk.toNat % 256)]

/-- **`utf8_to_gbk`**, with the memory from `mb_uni2gb_table` on. -/
def utf8ToGbk (table : ℤ → UInt16) : List UInt8 → GbkRun
  | [] => ⟨[], [], false⟩
  | c :: src =>
    if c &&& 0x80 = 0x00 then
      let r := utf8ToGbk table src
      { r with out := c :: r.out }
    else if c &&& 0xF0 = 0xE0 then
      match src with
      | d :: e :: src =>
        let r := utf8ToGbk table src
        { r with reads := uniIndex c d e :: r.reads,
                 out := gbkBytes (table (uniIndex c d e)) ++ r.out }
      | _ => ⟨[], [], true⟩
    else ⟨[], [], true⟩

/-! ## Texts -/

/-- **What a text is taken apart into**: a byte below 128, or a head with two bytes behind it. -/
inductive Symbol where
  | ascii (c : UInt8)
  | wide (b0 b1 b2 : UInt8)

namespace Symbol

/-- The bytes of a symbol. -/
def bytes : Symbol → List UInt8
  | ascii c => [c]
  | wide b0 b1 b2 => [b0, b1, b2]

/-- A symbol with the head that belongs to it. -/
def Valid : Symbol → Prop
  | ascii c => c &&& 0x80 = 0
  | wide b0 _ _ => b0 &&& 0xF0 = 0xE0

/-- A symbol that is not looked up, or is in the table. -/
def InTable : Symbol → Prop
  | ascii _ => True
  | wide b0 b1 b2 => 0x4e00 ≤ unicodeOf b0 b1 b2 ∧ unicodeOf b0 b1 b2 ≤ 0x9fa5

/-- What is read for a symbol. -/
def read : Symbol → List ℤ
  | ascii _ => []
  | wide b0 b1 b2 => [uniIndex b0 b1 b2]

/-- What is written for a symbol. -/
def gbk (table : ℤ → UInt16) : Symbol → List UInt8
  | ascii c => [c]
  | wide b0 b1 b2 => gbkBytes (table (uniIndex b0 b1 b2))

end Symbol

/-- A character that is ASCII or from U+4E00 to U+9FA5. -/
def Covered (c : Char) : Prop := c.toNat < 0x80 ∨ 0x4e00 ≤ c.toNat ∧ c.toNat ≤ 0x9fa5

/-- **A text of such characters**, in UTF-8. -/
def MadeOfCovered (s : List UInt8) : Prop :=
  ∃ cs : List Char, (∀ c ∈ cs, Covered c) ∧ s = cs.flatMap String.utf8EncodeChar

/-- **Tables that undo each other** on U+4E00 to U+9FA5. -/
def Inverse (table : ℤ → UInt16) (back : GbkTable) : Prop :=
  ∀ n : ℕ, 0x4e00 ≤ n → n ≤ 0x9fa5 → ∀ ch cl, gbkBytes (table (n - 0x4e00)) = [ch, cl] →
    (gbkToUnicode back ch cl).toNat = n

/-- **A text that is converted within the table**, to one that is not longer, and back. -/
structure StaysInTable (table : ℤ → UInt16) (back : GbkTable) (s : List UInt8) : Prop where
  reads : (utf8ToGbk table s).ret = -1 ∨ ∀ k ∈ (utf8ToGbk table s).reads, 0 ≤ k ∧ k ≤ 20901
  length : (utf8ToGbk table s).out.length ≤ s.length
  back : MadeOfCovered s → gbkToUtf8 back (utf8ToGbk table s).out = s

/-- **Texts that can be converted**: if they consist of bytes below 128 and of characters of three
bytes, these are in the table, and if all characters are covered there is no terminator. -/
structure Convertible (s : List UInt8) : Prop where
  inTable : ∀ us : List Symbol, (∀ u ∈ us, u.Valid) → s = us.flatMap Symbol.bytes →
    ∀ u ∈ us, u.InTable
  noZero : MadeOfCovered s → 0 ∉ s

/-! ## Symbols -/

section Symbols

variable (table : ℤ → UInt16)

theorem not_ascii_of_wide {c : UInt8} (h : c &&& 0xF0 = 0xE0) : ¬ c &&& 0x80 = 0x00 := by
  have hall : ∀ n < 256, UInt8.ofNat n &&& 0xF0 = 0xE0 → ¬ UInt8.ofNat n &&& 0x80 = 0x00 := by
    decide +kernel
  have hc := hall c.toNat c.toNat_lt
  rw [UInt8.ofNat_toNat] at hc
  exact hc h

/-- **The function on symbols.** -/
theorem utf8ToGbk_symbols {us : List Symbol} (hus : ∀ u ∈ us, u.Valid) :
    utf8ToGbk table (us.flatMap Symbol.bytes) =
      ⟨us.flatMap Symbol.read, us.flatMap (Symbol.gbk table), false⟩ := by
  induction us with
  | nil => rfl
  | cons u us ih =>
    obtain ⟨hu, hrest⟩ := List.forall_mem_cons.mp hus
    rw [List.flatMap_cons, List.flatMap_cons, List.flatMap_cons]
    cases u with
    | ascii c =>
      have hc : c &&& 0x80 = 0x00 := hu
      change utf8ToGbk table (c :: us.flatMap Symbol.bytes) = _
      unfold utf8ToGbk
      rw [if_pos hc, ih hrest]
      rfl
    | wide b0 b1 b2 =>
      have hb : b0 &&& 0xF0 = 0xE0 := hu
      change utf8ToGbk table (b0 :: b1 :: b2 :: us.flatMap Symbol.bytes) = _
      rw [utf8ToGbk, if_neg (not_ascii_of_wide hb), if_pos hb, ih hrest]
      rfl

/-- **A text that is not refused** is taken apart. -/
theorem exists_symbols {s : List UInt8} (h : (utf8ToGbk table s).refused = false) :
    ∃ us : List Symbol, (∀ u ∈ us, u.Valid) ∧ s = us.flatMap Symbol.bytes := by
  fun_induction utf8ToGbk table s with
  | case1 => exact ⟨[], by simp, rfl⟩
  | case2 c src hc r ih =>
    obtain ⟨us, hus, rfl⟩ := ih h
    exact ⟨.ascii c :: us, List.forall_mem_cons.mpr ⟨hc, hus⟩, rfl⟩
  | case3 c hascii hc d e src r ih =>
    obtain ⟨us, hus, rfl⟩ := ih h
    exact ⟨.wide c d e :: us, List.forall_mem_cons.mpr ⟨hc, hus⟩, rfl⟩
  | case4 => cases h
  | case5 => cases h

/-- **Nothing becomes longer.** -/
theorem length_utf8ToGbk_le (s : List UInt8) : (utf8ToGbk table s).out.length ≤ s.length := by
  fun_induction utf8ToGbk table s with
  | case1 => exact le_refl _
  | case2 c src hc r ih => exact Nat.succ_le_succ ih
  | case3 c hascii hc d e src r ih =>
    have hr : r.out.length ≤ src.length := ih
    simp only [List.length_append, List.length_cons, gbkBytes, List.length_nil]
    omega
  | case4 => exact Nat.zero_le _
  | case5 => exact Nat.zero_le _

end Symbols

/-! ## Characters -/

/-- What a character is taken apart into. -/
def charSymbol (c : Char) : Symbol :=
  if c.toNat < 0x80 then .ascii (UInt8.ofNat c.toNat)
  else .wide (UInt8.ofNat (0xE0 + c.toNat / 2 ^ 12 % 16))
    (UInt8.ofNat (0x80 + c.toNat / 2 ^ 6 % 64)) (UInt8.ofNat (0x80 + c.toNat % 64))

/-- The bits of three bytes in a row. -/
theorem unicodeOf_eq (b0 b1 b2 : UInt8) : unicodeOf b0 b1 b2 =
    (b0.toNat % 16 * 64 + b1.toNat % 64) * 64 + b2.toNat % 64 := by
  have hmask : ∀ n : ℕ, n &&& 0x0F = n % 16 ∧ n &&& 0x3F = n % 64 := fun n =>
    ⟨Nat.and_two_pow_sub_one_eq_mod n 4, Nat.and_two_pow_sub_one_eq_mod n 6⟩
  have hlow : b1.toNat % 64 * 64 + b2.toNat % 64 < 2 ^ 12 := by omega
  have hjoin : (b1.toNat % 64) <<< 6 ||| b2.toNat % 64 = b1.toNat % 64 * 64 + b2.toNat % 64 := by
    rw [← Nat.shiftLeft_add_eq_or_of_lt (by omega), Nat.shiftLeft_eq]
  rw [unicodeOf, (hmask _).1, (hmask _).2, (hmask _).2, Nat.or_assoc, hjoin,
    ← Nat.shiftLeft_add_eq_or_of_lt hlow, Nat.shiftLeft_eq]
  omega

section Characters

variable {c : Char}

theorem charSymbol_of_lt (h : c.toNat < 0x80) : charSymbol c = .ascii (UInt8.ofNat c.toNat) :=
  if_pos h

/-- A character of three bytes. -/
theorem charSymbol_of_le (h : 0x80 ≤ c.toNat) (hhi : c.toNat ≤ 0x9fa5) :
    ∃ b0 b1 b2, charSymbol c = .wide b0 b1 b2 ∧ b0 &&& 0xF0 = 0xE0 ∧
      unicodeOf b0 b1 b2 = c.toNat := by
  have hhead : ∀ k < 16, UInt8.ofNat (0xE0 + k) &&& 0xF0 = 0xE0 := by decide +kernel
  have hbyte : ∀ k < 256, (UInt8.ofNat k).toNat = k := fun k hk => UInt8.toNat_ofNat_of_lt' hk
  refine ⟨_, _, _, if_neg (by omega), hhead _ (by omega), ?_⟩
  rw [unicodeOf_eq, hbyte _ (by omega), hbyte _ (by omega), hbyte _ (by omega)]
  omega

theorem Covered.valid (h : Covered c) : (charSymbol c).Valid := by
  rcases h with h | ⟨hlo, hhi⟩
  · have hall : ∀ n < 0x80, UInt8.ofNat n &&& 0x80 = 0 := by decide +kernel
    rw [charSymbol_of_lt h]
    exact hall _ h
  · obtain ⟨b0, b1, b2, hsymbol, hhead, -⟩ := charSymbol_of_le (by omega) hhi
    rw [hsymbol]
    exact hhead

/-- **The bytes of a character** are those of UTF-8. -/
theorem Covered.bytes (h : Covered c) : (charSymbol c).bytes = String.utf8EncodeChar c := by
  rw [← Char.ofNat_toNat c]
  rcases h with h | ⟨hlo, hhi⟩
  · rw [utf8EncodeChar_of_lt h, Char.ofNat_toNat, charSymbol_of_lt h]
    rfl
  · have hvalid : c.toNat.isValidChar := c.valid
    rw [← unicodeToUtf8_eq (by omega) (by omega) hvalid, Char.ofNat_toNat, unicodeToUtf8,
      if_neg (by omega), if_neg (by omega), if_pos (by omega), charSymbol, if_neg (by omega)]
    rfl

variable {table : ℤ → UInt16} {back : GbkTable}

/-- Bytes that stand for a character of the table do not begin with ASCII. -/
theorem not_lt_of_gbkToUnicode {ch cl : UInt8} (h : 0x4e00 ≤ (gbkToUnicode back ch cl).toNat) :
    ¬ ch < 128 := by
  intro hlt
  have hall : ∀ n < 128, ¬ UInt8.ofNat n - 0x81 ≤ 0x7d := by decide +kernel
  have hch := hall ch.toNat (UInt8.lt_iff_toNat_lt.mp hlt)
  rw [UInt8.ofNat_toNat] at hch
  have hnone : gbkToUnicode back ch cl = 0x1fff := if_neg fun h' => hch h'.1
  rw [hnone] at h
  exact absurd h (by decide)

/-- **A character that is looked up** is found again. -/
theorem gbkToUtf8_charSymbol (hinverse : Inverse table back) (h : Covered c) (h0 : c.toNat ≠ 0)
    (t : Str) : gbkToUtf8 back ((charSymbol c).gbk table ++ t) =
      String.utf8EncodeChar c ++ gbkToUtf8 back t := by
  have hchar : String.utf8EncodeChar (Char.ofNat c.toNat) = String.utf8EncodeChar c := by
    rw [Char.ofNat_toNat]
  rcases h with h | ⟨hlo, hhi⟩
  · have hnat : (UInt8.ofNat c.toNat).toNat = c.toNat :=
      UInt8.toNat_ofNat_of_lt' (show c.toNat < 256 by omega)
    have hlt : UInt8.ofNat c.toNat < 128 := by
      rw [UInt8.lt_iff_toNat_lt, hnat]
      exact h
    have hne : UInt8.ofNat c.toNat ≠ 0 := by
      intro h'
      rw [h'] at hnat
      exact h0 hnat.symm
    rw [← hchar, utf8EncodeChar_of_lt h, charSymbol_of_lt h]
    exact gbkToUtf8_ascii back hlt hne t
  · obtain ⟨b0, b1, b2, hsymbol, -, hcode⟩ := charSymbol_of_le (by omega) hhi
    have hindex : uniIndex b0 b1 b2 = (c.toNat : ℤ) - 0x4e00 := by rw [uniIndex, hcode]
    have hfound := hinverse c.toNat hlo hhi _ _ rfl
    have hhead := not_lt_of_gbkToUnicode (hfound.symm ▸ hlo)
    have hvalid : c.toNat.isValidChar := c.valid
    rw [hsymbol, Symbol.gbk, hindex, gbkBytes, List.cons_append, List.cons_append,
      List.nil_append, gbkToUtf8_pair back hhead, hfound, ← hchar,
      unicodeToUtf8_eq (by omega) (by omega) hvalid]

end Characters

/-- The symbols of a text. -/
theorem flatMap_charSymbol {cs : List Char} (hcs : ∀ c ∈ cs, Covered c) :
    (∀ u ∈ cs.map charSymbol, u.Valid) ∧
      (cs.map charSymbol).flatMap Symbol.bytes = cs.flatMap String.utf8EncodeChar := by
  constructor
  · intro u hu
    obtain ⟨c, hc, rfl⟩ := List.mem_map.mp hu
    exact (hcs c hc).valid
  · rw [List.flatMap_map]
    exact List.flatMap_congr fun c hc => (hcs c hc).bytes

/-- **There and back**: a text of characters that are covered, without a terminator. -/
theorem gbkToUtf8_utf8ToGbk {table : ℤ → UInt16} {back : GbkTable} (hinverse : Inverse table back)
    {s : List UInt8} (hs : MadeOfCovered s) (h0 : 0 ∉ s) :
    gbkToUtf8 back (utf8ToGbk table s).out = s := by
  obtain ⟨cs, hcs, rfl⟩ := hs
  obtain ⟨hvalid, hbytes⟩ := flatMap_charSymbol hcs
  have hrun := utf8ToGbk_symbols table hvalid
  rw [hbytes] at hrun
  rw [hrun]
  change gbkToUtf8 back ((cs.map charSymbol).flatMap (Symbol.gbk table)) = _
  clear hrun hbytes hvalid
  induction cs with
  | nil => rfl
  | cons c cs ih =>
    obtain ⟨hc, hrest⟩ := List.forall_mem_cons.mp hcs
    rw [List.flatMap_cons, List.mem_append, not_or] at h0
    have hc0 : c.toNat ≠ 0 := by
      intro hzero
      have hnul : String.utf8EncodeChar (Char.ofNat c.toNat) = [0] := by
        rw [hzero]
        rfl
      rw [Char.ofNat_toNat] at hnul
      rw [hnul] at h0
      exact h0.1 List.mem_cons_self
    rw [List.map_cons, List.flatMap_cons, List.flatMap_cons, gbkToUtf8_charSymbol hinverse hc hc0,
      ih hrest h0.2]

/-- What is converted back has no terminator. -/
theorem zero_notMem_gbkToUtf8 (back : GbkTable) (s : Str) : 0 ∉ gbkToUtf8 back s := by
  have hascii : ∀ c : UInt8, c < 128 → 0 ∉ unicodeToUtf8 c.toNat := fun c hc => by
    have hlt : c.toNat < 0x80 := UInt8.lt_iff_toNat_lt.mp hc
    rw [unicodeToUtf8, if_pos hlt]
    exact zero_notMem_cstr _
  have hpair : ∀ c d : UInt8, 0 ∉ unicodeToUtf8 (gbkToUnicode back c d).toNat := by
    intro c d h
    rcases unicodeToUtf8_gbkToUnicode back c d with hmark | ⟨ch, hch, hbytes⟩
    · rw [hmark] at h
      exact absurd h (by decide)
    · rw [hbytes] at h
      have := utf8EncodeChar_high hch 0 h
      exact absurd this (by decide)
  fun_induction gbkToUtf8 back s with
  | case1 => exact List.not_mem_nil
  | case2 c hc => exact hascii c hc
  | case3 c hc => exact hpair c 0
  | case4 c d src hc ih => exact fun h => (List.mem_append.mp h).elim (hascii c hc) ih
  | case5 c d src hc ih => exact fun h => (List.mem_append.mp h).elim (hpair c d) ih

/-! ## Texts that stay in the table -/

/-- **A text stays in the table** if and only if it can be converted. -/
theorem staysInTable_iff {table : ℤ → UInt16} {back : GbkTable} (hinverse : Inverse table back)
    (s : List UInt8) : StaysInTable table back s ↔ Convertible s := by
  constructor
  · intro h
    refine ⟨?_, fun hmade h0 => ?_⟩
    · rintro us hus rfl u hu
      have hrun := utf8ToGbk_symbols table hus
      rcases h.reads with hret | hreads
      · rw [hrun] at hret
        simp only [GbkRun.ret, Bool.false_eq_true, if_false] at hret
        omega
      · rw [hrun] at hreads
        cases u with
        | ascii c => trivial
        | wide b0 b1 b2 =>
          have hk := hreads (uniIndex b0 b1 b2) (List.mem_flatMap.mpr ⟨_, hu, List.mem_cons_self⟩)
          unfold uniIndex at hk
          exact ⟨by omega, by omega⟩
    · rw [← h.back hmade] at h0
      exact zero_notMem_gbkToUtf8 back _ h0
  · intro h
    refine ⟨?_, length_utf8ToGbk_le table s, fun hmade =>
      gbkToUtf8_utf8ToGbk hinverse hmade (h.noZero hmade)⟩
    cases hrefused : (utf8ToGbk table s).refused with
    | true =>
      left
      rw [GbkRun.ret, hrefused]
      rfl
    | false =>
      right
      obtain ⟨us, hus, rfl⟩ := exists_symbols table hrefused
      rw [utf8ToGbk_symbols table hus]
      intro k hk
      obtain ⟨u, hu, hread⟩ := List.mem_flatMap.mp hk
      have hin := h.inTable us hus rfl u hu
      cases u with
      | ascii c => cases hread
      | wide b0 b1 b2 =>
        obtain rfl := List.mem_singleton.mp hread
        obtain ⟨hlo, hhi⟩ := hin
        unfold uniIndex
        omega

/-- Characters in the order in which GBK has them from U+4E02 on. -/
def shiftedTable (k : ℤ) : UInt16 :=
  let i := ((k + 20900) % 20902).toNat
  UInt16.ofNat ((0x81 + i / 0xbf) * 256 + (0x40 + i % 0xbf))

/-- The way back. -/
def shiftedBack : GbkTable where
  entry i := if i < 20902 then UInt16.ofNat (0x4e00 + (i + 2) % 20902) else 63
  character i hi := by
    split
    · have hsmall : (UInt16.ofNat (0x4e00 + (i + 2) % 20902)).toNat = 0x4e00 + (i + 2) % 20902 :=
        UInt16.toNat_ofNat_of_lt' (show _ < 65536 by omega)
      rw [hsmall]
      exact .inr ⟨by omega, .inl (by omega)⟩
    · exact .inl rfl

/-- A byte above another one, relative to it. -/
theorem toNat_ofNat_sub {b : UInt8} {k : ℕ} (h : b.toNat + k < 256) :
    (UInt8.ofNat (b.toNat + k) - b).toNat = k := by
  have hsum : (UInt8.ofNat (b.toNat + k)).toNat = b.toNat + k := UInt8.toNat_ofNat_of_lt' h
  rw [UInt8.toNat_sub_of_le _ _ (UInt8.le_iff_toNat_le.mpr (by omega)), hsum]
  exact Nat.add_sub_cancel_left ..

theorem inverse_shifted : Inverse shiftedTable shiftedBack := by
  intro n hlo hhi ch cl hbytes
  obtain ⟨i, hi, hn, hindex⟩ : ∃ i < 20902, 0x4e00 + (i + 2) % 20902 = n ∧
      (((n : ℤ) - 0x4e00 + 20900) % 20902).toNat = i :=
    ⟨(((n : ℤ) - 0x4e00 + 20900) % 20902).toNat, by omega, by omega, rfl⟩
  have hentry : (shiftedTable (n - 0x4e00)).toNat =
      (0x81 + i / 0xbf) * 256 + (0x40 + i % 0xbf) := by
    rw [shiftedTable, hindex]
    exact UInt16.toNat_ofNat_of_lt' (show _ < 65536 by omega)
  rw [gbkBytes, hentry, show ((0x81 + i / 0xbf) * 256 + (0x40 + i % 0xbf)) / 256 = 0x81 + i / 0xbf
    by omega, show ((0x81 + i / 0xbf) * 256 + (0x40 + i % 0xbf)) % 256 = 0x40 + i % 0xbf
    by omega] at hbytes
  obtain ⟨rfl, hcl⟩ := List.cons.inj hbytes
  obtain ⟨rfl, -⟩ := List.cons.inj hcl
  have hhigh : (UInt8.ofNat (0x81 + i / 0xbf) - 0x81).toNat = i / 0xbf :=
    toNat_ofNat_sub (b := 0x81) (show 0x81 + i / 0xbf < 256 by omega)
  have hlow : (UInt8.ofNat (0x40 + i % 0xbf) - 0x40).toNat = i % 0xbf :=
    toNat_ofNat_sub (b := 0x40) (show 0x40 + i % 0xbf < 256 by omega)
  have hrange : UInt8.ofNat (0x81 + i / 0xbf) - 0x81 ≤ 0x7d ∧
      UInt8.ofNat (0x40 + i % 0xbf) - 0x40 ≤ 0xbe := by
    rw [UInt8.le_iff_toNat_le, UInt8.le_iff_toNat_le, hhigh, hlow]
    exact ⟨show i / 0xbf ≤ 0x7d by omega, show i % 0xbf ≤ 0xbe by omega⟩
  have hfound : gbkToUnicode shiftedBack (UInt8.ofNat (0x81 + i / 0xbf))
      (UInt8.ofNat (0x40 + i % 0xbf)) = shiftedBack.entry (i / 0xbf * 0xbf + i % 0xbf) := by
    rw [gbkToUnicode, if_pos hrange, hhigh, hlow]
  rw [hfound, show i / 0xbf * 0xbf + i % 0xbf = i by omega, shiftedBack]
  dsimp only
  rw [if_pos hi, ← hn]
  exact UInt16.toNat_ofNat_of_lt' (show _ < 65536 by omega)

/-- U+4E02, which GBK has first. -/
theorem convertible_first : Convertible [0xE4, 0xB8, 0x82] :=
  (staysInTable_iff inverse_shifted _).mp
    ⟨.inr (by decide +kernel), by decide +kernel, fun _ => by decide +kernel⟩

/-- **An ideographic full stop** is looked up before the table. -/
theorem full_stop_before_table : let s : List UInt8 := [0xE3, 0x80, 0x82]
    rkEncodeIsUtf8Size (fun i => s.getD i 0) s.length = 1 ∧
      ∀ (table : ℤ → UInt16) (back : GbkTable), (utf8ToGbk table s).ret = 2 ∧
        (utf8ToGbk table s).reads = [-7678] ∧ ¬ StaysInTable table back s := by
  intro s
  refine ⟨(rkEncodeIsUtf8Size_of_str (by decide) (by decide)).mpr (by decide), ?_⟩
  intro table back
  have hreads : (utf8ToGbk table s).reads = [-7678] := rfl
  have hret : (utf8ToGbk table s).ret = 2 := rfl
  refine ⟨hret, hreads, fun h => ?_⟩
  rcases h.reads with hrefused | hin
  · rw [hret] at hrefused
    cases hrefused
  · rw [hreads] at hin
    exact absurd (hin (-7678) List.mem_cons_self).1 (by decide)

end RkIpc.Network
