import RkIpc.Network.ScanLines
import RkIpc.Network.ScanReport

/-!
# Names that are converted back

When a client connects to a network, `get_encode_gbk_ori` looks up the name it was shown, and puts
the name that was found into an array that has the length of the one that was shown. A pair of bytes
that GBK does not have becomes one question mark, and so the name that was found can be the longer
one.

## Main definitions

* `getEncodeGbkOri`, `rkWifiConnect1Ori`: the lookup, and the lookup with the array
* `gain`: by how much a name gets longer
* `Found.Grows`: names that do not get shorter
* `Restorable`: names that are found again

## Main results

* `length_removeEscapeCharacter_gbkToUtf8`: what is gained by a conversion
* `names_kept`: the lengths are right exactly for lists whose names grow, and names that are
  restorable are found again
* `question_mark_overflows`: a name that gets shorter
-/

namespace RkIpc.Network

open Text Param

/-! ## The lookup -/

/-- `get_encode_gbk_ori`. -/
def getEncodeGbkOri (head : List (Str × Str)) (str : Str) : Str :=
  ((head.find? fun gbk => gbk.2 = str).map Prod.fst).getD str

/-- `is_non_psk`. -/
def isNonPsk (head : List (Str × Str)) (str : Str) : Bool := head.any fun nonpsk => nonpsk.2 = str

/-- The list that `RK_wifi_connect1` looks at. -/
def Names.chosen (names : Names) (psk : Option Str) (ssid : Str) : List (Str × Str) :=
  if psk = none ∨ isNonPsk names.nonpsk ssid then names.nonpsk else names.gbk

/-- **The name in `RK_wifi_connect1`**, in `ori[strlen(ssid) + 1]`. -/
def rkWifiConnect1Ori (names : Names) (psk : Option Str) (ssid : Str) : Option Str :=
  inArray (ssid.length + 1) (getEncodeGbkOri (names.chosen psk ssid) ssid)

/-- **The first pair that matches**, or the name itself. -/
theorem getEncodeGbkOri_cases (head : List (Str × Str)) (str : Str) :
    (∃ p ∈ head, p.2 = str ∧ getEncodeGbkOri head str = p.1) ∨
      (∀ p ∈ head, p.2 ≠ str) ∧ getEncodeGbkOri head str = str := by
  unfold getEncodeGbkOri
  cases hfind : head.find? fun gbk => gbk.2 = str with
  | none => exact .inr ⟨by simpa using hfind, rfl⟩
  | some p =>
    exact .inl ⟨p, List.mem_of_find?_eq_some hfind, by simpa using List.find?_some hfind, rfl⟩

/-- Pairs that do not get shorter fit the array. -/
theorem length_getEncodeGbkOri_le {head : List (Str × Str)}
    (h : ∀ p ∈ head, p.1.length ≤ p.2.length) (str : Str) :
    (getEncodeGbkOri head str).length ≤ str.length := by
  rcases getEncodeGbkOri_cases head str with ⟨p, hp, rfl, hori⟩ | ⟨-, hori⟩
  · rw [hori]
    exact h p hp
  · rw [hori]

/-- A name is found again if all pairs that match are its own, and one does unless it is not
converted. -/
theorem getEncodeGbkOri_eq {head : List (Str × Str)} {str ori : Str}
    (hmatch : ∀ p ∈ head, p.2 = str → p.1 = ori) (hfound : ori = str ∨ ∃ p ∈ head, p.2 = str) :
    getEncodeGbkOri head str = ori := by
  rcases getEncodeGbkOri_cases head str with ⟨p, hp, hstr, hori⟩ | ⟨hnone, hori⟩
  · rw [hori, hmatch p hp hstr]
  · rcases hfound with rfl | ⟨p, hp, hstr⟩
    · exact hori
    · exact absurd hstr (hnone p hp)

/-! ## Lengths -/

/-- A backslash before the text is taken for an escape. -/
def escapes : Str → Bool
  | 92 :: s => !escapes s
  | 34 :: _ => true
  | _ => false

/-- **By how much a name gets longer.** A pair of bytes that GBK does not have loses a byte, and a
character of three bytes gains one, as does a backslash in a pair that would have been taken for an
escape. A single byte at the end gains two. -/
def gain (table : GbkTable) : Str → ℤ
  | [] => 0
  | [c] => if c < 0x80 then 0 else 2
  | c :: d :: s =>
    if c < 0x80 then
      if c = 92 ∧ (d = 34 ∨ d = 92) then gain table s else gain table (d :: s)
    else
      (if gbkToUnicode table c d < 0x80 then -1
        else if gbkToUnicode table c d < 0x800 then 0 else 1) +
        (if d = 92 ∧ escapes s then 1 else 0) + gain table s

/-- **A name that does not get shorter**, unless it is not kept. -/
def Found.Grows (table : GbkTable) (f : Found) : Prop :=
  f.isGbk → f.original.length < 128 → 0 ≤ gain table f.decoded

theorem removeEscapeCharacter_escape {d : UInt8} (hd : d = 34 ∨ d = 92) (s : Str) :
    removeEscapeCharacter (92 :: d :: s) = d :: removeEscapeCharacter s := by
  rcases hd with rfl | rfl <;> rfl

theorem length_removeEscapeCharacter_backslash (s : Str) :
    ((removeEscapeCharacter (92 :: s)).length : ℤ) =
      (removeEscapeCharacter s).length + 1 - if escapes s then 1 else 0 := by
  induction s with
  | nil => rfl
  | cons c s ih =>
    by_cases h92 : c = 92
    · subst h92
      rw [ih, removeEscapeCharacter_escape (.inr rfl), escapes, List.length_cons]
      cases escapes s <;> simp
    · by_cases h34 : c = 34
      · subst h34
        rw [removeEscapeCharacter_escape (.inl rfl), removeEscapeCharacter_cons (by decide),
          escapes, List.length_cons]
        simp
      · have hfalse : escapes (c :: s) = false := by
          rw [escapes]
          · exact fun _ h => h92 (List.cons.inj h).1
          · exact fun _ h => h34 (List.cons.inj h).1
        rw [removeEscapeCharacter_backslash ⟨h34, h92⟩, hfalse, List.length_cons]
        simp

/-- A second byte may have been taken for an escape. -/
theorem length_removeEscapeCharacter_cons (d : UInt8) (s : Str) :
    ((removeEscapeCharacter (d :: s)).length : ℤ) =
      (removeEscapeCharacter s).length + 1 - if d = 92 ∧ escapes s then 1 else 0 := by
  by_cases hd : d = 92
  · subst hd
    simpa using length_removeEscapeCharacter_backslash s
  · rw [removeEscapeCharacter_cons hd, if_neg fun h => hd h.1]
    simp

section Pair

variable (table : GbkTable)

/-- What two bytes become is not a quote or a backslash. -/
theorem mem_unicodeToUtf8_pair {c d b : UInt8}
    (h : b ∈ unicodeToUtf8 (gbkToUnicode table c d).toNat) : b ≠ 34 ∧ b ≠ 92 := by
  rcases unicodeToUtf8_gbkToUnicode table c d with hmark | ⟨ch, hch, hbytes⟩
  · rw [hmark, List.mem_singleton] at h
    exact h ▸ by decide
  · rw [hbytes] at h
    have := utf8EncodeChar_high hch b h
    exact ⟨by grind, by grind⟩

/-- How long a character is. -/
theorem length_unicodeToUtf8_pair (c d : UInt8) :
    ((unicodeToUtf8 (gbkToUnicode table c d).toNat).length : ℤ) =
      2 + if gbkToUnicode table c d < 0x80 then -1
        else if gbkToUnicode table c d < 0x800 then 0 else 1 := by
  have hlt := (gbkToUnicode table c d).toNat_lt
  rcases gbkToUnicode_character table c d with h | ⟨hlow, -⟩
  · have hmark : gbkToUnicode table c d = 63 := UInt16.toNat_inj.mp h
    rw [hmark]
    rfl
  · have h80 : ¬ gbkToUnicode table c d < 0x80 := by
      rw [UInt16.lt_iff_toNat_lt]
      exact Nat.not_lt.mpr hlow
    rw [if_neg h80, unicodeToUtf8, if_neg (by omega)]
    by_cases h800 : (gbkToUnicode table c d).toNat < 0x800
    · rw [if_pos h800, if_pos (UInt16.lt_iff_toNat_lt.mpr h800)]
      rfl
    · rw [if_neg h800, if_pos hlt, if_neg (fun h => h800 (UInt16.lt_iff_toNat_lt.mp h))]
      rfl

theorem unicodeToUtf8_pair_ne_nil (c d : UInt8) :
    unicodeToUtf8 (gbkToUnicode table c d).toNat ≠ [] := fun hnil => by
  have hlen := length_unicodeToUtf8_pair table c d
  rw [hnil] at hlen
  split at hlen
  · cases hlen
  · split at hlen <;> cases hlen

theorem head_gbkToUtf8 {d : UInt8} (hd : ¬ (d = 34 ∨ d = 92)) (h0 : d ≠ 0) (s : Str) :
    ∀ b ∈ (gbkToUtf8 table (d :: s)).head?, b ≠ 34 ∧ b ≠ 92 := by
  intro b hb
  rw [not_or] at hd
  by_cases hascii : d < 128
  · rw [gbkToUtf8_ascii table hascii h0] at hb
    exact Option.some.inj hb ▸ hd
  · cases s with
    | nil =>
      rw [gbkToUtf8, if_neg hascii] at hb
      exact mem_unicodeToUtf8_pair table (List.mem_of_mem_head? hb)
    | cons e s =>
      rw [gbkToUtf8_pair table hascii, List.head?_append_of_ne_nil _
        (unicodeToUtf8_pair_ne_nil table d e)] at hb
      exact mem_unicodeToUtf8_pair table (List.mem_of_mem_head? hb)

/-- A byte at the end is no character. -/
theorem length_gbkToUtf8_last {c : UInt8} (hc : ¬ c < 128) : (gbkToUtf8 table [c]).length = 3 := by
  have hfallback : gbkToUnicode table c 0 = 0x1fff := if_neg fun h => absurd h.2 (by decide)
  rw [gbkToUtf8, if_neg hc, hfallback]
  rfl

/-- It is left alone where the escapes are removed. -/
theorem removeEscapeCharacter_gbkToUtf8_last {c : UInt8} (hc : ¬ c < 128) :
    removeEscapeCharacter (gbkToUtf8 table [c]) = gbkToUtf8 table [c] := by
  have hbytes : 92 ∉ gbkToUtf8 table [c] := by
    intro h
    rw [gbkToUtf8, if_neg hc] at h
    exact (mem_unicodeToUtf8_pair table h).2 rfl
  exact removeEscapeCharacter_of_notMem hbytes

/-- An escape is converted into itself. -/
theorem gbkToUtf8_escape {d : UInt8} (hd : d = 34 ∨ d = 92) (s : Str) :
    gbkToUtf8 table (92 :: d :: s) = 92 :: d :: gbkToUtf8 table s := by
  have hascii : d < 128 ∧ d ≠ 0 := by
    rcases hd with rfl | rfl <;> decide
  rw [gbkToUtf8_ascii table (by decide) (by decide), gbkToUtf8_ascii table hascii.1 hascii.2]

/-- **What is gained by the conversion**, when the escapes are removed. -/
theorem length_removeEscapeCharacter_gbkToUtf8 {s : Str} (h0 : 0 ∉ s) :
    ((removeEscapeCharacter (gbkToUtf8 table s)).length : ℤ) =
      (removeEscapeCharacter s).length + gain table s := by
  fun_induction gain table s with
  | case1 => rfl
  | case2 c hc =>
    rw [gbkToUtf8_ascii table hc (Ne.symm (by simpa using h0)), gbkToUtf8]
    simp
  | case3 c hc =>
    have h92 : c ≠ 92 := fun h => hc (h ▸ by decide)
    rw [removeEscapeCharacter_gbkToUtf8_last table hc, length_gbkToUtf8_last table hc,
      removeEscapeCharacter_cons h92]
    rfl
  | case4 c d s hc hescape ih =>
    -- an escape, which both sides lose
    simp only [List.mem_cons, not_or] at h0
    obtain ⟨rfl, hd⟩ := hescape
    rw [gbkToUtf8_escape table hd, removeEscapeCharacter_escape hd, removeEscapeCharacter_escape hd,
      List.length_cons, List.length_cons]
    have ih := ih h0.2.2
    omega
  | case5 c d s hc hescape ih =>
    rw [List.mem_cons, not_or] at h0
    have ih := ih h0.2
    rw [List.mem_cons, not_or] at h0
    rw [gbkToUtf8_ascii table hc (Ne.symm h0.1)]
    by_cases h92 : c = 92
    · subst h92
      have hd : ¬ (d = 34 ∨ d = 92) := fun h => hescape ⟨rfl, h⟩
      rw [removeEscapeCharacter_backslash_head (head_gbkToUtf8 table hd (Ne.symm h0.2.1) s),
        removeEscapeCharacter_backslash (not_or.mp hd), List.length_cons, List.length_cons]
      omega
    · rw [removeEscapeCharacter_cons h92, removeEscapeCharacter_cons h92, List.length_cons,
        List.length_cons]
      omega
  | case6 c d s hc ih =>
    simp only [List.mem_cons, not_or] at h0
    have ih := ih h0.2.2
    have h92 : c ≠ 92 := fun h => hc (h ▸ by decide)
    have hbytes : 92 ∉ unicodeToUtf8 (gbkToUnicode table c d).toNat := fun h =>
      (mem_unicodeToUtf8_pair table h).2 rfl
    have hlen := length_unicodeToUtf8_pair table c d
    have hsecond := length_removeEscapeCharacter_cons d s
    rw [gbkToUtf8_pair table hc, removeEscapeCharacter_append hbytes,
      removeEscapeCharacter_cons h92, List.length_append, List.length_cons]
    push_cast
    rw [hlen, ih, hsecond]
    omega

end Pair

/-! ## The names that are kept -/

/-- A pair that `encode_gbk_insert` takes. -/
def Found.Stored (table : GbkTable) (f : Found) : Prop :=
  ¬ (f.original = [] ∨ f.shown table = []) ∧
    ¬ (128 ≤ f.original.length ∨ 128 ≤ (f.shown table).length)

theorem mem_encodeGbkInsert {head : List (Str × Str)} {ori utf8 : Str} {p : Str × Str} :
    p ∈ encodeGbkInsert head ori utf8 ↔ p ∈ head ∨
      ¬ (ori = [] ∨ utf8 = []) ∧ ¬ (128 ≤ ori.length ∨ 128 ≤ utf8.length) ∧ p = (ori, utf8) := by
  unfold encodeGbkInsert
  split
  · next h => simp [h]
  · next h =>
    split
    · next h' => simp [h']
    · next h' => simp [h, h', or_comm]

section Kept

variable {table : GbkTable} {fs : List Found} {f : Found} {names : Names} {p : Str × Str}

/-- **One of the two lists**: a pair is there if its name was found. -/
theorem mem_foldl_see (list : Names → List (Str × Str)) {into : Found → Bool}
    (hlist : ∀ names f, list (names.see table f) =
      if into f then encodeGbkInsert (list names) f.original (f.shown table) else list names) :
    p ∈ list (fs.foldl (Names.see table) names) ↔ p ∈ list names ∨
      ∃ f ∈ fs, into f ∧ f.Stored table ∧ p = (f.original, f.shown table) := by
  induction fs generalizing names with
  | nil => simp
  | cons f fs ih =>
    have hfirst : p ∈ list (names.see table f) ↔ p ∈ list names ∨
        into f ∧ f.Stored table ∧ p = (f.original, f.shown table) := by
      rw [hlist]
      split
      · next h => rw [mem_encodeGbkInsert, Found.Stored, and_assoc, h, eq_self, true_and]
      · next h => simp [h]
    rw [List.foldl_cons, ih, hfirst, List.exists_mem_cons_iff, or_assoc]

theorem mem_gbk : p ∈ (fs.foldl (Names.see table) ⟨[], []⟩).gbk ↔
    ∃ f ∈ fs, f.isGbk ∧ f.Stored table ∧ p = (f.original, f.shown table) := by
  rw [mem_foldl_see Names.gbk fun _ _ => rfl]
  simp

theorem mem_nonpsk : p ∈ (fs.foldl (Names.see table) ⟨[], []⟩).nonpsk ↔
    ∃ f ∈ fs, f.isNonpsk ∧ f.Stored table ∧ p = (f.original, f.shown table) := by
  rw [mem_foldl_see Names.nonpsk fun _ _ => rfl]
  simp

/-- What a name that is converted gains. -/
theorem Found.length_shown (table : GbkTable) (h : f.isGbk = true) :
    ((f.shown table).length : ℤ) = f.original.length + gain table f.decoded := by
  rw [shown, converted_of_gbk table h, original]
  exact length_removeEscapeCharacter_gbkToUtf8 table (zero_notMem_cstr _)

theorem removeEscapeCharacter_ne_nil {s : Str} (h : s ≠ []) : removeEscapeCharacter s ≠ [] := by
  fun_cases removeEscapeCharacter s with
  | case1 => exact List.cons_ne_nil _ _
  | case2 => exact List.cons_ne_nil _ _
  | case3 => exact List.cons_ne_nil _ _
  | case4 => exact absurd rfl h

theorem gbkToUtf8_ne_nil (table : GbkTable) {s : Str} (h : s ≠ []) (h0 : 0 ∉ s) :
    gbkToUtf8 table s ≠ [] := by
  intro hnil
  obtain ⟨c, s, rfl⟩ := List.exists_cons_of_ne_nil h
  rw [List.mem_cons, not_or] at h0
  by_cases hc : c < 128
  · rw [gbkToUtf8_ascii table hc (Ne.symm h0.1)] at hnil
    cases hnil
  · cases s with
    | nil =>
      have hlen := length_gbkToUtf8_last table hc
      rw [hnil] at hlen
      cases hlen
    | cons d s =>
      rw [gbkToUtf8_pair table hc, List.append_eq_nil_iff] at hnil
      exact unicodeToUtf8_pair_ne_nil table c d hnil.1

/-- **The lengths are right** exactly if all names grow. -/
theorem forall_length_le_iff :
    (∀ p ∈ (fs.foldl (Names.see table) ⟨[], []⟩).gbk ++
        (fs.foldl (Names.see table) ⟨[], []⟩).nonpsk, p.1.length ≤ p.2.length) ↔
      ∀ f ∈ fs, f.Grows table := by
  constructor
  · intro hlen f hf hgbk hshort
    have hshown := Found.length_shown table hgbk
    by_contra hgain
    -- a name that gets shorter is kept
    have hne : f.decoded ≠ [] := fun hnil => by
      rw [hnil] at hgain
      exact hgain (le_refl 0)
    have hstored : f.Stored table := by
      have hdecoded : (0 : UInt8) ∉ f.decoded := zero_notMem_cstr _
      refine ⟨not_or.mpr ⟨removeEscapeCharacter_ne_nil hne, removeEscapeCharacter_ne_nil ?_⟩,
        by omega⟩
      rw [Found.converted_of_gbk table hgbk]
      exact gbkToUtf8_ne_nil table hne hdecoded
    have hle : f.original.length ≤ (f.shown table).length := hlen (f.original, f.shown table)
      (List.mem_append_left _ (mem_gbk.mpr ⟨f, hf, hgbk, hstored, rfl⟩))
    omega
  · intro hgrows p hp
    obtain ⟨f, hf, hstored, rfl⟩ : ∃ f ∈ fs, f.Stored table ∧ p = (f.original, f.shown table) := by
      rcases List.mem_append.mp hp with hp | hp
      · obtain ⟨f, hf, -, h⟩ := mem_gbk.mp hp
        exact ⟨f, hf, h⟩
      · obtain ⟨f, hf, -, h⟩ := mem_nonpsk.mp hp
        exact ⟨f, hf, h⟩
    obtain ⟨hshort, -⟩ := not_or.mp hstored.2
    by_cases hgbk : f.isGbk = true
    · have hgain := hgrows f hf hgbk (not_le.mp hshort)
      have hshown := Found.length_shown table hgbk
      dsimp only
      omega
    · rw [Found.shown_of_not_gbk table (Bool.eq_false_of_not_eq_true hgbk)]

end Kept

/-! ## Names that are found again -/

/-- **The name in UTF-8** that is shown. -/
def utf8Name (table : GbkTable) (raw : Str) : Str :=
  if rkEncodeIsUtf8 raw then raw else gbkToUtf8 table raw

/-- Text of GBK, no character of which ends in a quote or a backslash. -/
def GbkWhole : Str → Prop
  | [] => True
  | [_] => True
  | c :: d :: s => if c < 0x80 then GbkWhole (d :: s) else (d ≠ 34 ∧ d ≠ 92) ∧ GbkWhole s

/-- **A network whose name is found again**: its column is the text of the name, from which the
escapes can be undone. -/
structure Restorable (table : GbkTable) (f : Found) (raw : Str) : Prop where
  text : f.token = printfEncode raw
  zero : 0 ∉ raw
  backslash : ¬ [92, 120] <:+: raw
  control : f.isNonpsk = true ∨ rkEncodeIsUtf8 raw = false → ∀ c ∈ raw, controlLetter c = none
  whole : rkEncodeIsUtf8 raw = false → GbkWhole raw
  short : rkEncodeIsUtf8 raw = false → raw.length < 128 ∧ (gbkToUtf8 table raw).length < 128

theorem quotedByte_of_plain {c : UInt8} (hcontrol : controlLetter c = none) (h34 : c ≠ 34)
    (h92 : c ≠ 92) : quotedByte c = [c] := by
  rw [quotedByte, if_neg (not_or.mpr ⟨h34, h92⟩), decodedByte, hcontrol]

/-- A byte of ASCII is not changed. -/
theorem removeEscapeCharacter_gbkToUtf8_ascii (table : GbkTable) {c : UInt8} (hc : c < 128)
    (h0 : c ≠ 0) (hcontrol : controlLetter c = none) (s : Str) :
    removeEscapeCharacter (gbkToUtf8 table (quotedByte c ++ s)) =
      c :: removeEscapeCharacter (gbkToUtf8 table s) := by
  rw [gbkToUtf8_append_ascii table (quotedByte_ascii hc h0)]
  by_cases h34 : c = 34
  · subst h34
    rfl
  · by_cases h92 : c = 92
    · subst h92
      rfl
    · rw [quotedByte_of_plain hcontrol h34 h92]
      exact removeEscapeCharacter_cons h92 _

/-- **A name in GBK that is whole** is converted as it is without escapes. -/
theorem removeEscapeCharacter_gbkToUtf8 (table : GbkTable) {raw : Str} (h0 : 0 ∉ raw)
    (hcontrol : ∀ c ∈ raw, controlLetter c = none) (hwhole : GbkWhole raw) :
    removeEscapeCharacter (gbkToUtf8 table (raw.flatMap quotedByte)) = gbkToUtf8 table raw := by
  have hpair : ∀ c d, (92 : UInt8) ∉ unicodeToUtf8 (gbkToUnicode table c d).toNat := fun c d h =>
    (mem_unicodeToUtf8_pair table h).2 rfl
  -- induction on the characters
  fun_induction GbkWhole raw with
  | case1 => rfl
  | case2 c =>
    rw [List.mem_singleton] at h0
    have hc0 := hcontrol c List.mem_cons_self
    by_cases hc : c < 128
    · have hascii := removeEscapeCharacter_gbkToUtf8_ascii table hc (Ne.symm h0) hc0 []
      rw [List.append_nil] at hascii
      rw [List.flatMap_singleton, hascii, gbkToUtf8_ascii table hc (Ne.symm h0)]
      rfl
    · rw [List.flatMap_singleton, quotedByte_of_high (UInt8.not_lt.mp hc), gbkToUtf8, if_neg hc]
      exact removeEscapeCharacter_of_notMem (hpair c 0)
  | case3 c d s hc ih =>
    rw [List.mem_cons, not_or] at h0
    obtain ⟨hc0, hcontrol⟩ := List.forall_mem_cons.mp hcontrol
    rw [List.flatMap_cons, removeEscapeCharacter_gbkToUtf8_ascii table hc (Ne.symm h0.1) hc0,
      ih h0.2 hcontrol hwhole, gbkToUtf8_ascii table hc (Ne.symm h0.1)]
  | case4 c d s hc ih =>
    simp only [List.mem_cons, not_or] at h0
    obtain ⟨-, hcontrol⟩ := List.forall_mem_cons.mp hcontrol
    obtain ⟨hd0, hcontrol⟩ := List.forall_mem_cons.mp hcontrol
    rw [List.flatMap_cons, List.flatMap_cons, quotedByte_of_high (UInt8.not_lt.mp hc),
      quotedByte_of_plain hd0 hwhole.1.1 hwhole.1.2, List.singleton_append, List.singleton_append,
      gbkToUtf8_pair table hc, removeEscapeCharacter_append (hpair c d),
      ih h0.2.2 hcontrol hwhole.2, gbkToUtf8_pair table hc]

namespace Restorable

variable {table : GbkTable} {f : Found} {raw : Str}

theorem decoded (h : Restorable table f raw) : f.decoded = raw.flatMap quotedByte := by
  rw [Found.decoded, h.text, specCharConvers_printfEncode h.backslash]
  exact cstr_eq_self (zero_notMem_quotedByte h.zero)

theorem isGbk (h : Restorable table f raw) {b : Bool} (htest : rkEncodeIsUtf8 raw = b) :
    f.isGbk = !b := by
  rw [Found.isGbk, h.decoded, ← htest]
  exact congrArg not (isUtf8From_quotedByte h.zero 0)

/-- **A pair that is kept**: the name, and what is shown of it. -/
theorem original_shown (h : Restorable table f raw) (hkept : f.isNonpsk = true ∨ f.isGbk = true) :
    f.original = raw ∧ f.shown table = utf8Name table raw := by
  have hcontrol : ∀ c ∈ raw, controlLetter c = none :=
    h.control (hkept.imp_right fun hgbk => by simpa [h.isGbk rfl] using hgbk)
  have horiginal : f.original = raw := by
    rw [Found.original, h.decoded, removeEscapeCharacter_quotedByte hcontrol]
  refine ⟨horiginal, ?_⟩
  cases htest : rkEncodeIsUtf8 raw with
  | true =>
    have hgbk : f.isGbk = false := h.isGbk htest
    rw [Found.shown_of_not_gbk table hgbk, horiginal, utf8Name, if_pos htest]
  | false =>
    have hgbk : f.isGbk = true := h.isGbk htest
    rw [Found.shown, Found.converted_of_gbk table hgbk, h.decoded,
      removeEscapeCharacter_gbkToUtf8 table h.zero hcontrol (h.whole htest), utf8Name, htest]
    rfl

/-- A name that is converted is kept. -/
theorem stored (h : Restorable table f raw) (htest : rkEncodeIsUtf8 raw = false) :
    f.Stored table := by
  have hgbk : f.isGbk = true := h.isGbk htest
  obtain ⟨horiginal, hshown⟩ := h.original_shown (.inr hgbk)
  have hutf8 : utf8Name table raw = gbkToUtf8 table raw := by rw [utf8Name, htest]; rfl
  have hne : raw ≠ [] := by
    rintro rfl
    cases htest
  obtain ⟨hraw, hname⟩ := h.short htest
  rw [Found.Stored, horiginal, hshown, hutf8]
  exact ⟨not_or.mpr ⟨hne, gbkToUtf8_ne_nil table hne h.zero⟩, by omega⟩

end Restorable

section Connect

variable {table : GbkTable} {fs : List Found} {f : Found} {raw : Str}

/-- The list that is looked at has pairs of the names that were found. -/
theorem mem_chosen {psk : Option Str} {ssid : Str} {p : Str × Str}
    (hp : p ∈ (fs.foldl (Names.see table) ⟨[], []⟩).chosen psk ssid) :
    ∃ g ∈ fs, (g.isNonpsk = true ∨ g.isGbk = true) ∧ p = (g.original, g.shown table) := by
  unfold Names.chosen at hp
  split at hp
  · obtain ⟨g, hg, hopen, -, rfl⟩ := mem_nonpsk.mp hp
    exact ⟨g, hg, .inl hopen, rfl⟩
  · obtain ⟨g, hg, hgbk, -, rfl⟩ := mem_gbk.mp hp
    exact ⟨g, hg, .inr hgbk, rfl⟩

/-- **No array is too short** if all names grow. -/
theorem rkWifiConnect1Ori_eq (hgrows : ∀ f ∈ fs, f.Grows table) (psk : Option Str) (ssid : Str) :
    rkWifiConnect1Ori (fs.foldl (Names.see table) ⟨[], []⟩) psk ssid =
      some (getEncodeGbkOri ((fs.foldl (Names.see table) ⟨[], []⟩).chosen psk ssid) ssid) := by
  have hlen := forall_length_le_iff.mpr hgrows
  refine inArray_eq (Nat.succ_le_succ (length_getEncodeGbkOri_le (fun p hp => hlen p ?_) ssid))
  unfold Names.chosen at hp
  split at hp
  · exact List.mem_append_right _ hp
  · exact List.mem_append_left _ hp

/-- **A network is found again** by the name that is shown, if no other name is shown like it. -/
theorem getEncodeGbkOri_utf8Name (hall : ∀ g ∈ fs, ∃ raw, Restorable table g raw)
    (hf : f ∈ fs) (hraw : Restorable table f raw)
    (hdiffer : ∀ g ∈ fs, ∀ raw', Restorable table g raw' →
      utf8Name table raw' = utf8Name table raw → raw' = raw)
    {psk : Option Str} (hpsk : psk = none → f.isNonpsk = true) :
    getEncodeGbkOri ((fs.foldl (Names.see table) ⟨[], []⟩).chosen psk (utf8Name table raw))
      (utf8Name table raw) = raw := by
  refine getEncodeGbkOri_eq (fun p hp hshown => ?_) ?_
  · obtain ⟨g, hg, hkept, rfl⟩ := mem_chosen hp
    obtain ⟨raw', hraw'⟩ := hall g hg
    obtain ⟨horiginal, hname⟩ := hraw'.original_shown hkept
    exact horiginal.trans (hdiffer g hg raw' hraw' (hname.symm.trans hshown))
  · cases htest : rkEncodeIsUtf8 raw with
    | true =>
      rw [utf8Name, if_pos htest]
      exact .inl rfl
    | false =>
      -- the pair of the network itself is in the list
      have hgbk : f.isGbk = true := hraw.isGbk htest
      have hstored := hraw.stored htest
      obtain ⟨-, hshown⟩ := hraw.original_shown (.inr hgbk)
      right
      unfold Names.chosen
      split
      · next hopen =>
        rcases hopen with hnone | hopen
        · exact ⟨_, mem_nonpsk.mpr ⟨f, hf, hpsk hnone, hstored, rfl⟩, hshown⟩
        · obtain ⟨p, hp, hmatch⟩ := List.any_eq_true.mp hopen
          exact ⟨p, hp, of_decide_eq_true hmatch⟩
      · exact ⟨_, mem_gbk.mpr ⟨f, hf, hgbk, hstored, rfl⟩, hshown⟩

/-- **The names that are kept**: no name that was found is longer than the one that is shown,
exactly if all names grow. Then no array is too short, and networks that are restorable are found
again. -/
theorem names_kept {cols : ℕ} {names₀ names : Names} {file : List UInt8} {scanR : Option Str}
    (hcols : cols &&& 0x1F ≠ 0)
    (hscan : rkWifiScanRSec table cols names₀ (some file) = some (scanR, names)) :
    ((∀ p ∈ names.gbk ++ names.nonpsk, p.1.length ≤ p.2.length) ↔
        ∀ f ∈ foundNames cols file, f.Grows table) ∧
      ((∀ f ∈ foundNames cols file, f.Grows table) →
        (∀ psk ssid, ∃ ori, rkWifiConnect1Ori names psk ssid = some ori) ∧
        ((∀ f ∈ foundNames cols file, ∃ raw, Restorable table f raw) →
          ∀ f ∈ foundNames cols file, ∀ raw, Restorable table f raw →
            (∀ g ∈ foundNames cols file, ∀ raw', Restorable table g raw' →
              utf8Name table raw' = utf8Name table raw → raw' = raw) →
            ∀ psk, (psk = none → f.isNonpsk = true) →
              rkWifiConnect1Ori names psk (utf8Name table raw) = some raw)) := by
  obtain ⟨rfl, -⟩ := names_rkWifiScanRSec hcols hscan
  refine ⟨forall_length_le_iff, fun hgrows => ⟨fun psk ssid => ?_, ?_⟩⟩
  · exact ⟨_, rkWifiConnect1Ori_eq hgrows psk ssid⟩
  · intro hall f hf raw hraw hdiffer psk hpsk
    rw [rkWifiConnect1Ori_eq hgrows, getEncodeGbkOri_utf8Name hall hf hraw hdiffer hpsk]

end Connect

/-- A network in GBK. -/
def gbkNetwork : AccessPoint :=
  ⟨[2, 0, 0, 0, 0, 1], 2412, -40, lit "[WPA2-PSK-CCMP][ESS]", [0xD6, 0xD0]⟩

/-- A network in GBK with another name, which is open. -/
def guestNetwork : AccessPoint :=
  ⟨[2, 0, 0, 0, 0, 2], 2417, -60, lit "[ESS]", [0xD6, 0xD0, 0x35]⟩

theorem foundNames_gbk : foundNames 0x1F (scanFile [gbkNetwork, guestNetwork]) =
    [⟨false, printfEncode [0xD6, 0xD0]⟩, ⟨true, printfEncode [0xD6, 0xD0, 0x35]⟩] := by
  decide

theorem restorable_gbk :
    Restorable oneCharacter ⟨false, printfEncode [0xD6, 0xD0]⟩ [0xD6, 0xD0] := by
  refine ⟨rfl, by decide, by decide, fun _ => ?_, fun _ => ?_, fun _ => by decide⟩
  · exact List.forall_mem_cons.mpr ⟨rfl, List.forall_mem_singleton.mpr rfl⟩
  · rw [GbkWhole]
    exact ⟨by decide, trivial⟩

theorem restorable_guest :
    Restorable oneCharacter ⟨true, printfEncode [0xD6, 0xD0, 0x35]⟩ [0xD6, 0xD0, 0x35] := by
  refine ⟨rfl, by decide, by decide, fun _ => ?_, fun _ => ?_, fun _ => by decide⟩
  · exact List.forall_mem_cons.mpr ⟨rfl, List.forall_mem_cons.mpr ⟨rfl,
      List.forall_mem_singleton.mpr rfl⟩⟩
  · rw [GbkWhole]
    refine ⟨by decide, ?_⟩
    rw [GbkWhole]
    decide

/-- Both networks are found again by the names that are shown. -/
theorem names_kept_gbk : ∃ scanR names,
    rkWifiScanRSec oneCharacter 0x1F ⟨[], []⟩ (some (scanFile [gbkNetwork, guestNetwork])) =
      some (scanR, names) ∧
    rkWifiConnect1Ori names (some (lit "12345678")) [0xE4, 0xB8, 0xAD] = some [0xD6, 0xD0] ∧
    rkWifiConnect1Ori names none [0xE4, 0xB8, 0xAD, 0x35] = some [0xD6, 0xD0, 0x35] := by
  have hsome : (rkWifiScanRSec oneCharacter 0x1F ⟨[], []⟩
      (some (scanFile [gbkNetwork, guestNetwork]))).isSome = true := by
    decide +kernel
  obtain ⟨⟨scanR, names⟩, hscan⟩ := Option.isSome_iff_exists.mp hsome
  obtain ⟨-, hkept⟩ := names_kept (by decide) hscan
  rw [foundNames_gbk] at hkept
  have hgrows : ∀ f ∈ [(⟨false, printfEncode [0xD6, 0xD0]⟩ : Found),
      ⟨true, printfEncode [0xD6, 0xD0, 0x35]⟩], f.Grows oneCharacter := by
    unfold Found.Grows
    decide
  have hall : ∀ f ∈ [(⟨false, printfEncode [0xD6, 0xD0]⟩ : Found),
      ⟨true, printfEncode [0xD6, 0xD0, 0x35]⟩], ∃ raw, Restorable oneCharacter f raw :=
    List.forall_mem_cons.mpr ⟨⟨_, restorable_gbk⟩,
      List.forall_mem_singleton.mpr ⟨_, restorable_guest⟩⟩
  -- each column is the text of one name
  have hgbk : ∀ raw, Restorable oneCharacter ⟨false, printfEncode [0xD6, 0xD0]⟩ raw →
      raw = [0xD6, 0xD0] := fun raw hraw =>
    (hraw.original_shown (.inr (by decide))).1.symm.trans
      (restorable_gbk.original_shown (.inr (by decide))).1
  have hguest : ∀ raw, Restorable oneCharacter ⟨true, printfEncode [0xD6, 0xD0, 0x35]⟩ raw →
      raw = [0xD6, 0xD0, 0x35] := fun raw hraw =>
    (hraw.original_shown (.inl rfl)).1.symm.trans (restorable_guest.original_shown (.inl rfl)).1
  have hdiffer : utf8Name oneCharacter [0xD6, 0xD0] ≠ utf8Name oneCharacter [0xD6, 0xD0, 0x35] := by
    decide
  obtain ⟨-, hconnect⟩ := hkept hgrows
  refine ⟨scanR, names, hscan, ?_, ?_⟩
  · refine hconnect hall _ List.mem_cons_self _ restorable_gbk (fun g hg raw hraw heq => ?_) _ nofun
    rcases List.mem_cons.mp hg with rfl | hg
    · exact hgbk raw hraw
    · obtain rfl := List.mem_singleton.mp hg
      obtain rfl := hguest raw hraw
      exact absurd heq.symm hdiffer
  · refine hconnect hall _ (List.mem_cons_of_mem _ List.mem_cons_self) _ restorable_guest
      (fun g hg raw hraw heq => ?_) _ fun _ => rfl
    rcases List.mem_cons.mp hg with rfl | hg
    · obtain rfl := hgbk raw hraw
      exact absurd heq hdiffer
    · obtain rfl := List.mem_singleton.mp hg
      exact hguest raw hraw

/-- **A question mark is too short**: two bytes that GBK does not have are shown as one, and do not
fit into the array for it. -/
theorem question_mark_overflows : ∃ scanR names,
    rkWifiScanRSec oneCharacter 0x1F ⟨[], []⟩
        (some (scanFile [{ gbkNetwork with ssid := [0x81, 0x7F] }])) = some (scanR, names) ∧
      ∃ p ∈ names.gbk, p.2.length < p.1.length ∧
        rkWifiConnect1Ori names (some (lit "12345678")) p.2 = none := by
  have hrun : (rkWifiScanRSec oneCharacter 0x1F ⟨[], []⟩
      (some (scanFile [{ gbkNetwork with ssid := [0x81, 0x7F] }]))).map
        (fun r => (r.2.gbk, rkWifiConnect1Ori r.2 (some (lit "12345678")) [63])) =
      some ([([0x81, 0x7F], [63])], none) := by
    decide
  obtain ⟨⟨scanR, names⟩, hscan, hnames⟩ := Option.map_eq_some_iff.mp hrun
  obtain ⟨hgbk, hnone⟩ := Prod.mk.inj hnames
  refine ⟨scanR, names, hscan, ([0x81, 0x7F], [63]), ?_, by decide, hnone⟩
  exact hgbk ▸ List.mem_singleton_self _

end RkIpc.Network
