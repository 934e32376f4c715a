import RkIpc.Text.Decimal

/-!
# Names of networks

`wpa_supplicant` prints the name of a network with escapes: quotes and backslashes behind a
backslash, four control characters as letters, and bytes that are not printable in hexadecimal. Two
functions of `common/network/Rk_wifi.c` undo a part of this each. For saved networks the first one
is called before the second, and everywhere else the second before the first.

## Main definitions

* `printfEncode`: the text of a name
* `removeEscapeCharacter`, `specCharConvers`: the two functions
* `decodeSaved`, `decodeCurrent`: one after the other, in either order
* `Decodable`: no control character that is a letter, no backslash before an `x`, and room

## Main results

* `removeEscapeCharacter_printfEncode`: what the first function leaves of a text
* `weight_specCharConvers`: decoding never makes a text heavier, and escapes that are not undone
  make it lighter
* `decoders_exact_iff`: both orders give the name exactly for names that are `Decodable`
* `decoders_differ`: a name for which they do not even agree
-/

namespace RkIpc.Network

open Text

/-! ## The text of a name -/

/-- A byte that is printable. -/
def IsPrint (c : UInt8) : Prop := 32 ≤ c ∧ c ≤ 126

instance (c : UInt8) : Decidable (IsPrint c) := inferInstanceAs (Decidable (_ ∧ _))

/-- The letter for a tab, a newline, a carriage return or an escape. -/
def controlLetter (c : UInt8) : Option UInt8 :=
  if c = 9 then some 116
  else if c = 10 then some 110
  else if c = 13 then some 114
  else if c = 27 then some 101
  else none

/-- A digit of `%02x`. -/
def hexDigit (n : ℕ) : UInt8 := if n < 10 then UInt8.ofNat (48 + n) else UInt8.ofNat (87 + n)

/-- A byte, unless it is a quote or a backslash. -/
def printfByte (c : UInt8) : Str :=
  match controlLetter c with
  | some l => [92, l]
  | none => if IsPrint c then [c] else [92, 120, hexDigit (c.toNat / 16), hexDigit (c.toNat % 16)]

/-- A quote and a backslash stand behind a backslash. -/
def printfQuoted (c : UInt8) : Str := if c = 34 ∨ c = 92 then [92, c] else printfByte c

/-- **The text of a name**, as `wpa_supplicant` prints it. -/
def printfEncode (raw : Str) : Str := raw.flatMap printfQuoted

/-! ## The two functions -/

/-- **`remove_escape_character`**. -/
def removeEscapeCharacter : Str → Str
  | 92 :: 92 :: buf => 92 :: removeEscapeCharacter buf
  | 92 :: 34 :: buf => 34 :: removeEscapeCharacter buf
  | c :: buf => c :: removeEscapeCharacter buf
  | [] => []

/-- **`spec_char_convers`**: what it writes, which may contain a terminator. Four bytes are skipped
behind `\x`, with or without digits among them; there is no result if the string ends before. The
copy in `buf_temp` reads `0x` and these two bytes, and `strtoul` stops at what is not a digit. -/
def specCharConvers : Str → Option (List UInt8)
  | 92 :: 120 :: a :: b :: buf =>
    (specCharConvers buf).map (UInt8.ofNat (readDigits 16 0 [a, b]) :: ·)
  | 92 :: 120 :: _ => none
  | c :: buf => (specCharConvers buf).map (c :: ·)
  | [] => some []

/-- A string in an array of `n` bytes. -/
def inArray (n : ℕ) (s : List UInt8) : Option (List UInt8) :=
  if s.length + 1 ≤ n then some s else none

/-- The name of a saved network, in `get_ssid_from_list_network`. -/
def decodeSaved (text : Str) : Option Str := do
  let ssid ← inArray 128 (removeEscapeCharacter text)
  let sname ← (specCharConvers ssid).bind (inArray 128)
  some (cstr sname)

/-- The name of a network in `RK_wifi_running_getConnectionInfo`, and wherever else it is not one of
the saved ones. -/
def decodeCurrent (text : Str) : Option Str := do
  let sname ← (specCharConvers text).bind (inArray 128)
  inArray 128 (removeEscapeCharacter (cstr sname))

/-- **Names that are decoded**: no control character that is printed as a letter, no backslash
directly before an `x`, and a text that fits the buffers. -/
structure Decodable (raw : Str) : Prop where
  control : ∀ c ∈ raw, controlLetter c = none
  backslash : ¬ [92, 120] <:+: raw
  room : ¬ (raw.length = 32 ∧ ∀ c ∈ raw, ¬ IsPrint c)

/-! ## Printable bytes -/

theorem controlLetter_eq_some {c l : UInt8} (h : controlLetter c = some l) :
    ¬ IsPrint c ∧ IsPrint l ∧ l ≠ 34 ∧ l ≠ 92 ∧ l ≠ 120 := by
  unfold controlLetter at h
  split at h
  · next hc =>
    cases h
    exact hc ▸ by decide
  split at h
  · next hc =>
    cases h
    exact hc ▸ by decide
  split at h
  · next hc =>
    cases h
    exact hc ▸ by decide
  split at h
  · next hc =>
    cases h
    exact hc ▸ by decide
  cases h

theorem toNat_div_lt (c : UInt8) : c.toNat / 16 < 16 ∧ c.toNat % 16 < 16 := by
  have := c.toNat_lt
  omega

/-- **The text of a name is printable.** -/
theorem isPrint_of_mem_printfEncode {raw : Str} {d : UInt8} (h : d ∈ printfEncode raw) :
    IsPrint d := by
  have hdigit : ∀ n < 16, IsPrint (hexDigit n) := by decide
  obtain ⟨c, -, hd⟩ := List.mem_flatMap.mp h
  unfold printfQuoted at hd
  split at hd
  · next hc =>
    rcases hc with rfl | rfl
    · rcases List.mem_pair.mp hd with rfl | rfl <;> decide
    · rcases List.mem_pair.mp hd with rfl | rfl <;> decide
  · unfold printfByte at hd
    split at hd
    · next l hl =>
      rcases List.mem_pair.mp hd with rfl | rfl
      · decide
      · exact (controlLetter_eq_some hl).2.1
    · split at hd
      · next hprint => exact List.mem_singleton.mp hd ▸ hprint
      · obtain ⟨hdiv, hmod⟩ := toNat_div_lt c
        simp only [List.mem_cons, List.not_mem_nil, or_false] at hd
        rcases hd with rfl | rfl | rfl | rfl
        · decide
        · decide
        · exact hdigit _ hdiv
        · exact hdigit _ hmod

theorem printfByte_ne_nil (c : UInt8) : printfByte c ≠ [] := by
  unfold printfByte
  split
  · simp
  · split <;> simp

theorem printfEncode_cons (c : UInt8) (raw : Str) :
    printfEncode (c :: raw) = printfQuoted c ++ printfEncode raw := List.flatMap_cons

theorem printfEncode_ne_nil (c : UInt8) (raw : Str) : printfEncode (c :: raw) ≠ [] := by
  rw [printfEncode_cons, printfQuoted]
  split
  · simp
  · exact List.append_ne_nil_of_left_ne_nil (printfByte_ne_nil c) _

/-! ## Removing the backslashes -/

theorem removeEscapeCharacter_cons {c : UInt8} (hc : c ≠ 92) (s : Str) :
    removeEscapeCharacter (c :: s) = c :: removeEscapeCharacter s := by
  rw [removeEscapeCharacter]
  · exact fun _ h _ => hc h
  · exact fun _ h _ => hc h

theorem removeEscapeCharacter_backslash {c : UInt8} (hc : c ≠ 34 ∧ c ≠ 92) (s : Str) :
    removeEscapeCharacter (92 :: c :: s) = 92 :: removeEscapeCharacter (c :: s) := by
  rw [removeEscapeCharacter]
  · exact fun _ _ h => hc.2 (List.cons.inj h).1
  · exact fun _ _ h => hc.1 (List.cons.inj h).1

/-- A backslash is kept if nothing is escaped by it. -/
theorem removeEscapeCharacter_backslash_head {t : Str} (ht : ∀ c ∈ t.head?, c ≠ 34 ∧ c ≠ 92) :
    removeEscapeCharacter (92 :: t) = 92 :: removeEscapeCharacter t := by
  cases t with
  | nil => rfl
  | cons c t => exact removeEscapeCharacter_backslash (ht c rfl) t

/-- Bytes that are no backslashes are copied. -/
theorem removeEscapeCharacter_append {t : Str} (ht : 92 ∉ t) (s : Str) :
    removeEscapeCharacter (t ++ s) = t ++ removeEscapeCharacter s := by
  induction t with
  | nil => rfl
  | cons c t ih =>
    rw [List.mem_cons, not_or] at ht
    rw [List.cons_append, removeEscapeCharacter_cons (Ne.symm ht.1), ih ht.2, List.cons_append]

theorem removeEscapeCharacter_of_notMem {t : Str} (ht : 92 ∉ t) : removeEscapeCharacter t = t := by
  have hcopy := removeEscapeCharacter_append ht []
  rwa [removeEscapeCharacter, List.append_nil] at hcopy

/-- Letters and digits are not touched. -/
theorem hexDigit_ne {n : ℕ} (h : n < 16) : hexDigit n ≠ 0 ∧ hexDigit n ≠ 92 := by
  have hall : ∀ n < 16, hexDigit n ≠ 0 ∧ hexDigit n ≠ 92 := by decide
  exact hall n h

theorem removeEscapeCharacter_printfQuoted (c : UInt8) (s : Str) :
    removeEscapeCharacter (printfQuoted c ++ s) = printfByte c ++ removeEscapeCharacter s := by
  unfold printfQuoted
  split
  · next h =>
    rcases h with rfl | rfl
    · rfl
    · rfl
  · next h =>
    rw [not_or] at h
    unfold printfByte
    split
    · next l hl =>
      obtain ⟨-, -, h34, h92, -⟩ := controlLetter_eq_some hl
      change removeEscapeCharacter (92 :: l :: s) = 92 :: l :: removeEscapeCharacter s
      rw [removeEscapeCharacter_backslash ⟨h34, h92⟩, removeEscapeCharacter_cons h92]
    · split
      · exact removeEscapeCharacter_cons h.2 s
      · obtain ⟨hdiv, hmod⟩ := toNat_div_lt c
        change removeEscapeCharacter (92 :: 120 :: hexDigit (c.toNat / 16) ::
          hexDigit (c.toNat % 16) :: s) = _
        rw [removeEscapeCharacter_backslash ⟨by decide, by decide⟩,
          removeEscapeCharacter_cons (by decide), removeEscapeCharacter_cons (hexDigit_ne hdiv).2,
          removeEscapeCharacter_cons (hexDigit_ne hmod).2]
        rfl

/-- **What the first function leaves of a text**: quotes and backslashes are as they were. -/
theorem removeEscapeCharacter_printfEncode (raw : Str) :
    removeEscapeCharacter (printfEncode raw) = raw.flatMap printfByte := by
  induction raw with
  | nil => rfl
  | cons c raw ih =>
    rw [printfEncode, List.flatMap_cons, removeEscapeCharacter_printfQuoted, ← printfEncode, ih,
      List.flatMap_cons]

/-! ## Converting hexadecimal bytes -/

theorem specCharConvers_cons {c : UInt8} {s : Str} (h : ¬ (c = 92 ∧ s.head? = some 120)) :
    specCharConvers (c :: s) = (specCharConvers s).map (c :: ·) := by
  rw [specCharConvers]
  · rintro a b t rfl rfl
    exact h ⟨rfl, rfl⟩
  · rintro a rfl rfl
    exact h ⟨rfl, rfl⟩

theorem specCharConvers_cons_of_ne {c : UInt8} (h : c ≠ 92) (s : Str) :
    specCharConvers (c :: s) = (specCharConvers s).map (c :: ·) :=
  specCharConvers_cons fun h' => h h'.1

/-- **A byte in hexadecimal** is the byte. -/
theorem readDigits_hexDigit (c : UInt8) :
    UInt8.ofNat (readDigits 16 0 [hexDigit (c.toNat / 16), hexDigit (c.toNat % 16)]) = c := by
  have hall : ∀ m < 16, ∀ n < 16, readDigits 16 0 [hexDigit m, hexDigit n] = 16 * m + n := by
    decide
  obtain ⟨hdiv, hmod⟩ := toNat_div_lt c
  rw [hall _ hdiv _ hmod, Nat.div_add_mod, UInt8.ofNat_toNat]

theorem specCharConvers_hex (c : UInt8) (s : Str) :
    specCharConvers ([92, 120, hexDigit (c.toNat / 16), hexDigit (c.toNat % 16)] ++ s) =
      (specCharConvers s).map (c :: ·) := by
  change (specCharConvers s).map (UInt8.ofNat (readDigits 16 0 _) :: ·) = _
  rw [readDigits_hexDigit]

theorem length_removeEscapeCharacter_le (s : Str) :
    (removeEscapeCharacter s).length ≤ s.length := by
  fun_induction removeEscapeCharacter s <;> simp_all <;> omega

theorem length_specCharConvers {s : Str} {t : List UInt8} (h : specCharConvers s = some t) :
    t.length ≤ s.length := by
  fun_induction specCharConvers s generalizing t with
  | case1 a b s ih =>
    obtain ⟨u, hu, rfl⟩ := Option.map_eq_some_iff.mp h
    have := ih hu
    simp only [List.length_cons]
    omega
  | case2 => cases h
  | case3 c s _ _ ih =>
    obtain ⟨u, hu, rfl⟩ := Option.map_eq_some_iff.mp h
    have := ih hu
    simp only [List.length_cons]
    omega
  | case4 =>
    cases h
    exact le_refl _

/-! ## What is left of a name -/

theorem printfByte_of_isPrint {c : UInt8} (h : IsPrint c) : printfByte c = [c] := by
  unfold printfByte
  split
  · next l hl => exact absurd h (controlLetter_eq_some hl).1
  · exact if_pos h

theorem printfByte_of_control {c l : UInt8} (h : controlLetter c = some l) :
    printfByte c = [92, l] := by
  rw [printfByte, h]

theorem printfByte_of_hex {c : UInt8} (h : controlLetter c = none) (hprint : ¬ IsPrint c) :
    printfByte c = [92, 120, hexDigit (c.toNat / 16), hexDigit (c.toNat % 16)] := by
  rw [printfByte, h]
  exact if_neg hprint

/-- What both functions leave of a byte. -/
def decodedByte (c : UInt8) : Str :=
  match controlLetter c with
  | some l => [92, l]
  | none => [c]

theorem specCharConvers_printfByte {c : UInt8} {s : Str} (h : ¬ (c = 92 ∧ s.head? = some 120)) :
    specCharConvers (printfByte c ++ s) = (specCharConvers s).map (decodedByte c ++ ·) := by
  cases hc : controlLetter c with
  | some l =>
    obtain ⟨-, -, -, h92, hx⟩ := controlLetter_eq_some hc
    rw [printfByte_of_control hc, decodedByte, hc]
    change specCharConvers (92 :: l :: s) = _
    rw [specCharConvers_cons (s := l :: s) fun h => hx (Option.some.inj h.2),
      specCharConvers_cons_of_ne h92, Option.map_map]
    rfl
  | none =>
    rw [decodedByte, hc]
    by_cases hprint : IsPrint c
    · rw [printfByte_of_isPrint hprint]
      exact specCharConvers_cons h
    · rw [printfByte_of_hex hc hprint]
      exact specCharConvers_hex c s

/-- An `x` at the beginning was there before. -/
theorem head_flatMap_printfByte {raw : Str} (h : (raw.flatMap printfByte).head? = some 120) :
    raw.head? = some 120 := by
  cases raw with
  | nil => exact h
  | cons c raw =>
    rw [List.flatMap_cons] at h
    cases hc : controlLetter c with
    | some l =>
      rw [printfByte_of_control hc] at h
      exact absurd h (by simp)
    | none =>
      by_cases hprint : IsPrint c
      · rw [printfByte_of_isPrint hprint] at h
        exact h
      · rw [printfByte_of_hex hc hprint] at h
        exact absurd h (by simp)

/-! ## Weights

A backslash weighs two, any other printable byte one, and the others four. Whatever of a text is not
undone correctly loses weight: a letter for a control character with its backslash weighs three, and
four bytes that are taken for a byte in hexadecimal weigh at least five. -/

/-- The weight of a byte. -/
def byteWeight (c : UInt8) : ℕ := if c = 92 then 2 else if IsPrint c then 1 else 4

/-- The weight of a text. -/
def weight (s : List UInt8) : ℕ := (s.map byteWeight).sum

@[simp] theorem weight_nil : weight [] = 0 := rfl

@[simp] theorem weight_cons (c : UInt8) (s : List UInt8) :
    weight (c :: s) = byteWeight c + weight s := by
  simp [weight]

theorem weight_append (s t : List UInt8) : weight (s ++ t) = weight s + weight t := by
  simp [weight]

theorem byteWeight_range (c : UInt8) : 1 ≤ byteWeight c ∧ byteWeight c ≤ 4 := by
  unfold byteWeight
  split
  · omega
  · split <;> omega

theorem byteWeight_of_not_isPrint {c : UInt8} (h : ¬ IsPrint c) : byteWeight c = 4 := by
  rw [byteWeight, if_neg (by rintro rfl; exact h (by decide)), if_neg h]

theorem byteWeight_of_isPrint {c : UInt8} (h : IsPrint c) (h92 : c ≠ 92) : byteWeight c = 1 := by
  rw [byteWeight, if_neg h92, if_pos h]

theorem byteWeight_hexDigit {n : ℕ} (h : n < 16) : byteWeight (hexDigit n) = 1 := by
  have hall : ∀ n < 16, byteWeight (hexDigit n) = 1 := by decide
  exact hall n h

theorem weight_cstr_le (s : List UInt8) : weight (cstr s) ≤ weight s := by
  have hsplit := List.takeWhile_append_dropWhile (p := fun c : UInt8 => decide (c ≠ 0)) (l := s)
  have hsum := weight_append (cstr s) (s.dropWhile fun c => decide (c ≠ 0))
  rw [cstr, hsplit] at hsum
  rw [cstr]
  omega

theorem weight_decodedByte (c : UInt8) :
    weight (decodedByte c) ≤ byteWeight c ∧
      (weight (decodedByte c) = byteWeight c → controlLetter c = none) := by
  unfold decodedByte
  cases hc : controlLetter c with
  | none => exact ⟨le_of_eq rfl, fun _ => rfl⟩
  | some l =>
    obtain ⟨hprint, hl, -, h92, -⟩ := controlLetter_eq_some hc
    have hletter : weight [92, l] = 3 := by
      rw [weight_cons, weight_cons, byteWeight_of_isPrint hl h92]
      rfl
    have hbyte := byteWeight_of_not_isPrint hprint
    dsimp only
    rw [hletter, hbyte]
    exact ⟨by decide, fun h => absurd h (by decide)⟩

/-- Text without a backslash is copied. -/
theorem specCharConvers_append {ds : Str} (hds : ∀ c ∈ ds, c ≠ 92) (s : Str) :
    specCharConvers (ds ++ s) = (specCharConvers s).map (ds ++ ·) := by
  induction ds with
  | nil => simp
  | cons c ds ih =>
    obtain ⟨hc, hds⟩ := List.forall_mem_cons.mp hds
    rw [List.cons_append, specCharConvers_cons_of_ne hc, ih hds, Option.map_map]
    rfl

/-- What is left behind the bytes that are skipped. -/
theorem weight_skipped {a b : UInt8} (ds : Str) {r : Str} {t : List UInt8}
    (hds : ∀ c ∈ ds, c ≠ 92 ∧ byteWeight c = 1)
    (hr : ∀ u, specCharConvers (r.flatMap printfByte) = some u → weight u ≤ weight r)
    (h : specCharConvers (92 :: 120 :: a :: b :: (ds ++ r.flatMap printfByte)) = some t) :
    weight t ≤ 4 + ds.length + weight r := by
  obtain ⟨w, hw, rfl⟩ := Option.map_eq_some_iff.mp h
  rw [specCharConvers_append fun c hc => (hds c hc).1] at hw
  obtain ⟨u, hu, rfl⟩ := Option.map_eq_some_iff.mp hw
  have hlight : weight ds = ds.length := by
    rw [weight, List.map_congr_left fun c hc => (hds c hc).2]
    simp
  have hle := hr u hu
  have hd := byteWeight_range (UInt8.ofNat (readDigits 16 0 [a, b]))
  rw [weight_cons, weight_append]
  omega

theorem light_hexDigit (c : UInt8) : ∀ d ∈ [hexDigit (c.toNat / 16), hexDigit (c.toNat % 16)],
    d ≠ 92 ∧ byteWeight d = 1 := by
  obtain ⟨hdiv, hmod⟩ := toNat_div_lt c
  simp [hexDigit_ne hdiv, hexDigit_ne hmod, byteWeight_hexDigit hdiv, byteWeight_hexDigit hmod]

/-- **Four bytes that are taken for a byte in hexadecimal** weigh more than it. -/
theorem weight_specCharConvers_x {r : Str} {t : List UInt8}
    (ih : ∀ raw : Str, raw.length ≤ r.length →
      ∀ t, specCharConvers (raw.flatMap printfByte) = some t → weight t ≤ weight raw)
    (h : specCharConvers (92 :: 120 :: r.flatMap printfByte) = some t) :
    weight t < weight (92 :: 120 :: r) := by
  have hx : weight (92 :: 120 :: r) = 3 + weight r := by
    rw [weight_cons, weight_cons, ← Nat.add_assoc]
    rfl
  rw [hx]
  -- which bytes are skipped
  rcases r with _ | ⟨y, r⟩
  · cases h
  rw [weight_cons]
  rw [List.flatMap_cons] at h
  by_cases hprint : IsPrint y
  · rw [printfByte_of_isPrint hprint] at h
    have hy := byteWeight_range y
    rcases r with _ | ⟨z, r⟩
    · cases h
    have hr := ih r (by simp only [List.length_cons]; omega)
    rw [weight_cons]
    rw [List.flatMap_cons] at h
    by_cases hzprint : IsPrint z
    · rw [printfByte_of_isPrint hzprint] at h
      have hz := byteWeight_range z
      have hle := weight_skipped [] (by simp) hr h
      rw [List.length_nil] at hle
      omega
    · have hz := byteWeight_of_not_isPrint hzprint
      cases hletter : controlLetter z with
      | some l =>
        obtain ⟨-, hl, -, h92, -⟩ := controlLetter_eq_some hletter
        rw [printfByte_of_control hletter] at h
        have hle := weight_skipped [l] (by simp [h92, byteWeight_of_isPrint hl h92]) hr h
        rw [List.length_singleton] at hle
        omega
      | none =>
        rw [printfByte_of_hex hletter hzprint] at h
        have hle := weight_skipped (120 :: [_, _])
          (List.forall_mem_cons.mpr ⟨⟨by decide, by decide⟩, light_hexDigit z⟩) hr h
        simp only [List.length_cons, List.length_nil] at hle
        omega
  · have hr := ih r (by simp only [List.length_cons]; omega)
    have hy := byteWeight_of_not_isPrint hprint
    cases hletter : controlLetter y with
    | some l =>
      rw [printfByte_of_control hletter] at h
      have hle := weight_skipped [] (by simp) hr h
      rw [List.length_nil] at hle
      omega
    | none =>
      rw [printfByte_of_hex hletter hprint] at h
      have hle := weight_skipped [_, _] (light_hexDigit y) hr h
      simp only [List.length_cons, List.length_nil] at hle
      omega

/-- **Decoding never makes a name heavier**, and keeps its weight only if all escapes are undone. -/
theorem weight_specCharConvers (raw : Str) {t : List UInt8}
    (h : specCharConvers (raw.flatMap printfByte) = some t) :
    weight t ≤ weight raw ∧ (weight t = weight raw →
      (∀ c ∈ raw, controlLetter c = none) ∧ ¬ [92, 120] <:+: raw) := by
  -- induction on the length: behind `\x` several bytes of the name are skipped
  induction hn : raw.length using Nat.strong_induction_on generalizing raw t with
  | _ n ih =>
    rcases raw with _ | ⟨c, raw⟩
    · cases h
      exact ⟨le_refl _, fun _ => ⟨by simp, by simp⟩⟩
    rw [List.length_cons] at hn
    by_cases hx : c = 92 ∧ raw.head? = some 120
    · obtain ⟨rfl, hhead⟩ := hx
      obtain ⟨r, rfl⟩ := List.head?_eq_some_iff.mp hhead
      rw [List.length_cons] at hn
      have hlt := weight_specCharConvers_x (fun raw hraw t h =>
        (ih raw.length (by omega) raw h rfl).1) h
      exact ⟨hlt.le, fun heq => absurd heq hlt.ne⟩
    · rw [List.flatMap_cons, specCharConvers_printfByte fun h => hx ⟨h.1,
        head_flatMap_printfByte h.2⟩] at h
      obtain ⟨u, hu, rfl⟩ := Option.map_eq_some_iff.mp h
      obtain ⟨hle, heq⟩ := ih raw.length (by omega) raw hu rfl
      obtain ⟨hcle, hceq⟩ := weight_decodedByte c
      rw [weight_append, weight_cons]
      refine ⟨by omega, fun hsum => ?_⟩
      obtain ⟨hcontrol, hback⟩ := heq (by omega)
      refine ⟨List.forall_mem_cons.mpr ⟨hceq (by omega), hcontrol⟩, fun hinfix => ?_⟩
      rcases List.infix_cons_iff.mp hinfix with hprefix | hinfix
      · obtain ⟨s, hs⟩ := hprefix
        obtain ⟨rfl, rfl⟩ := List.cons.inj hs
        exact hx ⟨rfl, rfl⟩
      · exact hback hinfix

/-! ## Names that are decoded -/

section Decoded

variable {raw : Str}

/-- No backslash before an `x`, at the beginning and behind it. -/
theorem backslash_cons {c : UInt8} (hback : ¬ [92, 120] <:+: c :: raw) :
    ¬ (c = 92 ∧ raw.head? = some 120) ∧ ¬ [92, 120] <:+: raw := by
  refine ⟨?_, fun h => hback (List.infix_cons_iff.mpr (.inr h))⟩
  rintro ⟨rfl, hhead⟩
  obtain ⟨r, rfl⟩ := List.head?_eq_some_iff.mp hhead
  exact hback (List.infix_cons_iff.mpr (.inl ⟨r, rfl⟩))

/-- **Saved networks**: the second function completes the first. -/
theorem specCharConvers_flatMap_printfByte (hcontrol : ∀ c ∈ raw, controlLetter c = none)
    (hback : ¬ [92, 120] <:+: raw) :
    specCharConvers (raw.flatMap printfByte) = some raw := by
  induction raw with
  | nil => rfl
  | cons c raw ih =>
    obtain ⟨hc, hcontrol⟩ := List.forall_mem_cons.mp hcontrol
    obtain ⟨hx, hback⟩ := backslash_cons hback
    rw [List.flatMap_cons,
      specCharConvers_printfByte fun h => hx ⟨h.1, head_flatMap_printfByte h.2⟩,
      ih hcontrol hback, decodedByte, hc]
    rfl

/-- What the second function leaves of a byte. -/
def quotedByte (c : UInt8) : Str := if c = 34 ∨ c = 92 then [92, c] else decodedByte c

theorem head_printfEncode (h : (printfEncode raw).head? = some 120) : raw.head? = some 120 := by
  cases raw with
  | nil => exact h
  | cons c raw =>
    rw [printfEncode, List.flatMap_cons, printfQuoted] at h
    split at h
    · exact absurd h (by simp)
    · -- the rest of the text does not matter
      have hhead : ((c :: raw).flatMap printfByte).head? = some 120 := by
        rw [List.flatMap_cons]
        rw [List.head?_append_of_ne_nil _ (printfByte_ne_nil c)] at h ⊢
        exact h
      exact head_flatMap_printfByte hhead

/-- **Other networks**: the second function leaves quotes and backslashes to the first. -/
theorem specCharConvers_printfEncode (hback : ¬ [92, 120] <:+: raw) :
    specCharConvers (printfEncode raw) = some (raw.flatMap quotedByte) := by
  induction raw with
  | nil => rfl
  | cons c raw ih =>
    obtain ⟨hx, hback⟩ := backslash_cons hback
    have hhead : ¬ (c = 92 ∧ (printfEncode raw).head? = some 120) := fun h =>
      hx ⟨h.1, head_printfEncode h.2⟩
    have htail := ih hback
    rw [printfEncode, List.flatMap_cons, ← printfEncode, List.flatMap_cons, printfQuoted,
      quotedByte]
    split
    · next hquoted =>
      have h120 : c ≠ 120 := by
        rintro rfl
        exact absurd hquoted (by decide)
      change specCharConvers (92 :: c :: printfEncode raw) = _
      rw [specCharConvers_cons (s := c :: _) fun h => h120 (Option.some.inj h.2),
        specCharConvers_cons hhead, htail]
      rfl
    · rw [specCharConvers_printfByte hhead, htail]
      rfl

theorem removeEscapeCharacter_quotedByte (hcontrol : ∀ c ∈ raw, controlLetter c = none) :
    removeEscapeCharacter (raw.flatMap quotedByte) = raw := by
  induction raw with
  | nil => rfl
  | cons c raw ih =>
    obtain ⟨hc, hcontrol⟩ := List.forall_mem_cons.mp hcontrol
    have htail := ih hcontrol
    rw [List.flatMap_cons, quotedByte]
    split
    · next h =>
      rcases h with rfl | rfl
      · exact congrArg _ htail
      · exact congrArg _ htail
    · next h =>
      rw [not_or] at h
      rw [decodedByte, hc]
      exact (removeEscapeCharacter_cons h.2 _).trans (congrArg _ htail)

theorem length_printfByte_le (c : UInt8) :
    (printfByte c).length ≤ 4 ∧ (IsPrint c → (printfByte c).length = 1) := by
  refine ⟨?_, fun h => by rw [printfByte_of_isPrint h]; rfl⟩
  unfold printfByte
  split
  · simp
  · split <;> simp

/-- A text is shorter if there is a printable byte. -/
theorem length_flatMap_printfByte (raw : Str) :
    (raw.flatMap printfByte).length ≤ 4 * raw.length ∧
      ((∃ c ∈ raw, IsPrint c) → (raw.flatMap printfByte).length + 3 ≤ 4 * raw.length) := by
  induction raw with
  | nil => exact ⟨le_refl _, by simp⟩
  | cons c raw ih =>
    obtain ⟨hle, hlt⟩ := ih
    obtain ⟨hfour, hone⟩ := length_printfByte_le c
    rw [List.flatMap_cons, List.length_append, List.length_cons]
    refine ⟨by omega, fun ⟨d, hd, hprint⟩ => ?_⟩
    rcases List.mem_cons.mp hd with rfl | hd
    · have := hone hprint
      omega
    · have := hlt ⟨d, hd, hprint⟩
      omega

/-- The whole text is shorter as well. -/
theorem length_printfEncode (raw : Str) :
    (printfEncode raw).length ≤ 4 * raw.length ∧
      ((∃ c ∈ raw, IsPrint c) → (printfEncode raw).length + 2 ≤ 4 * raw.length) := by
  induction raw with
  | nil => exact ⟨le_refl _, by simp⟩
  | cons c raw ih =>
    obtain ⟨hle, hlt⟩ := ih
    have hc : (printfQuoted c).length ≤ 4 ∧ (IsPrint c → (printfQuoted c).length ≤ 2) := by
      obtain ⟨hfour, hone⟩ := length_printfByte_le c
      unfold printfQuoted
      split
      · simp
      · exact ⟨hfour, fun h => (hone h).trans_le (by decide)⟩
    rw [printfEncode_cons, List.length_append, List.length_cons]
    refine ⟨by omega, fun ⟨d, hd, hprint⟩ => ?_⟩
    rcases List.mem_cons.mp hd with rfl | hd
    · have := hc.2 hprint
      omega
    · have := hlt ⟨d, hd, hprint⟩
      omega

theorem length_flatMap_printfByte_eq (hcontrol : ∀ c ∈ raw, controlLetter c = none)
    (hprint : ∀ c ∈ raw, ¬ IsPrint c) : (raw.flatMap printfByte).length = 4 * raw.length := by
  induction raw with
  | nil => rfl
  | cons c raw ih =>
    obtain ⟨hc, hcontrol⟩ := List.forall_mem_cons.mp hcontrol
    obtain ⟨hcprint, hprint⟩ := List.forall_mem_cons.mp hprint
    rw [List.flatMap_cons, List.length_append, ih hcontrol hprint, printfByte_of_hex hc hcprint,
      List.length_cons]
    simp only [List.length_cons, List.length_nil]
    omega

theorem length_quotedByte_le (c : UInt8) : (quotedByte c).length ≤ 2 := by
  unfold quotedByte decodedByte
  split
  · simp
  · split <;> simp

theorem length_flatMap_quotedByte_le (raw : Str) :
    (raw.flatMap quotedByte).length ≤ 2 * raw.length := by
  induction raw with
  | nil => exact le_refl _
  | cons c raw ih =>
    have hc := length_quotedByte_le c
    rw [List.flatMap_cons, List.length_append, List.length_cons]
    omega

theorem zero_notMem_quotedByte (h0 : 0 ∉ raw) : 0 ∉ raw.flatMap quotedByte := by
  intro h
  obtain ⟨c, hc, hmem⟩ := List.mem_flatMap.mp h
  have hne : c ≠ 0 := fun h => h0 (h ▸ hc)
  unfold quotedByte at hmem
  split at hmem
  · simp [hne.symm] at hmem
  · unfold decodedByte at hmem
    split at hmem
    · next l hl =>
      obtain ⟨-, hprint, -⟩ := controlLetter_eq_some hl
      have hl0 : l ≠ 0 := by
        rintro rfl
        exact absurd hprint (by decide)
      simp [hl0.symm] at hmem
    · exact hne (List.mem_singleton.mp hmem).symm

theorem inArray_eq {n : ℕ} {s : List UInt8} (h : s.length + 1 ≤ n) : inArray n s = some s :=
  if_pos h

theorem inArray_eq_some {n : ℕ} {s t : List UInt8} (h : inArray n s = some t) :
    s.length + 1 ≤ n ∧ s = t := by
  unfold inArray at h
  split at h
  · next hle => exact ⟨hle, Option.some.inj h⟩
  · cases h

/-- The name that comes out for a saved network has the weight of the name that went in. -/
theorem decodable_of_decodeSaved (h : decodeSaved (printfEncode raw) = some raw) :
    Decodable raw := by
  obtain ⟨ssid, hssid, hsaved⟩ := Option.bind_eq_some_iff.mp h
  obtain ⟨sname, hsname, hsaved⟩ := Option.bind_eq_some_iff.mp hsaved
  obtain ⟨t, ht, hbuffer⟩ := Option.bind_eq_some_iff.mp hsname
  obtain ⟨hroom, rfl⟩ := inArray_eq_some hssid
  obtain ⟨-, rfl⟩ := inArray_eq_some hbuffer
  rw [removeEscapeCharacter_printfEncode] at hroom ht
  have hcstr : cstr t = raw := Option.some.inj hsaved
  obtain ⟨hle, heq⟩ := weight_specCharConvers raw ht
  have hcut := weight_cstr_le t
  rw [hcstr] at hcut
  obtain ⟨hcontrol, hback⟩ := heq (by omega)
  refine ⟨hcontrol, hback, fun ⟨h32, hprint⟩ => ?_⟩
  have := length_flatMap_printfByte_eq hcontrol hprint
  omega

/-- There is room for a name that is decoded. -/
theorem Decodable.length_le (h : Decodable raw) (hlen : raw.length ≤ 32) :
    (raw.flatMap printfByte).length ≤ 127 := by
  obtain ⟨hle, hlt⟩ := length_flatMap_printfByte raw
  by_cases h32 : raw.length = 32
  · have hroom := h.room
    rw [not_and] at hroom
    have := hlt (by simpa using hroom h32)
    omega
  · omega

theorem Decodable.decodeSaved (h : Decodable raw) (h0 : 0 ∉ raw) (hlen : raw.length ≤ 32) :
    decodeSaved (printfEncode raw) = some raw := by
  have hshort := h.length_le hlen
  rw [RkIpc.Network.decodeSaved, removeEscapeCharacter_printfEncode, inArray_eq (by omega)]
  simp only [Option.bind_eq_bind, Option.bind_some,
    specCharConvers_flatMap_printfByte h.control h.backslash]
  rw [inArray_eq (by omega), Option.bind_some, cstr_eq_self h0]

theorem Decodable.decodeCurrent (h : Decodable raw) (h0 : 0 ∉ raw) (hlen : raw.length ≤ 32) :
    decodeCurrent (printfEncode raw) = some raw := by
  have hquoted := length_flatMap_quotedByte_le raw
  rw [RkIpc.Network.decodeCurrent, specCharConvers_printfEncode h.backslash]
  simp only [Option.bind_eq_bind, Option.bind_some]
  rw [inArray_eq (by omega), Option.bind_some, cstr_eq_self (zero_notMem_quotedByte h0),
    removeEscapeCharacter_quotedByte h.control, inArray_eq (by omega)]

/-- **Both orders give the name** if and only if it is `Decodable`. -/
theorem decoders_exact_iff (h0 : 0 ∉ raw) (hlen : raw.length ≤ 32) :
    (decodeSaved (printfEncode raw) = some raw ∧ decodeCurrent (printfEncode raw) = some raw) ↔
      Decodable raw :=
  ⟨fun h => decodable_of_decodeSaved h.1,
    fun h => ⟨h.decodeSaved h0 hlen, h.decodeCurrent h0 hlen⟩⟩

/-- A quote, a backslash and a byte that is not printable. -/
theorem decoders_exact_iff_quote : let raw : Str := lit "a\"\\" ++ [200]
    decodeSaved (printfEncode raw) = some raw ∧ decodeCurrent (printfEncode raw) = some raw :=
  (decoders_exact_iff (by decide) (by decide)).mpr
    ⟨by decide, by decide +kernel, by decide +kernel⟩

/-- **A name that both decode to something else**: a backslash, an `x` and two digits. -/
theorem decoders_differ : let raw : Str := lit "\\x41"
    decodeSaved (printfEncode raw) = some (lit "A") ∧
      decodeCurrent (printfEncode raw) = some (lit "\\A") ∧
      ¬ (decodeSaved (printfEncode raw) = some raw ∧
        decodeCurrent (printfEncode raw) = some raw) := by
  decide

end Decoded

end RkIpc.Network
