import RkIpc.Memory.Block
import RkIpc.Network.Ssid
import RkIpc.Text.Number
import RkIpc.Transition.Loop

/-!
# How escapes are read

The loops of `remove_escape_character` and `spec_char_convers` in `common/network/Rk_wifi.c`, with
the pointers that they move over a string in memory. The second one goes on four bytes behind a
`\x`, and comes out behind the terminator if the string ends before. An access outside of the
string, or of the copy of it, has no result.

## Main definitions

* `Cursor`, `removeRound`: the first loop
* `Conversion`, `convertRound`: the second one, with the copy of the string
* `Piece`, `Proper`: what a string is read as
* `Whole`: strings in which no escape is cut off
* `WellFormed`: strings whose escapes have two digits
* `StaysInString`: both functions stay in the string and in their output

## Main results

* `removeEscapeCharacter_run`, `specCharConvers_run`: the loops compute the functions on strings
* `specCharConvers_eq_some_iff`: what the second function makes of a string
* `staysInString_iff`: the strings that both functions stay in
* `lone_escape_leaves`: a string that ends in `\x`
-/

namespace RkIpc.Network

open Text Transition Memory

/-! ## The loops -/

/-- A string in memory. -/
def inMemory (s : Str) : List UInt8 := s ++ [0]

/-- `buf`, and what has been written to `dst`. -/
structure Cursor where
  buf : ℕ
  dst : List UInt8

/-- A byte is written, and `buf` moves on. -/
def Cursor.put (c : Cursor) (byte : UInt8) (n : ℕ) : Cursor := ⟨c.buf + n, c.dst ++ [byte]⟩

/-- **A round** of `remove_escape_character`. -/
def removeRound (mem : List UInt8) (c : Cursor) : Option (Round Cursor (List UInt8)) := do
  let byte ← mem[c.buf]?
  if byte = 0 then some (.done (c.dst ++ [0]))
  else if byte = 92 then do
    let behind ← mem[c.buf + 1]?
    if behind = 92 ∨ behind = 34 then some (.next (c.put behind 2)) else some (.next (c.put byte 1))
  else some (.next (c.put byte 1))

/-- **The loop** of `remove_escape_character`. -/
def removeLoop (s : Str) (fuel : ℕ) : Option (Option (List UInt8)) :=
  loop (fun c => .checked (removeRound (inMemory s) c)) fuel ⟨0, []⟩

/-- The variables of `spec_char_convers`. -/
structure Conversion where
  cursor : Cursor
  bufTemp : List UInt8

/-- The rest of the string is copied, with `0` for the backslash, and ends behind four bytes. -/
def copyEscape (mem bufTemp : List UInt8) (buf : ℕ) : Option (List UInt8) := do
  let copied ← write bufTemp 0 (cstr (mem.drop buf) ++ [0])
  let prefixed ← write copied 0 [48]
  write prefixed 4 [0]

/-- **A round** of `spec_char_convers`. -/
def convertRound (mem : List UInt8) (c : Conversion) :
    Option (Round Conversion (List UInt8)) := do
  let byte ← mem[c.cursor.buf]?
  if byte = 0 then some (.done (c.cursor.dst ++ [0]))
  else if byte = 92 then do
    let behind ← mem[c.cursor.buf + 1]?
    if behind = 120 then do
      let bufTemp ← copyEscape mem c.bufTemp c.cursor.buf
      let con := numberOf 16 (cstr bufTemp)
      some (.next ⟨c.cursor.put (UInt8.ofNat con) 4, bufTemp⟩)
    else some (.next { c with cursor := c.cursor.put byte 1 })
  else some (.next { c with cursor := c.cursor.put byte 1 })

/-- **The loop** of `spec_char_convers`; the copy is zero in the beginning. -/
def convertLoop (s : Str) (fuel : ℕ) : Option (Option (List UInt8)) :=
  loop (fun c => .checked (convertRound (inMemory s) c)) fuel
    ⟨⟨0, []⟩, List.replicate (s.length + 1) 0⟩

/-! ## Strings -/

/-- **What a string is read as**: a byte, or an escape with the two bytes behind it. -/
inductive Piece where
  | byte (c : UInt8)
  | escape (a b : UInt8)

namespace Piece

/-- The bytes of a piece. -/
def text : Piece → Str
  | byte c => [c]
  | escape a b => [92, 120, a, b]

/-- What is written for a piece: digits are read as long as there are some. -/
def read : Piece → UInt8
  | byte c => c
  | escape a b => UInt8.ofNat (readDigits 16 0 [a, b])

/-- The byte that a piece stands for. -/
def meant : Piece → UInt8
  | byte c => c
  | escape a b => UInt8.ofNat (16 * (digitValue a).getD 0 + (digitValue b).getD 0)

/-- An escape has two digits. -/
def Digits : Piece → Prop
  | byte _ => True
  | escape a b => IsDigitOf 16 a ∧ IsDigitOf 16 b

end Piece

/-- No backslash in front of an `x` is read as a byte. -/
def Proper : List Piece → Prop
  | [] => True
  | .byte c :: us => ¬ (c = 92 ∧ (us.flatMap Piece.text).head? = some 120) ∧ Proper us
  | .escape _ _ :: us => Proper us

/-- **No escape is cut off**: read from the left, there are two bytes behind every `\x`. -/
def Whole (s : Str) : Prop := ∃ us, Proper us ∧ s = us.flatMap Piece.text

/-- **Two digits stand behind every `\x`.** -/
def WellFormed (s : Str) : Prop :=
  ∀ t u, s = t ++ 92 :: 120 :: u → ∃ a b r, u = a :: b :: r ∧ IsDigitOf 16 a ∧ IsDigitOf 16 b

/-- **Both functions stay in the string** and write one byte more at most, and well-formed escapes
are replaced by the bytes that they stand for. -/
structure StaysInString (s : Str) : Prop where
  remove : ∃ dst, Yields (removeLoop s) (some dst) ∧ dst.length ≤ s.length + 1
  convert : ∃ dst, Yields (convertLoop s) (some dst) ∧ dst.length ≤ s.length + 1
  replaced : WellFormed s → ∃ us, Proper us ∧ s = us.flatMap Piece.text ∧ (∀ u ∈ us, u.Digits) ∧
    Yields (convertLoop s) (some (us.map Piece.meant ++ [0]))

/-! ## The rounds -/

section Rounds

variable {s t u : Str} {dst bufTemp : List UInt8} {c : UInt8}

/-- What is in memory behind the first bytes. -/
theorem inMemory_getElem? (hs : s = t ++ u) (k : ℕ) :
    (inMemory s)[t.length + k]? = (u ++ [0])[k]? := by
  rw [hs, inMemory, List.append_assoc, List.getElem?_append_right (Nat.le_add_right ..),
    Nat.add_sub_cancel_left]

theorem removeRound_nil (hs : s = t) :
    removeRound (inMemory s) ⟨t.length, dst⟩ = some (.done (dst ++ [0])) := by
  have hbyte := inMemory_getElem? (u := []) (hs.trans (List.append_nil t).symm) 0
  rw [Nat.add_zero] at hbyte
  simp only [removeRound, hbyte]
  rfl

/-- A backslash is taken off. -/
theorem removeRound_escape (hs : s = t ++ 92 :: c :: u) (hc : c = 92 ∨ c = 34) :
    removeRound (inMemory s) ⟨t.length, dst⟩ = some (.next ⟨t.length + 2, dst ++ [c]⟩) := by
  have hbyte := inMemory_getElem? hs 0
  have hbehind := inMemory_getElem? hs 1
  rw [Nat.add_zero] at hbyte
  simp only [removeRound, hbyte, hbehind]
  exact if_pos hc

/-- Other bytes are copied. -/
theorem removeRound_byte (hs : s = t ++ c :: u) (h0 : c ≠ 0)
    (hc : ∀ d ∈ u.head?, ¬ (c = 92 ∧ (d = 92 ∨ d = 34))) :
    removeRound (inMemory s) ⟨t.length, dst⟩ = some (.next ⟨t.length + 1, dst ++ [c]⟩) := by
  have hbyte := inMemory_getElem? hs 0
  have hbehind := inMemory_getElem? hs 1
  rw [Nat.add_zero] at hbyte
  simp only [removeRound, hbyte, hbehind, List.cons_append, List.getElem?_cons_zero,
    List.getElem?_cons_succ, Option.bind_eq_bind, Option.bind_some, if_neg h0]
  split
  · next h92 =>
    cases u with
    | nil => rfl
    | cons d u => exact if_neg fun h => hc d rfl ⟨h92, h⟩
  · rfl

theorem convertRound_nil (hs : s = t) :
    convertRound (inMemory s) ⟨⟨t.length, dst⟩, bufTemp⟩ = some (.done (dst ++ [0])) := by
  have hbyte := inMemory_getElem? (u := []) (hs.trans (List.append_nil t).symm) 0
  rw [Nat.add_zero] at hbyte
  simp only [convertRound, hbyte]
  rfl

/-- Bytes that begin no escape are copied. -/
theorem convertRound_byte (hs : s = t ++ c :: u) (h0 : c ≠ 0)
    (hc : ¬ (c = 92 ∧ u.head? = some 120)) :
    convertRound (inMemory s) ⟨⟨t.length, dst⟩, bufTemp⟩ =
      some (.next ⟨⟨t.length + 1, dst ++ [c]⟩, bufTemp⟩) := by
  have hbyte := inMemory_getElem? hs 0
  have hbehind := inMemory_getElem? hs 1
  rw [Nat.add_zero] at hbyte
  simp only [convertRound, hbyte, hbehind, List.cons_append, List.getElem?_cons_zero,
    List.getElem?_cons_succ, Option.bind_eq_bind, Option.bind_some, if_neg h0]
  split
  · next h92 =>
    cases u with
    | nil => rfl
    | cons d u => exact if_neg fun h => hc ⟨h92, congrArg some h⟩
  · rfl

/-- **The copy of an escape** is `0x` and the two bytes behind. -/
theorem copyEscape_eq {a b : UInt8} (hs : s = t ++ 92 :: 120 :: a :: b :: u) (h0 : 0 ∉ s)
    (hlen : bufTemp.length = s.length + 1) :
    ∃ rest, copyEscape (inMemory s) bufTemp t.length = some (48 :: 120 :: a :: b :: 0 :: rest) ∧
      rest.length + 4 = s.length := by
  have hdrop : (inMemory s).drop t.length = 92 :: 120 :: a :: b :: u ++ [0] := by
    rw [hs, inMemory, List.append_assoc, List.drop_left]
  have hcstr : cstr (92 :: 120 :: a :: b :: u ++ [0]) = 92 :: 120 :: a :: b :: u :=
    cstr_append_zero fun h => h0 (hs ▸ List.mem_append_right t h)
  have hroom : (92 :: 120 :: a :: b :: u ++ [0]).length ≤ bufTemp.length := by
    rw [hlen, hs]
    simp only [List.length_append, List.length_cons, List.length_nil]
    omega
  -- what the copy ends with, behind the four bytes
  obtain ⟨y, rest, hrest⟩ : ∃ y rest,
      u ++ [0] ++ bufTemp.drop (92 :: 120 :: a :: b :: u ++ [0]).length = y :: rest :=
    List.exists_cons_of_ne_nil (by simp)
  have hcopied : write bufTemp 0 (92 :: 120 :: a :: b :: u ++ [0]) =
      some ([92, 120, a, b] ++ y :: rest) := by
    rw [← hrest]
    exact write_zero_eq_some_iff.mpr ⟨hroom, rfl⟩
  have hprefixed : write ([92, 120, a, b] ++ y :: rest) 0 [48] =
      some ([48, 120, a, b] ++ y :: rest) := write_zero_eq_some_iff.mpr ⟨by simp, rfl⟩
  have hcut : write ([48, 120, a, b] ++ ([y] ++ rest)) 4 [0] =
      some ([48, 120, a, b] ++ ([0] ++ rest)) := write_append rfl
  refine ⟨rest, ?_, ?_⟩
  · rw [copyEscape, hdrop, hcstr]
    simp only [hcopied, hprefixed, Option.bind_eq_bind, Option.bind_some]
    exact hcut
  · have hsum := length_write hcopied
    simp only [List.length_append, List.length_cons, List.length_nil] at hsum
    omega

/-- What is read of the copy. -/
theorem numberOf_escape {a b : UInt8} (ha : a ≠ 0) (hb : b ≠ 0) (rest : List UInt8) :
    numberOf 16 (cstr (48 :: 120 :: a :: b :: 0 :: rest)) = readDigits 16 0 [a, b] := by
  have hcstr : cstr (48 :: 120 :: a :: b :: 0 :: rest) = [48, 120, a, b] :=
    cstr_append_zero (s := [48, 120, a, b]) (by simp [ha.symm, hb.symm])
  rw [hcstr, numberOf, stripHex]
  by_cases h : ∃ d ∈ digitValue a, d < 16
  · rw [if_pos ⟨rfl, .inl rfl, h⟩]
  · -- `0` is read, and nothing of what follows
    rw [if_neg fun h' => h h'.2.2]
    have hfirst : readDigits 16 0 [a, b] = 0 := by
      rw [readDigits]
      cases hd : digitValue a with
      | none => rfl
      | some d => exact if_neg fun hlt => h ⟨d, hd, hlt⟩
    rw [hfirst]
    rfl

/-- **An escape** with two bytes behind it. -/
theorem convertRound_escape {a b : UInt8} (dst : List UInt8)
    (hs : s = t ++ 92 :: 120 :: a :: b :: u) (h0 : 0 ∉ s) (hlen : bufTemp.length = s.length + 1) :
    ∃ bufTemp', bufTemp'.length = s.length + 1 ∧
      convertRound (inMemory s) ⟨⟨t.length, dst⟩, bufTemp⟩ =
        some (.next ⟨⟨t.length + 4, dst ++ [(Piece.escape a b).read]⟩, bufTemp'⟩) := by
  have hbyte := inMemory_getElem? hs 0
  have hbehind := inMemory_getElem? hs 1
  rw [Nat.add_zero] at hbyte
  have hne : a ≠ 0 ∧ b ≠ 0 := by
    rw [hs] at h0
    simp only [List.mem_append, List.mem_cons, not_or] at h0
    exact ⟨Ne.symm h0.2.2.2.1, Ne.symm h0.2.2.2.2.1⟩
  obtain ⟨rest, hcopy, hrest⟩ := copyEscape_eq hs h0 hlen
  refine ⟨48 :: 120 :: a :: b :: 0 :: rest, ?_, ?_⟩
  · simp only [List.length_cons]
    omega
  · simp only [convertRound, hbyte, hbehind, hcopy, List.cons_append, List.getElem?_cons_zero,
      List.getElem?_cons_succ, Option.bind_eq_bind, Option.bind_some,
      numberOf_escape hne.1 hne.2 rest]
    rfl

/-- **An escape that is cut off**: the next byte would be behind the terminator. -/
theorem convertRound_cut (dst bufTemp : List UInt8) (hs : s = t ++ 92 :: 120 :: u)
    (hu : u.length < 2) :
    convertRound (inMemory s) ⟨⟨t.length, dst⟩, bufTemp⟩ = none ∨
      ∃ c, convertRound (inMemory s) ⟨⟨t.length, dst⟩, bufTemp⟩ = some (.next c) ∧
        convertRound (inMemory s) c = none := by
  have hbyte := inMemory_getElem? hs 0
  have hbehind := inMemory_getElem? hs 1
  rw [Nat.add_zero] at hbyte
  have hlong : (92 :: 120 :: u ++ [0]).length ≤ 4 := by
    simp only [List.length_append, List.length_cons, List.length_nil]
    omega
  have hout : (inMemory s)[t.length + 4]? = none := by
    rw [inMemory_getElem? hs]
    exact List.getElem?_eq_none hlong
  cases hcopy : copyEscape (inMemory s) bufTemp t.length with
  | none =>
    left
    simp only [convertRound, hbyte, hbehind, hcopy]
    rfl
  | some bufTemp' =>
    right
    refine ⟨⟨⟨t.length + 4, dst ++ [UInt8.ofNat (numberOf 16 (cstr bufTemp'))]⟩, bufTemp'⟩, ?_, ?_⟩
    · simp only [convertRound, hbyte, hbehind, hcopy]
      rfl
    · simp only [convertRound, hout]
      rfl

end Rounds

/-! ## The runs -/

section Runs

variable {s : Str}

/-- **The first loop** from a position on, by what is left of the string. -/
theorem removeRound_run (h0 : 0 ∉ s) (u t : Str) (dst : List UInt8) (hs : s = t ++ u) :
    Yields (fun fuel => loop (fun c => .checked (removeRound (inMemory s) c)) fuel
      ⟨t.length, dst⟩) (some (dst ++ removeEscapeCharacter u ++ [0])) := by
  fun_induction removeEscapeCharacter u generalizing t dst with
  | case1 u ih =>
    have hrest := ih (t ++ [92, 92]) (dst ++ [92]) (by simp [hs])
    rw [List.length_append, List.append_assoc dst] at hrest
    exact loop_next (congrArg Round.checked (removeRound_escape hs (.inl rfl))) hrest
  | case2 u ih =>
    have hrest := ih (t ++ [92, 34]) (dst ++ [34]) (by simp [hs])
    rw [List.length_append, List.append_assoc dst] at hrest
    exact loop_next (congrArg Round.checked (removeRound_escape hs (.inr rfl))) hrest
  | case3 c u h92 h34 ih =>
    have hc : ∀ d ∈ u.head?, ¬ (c = 92 ∧ (d = 92 ∨ d = 34)) := by
      intro d hd h
      obtain ⟨v, rfl⟩ := List.head?_eq_some_iff.mp hd
      rcases h with ⟨rfl, rfl | rfl⟩
      · exact h92 v rfl rfl
      · exact h34 v rfl rfl
    have hne : c ≠ 0 := by
      rintro rfl
      exact h0 (hs ▸ List.mem_append_right t List.mem_cons_self)
    have hrest := ih (t ++ [c]) (dst ++ [c]) (by simp [hs])
    rw [List.length_append, List.append_assoc dst] at hrest
    exact loop_next (congrArg Round.checked (removeRound_byte hs hne hc)) hrest
  | case4 =>
    rw [List.append_nil] at hs ⊢
    exact loop_done (congrArg Round.checked (removeRound_nil hs))

/-- **`remove_escape_character`** computes the function on strings. -/
theorem removeEscapeCharacter_run (h0 : 0 ∉ s) :
    Yields (removeLoop s) (some (removeEscapeCharacter s ++ [0])) :=
  removeRound_run h0 s [] [] rfl

theorem map_written (o : Option (List UInt8)) (dst : List UInt8) (b : UInt8) :
    ((o.map (b :: ·)).map fun v => dst ++ v ++ [0]) = o.map fun v => dst ++ [b] ++ v ++ [0] := by
  cases o <;> simp

/-- **The second loop** from a position on, by what is left of the string. -/
theorem convertRound_run (h0 : 0 ∉ s) (u t : Str) (dst bufTemp : List UInt8) (hs : s = t ++ u)
    (hlen : bufTemp.length = s.length + 1) :
    Yields (fun fuel => loop (fun c => .checked (convertRound (inMemory s) c)) fuel
      ⟨⟨t.length, dst⟩, bufTemp⟩) ((specCharConvers u).map fun v => dst ++ v ++ [0]) := by
  fun_induction specCharConvers u generalizing t dst bufTemp with
  | case1 a b u ih =>
    obtain ⟨bufTemp', hlen', hround⟩ := convertRound_escape dst hs h0 hlen
    have hrest := ih (t ++ [92, 120, a, b]) (dst ++ [(Piece.escape a b).read]) bufTemp'
      (by simp [hs]) hlen'
    rw [List.length_append] at hrest
    rw [map_written]
    exact loop_next (congrArg Round.checked hround) hrest
  | case2 u hu =>
    have hshort : u.length < 2 := by
      rcases u with _ | ⟨a, _ | ⟨b, u⟩⟩
      · exact Nat.zero_lt_two
      · exact Nat.one_lt_two
      · exact absurd rfl (hu a b u)
    rcases convertRound_cut dst bufTemp hs hshort with h | ⟨c, h, hnone⟩
    · exact loop_done (congrArg Round.checked h)
    · exact loop_next (congrArg Round.checked h) (loop_done (congrArg Round.checked hnone))
  | case3 c u hescape hcut ih =>
    have hc : ¬ (c = 92 ∧ u.head? = some 120) := by
      rintro ⟨rfl, hd⟩
      obtain ⟨v, rfl⟩ := List.head?_eq_some_iff.mp hd
      exact hcut v rfl rfl
    have hne : c ≠ 0 := by
      rintro rfl
      exact h0 (hs ▸ List.mem_append_right t List.mem_cons_self)
    have hrest := ih (t ++ [c]) (dst ++ [c]) bufTemp (by simp [hs]) hlen
    rw [List.length_append] at hrest
    rw [map_written]
    exact loop_next (congrArg Round.checked (convertRound_byte hs hne hc)) hrest
  | case4 =>
    rw [List.append_nil] at hs
    rw [Option.map_some, List.append_nil]
    exact loop_done (congrArg Round.checked (convertRound_nil hs))

/-- **`spec_char_convers`** computes the function on strings, and leaves the string where this has
no result. -/
theorem specCharConvers_run (h0 : 0 ∉ s) :
    Yields (convertLoop s) ((specCharConvers s).map (· ++ [0])) :=
  convertRound_run h0 s [] [] _ rfl List.length_replicate

end Runs

/-! ## Pieces -/

section Pieces

variable {s : Str}

/-- **What the second function makes of a string**, piece by piece. -/
theorem specCharConvers_eq_some_iff {out : List UInt8} : specCharConvers s = some out ↔
    ∃ us, Proper us ∧ s = us.flatMap Piece.text ∧ out = us.map Piece.read := by
  constructor
  · intro h
    fun_induction specCharConvers s generalizing out with
    | case1 a b s ih =>
      obtain ⟨v, hv, rfl⟩ := Option.map_eq_some_iff.mp h
      obtain ⟨us, hus, rfl, rfl⟩ := ih hv
      exact ⟨.escape a b :: us, hus, rfl, rfl⟩
    | case2 => cases h
    | case3 c s hescape hcut ih =>
      obtain ⟨v, hv, rfl⟩ := Option.map_eq_some_iff.mp h
      obtain ⟨us, hus, rfl, rfl⟩ := ih hv
      refine ⟨.byte c :: us, ⟨?_, hus⟩, rfl, rfl⟩
      rintro ⟨rfl, hd⟩
      obtain ⟨v, hv⟩ := List.head?_eq_some_iff.mp hd
      exact hcut v rfl hv
    | case4 => exact ⟨[], trivial, rfl, (Option.some.inj h).symm⟩
  · rintro ⟨us, hus, rfl, rfl⟩
    induction us with
    | nil => rfl
    | cons u us ih =>
      cases u with
      | byte c =>
        obtain ⟨hc, hrest⟩ := hus
        have hcons : specCharConvers (c :: us.flatMap Piece.text) = _ := specCharConvers_cons hc
        rw [List.flatMap_cons]
        exact hcons.trans (by rw [ih hrest]; rfl)
      | escape a b =>
        have hrest : Proper us := hus
        change (specCharConvers (us.flatMap Piece.text)).map _ = _
        rw [ih hrest]
        rfl

theorem whole_iff : Whole s ↔ specCharConvers s ≠ none := by
  rw [← Option.isSome_iff_ne_none, Option.isSome_iff_exists]
  constructor
  · rintro ⟨us, hus, hs⟩
    exact ⟨us.map Piece.read, specCharConvers_eq_some_iff.mpr ⟨us, hus, hs, rfl⟩⟩
  · rintro ⟨out, hout⟩
    obtain ⟨us, hus, hs, -⟩ := specCharConvers_eq_some_iff.mp hout
    exact ⟨us, hus, hs⟩

/-- Digits are read for what they mean. -/
theorem Piece.Digits.read_eq {u : Piece} (h : u.Digits) : u.read = u.meant := by
  cases u with
  | byte c => rfl
  | escape a b =>
    obtain ⟨⟨m, hm, hm16⟩, ⟨n, hn, hn16⟩⟩ := h
    have hm' : digitValue a = some m := hm
    have hn' : digitValue b = some n := hn
    simp only [Piece.read, Piece.meant, readDigits, hm', hn', if_pos hm16, if_pos hn16,
      Option.getD_some]
    congr 1
    omega

/-- The pieces of a string that is well-formed. -/
theorem WellFormed.digits {us : List Piece} (h : WellFormed (us.flatMap Piece.text)) :
    ∀ u ∈ us, u.Digits := by
  intro u hu
  cases u with
  | byte c => trivial
  | escape a b =>
    obtain ⟨vs, ws, rfl⟩ := List.append_of_mem hu
    obtain ⟨a', b', r, heq, ha, hb⟩ := h (vs.flatMap Piece.text)
      (a :: b :: ws.flatMap Piece.text) (by simp [Piece.text])
    obtain ⟨rfl, htail⟩ := List.cons.inj heq
    obtain ⟨rfl, -⟩ := List.cons.inj htail
    exact ⟨ha, hb⟩

end Pieces

/-- **Both functions stay in a string** if and only if no escape in it is cut off. -/
theorem staysInString_iff {s : Str} (h0 : 0 ∉ s) : StaysInString s ↔ Whole s := by
  have hconvert := specCharConvers_run h0
  rw [whole_iff]
  constructor
  · intro h hnone
    obtain ⟨dst, hdst, -⟩ := h.convert
    rw [hnone] at hconvert
    cases hdst.unique hconvert
  · intro h
    obtain ⟨out, hout⟩ := Option.ne_none_iff_exists'.mp h
    have hlen := length_specCharConvers hout
    have hlenRemove := length_removeEscapeCharacter_le s
    obtain ⟨us, hus, hs, rfl⟩ := specCharConvers_eq_some_iff.mp hout
    rw [hout] at hconvert
    refine ⟨⟨_, removeEscapeCharacter_run h0, ?_⟩, ⟨_, hconvert, ?_⟩, fun hwell => ?_⟩
    · rw [List.length_append, List.length_singleton]
      exact Nat.succ_le_succ hlenRemove
    · rw [List.length_append, List.length_singleton]
      exact Nat.succ_le_succ hlen
    · have hdigits : ∀ u ∈ us, u.Digits := WellFormed.digits (hs ▸ hwell)
      have hmeant : us.map Piece.read = us.map Piece.meant :=
        List.map_congr_left fun u hu => (hdigits u hu).read_eq
      refine ⟨us, hus, hs, hdigits, ?_⟩
      rw [← hmeant]
      exact hconvert

/-- An escape with two digits, and a quote behind a backslash. -/
theorem staysInString_escape : StaysInString (lit "a\\x41\\\"") :=
  (staysInString_iff (by decide)).mpr
    ⟨[.byte 97, .escape 52 49, .byte 92, .byte 34], ⟨by decide, by decide, by decide, trivial⟩,
      by decide⟩

/-- **A `\x` at the end**: the next byte that is read is behind the terminator. -/
theorem lone_escape_leaves :
    Yields (convertLoop (lit "ab\\x")) none ∧ ¬ StaysInString (lit "ab\\x") := by
  have hrun : Yields (convertLoop (lit "ab\\x")) none := specCharConvers_run (by decide)
  refine ⟨hrun, fun h => ?_⟩
  obtain ⟨dst, hdst, -⟩ := h.convert
  cases hrun.unique hdst

end RkIpc.Network
