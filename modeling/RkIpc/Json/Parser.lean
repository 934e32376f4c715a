import Mathlib.Data.List.Forall2
import RkIpc.Text.Decimal

/-!
# JSON

The syntax of RFC 8259 for a text of bytes. Strings and names are the bytes they stand for; a
number is its text. Characters beyond ASCII are not looked at: that the text is UTF-8 is a
condition of its own.

## Main definitions

* `Json`: a value
* `parse`: the value of a text, if it is one
* `Chunk`, `Reads`: a part of a string, and the text of a value, whatever follows

## Main results

* `reads_str`, `reads_num`, `reads_obj`, `reads_arr`: texts that were put together are read
* `parse_eq`: a text that is read is parsed
-/

/-- **A value.** -/
inductive Json
  | null
  | bool (b : Bool)
  | num (text : List UInt8)
  | str (s : List UInt8)
  | arr (elements : List Json)
  | obj (members : List (List UInt8 × Json))

namespace Json

open Text

/-! ## Strings -/

/-- A part of a string: a byte, or a code unit behind `\u`. -/
inductive Piece
  | byte (c : UInt8)
  | unit (n : ℕ)

/-- Four hexadecimal digits. -/
def codeUnit (digits : List UInt8) : Option ℕ :=
  (digits.mapM fun c => (digitValue c).filter fun d => d < 16).map fun ds =>
    ds.foldl (fun n d => 16 * n + d) 0

/-- The byte for an escape of two characters. -/
def escape (c : UInt8) : Option UInt8 :=
  if c = 34 ∨ c = 92 ∨ c = 47 then some c
  else if c = 98 then some 8
  else if c = 102 then some 12
  else if c = 110 then some 10
  else if c = 114 then some 13
  else if c = 116 then some 9
  else none

/-- What stands before the closing quote, and what follows it. -/
def pieces : List UInt8 → Option (List Piece × List UInt8)
  | [] => none
  | 34 :: s => some ([], s)
  | 92 :: 117 :: a :: b :: c :: d :: s =>
    (codeUnit [a, b, c, d]).bind fun n => (pieces s).map fun r => (.unit n :: r.1, r.2)
  | 92 :: c :: s => (escape c).bind fun c => (pieces s).map fun r => (.byte c :: r.1, r.2)
  | c :: s => if c < 32 ∨ c = 92 then none else (pieces s).map fun r => (.byte c :: r.1, r.2)

/-- A code unit that is the first of two. -/
def IsHigh (n : ℕ) : Prop := 0xD800 ≤ n ∧ n < 0xDC00

/-- A code unit that is the second of two. -/
def IsLow (n : ℕ) : Prop := 0xDC00 ≤ n ∧ n < 0xE000

instance (n : ℕ) : Decidable (IsHigh n) := inferInstanceAs (Decidable (_ ∧ _))

instance (n : ℕ) : Decidable (IsLow n) := inferInstanceAs (Decidable (_ ∧ _))

/-- The bytes that the parts stand for. -/
def decode : List Piece → Option (List UInt8)
  | [] => some []
  | .byte c :: ps => (decode ps).map (c :: ·)
  | .unit m :: .unit n :: ps =>
    if IsHigh m ∧ IsLow n then
      (decode ps).map (String.utf8EncodeChar
        (Char.ofNat (0x10000 + (m - 0xD800) * 0x400 + (n - 0xDC00))) ++ ·)
    else if IsHigh m ∨ IsLow m then none
    else (decode (.unit n :: ps)).map (String.utf8EncodeChar (Char.ofNat m) ++ ·)
  | .unit n :: ps =>
    if IsHigh n ∨ IsLow n then none
    else (decode ps).map (String.utf8EncodeChar (Char.ofNat n) ++ ·)

/-- A string behind its opening quote. -/
def string (s : List UInt8) : Option (List UInt8 × List UInt8) :=
  (pieces s).bind fun r => (decode r.1).map fun t => (t, r.2)

/-! ## Numbers -/

/-- Digits, and what follows them. -/
def digits (s : List UInt8) : Option (List UInt8 × List UInt8) :=
  if (s.takeWhile fun c => IsDigit c) = [] then none
  else some (s.takeWhile fun c => IsDigit c, s.dropWhile fun c => IsDigit c)

/-- The integer part. -/
def integer : List UInt8 → Option (List UInt8 × List UInt8)
  | 48 :: s => some ([48], s)
  | s => digits s

/-- The fraction, if there is one. -/
def fraction : List UInt8 → Option (List UInt8 × List UInt8)
  | 46 :: s => (digits s).map fun r => (46 :: r.1, r.2)
  | s => some ([], s)

/-- The exponent, if there is one. -/
def exponent : List UInt8 → Option (List UInt8 × List UInt8)
  | c :: s =>
    if c = 101 ∨ c = 69 then
      match s with
      | 43 :: s => (digits s).map fun r => (c :: 43 :: r.1, r.2)
      | 45 :: s => (digits s).map fun r => (c :: 45 :: r.1, r.2)
      | s => (digits s).map fun r => (c :: r.1, r.2)
    else some ([], c :: s)
  | [] => some ([], [])

/-- A number without its sign. -/
def unsigned (s : List UInt8) : Option (List UInt8 × List UInt8) := do
  let (i, s) ← integer s
  let (f, s) ← fraction s
  let (e, s) ← exponent s
  some (i ++ f ++ e, s)

/-- A number. -/
def number : List UInt8 → Option (List UInt8 × List UInt8)
  | 45 :: s => (unsigned s).map fun r => (45 :: r.1, r.2)
  | s => unsigned s

/-! ## Values -/

/-- Without white space at the beginning. -/
def skip (s : List UInt8) : List UInt8 := s.dropWhile fun c => c = 32 ∨ c = 9 ∨ c = 10 ∨ c = 13

/-- A bracket, a comma or another byte of the syntax, and white space before it. -/
def token (c : UInt8) (s : List UInt8) : Option (List UInt8) :=
  match skip s with
  | d :: s => if d = c then some s else none
  | [] => none

/-- One of the three words. -/
def word (w : List UInt8) (v : Json) (s : List UInt8) : Option (Json × List UInt8) :=
  if w <+: skip s then some (v, (skip s).drop w.length) else none

mutual

/-- **A value**, and what follows it; the nesting is bounded by `fuel`. -/
def value : ℕ → List UInt8 → Option (Json × List UInt8)
  | 0, _ => none
  | fuel + 1, s =>
    ((token 123 s).bind fun s => ((members fuel s).map fun r => (.obj r.1, r.2)).or
      ((token 125 s).map fun s => (.obj [], s))).or <|
    ((token 91 s).bind fun s => ((elements fuel s).map fun r => (.arr r.1, r.2)).or
      ((token 93 s).map fun s => (.arr [], s))).or <|
    ((token 34 s).bind fun s => (string s).map fun r => (.str r.1, r.2)).or <|
    (word (lit "true") (.bool true) s).or <|
    (word (lit "false") (.bool false) s).or <|
    (word (lit "null") .null s).or <|
    (number (skip s)).map fun r => (.num r.1, r.2)

/-- The elements of an array, up to its closing bracket. -/
def elements : ℕ → List UInt8 → Option (List Json × List UInt8)
  | 0, _ => none
  | fuel + 1, s => (value fuel s).bind fun v =>
    ((token 44 v.2).bind fun s => (elements fuel s).map fun r => (v.1 :: r.1, r.2)).or
      ((token 93 v.2).map fun s => ([v.1], s))

/-- The members of an object, up to its closing bracket. -/
def members : ℕ → List UInt8 → Option (List (List UInt8 × Json) × List UInt8)
  | 0, _ => none
  | fuel + 1, s => (token 34 s).bind fun s => (string s).bind fun name =>
    (token 58 name.2).bind fun s => (value fuel s).bind fun v =>
      ((token 44 v.2).bind fun s =>
        (members fuel s).map fun r => ((name.1, v.1) :: r.1, r.2)).or
        ((token 125 v.2).map fun s => ([(name.1, v.1)], s))

end

/-- **The value of a text.** Each level of nesting takes a byte. -/
def parse (s : List UInt8) : Option Json :=
  (value (2 * s.length + 1) s).bind fun r => if skip r.2 = [] then some r.1 else none

/-! ## Strings that are read -/

theorem pieces_byte {c : UInt8} (h34 : c ≠ 34) (h92 : c ≠ 92) (h32 : 32 ≤ c) (s : List UInt8) :
    pieces (c :: s) = (pieces s).map fun r => (.byte c :: r.1, r.2) := by
  rw [pieces]
  · rw [if_neg]
    rintro (h | h)
    · exact absurd h32 (UInt8.not_le.mpr h)
    · exact h92 h
  · exact fun h => h34 h
  · exact fun _ _ _ _ _ h _ => h92 h
  · exact fun _ _ h _ => h92 h

theorem pieces_escape {c d : UInt8} (h : escape c = some d) (s : List UInt8) :
    pieces (92 :: c :: s) = (pieces s).map fun r => (.byte d :: r.1, r.2) := by
  rw [pieces, h]
  · rfl
  · rintro _ _ _ _ _ rfl _
    have hnone : escape 117 = none := by decide
    rw [hnone] at h
    cases h

/-- **A part of a string** and the bytes it stands for. -/
def Chunk (t v : List UInt8) : Prop :=
  ∀ s, pieces (t ++ s) = (pieces s).map fun r => (v.map .byte ++ r.1, r.2)

namespace Chunk

variable {t t' v v' : List UInt8}

theorem nil : Chunk [] [] := fun s => by simp

theorem append (h : Chunk t v) (h' : Chunk t' v') : Chunk (t ++ t') (v ++ v') := fun s => by
  rw [List.append_assoc, h, h', Option.map_map, List.map_append]
  simp only [Function.comp_def, List.append_assoc]

/-- A byte that stands for itself. -/
theorem byte {c : UInt8} (h34 : c ≠ 34) (h92 : c ≠ 92) (h32 : 32 ≤ c) : Chunk [c] [c] :=
  fun s => pieces_byte h34 h92 h32 s

/-- An escape. -/
theorem escape {c d : UInt8} (h : Json.escape c = some d) : Chunk [92, c] [d] :=
  fun s => pieces_escape h s

/-- Parts one after the other. -/
theorem flatMap {α : Type*} {f g : α → List UInt8} (xs : List α)
    (h : ∀ x ∈ xs, Chunk (f x) (g x)) : Chunk (xs.flatMap f) (xs.flatMap g) := by
  induction xs with
  | nil => exact nil
  | cons x xs ih =>
    obtain ⟨hx, hxs⟩ := List.forall_mem_cons.mp h
    exact hx.append (ih hxs)

/-- Bytes that stand for themselves. -/
theorem bytes {s : List UInt8} (h : ∀ c ∈ s, c ≠ 34 ∧ c ≠ 92 ∧ 32 ≤ c) : Chunk s s := by
  have hall := flatMap (f := fun c => [c]) (g := fun c => [c]) s fun c hc =>
    byte (h c hc).1 (h c hc).2.1 (h c hc).2.2
  rwa [List.flatMap_singleton'] at hall

end Chunk

theorem decode_bytes (v : List UInt8) : decode (v.map .byte) = some v := by
  induction v with
  | nil => rfl
  | cons c v ih =>
    rw [List.map_cons, decode, ih]
    rfl

theorem string_append {t v : List UInt8} (h : Chunk t v) (s : List UInt8) :
    string (t ++ 34 :: s) = some (v, s) := by
  rw [string, h, pieces]
  change (decode (v.map .byte ++ [])).map _ = _
  rw [List.append_nil, decode_bytes]
  rfl

/-! ## Values that are read -/

/-- What may follow a value inside an array or an object. -/
def Closes (s : List UInt8) : Prop := ∀ c ∈ s.head?, c = 44 ∨ c = 93 ∨ c = 125

theorem Closes.cons {c : UInt8} (h : c = 44 ∨ c = 93 ∨ c = 125) (s : List UInt8) :
    Closes (c :: s) := fun d hd => by
  obtain rfl : c = d := by simpa using hd
  exact h

theorem Closes.nil : Closes [] := nofun

/-- **The text of a value**, whatever follows; `k` bounds the nesting. -/
def Reads (k : ℕ) (t : List UInt8) (v : Json) : Prop :=
  ∀ fuel ≥ k, ∀ s, Closes s → value fuel (t ++ s) = some (v, s)

theorem skip_cons {c : UInt8} (h : c ≠ 32 ∧ c ≠ 9 ∧ c ≠ 10 ∧ c ≠ 13) (s : List UInt8) :
    skip (c :: s) = c :: s := by
  simp [skip, h]

theorem token_cons {c : UInt8} (h : c ≠ 32 ∧ c ≠ 9 ∧ c ≠ 10 ∧ c ≠ 13) (s : List UInt8) :
    token c (c :: s) = some s := by
  rw [token, skip_cons h]
  exact if_pos rfl

theorem token_cons_ne {c d : UInt8} (h : d ≠ 32 ∧ d ≠ 9 ∧ d ≠ 10 ∧ d ≠ 13) (hne : d ≠ c)
    (s : List UInt8) : token c (d :: s) = none := by
  rw [token, skip_cons h]
  exact if_neg hne

theorem word_cons_ne {c d : UInt8} (h : d ≠ 32 ∧ d ≠ 9 ∧ d ≠ 10 ∧ d ≠ 13) (hne : c ≠ d)
    (w : List UInt8) (v : Json) (s : List UInt8) : word (c :: w) v (d :: s) = none := by
  rw [word, skip_cons h]
  refine if_neg fun hprefix => hne ?_
  obtain ⟨t, ht⟩ := hprefix
  exact (List.cons.inj ht).1

/-- No word begins with the byte. -/
theorem words_cons_ne {c : UInt8} (h : c ≠ 32 ∧ c ≠ 9 ∧ c ≠ 10 ∧ c ≠ 13)
    (hne : 116 ≠ c ∧ 102 ≠ c ∧ 110 ≠ c) (s : List UInt8) :
    word (lit "true") (.bool true) (c :: s) = none ∧
      word (lit "false") (.bool false) (c :: s) = none ∧
      word (lit "null") .null (c :: s) = none :=
  ⟨word_cons_ne h hne.1 _ _ s, word_cons_ne h hne.2.1 _ _ s, word_cons_ne h hne.2.2 _ _ s⟩

/-- **A string.** -/
theorem reads_str {t v : List UInt8} (h : Chunk t v) : Reads 1 (34 :: t ++ [34]) (.str v) := by
  intro fuel hfuel s _
  obtain ⟨fuel, rfl⟩ := Nat.exists_eq_add_of_le' hfuel
  have htext : 34 :: t ++ [34] ++ s = 34 :: (t ++ 34 :: s) := by simp
  rw [htext, value, token_cons_ne (by decide) (by decide), token_cons_ne (by decide) (by decide),
    token_cons (by decide)]
  simp only [Option.bind_none, Option.none_or, Option.bind_some, string_append h, Option.map_some,
    Option.some_or]

theorem fraction_of_closes {s : List UInt8} (h : Closes s) : fraction s = some ([], s) := by
  unfold fraction
  split
  · exact absurd (h 46 rfl) (by decide)
  · rfl

theorem exponent_of_closes {s : List UInt8} (h : Closes s) : exponent s = some ([], s) := by
  unfold exponent
  split
  · next c s =>
    refine if_neg fun hc => ?_
    rcases hc with rfl | rfl
    · exact absurd (h 101 rfl) (by decide)
    · exact absurd (h 69 rfl) (by decide)
  · rfl

theorem digits_decimalNat (n : ℕ) {s : List UInt8} (h : Closes s) :
    digits (decimalNat n ++ s) = some (decimalNat n, s) := by
  have hdigits : ∀ c ∈ decimalNat n, decide (IsDigit c) = true := fun c hc =>
    decide_eq_true (isDigit_of_mem_decimalNat hc)
  have hstop : s.takeWhile (fun c => IsDigit c) = [] ∧ s.dropWhile (fun c => IsDigit c) = s := by
    cases s with
    | nil => exact ⟨rfl, rfl⟩
    | cons c s =>
      have hc : ¬ IsDigit c := by
        rcases h c rfl with rfl | rfl | rfl <;> decide
      exact ⟨List.takeWhile_cons_of_neg (by simpa using hc),
        List.dropWhile_cons_of_neg (by simpa using hc)⟩
  rw [digits, List.takeWhile_append_of_pos hdigits, List.dropWhile_append_of_pos hdigits, hstop.1,
    hstop.2, List.append_nil, if_neg (decimalNat_ne_nil n)]

theorem integer_decimalNat (n : ℕ) {s : List UInt8} (h : Closes s) :
    integer (decimalNat n ++ s) = some (decimalNat n, s) := by
  rcases Nat.eq_zero_or_pos n with rfl | hn
  · rfl
  · obtain ⟨c, t, hc, h48⟩ := decimalNat_eq_cons hn
    have hdigits := digits_decimalNat n h
    rw [hc, List.cons_append] at hdigits ⊢
    rw [integer]
    · exact hdigits
    · exact fun _ h => h48 (List.cons.inj h).1

theorem number_decimal (v : ℤ) {s : List UInt8} (h : Closes s) :
    number (decimal v ++ s) = some (decimal v, s) := by
  have hunsigned : ∀ n, unsigned (decimalNat n ++ s) = some (decimalNat n, s) := fun n => by
    rw [unsigned, integer_decimalNat n h]
    simp only [Option.bind_eq_bind, Option.bind_some, fraction_of_closes h, exponent_of_closes h,
      List.append_nil]
  rcases lt_or_ge v 0 with hv | hv
  · rw [decimal_of_neg hv]
    change (unsigned (decimalNat v.natAbs ++ s)).map _ = _
    rw [hunsigned]
    rfl
  · obtain ⟨c, t, hc, hdigit⟩ := decimalNat_head v.natAbs
    have hnat := hunsigned v.natAbs
    rw [decimal_of_nonneg hv]
    rw [hc, List.cons_append] at hnat ⊢
    rw [number]
    · exact hnat
    · exact fun _ h => hdigit.ne_minus.1 (List.cons.inj h).1

/-- **A number.** -/
theorem reads_num (v : ℤ) : Reads 1 (decimal v) (.num (decimal v)) := by
  intro fuel hfuel s hs
  obtain ⟨fuel, rfl⟩ := Nat.exists_eq_add_of_le' hfuel
  obtain ⟨c, t, hc⟩ : ∃ c t, decimal v = c :: t := by
    unfold decimal
    split
    · exact ⟨_, _, rfl⟩
    · obtain ⟨c, t, hc, -⟩ := decimalNat_head v.natAbs
      exact ⟨c, t, hc⟩
  have hfirst : c = 45 ∨ 48 ≤ c ∧ c ≤ 57 :=
    isDigit_or_minus_of_mem_decimal (v := v) (by rw [hc]; exact List.mem_cons_self)
  have hspace : c ≠ 32 ∧ c ≠ 9 ∧ c ≠ 10 ∧ c ≠ 13 := by grind
  have hother : c ≠ 123 ∧ c ≠ 91 ∧ c ≠ 34 ∧ 116 ≠ c ∧ 102 ≠ c ∧ 110 ≠ c := by grind
  obtain ⟨hobj, harr, hstr, hword⟩ := hother
  have hnum := number_decimal v hs
  rw [hc, List.cons_append] at hnum ⊢
  rw [value, token_cons_ne hspace hobj, token_cons_ne hspace harr, token_cons_ne hspace hstr]
  obtain ⟨htrue, hfalse, hnull⟩ := words_cons_ne hspace hword (t ++ s)
  rw [htrue, hfalse, hnull, skip_cons hspace, hnum]
  rfl

/-- The text of the members of an object. -/
def membersText (ms : List (List UInt8 × List UInt8)) : List UInt8 :=
  [44].intercalate (ms.map fun m => 34 :: m.1 ++ 34 :: 58 :: m.2)

theorem members_append {k : ℕ} {ms : List (List UInt8 × List UInt8)}
    {vs : List (List UInt8 × Json)} (hne : ms ≠ [])
    (h : List.Forall₂ (fun m v => Chunk m.1 v.1 ∧ Reads k m.2 v.2) ms vs) {fuel : ℕ}
    (hfuel : k + ms.length ≤ fuel) (s : List UInt8) :
    members fuel (membersText ms ++ 125 :: s) = some (vs, s) := by
  induction h generalizing fuel with
  | nil => exact absurd rfl hne
  | @cons m v ms vs hm h ih =>
    rw [List.length_cons] at hfuel
    obtain ⟨fuel, rfl⟩ := Nat.exists_eq_add_of_le' (show 1 ≤ fuel by omega)
    obtain ⟨hname, hvalue⟩ := hm
    cases ms with
    | nil =>
      cases h
      have htext : membersText [m] ++ 125 :: s = 34 :: (m.1 ++ 34 :: 58 :: (m.2 ++ 125 :: s)) := by
        simp [membersText]
      rw [htext, members, token_cons (by decide), Option.bind_some, string_append hname,
        Option.bind_some, token_cons (by decide), Option.bind_some,
        hvalue fuel (by omega) _ (.cons (by decide) s), Option.bind_some,
        token_cons_ne (by decide) (by decide), token_cons (by decide)]
      rfl
    | cons m' ms =>
      have htext : membersText (m :: m' :: ms) ++ 125 :: s =
          34 :: (m.1 ++ 34 :: 58 :: (m.2 ++ 44 :: (membersText (m' :: ms) ++ 125 :: s))) := by
        simp [membersText]
      rw [htext, members, token_cons (by decide), Option.bind_some, string_append hname,
        Option.bind_some, token_cons (by decide), Option.bind_some,
        hvalue fuel (by omega) _ (.cons (by decide) _), Option.bind_some,
        token_cons (by decide), Option.bind_some, ih (by simp) (by omega)]
      rfl

/-- **An object.** -/
theorem reads_obj {k : ℕ} {ms : List (List UInt8 × List UInt8)} {vs : List (List UInt8 × Json)}
    (hne : ms ≠ []) (h : List.Forall₂ (fun m v => Chunk m.1 v.1 ∧ Reads k m.2 v.2) ms vs) :
    Reads (k + ms.length + 1) (123 :: membersText ms ++ [125]) (.obj vs) := by
  intro fuel hfuel s _
  obtain ⟨fuel, rfl⟩ := Nat.exists_eq_add_of_le' (show 1 ≤ fuel by omega)
  have htext : 123 :: membersText ms ++ [125] ++ s = 123 :: (membersText ms ++ 125 :: s) := by
    simp
  rw [htext, value, token_cons (by decide), Option.bind_some,
    members_append hne h (by omega : k + ms.length ≤ fuel)]
  rfl

theorem elements_append {k : ℕ} {ts : List (List UInt8)} {vs : List Json} (hne : ts ≠ [])
    (h : List.Forall₂ (Reads k) ts vs) {fuel : ℕ} (hfuel : k + ts.length ≤ fuel)
    (s : List UInt8) : elements fuel ([44].intercalate ts ++ 93 :: s) = some (vs, s) := by
  induction h generalizing fuel with
  | nil => exact absurd rfl hne
  | @cons t v ts vs ht h ih =>
    rw [List.length_cons] at hfuel
    obtain ⟨fuel, rfl⟩ := Nat.exists_eq_add_of_le' (show 1 ≤ fuel by omega)
    cases ts with
    | nil =>
      cases h
      have htext : [44].intercalate [t] ++ 93 :: s = t ++ 93 :: s := by simp
      rw [htext, elements, ht fuel (by omega) _ (.cons (by decide) s), Option.bind_some,
        token_cons_ne (by decide) (by decide), token_cons (by decide)]
      rfl
    | cons t' ts =>
      have htext : [44].intercalate (t :: t' :: ts) ++ 93 :: s =
          t ++ 44 :: ([44].intercalate (t' :: ts) ++ 93 :: s) := by
        simp
      rw [htext, elements, ht fuel (by omega) _ (.cons (by decide) _), Option.bind_some,
        token_cons (by decide), Option.bind_some, ih (by simp) (by omega)]
      rfl

/-- There is no value in front of a closing bracket. -/
theorem elements_bracket (fuel : ℕ) (s : List UInt8) : elements fuel (93 :: s) = none := by
  have hnumber : number (93 :: s) = none := rfl
  rcases fuel with _ | _ | fuel
  · rfl
  · rfl
  · have hspace : (93 : UInt8) ≠ 32 ∧ (93 : UInt8) ≠ 9 ∧ (93 : UInt8) ≠ 10 ∧ (93 : UInt8) ≠ 13 := by
      decide
    obtain ⟨htrue, hfalse, hnull⟩ := words_cons_ne hspace (by decide) s
    rw [elements, value, token_cons_ne hspace (by decide), token_cons_ne hspace (by decide),
      token_cons_ne hspace (by decide), htrue, hfalse, hnull, skip_cons hspace, hnumber]
    rfl

/-- **An array.** -/
theorem reads_arr {k : ℕ} {ts : List (List UInt8)} {vs : List Json}
    (h : List.Forall₂ (Reads k) ts vs) :
    Reads (k + ts.length + 1) (91 :: [44].intercalate ts ++ [93]) (.arr vs) := by
  intro fuel hfuel s _
  obtain ⟨fuel, rfl⟩ := Nat.exists_eq_add_of_le' (show 1 ≤ fuel by omega)
  have htext : 91 :: [44].intercalate ts ++ [93] ++ s = 91 :: ([44].intercalate ts ++ 93 :: s) := by
    simp
  rw [htext, value, token_cons_ne (by decide) (by decide), token_cons (by decide),
    Option.bind_none, Option.none_or, Option.bind_some]
  by_cases hne : ts = []
  · subst hne
    cases h
    change (((elements fuel (93 :: s)).map fun r => (arr r.1, r.2)).or
      ((token 93 (93 :: s)).map fun s => (arr [], s))).or _ = _
    rw [elements_bracket, token_cons (by decide)]
    rfl
  · rw [elements_append hne h (by omega : k + ts.length ≤ fuel), Option.map_some, Option.some_or,
      Option.some_or]

/-- **A text that is read is parsed**, if it is long enough for its nesting. -/
theorem parse_eq {k : ℕ} {t : List UInt8} {v : Json} (h : Reads k t v)
    (hk : k ≤ 2 * t.length + 1) : parse t = some v := by
  have hread := h _ hk [] .nil
  rw [List.append_nil] at hread
  rw [parse, hread]
  rfl

end Json
