import RkIpc.Text.Decimal

/-!
# Numbers in a base

`strtol` reads a number in a base from the beginning of a text. A text is a number of a base if it
is read as a whole: an optional sign, for the base 16 an optional `0x`, and at least one digit.

## Main definitions

* `strtolBase`: `strtol`
* `numeral?`: the numbers of a base

## Main results

* `strtolBase_append`: a number in front of white space is read as such
-/

namespace Text

/-- The text behind `0x`, which counts in base 16 if a digit follows. -/
def stripHex (base : ℕ) : Str → Str
  | 48 :: x :: h :: s =>
    if base = 16 ∧ (x = 120 ∨ x = 88) ∧ ∃ d ∈ digitValue h, d < 16 then h :: s
    else 48 :: x :: h :: s
  | s => s

/-- The number behind the sign. -/
def numberOf (base : ℕ) (s : Str) : ℕ := readDigits base 0 (stripHex base s)

/-- **`strtol(s, NULL, base)`.** -/
def strtolBase (base : ℕ) (s : Str) : ℤ :=
  if base = 0 then strtol s
  else if base = 1 ∨ 36 < base then 0
  else match stripLeft s with
    | 45 :: s => clamp (-(numberOf base s : ℤ))
    | 43 :: s => clamp (numberOf base s)
    | s => clamp (numberOf base s)

/-- A digit of the base. -/
def IsDigitOf (base : ℕ) (c : UInt8) : Prop := ∃ d ∈ digitValue c, d < base

instance (base : ℕ) (c : UInt8) : Decidable (IsDigitOf base c) :=
  inferInstanceAs (Decidable (∃ d ∈ digitValue c, d < base))

/-- A number without a sign. -/
def unsigned? (base : ℕ) (v : Str) : Option ℕ :=
  if stripHex base v ≠ [] ∧ ∀ c ∈ stripHex base v, IsDigitOf base c then some (numberOf base v)
  else none

/-- **The number that a text is** in a base from 2 to 36. -/
def numeral? (base : ℕ) (v : Str) : Option ℤ :=
  if 2 ≤ base ∧ base ≤ 36 then
    match v with
    | 45 :: v => (unsigned? base v).map fun n : ℕ => -(n : ℤ)
    | 43 :: v => (unsigned? base v).map fun n : ℕ => (n : ℤ)
    | v => (unsigned? base v).map fun n : ℕ => (n : ℤ)
  else none

variable {base n : ℕ} {s v rest : Str}

/-- White space is no digit. -/
theorem not_isDigitOf_of_isSpace {c : UInt8} (h : isSpace c = true) : ¬ IsDigitOf base c := by
  have hnone : digitValue c = none := by
    simp only [isSpace, Bool.or_eq_true, beq_iff_eq, Bool.and_eq_true, decide_eq_true_eq,
      UInt8.le_iff_toNat_le, ← UInt8.toNat_inj] at h
    simp only [digitValue, UInt8.le_iff_toNat_le]
    rw [if_neg, if_neg, if_neg] <;> simp at h ⊢ <;> omega
  rintro ⟨d, hd, -⟩
  rw [hnone] at hd
  cases hd

/-- Digits in front of something else. -/
theorem readDigits_append (hs : ∀ c ∈ s, IsDigitOf base c)
    (hrest : ∀ c ∈ rest.head?, ¬ IsDigitOf base c) :
    readDigits base n (s ++ rest) = readDigits base n s := by
  induction s generalizing n with
  | nil =>
    cases rest with
    | nil => rfl
    | cons c rest =>
      rw [List.nil_append, readDigits, readDigits]
      cases hd : digitValue c with
      | none => rfl
      | some d => exact if_neg fun hlt => hrest c rfl ⟨d, hd, hlt⟩
  | cons c s ih =>
    obtain ⟨d, hd, hlt⟩ := hs c List.mem_cons_self
    rw [List.cons_append, readDigits, readDigits, Option.mem_def.1 hd]
    simp only [if_pos hlt]
    exact ih fun x hx => hs x (List.mem_cons_of_mem _ hx)

theorem stripHex_cons_of_ne {a : UInt8} (h : a ≠ 48) : stripHex base (a :: s) = a :: s := by
  unfold stripHex
  split
  · next heq => exact absurd (List.cons.inj heq).1 h
  · rfl

/-- A text behind which white space stands has the same `0x`. -/
theorem stripHex_append (hne : v ≠ []) (hrest : ∀ c ∈ rest.head?, isSpace c = true) :
    stripHex base (v ++ rest) = stripHex base v ++ rest := by
  obtain ⟨a, v, rfl⟩ := List.exists_cons_of_ne_nil hne
  by_cases ha : a = 48
  · subst ha
    match v, rest, hrest with
    | x :: h :: v, rest, _ =>
      simp only [List.cons_append, stripHex]
      split <;> rfl
    | [x], [], _ => rfl
    -- white space is no digit behind `0x`
    | [x], c :: rest, hrest =>
      have hc : ¬ ∃ d ∈ digitValue c, d < 16 := not_isDigitOf_of_isSpace (hrest c rfl)
      simp only [List.cons_append, List.nil_append, stripHex, hc, and_false, if_false]
    | [], [], _ => rfl
    | [], [c], _ => rfl
    | [], c :: d :: rest, hrest =>
      have hc : ¬ (c = 120 ∨ c = 88) := by
        rintro (rfl | rfl) <;> exact absurd (hrest _ rfl) (by decide)
      simp only [List.cons_append, List.nil_append, stripHex, hc, false_and, and_false, if_false]
  · rw [List.cons_append, stripHex_cons_of_ne ha, stripHex_cons_of_ne ha, List.cons_append]

/-- A number without a sign in front of white space. -/
theorem numberOf_append {m : ℕ} (h : unsigned? base v = some m)
    (hrest : ∀ c ∈ rest.head?, isSpace c = true) : numberOf base (v ++ rest) = m := by
  unfold unsigned? at h
  split at h
  · next hdigits =>
    obtain ⟨hne, hall⟩ := hdigits
    have hv : v ≠ [] := by
      rintro rfl
      exact hne rfl
    rw [numberOf, stripHex_append hv hrest,
      readDigits_append hall fun c hc => not_isDigitOf_of_isSpace (hrest c hc)]
    exact Option.some.inj h
  · cases h

/-- A number without a sign begins with a digit. -/
theorem unsigned?_head {m : ℕ} (h : unsigned? base v = some m) :
    ∃ c s, v = c :: s ∧ isSpace c = false ∧ c ≠ 45 ∧ c ≠ 43 := by
  unfold unsigned? at h
  split at h
  · next hdigits =>
    obtain ⟨hne, hall⟩ := hdigits
    cases v with
    | nil => exact absurd rfl hne
    | cons c s =>
      refine ⟨c, s, rfl, ?_⟩
      by_cases hc : c = 48
      · subst hc
        decide
      · rw [stripHex_cons_of_ne hc] at hall
        have hdigit := hall c List.mem_cons_self
        refine ⟨?_, ?_, ?_⟩
        · rw [← Bool.not_eq_true]
          exact fun hspace => not_isDigitOf_of_isSpace hspace hdigit
        · rintro rfl
          obtain ⟨d, hd, -⟩ := hdigit
          cases hd
        · rintro rfl
          obtain ⟨d, hd, -⟩ := hdigit
          cases hd
  · cases h

theorem stripLeft_cons {c : UInt8} (h : isSpace c = false) : stripLeft (c :: s) = c :: s :=
  List.dropWhile_cons_of_neg (by simp [h])

/-- **A number in front of white space** is read as such. -/
theorem strtolBase_append {m : ℤ} (h : numeral? base v = some m)
    (hrest : ∀ c ∈ rest.head?, isSpace c = true) : strtolBase base (v ++ rest) = clamp m := by
  unfold numeral? at h
  split at h
  · next hbase =>
    rw [strtolBase, if_neg (by omega), if_neg (by omega)]
    split at h
    · next v =>
      obtain ⟨m, hm, rfl⟩ := Option.map_eq_some_iff.1 h
      rw [List.cons_append, stripLeft_cons (by decide)]
      simp only [numberOf_append hm hrest]
    · next v =>
      obtain ⟨m, hm, rfl⟩ := Option.map_eq_some_iff.1 h
      rw [List.cons_append, stripLeft_cons (by decide)]
      simp only [numberOf_append hm hrest]
    · obtain ⟨m, hm, rfl⟩ := Option.map_eq_some_iff.1 h
      obtain ⟨c, s, rfl, hspace, hminus, hplus⟩ := unsigned?_head hm
      have hnumber := numberOf_append hm hrest
      rw [List.cons_append] at hnumber ⊢
      rw [stripLeft_cons hspace]
      split
      · next heq => exact absurd (List.cons.inj heq).1 hminus
      · next heq => exact absurd (List.cons.inj heq).1 hplus
      · rw [hnumber]
  · cases h

end Text
