import RkIpc.Text.Scan

/-!
# Decoders

A decoder takes a character from the beginning of a string, if it begins with one. It looks at no
more of the string than it takes, so that the characters of a part at the beginning are the first
ones of the whole.

## Main definitions

* `Decoder`: the first character of a string
* `Decoder.Converts`, `Decoder.convert`: a string of characters, and the first characters of a
  string
* `Decoder.Longest`: the longest part that is converted within a limit
* `utf8`: the decoder of UTF-8

## Main results

* `longest_convert`: converting one character after the other gives the longest part
-/

namespace Text

variable {α β : Type*}

/-- **A decoder**: the first character, and how many items it takes. -/
structure Decoder (α β : Type*) where
  next : List α → Option (β × ℕ)
  pos : ∀ {s b n}, next s = some (b, n) → 0 < n
  le : ∀ {s b n}, next s = some (b, n) → n ≤ s.length
  congr : ∀ {s t b n}, next s = some (b, n) → s.take n <+: t → next t = some (b, n)

namespace Decoder

variable (d : Decoder α β)

/-- **The string is converted**, as a whole. -/
inductive Converts : List α → List β → Prop
  | nil : Converts [] []
  | cons {s : List α} {b : β} {n : ℕ} {bs : List β} (hnext : d.next s = some (b, n))
      (hrest : Converts (s.drop n) bs) : Converts s (b :: bs)

/-- **One character after the other**, up to a limit. -/
def convert : ℕ → List α → List β
  | 0, _ => []
  | limit + 1, s =>
    match d.next s with
    | none => []
    | some (b, n) => b :: convert limit (s.drop n)

/-- **The longest part** at the beginning that is converted to so many characters. -/
def Longest (limit : ℕ) (s : List α) (bs : List β) : Prop :=
  ∃ p, p <+: s ∧ d.Converts p bs ∧ bs.length ≤ limit ∧
    ∀ p' bs', p' <+: s → d.Converts p' bs' → bs'.length ≤ limit → p' <+: p

variable {d} {limit n : ℕ} {s t : List α} {b : β} {bs : List β}

theorem convert_of_none (h : d.next s = none) : d.convert limit s = [] := by
  cases limit with
  | zero => rfl
  | succ limit => simp only [convert, h]

theorem convert_of_some (h : d.next s = some (b, n)) :
    d.convert (limit + 1) s = b :: d.convert limit (s.drop n) := by
  simp only [convert, h]

theorem length_convert_le : (d.convert limit s).length ≤ limit := by
  induction limit generalizing s with
  | zero => exact Nat.le_refl 0
  | succ limit ih =>
    cases h : d.next s with
    | none =>
      rw [convert_of_none h]
      exact Nat.zero_le _
    | some r =>
      rw [convert_of_some h, List.length_cons]
      exact Nat.succ_le_succ ih

/-- A part at the beginning that begins with a character does so in the whole. -/
theorem next_of_part (h : d.next t = some (b, n)) (hpre : t <+: s) :
    d.next s = some (b, n) ∧ t.take n = s.take n ∧ t.drop n <+: s.drop n := by
  have htake := List.take_prefix n t
  refine ⟨d.congr h (htake.trans hpre), ?_⟩
  obtain ⟨r, rfl⟩ := hpre
  rw [List.take_append_of_le_length (d.le h), List.drop_append_of_le_length (d.le h)]
  exact ⟨rfl, List.prefix_append _ _⟩

/-- A character, and what is converted behind it. -/
theorem converts_take_append (h : d.next s = some (b, n)) (hp : t <+: s.drop n)
    (ht : d.Converts t bs) : s.take n ++ t <+: s ∧ d.Converts (s.take n ++ t) (b :: bs) := by
  have hlen : (s.take n).length = n := List.length_take_of_le (d.le h)
  constructor
  · conv_rhs => rw [← List.take_append_drop n s]
    exact (List.prefix_append_right_inj _).mpr hp
  · refine .cons (d.congr h (List.prefix_append _ _)) ?_
    rw [List.drop_left' hlen]
    exact ht

/-- **Converting one character after the other gives the longest part.** -/
theorem longest_convert (d : Decoder α β) (limit : ℕ) (s : List α) :
    d.Longest limit s (d.convert limit s) := by
  induction limit generalizing s with
  | zero =>
    refine ⟨[], List.nil_prefix, .nil, Nat.le_refl 0, ?_⟩
    intro p' bs' _ hconv hlen
    cases hconv with
    | nil => exact List.prefix_rfl
    | cons => exact absurd hlen (Nat.not_succ_le_zero _)
  | succ limit ih =>
    cases h : d.next s with
    | none =>
      rw [convert_of_none h]
      refine ⟨[], List.nil_prefix, .nil, Nat.zero_le _, ?_⟩
      intro p' bs' hpre hconv _
      cases hconv with
      | nil => exact List.prefix_rfl
      | cons hnext => exact absurd ((next_of_part hnext hpre).1.symm.trans h) (by simp)
    | some r =>
      obtain ⟨b, n⟩ := r
      obtain ⟨p, hpre, hconv, -, hmax⟩ := ih (s.drop n)
      obtain ⟨hpre, hconv⟩ := converts_take_append h hpre hconv
      refine ⟨s.take n ++ p, hpre, ?_, length_convert_le, ?_⟩
      · rwa [convert_of_some h]
      intro p' bs' hpre' hconv' hlen'
      cases hconv' with
      | nil => exact List.nil_prefix
      | cons hnext hrest =>
        -- it begins with the same character, and goes on with a part of the rest
        obtain ⟨hs, htake, hdrop⟩ := next_of_part hnext hpre'
        obtain ⟨rfl, rfl⟩ : b = _ ∧ n = _ := by simpa using h.symm.trans hs
        rw [← List.take_append_drop n p', htake]
        exact (List.prefix_append_right_inj _).mpr
          (hmax _ _ hdrop hrest (Nat.le_of_succ_le_succ hlen'))

end Decoder

/-! ## UTF-8 -/

/-- A string begins with a character if and only if it begins with its bytes. -/
theorem utf8DecodeChar?_eq_some_iff {s : Str} {c : Char} :
    s.toByteArray.utf8DecodeChar? 0 = some c ↔ String.utf8EncodeChar c <+: s := by
  constructor
  · intro h
    obtain ⟨l, hl⟩ := ByteArray.exists_of_utf8DecodeChar?_eq_some h
    refine ⟨l.data.toList, ?_⟩
    have hdata := congrArg (fun a : ByteArray => a.data.toList) hl
    simpa using hdata.symm
  · rintro ⟨r, rfl⟩
    rw [List.toByteArray_append]
    exact ByteArray.utf8DecodeChar?_utf8EncodeChar_append

/-- **UTF-8**, where a character is its number. -/
def utf8 : Decoder UInt8 UInt32 where
  next s := (s.toByteArray.utf8DecodeChar? 0).map fun c => (c.val, c.utf8Size)
  pos h := by
    obtain ⟨c, -, hc⟩ := Option.map_eq_some_iff.mp h
    rw [← (Prod.mk.inj hc).2]
    exact c.utf8Size_pos
  le h := by
    obtain ⟨c, hdecode, hc⟩ := Option.map_eq_some_iff.mp h
    rw [← (Prod.mk.inj hc).2, ← String.length_utf8EncodeChar]
    exact (utf8DecodeChar?_eq_some_iff.mp hdecode).length_le
  congr {s t b n} h hpre := by
    obtain ⟨c, hdecode, hc⟩ := Option.map_eq_some_iff.mp h
    have hencode := utf8DecodeChar?_eq_some_iff.mp hdecode
    -- what is taken are the bytes of the character
    have htake : s.take n = String.utf8EncodeChar c := by
      rw [← (Prod.mk.inj hc).2, ← String.length_utf8EncodeChar]
      exact (List.prefix_iff_eq_take.mp hencode).symm
    rw [htake] at hpre
    rw [utf8DecodeChar?_eq_some_iff.mpr hpre, Option.map_some, hc]

end Text
