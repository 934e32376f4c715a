import RkIpc.Text.Scan

/-!
# UTF-8

A text is UTF-8 if it is the encoding of characters.

## Main definitions

* `IsUtf8`: texts that are UTF-8

## Main results

* `utf8EncodeChar_cases`: the bytes of a character
* `isUtf8_flatMap`: a character may be replaced by UTF-8
-/

namespace Text

/-- **The encoding of characters.** -/
def IsUtf8 (s : Str) : Prop := ∃ cs : List Char, s = cs.flatMap String.utf8EncodeChar

theorem IsUtf8.nil : IsUtf8 [] := ⟨[], rfl⟩

theorem IsUtf8.append {s t : Str} (hs : IsUtf8 s) (ht : IsUtf8 t) : IsUtf8 (s ++ t) := by
  obtain ⟨cs, rfl⟩ := hs
  obtain ⟨ds, rfl⟩ := ht
  exact ⟨cs ++ ds, List.flatMap_append.symm⟩

theorem isUtf8_utf8EncodeChar (c : Char) : IsUtf8 (String.utf8EncodeChar c) :=
  ⟨[c], (List.flatMap_singleton ..).symm⟩

theorem isUtf8_flatMap {α : Type*} {f : α → Str} {xs : List α} (h : ∀ x ∈ xs, IsUtf8 (f x)) :
    IsUtf8 (xs.flatMap f) := by
  induction xs with
  | nil => exact .nil
  | cons x xs ih =>
    obtain ⟨hx, hxs⟩ := List.forall_mem_cons.mp h
    exact hx.append (ih hxs)

/-- A byte that continues a character. -/
def trail (n : ℕ) : UInt8 := UInt8.ofNat (n % 64 + 0x80)

/-- **The bytes of a character.** -/
theorem utf8EncodeChar_cases (c : Char) :
    (∃ n < 128, String.utf8EncodeChar c = [UInt8.ofNat n]) ∨
    (∃ n k, String.utf8EncodeChar c = [UInt8.ofNat (n % 32 + 0xC0), trail k]) ∨
    (∃ n k l, String.utf8EncodeChar c = [UInt8.ofNat (n % 16 + 0xE0), trail k, trail l]) ∨
    ∃ n k l m, String.utf8EncodeChar c =
      [UInt8.ofNat (n % 8 + 0xF0), trail k, trail l, trail m] := by
  unfold String.utf8EncodeChar
  dsimp only
  split
  · exact .inl ⟨_, by omega, rfl⟩
  · split
    · exact .inr (.inl ⟨_, _, rfl⟩)
    · split
      · exact .inr (.inr (.inl ⟨_, _, _, rfl⟩))
      · exact .inr (.inr (.inr ⟨_, _, _, _, rfl⟩))

theorem toNat_ofNat {n : ℕ} (h : n.isValidChar) : (Char.ofNat n).val.toNat = n := by
  rw [Char.ofNat, dif_pos h]
  rfl

/-- A byte below 128 is a character. -/
theorem utf8EncodeChar_of_lt {n : ℕ} (h : n < 128) :
    String.utf8EncodeChar (Char.ofNat n) = [UInt8.ofNat n] := by
  rw [String.utf8EncodeChar, toNat_ofNat (.inl (by omega))]
  exact if_pos (by omega)

theorem isUtf8_of_lt {c : UInt8} (h : c < 128) : IsUtf8 [c] := by
  have hnat : c.toNat < 128 := UInt8.lt_iff_toNat_lt.mp h
  have hchar := isUtf8_utf8EncodeChar (Char.ofNat c.toNat)
  rwa [utf8EncodeChar_of_lt hnat, UInt8.ofNat_toNat] at hchar

theorem isUtf8_of_forall_lt {s : Str} (h : ∀ c ∈ s, c < 128) : IsUtf8 s := by
  have hall := isUtf8_flatMap (f := fun c => [c]) fun c hc => isUtf8_of_lt (h c hc)
  rwa [List.flatMap_singleton'] at hall

end Text
