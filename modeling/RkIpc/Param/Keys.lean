import RkIpc.Param.Loaded
import RkIpc.Param.ReadBack

/-!
# Numbered keys

Keys such as `user.N:password` and `osd.N:type` are printed with a number in the middle. They are
in small letters, and the number and what follows it can be read off them.

## Main results

* `strlwc_numbered`: such a key is not changed on the way to the dictionary
* `numbered_inj`: such keys are distinct
-/

namespace RkIpc.Param

open Text

instance (s : Str) : Decidable (KeyBytes s) :=
  inferInstanceAs (Decidable (∀ c ∈ s, c ≠ 0 ∧ toLower c = c))

theorem KeyBytes.append {a b : Str} (ha : KeyBytes a) (hb : KeyBytes b) : KeyBytes (a ++ b) :=
  fun c hc => (List.mem_append.mp hc).elim (ha c) (hb c)

theorem keyBytes_decimal (v : ℤ) : KeyBytes (decimal v) := by
  intro c hc
  rcases isDigit_or_minus_of_mem_decimal hc with rfl | h
  · exact ⟨by decide, by decide⟩
  · unfold IsDigit at h
    unfold toLower
    grind

/-- **A numbered key is not changed by `strlwc`.** -/
theorem strlwc_numbered {a b : Str} (ha : KeyBytes a) (hb : KeyBytes b)
    (hlen : a.length + b.length ≤ 1000) (id : Int32) :
    strlwc (a ++ decimal id.toInt ++ b) (asciiLineSz + 1) = a ++ decimal id.toInt ++ b := by
  have hbytes : KeyBytes (a ++ decimal id.toInt ++ b) := (ha.append (keyBytes_decimal _)).append hb
  apply strlwc_eq_self hbytes.zero_notMem hbytes.lower_eq
  have hid := length_decimal_int32 id
  simp only [List.length_append, asciiLineSz]
  omega

/-- **Numbered keys are distinct**, if what follows the number begins with a colon. -/
theorem numbered_inj {a b b' : Str} {i j : ℤ} (ha : colon ∉ a) (hb : ∀ c ∈ b.head?, c = colon)
    (hb' : ∀ c ∈ b'.head?, c = colon) :
    a ++ decimal i ++ b = a ++ decimal j ++ b' ↔ i = j ∧ b = b' := by
  refine ⟨fun h => ?_, fun ⟨hi, hb⟩ => by rw [hi, hb]⟩
  -- the number ends at the colon, or at the end
  have htake : ∀ (k : ℤ) (b : Str), (∀ c ∈ b.head?, c = colon) →
      (a ++ decimal k ++ b).takeWhile (· ≠ colon) = a ++ decimal k := by
    intro k b hb
    have hno : colon ∉ a ++ decimal k := by
      intro hc
      rcases List.mem_append.mp hc with hc | hc
      · exact ha hc
      · rcases isDigit_or_minus_of_mem_decimal hc with h | h
        · exact absurd h (by decide)
        · exact absurd h.2 (by decide)
    rw [List.takeWhile_append_of_pos (all_ne hno)]
    cases b with
    | nil => exact List.append_nil _
    | cons c b =>
      obtain rfl := hb c rfl
      exact List.append_nil _
  have hnum := htake i b hb
  rw [h, htake j b' hb'] at hnum
  obtain rfl := decimal_injective (List.append_cancel_left hnum)
  exact ⟨rfl, List.append_cancel_left h⟩

end RkIpc.Param
