import Mathlib.Data.List.Infix

/-!
# The first occurrence of a string

A search for a string gives what is left of the text from the first place at which it occurs.

## Main definitions

* `firstAt`: the text from the first occurrence on

## Main results

* `firstAt_eq_none_iff`: there is none if and only if the string does not occur
* `eq_of_firstAt_length`: the first occurrence is the one with the most text behind it
* `firstAt_concat`, `firstAt_append_cons`: a string whose last or whose first character is not found
  elsewhere
-/

namespace Text

variable {α : Type*} [DecidableEq α]

/-- **The first occurrence of `pat`**: the text from there on. -/
def firstAt (pat : List α) : List α → Option (List α)
  | [] => if pat = [] then some [] else none
  | c :: cs => if pat <+: c :: cs then some (c :: cs) else firstAt pat cs

variable {pat s q : List α}

theorem firstAt_of_isPrefix (h : pat <+: s) : firstAt pat s = some s := by
  cases s with
  | nil => exact if_pos (List.prefix_nil.mp h)
  | cons c cs => exact if_pos h

theorem firstAt_cons {c : α} {cs : List α} (h : ¬ pat <+: c :: cs) :
    firstAt pat (c :: cs) = firstAt pat cs := if_neg h

/-- **The string does not occur** if and only if there is no first occurrence. -/
theorem firstAt_eq_none_iff : firstAt pat s = none ↔ ¬ pat <:+: s := by
  induction s with
  | nil =>
    rw [firstAt, List.infix_nil]
    split_ifs with h <;> simp [h]
  | cons c cs ih =>
    rw [List.infix_cons_iff]
    by_cases h : pat <+: c :: cs
    · rw [firstAt_of_isPrefix h]
      simp [h]
    · rw [firstAt_cons h, ih, or_iff_right h]

theorem isSome_firstAt_iff : (firstAt pat s).isSome ↔ pat <:+: s := by
  rw [Option.isSome_iff_ne_none, ne_eq, firstAt_eq_none_iff, not_not]

/-- The string begins there, and the text ends as the whole does. -/
theorem prefix_and_suffix_of_firstAt (h : firstAt pat s = some q) : pat <+: q ∧ q <:+ s := by
  induction s with
  | nil =>
    rw [firstAt] at h
    split_ifs at h with hpat
    obtain rfl := Option.some.inj h
    rw [hpat]
    exact ⟨List.prefix_rfl, List.suffix_rfl⟩
  | cons c cs ih =>
    by_cases hpre : pat <+: c :: cs
    · rw [firstAt_of_isPrefix hpre] at h
      obtain rfl := Option.some.inj h
      exact ⟨hpre, List.suffix_rfl⟩
    · rw [firstAt_cons hpre] at h
      obtain ⟨hq, hsuf⟩ := ih h
      exact ⟨hq, hsuf.trans (List.suffix_cons c cs)⟩

/-- No occurrence comes before the first. -/
theorem length_le_of_firstAt (h : firstAt pat s = some q) {t : List α} (hsuf : t <:+ s)
    (hpre : pat <+: t) : t.length ≤ q.length := by
  induction s with
  | nil =>
    rw [List.suffix_nil.mp hsuf]
    exact Nat.zero_le _
  | cons c cs ih =>
    by_cases hfirst : pat <+: c :: cs
    · rw [firstAt_of_isPrefix hfirst] at h
      obtain rfl := Option.some.inj h
      exact hsuf.length_le
    · rw [firstAt_cons hfirst] at h
      rcases List.suffix_cons_iff.mp hsuf with rfl | hsuf
      · exact absurd hpre hfirst
      · exact ih h hsuf

/-- **The first occurrence is the one with the most text behind it.** -/
theorem eq_of_firstAt_length (h : firstAt pat s = some q) {t : List α} (hsuf : t <:+ s)
    (hlen : q.length = t.length) : q = t := by
  obtain ⟨-, hq⟩ := prefix_and_suffix_of_firstAt h
  exact (List.suffix_of_suffix_length_le hq hsuf hlen.le).eq_of_length hlen

omit [DecidableEq α] in
/-- A string does not begin before its first character is there. -/
theorem infix_append_iff_of_notMem {p a b : List α} {c : α} (h : c ∉ a) :
    c :: p <:+: a ++ b ↔ c :: p <:+: b := by
  induction a with
  | nil => rfl
  | cons x a ih =>
    rw [List.mem_cons, not_or] at h
    rw [List.cons_append, List.infix_cons_iff, ih h.2, or_iff_right]
    rintro ⟨u, hu⟩
    exact h.1 (List.cons.inj hu).1

/-- **A string with a character at its end** that does not come before it. -/
theorem firstAt_concat {p a t : List α} {c : α} (h : c ∉ a ++ p) :
    firstAt (p ++ [c]) (a ++ (p ++ c :: t)) = some (p ++ c :: t) := by
  induction a with
  | nil => exact firstAt_of_isPrefix ⟨t, by simp⟩
  | cons x a ih =>
    rw [List.cons_append, List.mem_cons, not_or] at h
    rw [List.cons_append, firstAt_cons, ih h.2]
    rintro ⟨u, hu⟩
    -- the character at the end would be one of those before the string
    have hget := congrArg (fun l => l[p.length]?) hu
    have hlt : p.length < (x :: (a ++ p)).length := by
      simp only [List.length_cons, List.length_append]
      omega
    rw [← List.append_assoc, ← List.cons_append] at hget
    simp only [List.append_assoc, List.getElem?_append_right (le_refl _), Nat.sub_self] at hget
    rw [List.getElem?_append_left hlt] at hget
    have hmem := List.mem_of_getElem? hget.symm
    exact (List.mem_cons.mp hmem).elim h.1 h.2

/-- **A string with a character at its beginning** that it does not have elsewhere. -/
theorem firstAt_append_cons {p a t : List α} {c : α} (hp : c ∉ p) (ha : ¬ c :: p <:+: a) :
    firstAt (c :: p) (a ++ (c :: p ++ t)) = some (c :: p ++ t) := by
  induction a with
  | nil => exact firstAt_of_isPrefix ⟨t, rfl⟩
  | cons x a ih =>
    rw [List.infix_cons_iff, not_or] at ha
    rw [List.cons_append, firstAt_cons, ih ha.2]
    rintro ⟨u, hu⟩
    obtain ⟨rfl, htail⟩ := List.cons.inj hu
    rcases List.append_eq_append_iff.mp htail with ⟨v, rfl, -⟩ | ⟨v, rfl, hv⟩
    · exact ha.1 ⟨v, rfl⟩
    · -- otherwise the character is in the string once more
      cases v with
      | nil => exact ha.1 ⟨[], by simp⟩
      | cons d v =>
        obtain ⟨rfl, -⟩ := List.cons.inj hv
        exact hp (by simp)

end Text
