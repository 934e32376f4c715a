import Mathlib.Algebra.Order.Ring.Nat
import Mathlib.Data.List.TakeWhile

/-!
# Tokens of a text

`strsep` takes a text apart at a delimiter, one token for each call, and empty ones as well. It
keeps a pointer to what is left, which is null after the last token.

## Main definitions

* `strsep`: a token, and what is left
* `tokens`: all tokens of what is left

## Main results

* `strsep_fst`, `tokens_strsep`: a call takes the first token off
* `length_splitOn`: one token more than there are delimiters
* `eq_append_of_mem_splitOn`, `length_lt_of_splitOn`: what stands behind a token, and what is part
  of one
-/

namespace Text

variable {α : Type*} [DecidableEq α]

/-- **`strsep`**: the token, and what is left behind the delimiter. -/
def strsep (delim : α) : Option (List α) → Option (List α) × Option (List α)
  | none => (none, none)
  | some s =>
    let token := s.takeWhile (· ≠ delim)
    (some token, if delim ∈ s then some (s.drop (token.length + 1)) else none)

/-- **The tokens** of what is left. -/
def tokens (delim : α) : Option (List α) → List (List α)
  | none => []
  | some s => s.splitOn delim

variable {delim : α} {s : List α}

theorem splitOn_of_notMem (h : delim ∉ s) : s.splitOn delim = [s] := by
  apply List.splitOnP_eq_singleton
  intro x hx
  rw [beq_eq_false_iff_ne]
  rintro rfl
  exact h hx

theorem splitOn_append_cons {token rest : List α} (h : delim ∉ token) :
    (token ++ delim :: rest).splitOn delim = token :: rest.splitOn delim := by
  apply List.splitOnP_append_cons_of_forall_mem
  · intro x hx
    rw [beq_eq_false_iff_ne]
    rintro rfl
    exact h hx
  · exact beq_self_eq_true delim

/-- A text is its first token only, or the token, the delimiter, and what is left. -/
theorem strsep_cases (delim : α) (s : List α) :
    (delim ∉ s ∧ strsep delim (some s) = (some s, none)) ∨
      ∃ token rest, delim ∉ token ∧ s = token ++ delim :: rest ∧
        strsep delim (some s) = (some token, some rest) := by
  by_cases h : delim ∈ s
  · obtain ⟨token, rest, rfl, htoken⟩ := List.eq_append_cons_of_mem h
    have hne : ∀ x ∈ token, decide (x ≠ delim) = true := by
      intro x hx
      simpa using ne_of_mem_of_not_mem hx htoken
    have htake : (token ++ delim :: rest).takeWhile (· ≠ delim) = token := by
      rw [List.takeWhile_append_of_pos hne, List.takeWhile_cons_of_neg (by simp), List.append_nil]
    refine .inr ⟨token, rest, htoken, rfl, ?_⟩
    rw [strsep, htake, if_pos h, List.drop_length_add_append, List.drop_one, List.tail_cons]
  · have htake : s.takeWhile (· ≠ delim) = s := by
      rw [List.takeWhile_eq_self_iff]
      intro x hx
      simpa using ne_of_mem_of_not_mem hx h
    refine .inl ⟨h, ?_⟩
    rw [strsep, htake, if_neg h]

/-- **A call takes the first token.** -/
theorem strsep_fst (tmp : Option (List α)) : (strsep delim tmp).1 = (tokens delim tmp).head? := by
  cases tmp with
  | none => rfl
  | some s =>
    rcases strsep_cases delim s with ⟨h, hsep⟩ | ⟨token, rest, htoken, rfl, hsep⟩
    · rw [hsep, tokens, splitOn_of_notMem h]
      rfl
    · rw [hsep, tokens, splitOn_append_cons htoken]
      rfl

/-- **The other tokens are left.** -/
theorem tokens_strsep (tmp : Option (List α)) :
    tokens delim (strsep delim tmp).2 = (tokens delim tmp).tail := by
  cases tmp with
  | none => rfl
  | some s =>
    rcases strsep_cases delim s with ⟨h, hsep⟩ | ⟨token, rest, htoken, rfl, hsep⟩
    · rw [hsep, tokens, tokens, splitOn_of_notMem h]
      rfl
    · rw [hsep, tokens, tokens, splitOn_append_cons htoken]
      rfl

/-- There is one token more than there are delimiters. -/
theorem length_splitOn (delim : α) (s : List α) :
    (s.splitOn delim).length = s.count delim + 1 := by
  induction s with
  | nil => rfl
  | cons x s ih =>
    rw [List.splitOn_cons_eq_if_modifyHead, List.count_cons]
    by_cases h : x = delim
    · rw [if_pos (by simpa using h), if_pos (by simpa using h), List.length_cons, ih]
    · rw [if_neg (by simpa using h), if_neg (by simpa using h), List.length_modifyHead, ih]

/-- A text without the delimiter, or the first token, the delimiter and the rest. -/
theorem eq_append_cons_or_notMem (delim : α) (s : List α) :
    delim ∉ s ∨ ∃ token rest, delim ∉ token ∧ s = token ++ delim :: rest := by
  by_cases h : delim ∈ s
  · obtain ⟨token, rest, hs, htoken⟩ := List.eq_append_cons_of_mem h
    exact .inr ⟨token, rest, htoken, hs⟩
  · exact .inl h

/-- **A token stands in the text**, and behind it is the delimiter or the end. -/
theorem eq_append_of_mem_splitOn {token : List α} (h : token ∈ s.splitOn delim) :
    ∃ p q, s = p ++ token ++ q ∧ ∀ c ∈ q.head?, c = delim := by
  -- induction on the length: the first token goes, with its delimiter
  induction hn : s.length using Nat.strong_induction_on generalizing s with
  | _ n ih =>
    rcases eq_append_cons_or_notMem delim s with hs | ⟨first, rest, hfirst, rfl⟩
    · rw [splitOn_of_notMem hs, List.mem_singleton] at h
      exact ⟨[], [], by rw [h, List.nil_append, List.append_nil], nofun⟩
    · rw [splitOn_append_cons hfirst] at h
      rcases List.mem_cons.mp h with rfl | h
      · exact ⟨[], delim :: rest, rfl, fun c hc => (Option.some.inj hc).symm⟩
      · rw [List.length_append, List.length_cons] at hn
        obtain ⟨p, q, rfl, hq⟩ := ih rest.length (by omega) h rfl
        exact ⟨first ++ delim :: p, q, by simp, hq⟩

/-- The tokens are no longer than the text. -/
theorem sum_length_splitOn_le (delim : α) (s : List α) :
    ((s.splitOn delim).map List.length).sum ≤ s.length := by
  induction hn : s.length using Nat.strong_induction_on generalizing s with
  | _ n ih =>
    rcases eq_append_cons_or_notMem delim s with hs | ⟨first, rest, hfirst, rfl⟩
    · rw [splitOn_of_notMem hs, List.map_singleton, List.sum_singleton, hn]
    · rw [List.length_append, List.length_cons] at hn
      have hrest := ih rest.length (by omega) rest rfl
      rw [splitOn_append_cons hfirst, List.map_cons, List.sum_cons]
      omega

/-- What stands in the text without a delimiter is part of a token. -/
theorem length_lt_of_splitOn {n : ℕ} (h : ∀ token ∈ s.splitOn delim, token.length < n)
    {p t q : List α} (hs : s = p ++ t ++ q) (ht : delim ∉ t) : t.length < n := by
  induction hn : s.length using Nat.strong_induction_on generalizing s p with
  | _ k ih =>
    rcases eq_append_cons_or_notMem delim p with hp | ⟨first, rest, hfirst, rfl⟩
    · -- the first token goes on to the delimiter behind `t`
      have hpt : delim ∉ p ++ t := fun hmem => (List.mem_append.mp hmem).elim hp ht
      have hle : t.length ≤ (p ++ t).length := by
        rw [List.length_append]
        exact Nat.le_add_left _ _
      rcases eq_append_cons_or_notMem delim q with hq | ⟨first, rest, hfirst, rfl⟩
      · rw [hs, splitOn_of_notMem fun hmem => (List.mem_append.mp hmem).elim hpt hq] at h
        have := h _ (List.mem_singleton_self _)
        rw [List.length_append] at this
        omega
      · rw [hs, ← List.append_assoc, splitOn_append_cons fun hmem =>
          (List.mem_append.mp hmem).elim hpt hfirst] at h
        have := h _ List.mem_cons_self
        rw [List.length_append] at this
        omega
    · rw [List.append_assoc, List.append_assoc, List.cons_append, ← List.append_assoc] at hs
      rw [hs, splitOn_append_cons hfirst] at h
      rw [hs, List.length_append, List.length_cons] at hn
      exact ih _ (by omega) (fun token htoken => h token (List.mem_cons_of_mem _ htoken)) rfl rfl

end Text
