import Mathlib.Computability.Language

/-!
# Groups with a counted tail

A group is a head, which says how many symbols belong to it, and so many symbols behind it. Texts
that are groups one behind the other are recognised with a counter of the symbols that are missing.

## Main definitions

* `Grouping`, `Grouping.groups`: how groups are written, and the language of all groups
* `Grouping.step`: the counter
* `Grouping.rest`: texts that complete a group, with groups behind them

## Main results

* `Grouping.foldlM_step_iff`: the counter recognises concatenations of groups
* `Grouping.cons_mem_kstar_iff`: such a concatenation by its first symbol
-/

namespace Text

open Computability

/-- **How groups are written**: how many symbols a head counts, and which ones may follow it. -/
structure Grouping (α : Type*) where
  head : α → Option ℕ
  tail : α → Prop

namespace Grouping

variable {α : Type*} (g : Grouping α)

/-- A head and the symbols that it counts. -/
def groups : Language α := {w | ∃ a t, w = a :: t ∧ g.head a = some t.length ∧ ∀ b ∈ t, g.tail b}

/-- **The counter**: a symbol, while `n` symbols are missing. -/
def step [DecidablePred g.tail] : ℕ → α → Option ℕ
  | 0, a => g.head a
  | n + 1, b => if g.tail b then some n else none

/-- Texts that begin with `n` missing symbols. -/
def rest (n : ℕ) : Language α :=
  {w | ∃ t s, w = t ++ s ∧ t.length = n ∧ (∀ b ∈ t, g.tail b) ∧ s ∈ g.groups∗}

variable {g} {n : ℕ} {a : α} {w : List α}

theorem rest_zero : g.rest 0 = g.groups∗ := by
  ext w
  constructor
  · rintro ⟨t, s, rfl, ht, -, hs⟩
    rw [List.length_eq_zero_iff.mp ht]
    exact hs
  · intro h
    exact ⟨[], w, rfl, rfl, by simp, h⟩

theorem nil_mem_rest_iff : [] ∈ g.rest n ↔ n = 0 := by
  constructor
  · rintro ⟨t, s, h, rfl, -, -⟩
    obtain ⟨rfl, -⟩ := List.append_eq_nil_iff.mp h.symm
    rfl
  · rintro rfl
    rw [rest_zero]
    exact Language.nil_mem_kstar _

/-- **A concatenation of groups** begins with a head, and what it counts follows. -/
theorem cons_mem_kstar_iff : a :: w ∈ g.groups∗ ↔ ∃ n, g.head a = some n ∧ w ∈ g.rest n := by
  constructor
  · intro h
    obtain ⟨L, hw, hL⟩ := Language.mem_kstar.mp h
    cases L with
    | nil => cases hw
    | cons v L =>
      obtain ⟨hv, hrest⟩ := List.forall_mem_cons.mp hL
      obtain ⟨b, t, rfl, hhead, htail⟩ := hv
      rw [List.flatten_cons, List.cons_append] at hw
      obtain ⟨rfl, rfl⟩ := List.cons.inj hw
      exact ⟨t.length, hhead, t, L.flatten, rfl, rfl, htail, Language.join_mem_kstar hrest⟩
  · rintro ⟨n, hhead, t, s, rfl, rfl, htail, hs⟩
    obtain ⟨L, rfl, hL⟩ := Language.mem_kstar.mp hs
    have hgroup : a :: t ∈ g.groups := ⟨a, t, rfl, hhead, htail⟩
    exact Language.mem_kstar.mpr ⟨(a :: t) :: L, rfl, List.forall_mem_cons.mpr ⟨hgroup, hL⟩⟩

theorem cons_mem_rest_iff : a :: w ∈ g.rest (n + 1) ↔ g.tail a ∧ w ∈ g.rest n := by
  constructor
  · rintro ⟨t, s, hw, ht, htail, hs⟩
    cases t with
    | nil => cases ht
    | cons b t =>
      obtain ⟨rfl, rfl⟩ := List.cons.inj hw
      obtain ⟨hb, hrest⟩ := List.forall_mem_cons.mp htail
      exact ⟨hb, t, s, rfl, Nat.succ.inj ht, hrest, hs⟩
  · rintro ⟨ha, t, s, rfl, rfl, htail, hs⟩
    exact ⟨a :: t, s, rfl, rfl, List.forall_mem_cons.mpr ⟨ha, htail⟩, hs⟩

variable [DecidablePred g.tail]

/-- One symbol. -/
theorem cons_mem_rest_iff_step : a :: w ∈ g.rest n ↔ ∃ m, g.step n a = some m ∧ w ∈ g.rest m := by
  cases n with
  | zero =>
    rw [rest_zero]
    exact cons_mem_kstar_iff
  | succ n =>
    rw [cons_mem_rest_iff, step]
    constructor
    · rintro ⟨ha, hw⟩
      exact ⟨n, if_pos ha, hw⟩
    · rintro ⟨m, hm, hw⟩
      split at hm
      · next ha =>
        cases hm
        exact ⟨ha, hw⟩
      · cases hm

/-- **The counter** ends at zero if and only if the missing symbols and groups have come. -/
theorem foldlM_step_iff : w.foldlM g.step n = some 0 ↔ w ∈ g.rest n := by
  induction w generalizing n with
  | nil =>
    rw [nil_mem_rest_iff]
    exact Option.some_inj
  | cons a w ih =>
    rw [List.foldlM_cons, cons_mem_rest_iff_step]
    constructor
    · intro h
      obtain ⟨m, hm, hw⟩ := Option.bind_eq_some_iff.mp h
      exact ⟨m, hm, ih.mp hw⟩
    · rintro ⟨m, hm, hw⟩
      exact Option.bind_eq_some_iff.mpr ⟨m, hm, ih.mpr hw⟩

end Grouping

end Text
