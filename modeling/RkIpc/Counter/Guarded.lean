import Mathlib.Algebra.BigOperators.Group.List.Basic
import RkIpc.Counter.ReadWrite

/-!
# A counter that is raised below a limit

Threads look at a shared counter, and raise it later if what they saw was below a limit. Others
lower it as long as it is positive. The counter stays within the limit in a run in which a thread
looks only while no other thread is about to raise it.

## Main definitions

* `Counter.GuardedAction`, `Counter.GuardedStep`: what a thread does, and the steps
* `Counter.Quiet`: a look while nobody else is about to raise the counter

## Main results

* `Counter.guarded_value`: the counter is within the limit, and no raise is lost
-/

namespace Counter

open Transition

variable {ι : Type*}

/-- What a thread does. -/
inductive GuardedAction where
  | look
  | raise
  | leave
  | lower
  | other
deriving DecidableEq

/-- The change an action makes. -/
def GuardedAction.change : GuardedAction → ℤ
  | .raise => 1
  | .lower => -1
  | _ => 0

/-- **A step of a thread** where the counter has a limit. -/
inductive GuardedStep [DecidableEq ι] (limit : ℤ) (s : Counter ι) :
    ι × GuardedAction → Counter ι → Prop
  | look {i : ι} :
      s.pending i = none →
      GuardedStep limit s (i, .look)
        { s with pending := Function.update s.pending i (some s.value) }
  | raise {i : ι} {n : ℤ} :
      s.pending i = some n → n < limit →
      GuardedStep limit s (i, .raise)
        { value := s.value + 1, pending := Function.update s.pending i none }
  | leave {i : ι} {n : ℤ} :
      s.pending i = some n → limit ≤ n →
      GuardedStep limit s (i, .leave) { s with pending := Function.update s.pending i none }
  | lower {i : ι} :
      0 < s.value → GuardedStep limit s (i, .lower) { s with value := s.value - 1 }
  | other (i : ι) : GuardedStep limit s (i, .other) s

/-- A thread is about to raise the counter. -/
def Raises (limit : ℤ) (s : Counter ι) (i : ι) : Prop := ∃ n < limit, s.pending i = some n

/-- **Nobody else is about to raise** the counter when a thread looks at it. -/
def Quiet (limit : ℤ) (s : Counter ι) : ι × GuardedAction → Prop
  | (i, .look) => ∀ j, j ≠ i → ¬ Raises limit s j
  | _ => True

/-- **The counter is within its limit**, and one thread at most is about to raise it, which saw no
less than there is now. -/
structure Guarded (limit : ℤ) (s : Counter ι) : Prop where
  nonneg : 0 ≤ s.value
  le : s.value ≤ limit
  current : ∀ i n, s.pending i = some n → n < limit → s.value ≤ n
  single : ∀ i j, Raises limit s i → Raises limit s j → i = j

variable {limit : ℤ} {s t : Counter ι}

theorem Guarded.of_none (h0 : 0 ≤ s.value) (hle : s.value ≤ limit) (h : ∀ i, s.pending i = none) :
    s.Guarded limit where
  nonneg := h0
  le := hle
  current i n hi := by rw [h] at hi; cases hi
  single i j hi := by
    obtain ⟨n, -, hn⟩ := hi
    rw [h] at hn
    cases hn

variable [DecidableEq ι]

/-- What is pending once a thread is done. -/
theorem pending_of_update_none {i j : ι} {n : ℤ}
    (h : Function.update s.pending i none j = some n) : j ≠ i ∧ s.pending j = some n := by
  by_cases hj : j = i
  · rw [hj, Function.update_self] at h
    cases h
  · rw [Function.update_of_ne hj] at h
    exact ⟨hj, h⟩

/-- A step changes the counter by what it should. -/
theorem GuardedStep.value_eq {a : ι × GuardedAction} (hstep : GuardedStep limit s a t) :
    t.value = s.value + a.2.change := by
  cases hstep with
  | lower => exact Int.sub_eq_add_neg
  | raise => rfl
  | look | leave | other => exact (Int.add_zero _).symm

/-- **A step keeps the counter within its limit**, if nobody looks while another thread is about to
raise it. -/
theorem GuardedStep.guarded {a : ι × GuardedAction} (hstep : GuardedStep limit s a t)
    (hquiet : s.Quiet limit a) (hs : s.Guarded limit) : t.Guarded limit := by
  cases hstep with
  | @look i hi =>
    have hcase : ∀ {j n}, Function.update s.pending i (some s.value) j = some n → n < limit →
        j = i ∧ n = s.value := by
      intro j n hj hn
      by_cases hji : j = i
      · rw [hji, Function.update_self] at hj
        exact ⟨hji, (Option.some.inj hj).symm⟩
      · rw [Function.update_of_ne hji] at hj
        exact absurd ⟨n, hn, hj⟩ (hquiet j hji)
    refine ⟨hs.nonneg, hs.le, fun j n hj hn => (hcase hj hn).2.ge, fun j k hj hk => ?_⟩
    obtain ⟨n, hn, hj⟩ := hj
    obtain ⟨m, hm, hk⟩ := hk
    exact (hcase hj hn).1.trans (hcase hk hm).1.symm
  | @raise i n hi hn =>
    have hvalue := hs.current i n hi hn
    -- whoever else is to raise the counter would be this thread
    have hnone : ∀ j, ¬ Raises limit ⟨s.value + 1, Function.update s.pending i none⟩ j := by
      rintro j ⟨m, hm, hj⟩
      obtain ⟨hji, hj⟩ := pending_of_update_none hj
      exact hji (hs.single j i ⟨m, hm, hj⟩ ⟨n, hn, hi⟩)
    have h0 := hs.nonneg
    refine ⟨by dsimp only; omega, by dsimp only; omega, fun j m hj hm => ?_, fun j k hj _ => ?_⟩
    · exact absurd ⟨m, hm, hj⟩ (hnone j)
    · exact absurd hj (hnone j)
  | @leave i n hi hn =>
    refine ⟨hs.nonneg, hs.le, fun j m hj hm => ?_, fun j k hj hk => ?_⟩
    · exact hs.current j m (pending_of_update_none hj).2 hm
    · obtain ⟨m, hm, hj⟩ := hj
      obtain ⟨l, hl, hk⟩ := hk
      exact hs.single j k ⟨m, hm, (pending_of_update_none hj).2⟩
        ⟨l, hl, (pending_of_update_none hk).2⟩
  | lower hpos =>
    have hle := hs.le
    refine ⟨by dsimp only; omega, by dsimp only; omega, fun j m hj hm => ?_, hs.single⟩
    have hvalue := hs.current j m hj hm
    dsimp only
    omega
  | other => exact hs

/-- **The counter stays within its limit**, and is what all changes make of it. -/
theorem guarded_value {as : List (ι × GuardedAction)}
    (hrun : Run (fun s a t => s.Quiet limit a ∧ GuardedStep limit s a t) s as t)
    (hs : s.Guarded limit) :
    t.Guarded limit ∧ t.value = s.value + (as.map fun a => a.2.change).sum := by
  induction hrun with
  | nil => exact ⟨hs, by simp⟩
  | snoc _ hstep ih =>
    obtain ⟨hguarded, hvalue⟩ := ih
    refine ⟨hstep.2.guarded hstep.1 hguarded, ?_⟩
    rw [hstep.2.value_eq, hvalue, List.map_append, List.sum_append, List.map_singleton,
      List.sum_singleton, Int.add_assoc]

end Counter
