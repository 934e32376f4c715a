import Mathlib.Logic.Function.Basic
import Mathlib.Algebra.BigOperators.Group.List.Basic
import Mathlib.Algebra.Order.Ring.Int
import RkIpc.Transition.Run

/-!
# A counter that is read and written back

Threads change a shared counter in two steps: a thread reads it, and later writes the number it
has read with a change. No update is lost in a run in which a thread reads only while no other
thread has a number to write back.

## Main definitions

* `Counter`, `Counter.Step`: the counter with the numbers read, and its steps
* `Counter.Alone`: a read while nobody else has read

## Main results

* `Counter.value_eq`: the counter is what all changes make of it
-/

/-- **A counter**, and the numbers that were read and not written back yet. -/
structure Counter (ι : Type*) where
  value : ℤ
  pending : ι → Option ℤ

namespace Counter

open Transition

variable {ι : Type*}

/-- What a thread does. -/
inductive Action where
  | read
  | write (change : ℤ)
  | other

/-- The change an action makes. -/
def Action.change : Action → ℤ
  | .write c => c
  | _ => 0

/-- A step of a thread. -/
inductive Step [DecidableEq ι] (s : Counter ι) : ι × Action → Counter ι → Prop
  | read (i : ι) :
      Step s (i, .read) { s with pending := Function.update s.pending i (some s.value) }
  | write {i : ι} {n c : ℤ} :
      s.pending i = some n →
      Step s (i, .write c) { value := n + c, pending := Function.update s.pending i none }
  | other (i : ι) : Step s (i, .other) s

/-- **Nobody else has read** the counter when a thread reads it. -/
def Alone (s : Counter ι) : ι × Action → Prop
  | (i, .read) => ∀ j, j ≠ i → s.pending j = none
  | _ => True

/-- What was read is still there, and by one thread only. -/
structure Exact (s : Counter ι) : Prop where
  current : ∀ i n, s.pending i = some n → n = s.value
  single : ∀ i j, s.pending i ≠ none → s.pending j ≠ none → i = j

theorem Exact.of_none {s : Counter ι} (h : ∀ i, s.pending i = none) : s.Exact where
  current i n hi := by rw [h] at hi; cases hi
  single i j hi := absurd (h i) hi

variable [DecidableEq ι] {s t : Counter ι}

/-- A step changes the counter by what it should. -/
theorem Step.value_eq {a : ι × Action} (hstep : Step s a t) (hs : s.Exact) :
    t.value = s.value + a.2.change := by
  cases hstep with
  | read i => exact (Int.add_zero _).symm
  | write hpending =>
    rw [hs.current _ _ hpending]
    rfl
  | other i => exact (Int.add_zero _).symm

/-- A step without disturbance keeps what was read exact. -/
theorem Step.exact {a : ι × Action} (hstep : Step s a t) (halone : s.Alone a) (hs : s.Exact) :
    t.Exact := by
  cases hstep with
  | read i =>
    have hnone : ∀ j, j ≠ i → Function.update s.pending i (some s.value) j = none := fun j hj => by
      rw [Function.update_of_ne hj, halone j hj]
    have heq : ∀ j, Function.update s.pending i (some s.value) j ≠ none → j = i := fun j hj => by
      by_contra hne
      exact hj (hnone j hne)
    refine ⟨fun j n hj => ?_, fun j k hj hk => (heq j hj).trans (heq k hk).symm⟩
    dsimp only at hj
    obtain rfl := heq j fun h => by rw [h] at hj; cases hj
    rw [Function.update_self] at hj
    exact (Option.some.inj hj).symm
  | @write i n c hpending =>
    refine Exact.of_none fun j => ?_
    dsimp only
    by_cases hj : j = i
    · rw [hj, Function.update_self]
    · rw [Function.update_of_ne hj]
      by_contra hne
      exact hj (hs.single j i hne (by simp [hpending]))
  | other i => exact hs

/-- **The counter is what all changes make of it.** -/
theorem value_eq {as : List (ι × Action)}
    (hrun : Run (fun s a t => s.Alone a ∧ Step s a t) s as t) (hs : s.Exact) :
    t.Exact ∧ t.value = s.value + (as.map fun a => a.2.change).sum := by
  induction hrun with
  | nil => exact ⟨hs, by simp⟩
  | snoc _ hstep ih =>
    obtain ⟨hexact, hvalue⟩ := ih
    refine ⟨hstep.2.exact hstep.1 hexact, ?_⟩
    rw [hstep.2.value_eq hexact, hvalue, List.map_append, List.sum_append, List.map_singleton,
      List.sum_singleton, Int.add_assoc]

end Counter
