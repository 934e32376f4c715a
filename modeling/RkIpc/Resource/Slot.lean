import Mathlib.Data.List.Nodup

/-!
# A slot for one resource at a time

Resources of a kind, numbered as they are acquired, are kept in a variable that has room for one
of them. Acquiring another overwrites it; releasing takes the one that is held. As long as the
slot is empty whenever a resource is acquired, each resource is released at most once, and the one
held is the only one that has not been.

## Main definitions

* `Slot`, `Slot.acquire`, `Slot.release`: the variable, and what has been released
* `Slot.Clean`: what has been released is what was acquired and is not held, each once

## Main results

* `Slot.Clean.acquire`, `Slot.Clean.release`: both keep the slot clean, the first if it is empty
* `Slot.Clean.count_released`: in a clean empty slot every resource has been released exactly once
-/

namespace Resource

/-- A slot: how many resources were acquired so far, the one held, and those released. -/
structure Slot where
  created : ℕ
  held : Option ℕ
  released : List ℕ
deriving DecidableEq

namespace Slot

/-- Nothing has been acquired. -/
def empty : Slot := ⟨0, none, []⟩

/-- A new resource is acquired, and the slot overwritten with it. -/
def acquire (s : Slot) : Slot := { s with created := s.created + 1, held := some s.created }

/-- The resource held, if any, is released. -/
def release (s : Slot) : Slot :=
  match s.held with
  | none => s
  | some k => { s with held := none, released := s.released ++ [k] }

@[simp] theorem held_release (s : Slot) : s.release.held = none := by
  unfold release
  split
  · assumption
  · rfl

@[simp] theorem created_release (s : Slot) : s.release.created = s.created := by
  unfold release
  split <;> rfl

/-- **A clean slot**: what has been released, each once, is what was acquired and is not held. -/
structure Clean (s : Slot) : Prop where
  nodup : s.released.Nodup
  mem_released : ∀ k, k ∈ s.released ↔ k < s.created ∧ s.held ≠ some k
  lt_created : ∀ k, s.held = some k → k < s.created

theorem clean_empty : empty.Clean := by
  constructor <;> simp [empty]

/-- An empty slot may be overwritten. -/
theorem Clean.acquire {s : Slot} (hs : s.Clean) (hheld : s.held = none) : s.acquire.Clean where
  nodup := hs.nodup
  mem_released := by
    intro k
    -- the new resource is held, and the ones before it are released as they were
    have h := hs.mem_released k
    simp only [Slot.acquire, ne_eq, Option.some.injEq]
    rw [h, hheld]
    simp only [ne_eq, reduceCtorEq, not_false_eq_true, and_true]
    omega
  lt_created := by
    intro k hk
    obtain rfl := Option.some.inj hk
    exact Nat.lt_succ_self _

theorem Clean.release {s : Slot} (hs : s.Clean) : s.release.Clean := by
  cases hheld : s.held with
  | none => rwa [Slot.release, hheld]
  | some k =>
    -- what is held has not been released
    have hk : k ∉ s.released := fun h => ((hs.mem_released k).mp h).2 hheld
    rw [Slot.release, hheld]
    refine ⟨?_, fun j => ?_, by simp⟩
    · exact List.nodup_append.mpr ⟨hs.nodup, List.nodup_singleton k, fun a ha b hb =>
        (List.mem_singleton.mp hb) ▸ fun he => hk (he ▸ ha)⟩
    -- now it has, and nothing is held
    · have hj := hs.mem_released j
      have hlt := hs.lt_created k hheld
      rw [hheld] at hj
      simp only [List.mem_append, List.mem_singleton, hj, ne_eq, Option.some.injEq, reduceCtorEq,
        not_false_eq_true, and_true]
      omega

/-- In a clean slot a resource that is not held has been released. -/
theorem Clean.released_of_ne {s : Slot} (hs : s.Clean) {k : ℕ} (hk : k < s.created)
    (hne : s.held ≠ some k) : k ∈ s.released := (hs.mem_released k).mpr ⟨hk, hne⟩

/-- In a clean empty slot every resource has been released exactly once. -/
theorem Clean.count_released {s : Slot} (hs : s.Clean) (hheld : s.held = none) {k : ℕ}
    (hk : k < s.created) : s.released.count k = 1 :=
  List.count_eq_one_of_mem hs.nodup (hs.released_of_ne hk (by simp [hheld]))

end Slot

end Resource
