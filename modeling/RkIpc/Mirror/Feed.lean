import Mathlib.Order.BooleanAlgebra.Set

/-!
# Mirrors kept by a feed of changes

A set is mirrored by a reader who learns of its changes late, from a queue. Each change names a
key and says whether it arrived or left. The mirror may also be cut back from outside, ahead of
the source: the key cut off is withheld until the source has lost it as well.

## Main definitions

* `lastChange q k`: what the queue says last about a key
* `Tracks q source mirror withheld`: the mirror is right about every key without a change queued

## Main results

* `Tracks.arrive`, `Tracks.leave`: a change of the source, with its report
* `Tracks.list`, `Tracks.unlist`, `Tracks.skip`: a report read
* `Tracks.withhold`, `Tracks.release`: the mirror cut back ahead of the source
* `Tracks.eq_of_nil`: when every report has been read the mirror is the source
-/

namespace Mirror

variable {κ : Type*} [DecidableEq κ]

/-- What a queue of changes says last about `k`: `true` for an arrival. -/
def lastChange (q : List (κ × Bool)) (k : κ) : Option Bool :=
  (q.reverse.find? fun c => c.1 = k).map Prod.snd

@[simp] theorem lastChange_nil (k : κ) : lastChange ([] : List (κ × Bool)) k = none := rfl

theorem lastChange_concat (q : List (κ × Bool)) (j k : κ) (b : Bool) :
    lastChange (q ++ [(j, b)]) k = if j = k then some b else lastChange q k := by
  unfold lastChange
  -- the change queued last is the first one looked at
  rw [List.reverse_append, List.reverse_singleton, List.singleton_append, List.find?_cons]
  by_cases h : j = k <;> simp [h]

theorem lastChange_cons (q : List (κ × Bool)) (j k : κ) (b : Bool) :
    lastChange ((j, b) :: q) k = (lastChange q k).or (if j = k then some b else none) := by
  unfold lastChange
  -- the change queued first counts only if no later one is about `k`
  rw [List.reverse_cons, List.find?_append, Option.map_or]
  by_cases h : j = k <;> simp [h]

/-- **The mirror tracks the source**: what is queued last about a key is true of the source; about
any other key the mirror is right, save that it may lack the one withheld. -/
structure Tracks (q : List (κ × Bool)) (source mirror : Set κ) (withheld : Option κ) : Prop where
  pending : ∀ {k b}, lastChange q k = some b → (k ∈ source ↔ b = true)
  settled : ∀ {k}, lastChange q k = none → withheld ≠ some k → (k ∈ mirror ↔ k ∈ source)
  sound : ∀ {k}, lastChange q k = none → k ∈ mirror → k ∈ source

namespace Tracks

variable {q : List (κ × Bool)} {source mirror : Set κ} {withheld : Option κ} {k : κ}

/-! ## The source changes -/

/-- A key arrives in the source, and its report is queued. -/
theorem arrive (h : Tracks q source mirror withheld) (k : κ) :
    Tracks (q ++ [(k, true)]) (insert k source) mirror withheld := by
  constructor
  · intro j b hj
    rw [lastChange_concat] at hj
    rcases eq_or_ne k j with rfl | hne
    -- the last report about `k` is now the arrival
    · simp only [if_true, Option.some.injEq] at hj
      simp [← hj]
    · rw [if_neg hne] at hj
      simpa [hne.symm] using h.pending hj
  · intro j hj hw
    rw [lastChange_concat] at hj
    split_ifs at hj with hne
    rw [Set.mem_insert_iff, or_iff_right (Ne.symm hne)]
    exact h.settled hj hw
  · intro j hj hm
    rw [lastChange_concat] at hj
    split_ifs at hj with hne
    exact Set.mem_insert_of_mem k (h.sound hj hm)

/-- A key leaves the source, and its report is queued. -/
theorem leave (h : Tracks q source mirror withheld) (k : κ) :
    Tracks (q ++ [(k, false)]) (source \ {k}) mirror withheld := by
  constructor
  · intro j b hj
    rw [lastChange_concat] at hj
    rcases eq_or_ne k j with rfl | hne
    -- the last report about `k` is now the departure
    · simp only [if_true, Option.some.injEq] at hj
      simp [← hj]
    · rw [if_neg hne] at hj
      simpa [hne.symm] using h.pending hj
  · intro j hj hw
    rw [lastChange_concat] at hj
    split_ifs at hj with hne
    rw [Set.mem_sdiff_singleton, and_iff_left (Ne.symm hne)]
    exact h.settled hj hw
  · intro j hj hm
    rw [lastChange_concat] at hj
    split_ifs at hj with hne
    exact ⟨h.sound hj hm, Ne.symm hne⟩

/-! ## A report is read -/

/-- What a report read without a later one says is true of the source. -/
theorem mem_of_head {b : Bool} (h : Tracks ((k, b) :: q) source mirror withheld)
    (hq : lastChange q k = none) : k ∈ source ↔ b = true :=
  h.pending (by rw [lastChange_cons, hq, if_pos rfl]; rfl)

/-- The reports of the other keys stay as they are. -/
theorem lastChange_head {b : Bool} {j : κ} (hj : lastChange q j = none) (hne : k ≠ j) :
    lastChange ((k, b) :: q) j = none := by
  rw [lastChange_cons, hj, if_neg hne]
  rfl

/-- A report with a later one for its key decides nothing. -/
theorem pending_tail {b c : Bool} {j : κ} (h : Tracks ((k, b) :: q) source mirror withheld)
    (hj : lastChange q j = some c) : j ∈ source ↔ c = true :=
  h.pending (by rw [lastChange_cons, hj]; rfl)

/-- An arrival is read, and the key listed. -/
theorem list (h : Tracks ((k, true) :: q) source mirror withheld) :
    Tracks q source (insert k mirror) withheld := by
  constructor
  · exact h.pending_tail
  · intro j hj hw
    rcases eq_or_ne k j with rfl | hne
    -- no later report about `k`: it is in the source, and now in the mirror
    · simp [h.mem_of_head hj]
    · rw [Set.mem_insert_iff, or_iff_right hne.symm]
      exact h.settled (lastChange_head hj hne) hw
  · intro j hj hm
    rcases eq_or_ne k j with rfl | hne
    · exact (h.mem_of_head hj).mpr rfl
    · exact h.sound (lastChange_head hj hne) (hm.resolve_left hne.symm)

/-- A departure is read, and the key taken off. -/
theorem unlist (h : Tracks ((k, false) :: q) source mirror withheld) :
    Tracks q source (mirror \ {k}) withheld := by
  constructor
  · exact h.pending_tail
  · intro j hj hw
    rcases eq_or_ne k j with rfl | hne
    -- no later report about `k`: it is in neither
    · simp [h.mem_of_head hj]
    · rw [Set.mem_sdiff_singleton, and_iff_left hne.symm]
      exact h.settled (lastChange_head hj hne) hw
  · intro j hj hm
    exact h.sound (lastChange_head hj (Ne.symm hm.2)) hm.1

/-- An arrival is read when the key is gone again: its departure is still queued. -/
theorem skip (h : Tracks ((k, true) :: q) source mirror withheld) (hk : k ∉ source) :
    Tracks q source mirror withheld := by
  -- `k` has left the source, so its departure is still in the queue
  have hne : ∀ {j}, lastChange q j = none → k ≠ j := by
    rintro j hj rfl
    exact hk ((h.mem_of_head hj).mpr rfl)
  exact
    ⟨h.pending_tail, fun hj hw => h.settled (lastChange_head hj (hne hj)) hw,
      fun hj hm => h.sound (lastChange_head hj (hne hj)) hm⟩

/-! ## The mirror is cut back -/

/-- A key is taken off the mirror first: it is withheld. -/
theorem withhold (h : Tracks q source mirror none) (k : κ) :
    Tracks q source (mirror \ {k}) (some k) := by
  refine ⟨h.pending, fun {j} hj hw => ?_, fun hj hm => h.sound hj hm.1⟩
  have hne : j ≠ k := fun he => hw (congrArg some he.symm)
  rw [Set.mem_sdiff_singleton, and_iff_left hne]
  exact h.settled hj (Option.some_ne_none j).symm

/-- The source has lost the key as well. -/
theorem release (h : Tracks q source mirror (some k)) (hk : k ∉ source) :
    Tracks q source mirror none := by
  refine ⟨h.pending, fun {j} hj _ => ?_, h.sound⟩
  rcases eq_or_ne k j with rfl | hne
  -- the mirror does not have `k`, by soundness, and now the source does not either
  · exact iff_of_false (fun hm => hk (h.sound hj hm)) hk
  · exact h.settled hj fun he => hne (Option.some.inj he)

/-- **When every report has been read** and nothing is withheld, the mirror is the source. -/
theorem eq_of_nil (h : Tracks [] source mirror none) : mirror = source :=
  Set.ext fun j => h.settled (lastChange_nil j) (Option.some_ne_none j).symm

end Tracks

end Mirror
