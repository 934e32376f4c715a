import Mathlib.Logic.Function.Basic
import Mathlib.Data.List.Basic

/-!
# Resources behind handles

Resources of several kinds are created and destroyed behind handles. A destruction takes effect if
its kind is the one the resource was created as. What is alive follows from the record of what was
done, and the record is in turn if nothing is created behind a handle whose resource is alive.

## Main definitions

* `Use`, `alive`: a creation or destruction, and what is alive after a record of them
* `InTurn`: nothing is created over something alive

## Main results

* `alive_create`, `alive_destroy`: what is alive after one more
* `inTurn_create_iff`, `inTurn_destroy_iff`: whether the record stays in turn
-/

namespace Resource

variable {ι κ : Type*}

/-- A creation or a destruction behind a handle. -/
inductive Use (ι κ : Type*) where
  | create (i : ι) (k : κ)
  | destroy (i : ι) (k : κ)
deriving DecidableEq

variable [DecidableEq ι] [DecidableEq κ]

/-- What is alive after it. -/
def Use.apply (s : ι → Option κ) : Use ι κ → ι → Option κ
  | .create i k => Function.update s i (some k)
  | .destroy i k => if s i = some k then Function.update s i none else s

/-- **What is alive** after a record. -/
def alive (uses : List (Use ι κ)) : ι → Option κ := uses.foldl Use.apply fun _ => none

/-- **In turn**: every creation is behind a handle with nothing alive. -/
def InTurn (uses : List (Use ι κ)) : Prop :=
  ∀ pre i k post, uses = pre ++ .create i k :: post → alive pre i = none

variable {uses : List (Use ι κ)} {i j : ι} {k : κ}

theorem alive_concat (u : Use ι κ) : alive (uses ++ [u]) = u.apply (alive uses) := by
  rw [alive, List.foldl_append]
  rfl

theorem alive_create :
    alive (uses ++ [.create i k]) j = if j = i then some k else alive uses j := by
  rw [alive_concat, Use.apply, Function.update_apply]

theorem alive_destroy : alive (uses ++ [.destroy i k]) j =
    if j = i ∧ alive uses i = some k then none else alive uses j := by
  rw [alive_concat, Use.apply]
  by_cases hk : alive uses i = some k
  · simp only [hk, and_true, if_true, Function.update_apply]
  · simp only [hk, and_false, if_false]

/-- What is alive after a destruction was alive before. -/
theorem alive_of_destroy (h : alive (uses ++ [.destroy i k]) j ≠ none) :
    alive (uses ++ [.destroy i k]) j = alive uses j := by
  rw [alive_destroy] at h ⊢
  split at h
  · exact absurd rfl h
  · exact if_neg ‹_›

theorem inTurn_nil : InTurn ([] : List (Use ι κ)) := fun pre i k post h => by simp at h

/-- Whether a record stays in turn is a matter of what is alive at its end. -/
theorem inTurn_concat_iff {u : Use ι κ} :
    InTurn (uses ++ [u]) ↔ InTurn uses ∧ ∀ i k, u = .create i k → alive uses i = none := by
  constructor
  · refine fun h => ⟨fun pre i k post hpre => ?_, fun i k hu => ?_⟩
    · exact h pre i k (post ++ [u]) (by rw [hpre, List.append_assoc, List.cons_append])
    · exact h uses i k [] (by rw [hu])
  · rintro ⟨hturn, hlast⟩ pre i k post hpre
    -- the creation is the last of the record, or it was there before
    rcases List.eq_nil_or_concat post with rfl | ⟨post, u', rfl⟩
    · obtain ⟨rfl, hu⟩ := List.append_inj' hpre rfl
      exact hlast i k (List.cons.inj hu).1
    · rw [List.concat_eq_append, ← List.cons_append, ← List.append_assoc] at hpre
      obtain ⟨huses, -⟩ := List.append_inj' hpre rfl
      exact hturn pre i k post huses

theorem inTurn_create_iff : InTurn (uses ++ [.create i k]) ↔ InTurn uses ∧ alive uses i = none := by
  rw [inTurn_concat_iff]
  refine and_congr_right fun _ => ⟨fun h => h i k rfl, fun h j k' hu => ?_⟩
  obtain ⟨rfl, -⟩ := Use.create.inj hu
  exact h

theorem inTurn_destroy_iff : InTurn (uses ++ [.destroy i k]) ↔ InTurn uses := by
  rw [inTurn_concat_iff]
  exact and_iff_left fun _ _ hu => by cases hu

end Resource
