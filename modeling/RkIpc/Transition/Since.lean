import Mathlib.Data.List.Basic

/-!
# What happened since

A past is the list of what happened, the latest first. `Since p q past` says that something in `p`
happened, and nothing in `q` since then.

## Main results

* `since_cons_iff`, `not_since_nil`: what one more event does
* `since_cons_of_left`, `since_cons_of_not`, `not_since_cons`: events in `p`, in neither, and in `q`
-/

namespace Transition

variable {α : Type*} {p q : α → Prop} {a : α} {past : List α}

/-- **Something in `p` happened, and nothing in `q` since.** -/
def Since (p q : α → Prop) (past : List α) : Prop :=
  ∃ newer a older, past = newer ++ a :: older ∧ p a ∧ ∀ b ∈ newer, ¬ q b

theorem not_since_nil : ¬ Since p q [] := by
  rintro ⟨newer, a, older, hpast, -⟩
  exact List.append_ne_nil_of_right_ne_nil newer (List.cons_ne_nil a older) hpast.symm

/-- **One more event** is in `p`, or it is not in `q` and the past was such before. -/
theorem since_cons_iff : Since p q (a :: past) ↔ p a ∨ ¬ q a ∧ Since p q past := by
  constructor
  · rintro ⟨newer, b, older, hpast, hb, hnewer⟩
    cases newer with
    | nil =>
      obtain ⟨rfl, -⟩ := List.cons.inj hpast
      exact Or.inl hb
    | cons c newer =>
      obtain ⟨rfl, hrest⟩ := List.cons.inj hpast
      have hall := List.forall_mem_cons.mp hnewer
      exact Or.inr ⟨hall.1, newer, b, older, hrest, hb, hall.2⟩
  · rintro (ha | ⟨ha, newer, b, older, rfl, hb, hnewer⟩)
    · exact ⟨[], a, past, rfl, ha, nofun⟩
    · exact ⟨a :: newer, b, older, rfl, hb, List.forall_mem_cons.mpr ⟨ha, hnewer⟩⟩

theorem since_cons_of_left (ha : p a) : Since p q (a :: past) := since_cons_iff.mpr (Or.inl ha)

theorem since_cons_of_not (hp : ¬ p a) (hq : ¬ q a) : Since p q (a :: past) ↔ Since p q past := by
  rw [since_cons_iff, or_iff_right hp, and_iff_right hq]

theorem not_since_cons (hp : ¬ p a) (hq : q a) : ¬ Since p q (a :: past) := by
  rw [since_cons_iff]
  rintro (ha | ⟨ha, -⟩)
  · exact hp ha
  · exact ha hq

end Transition
