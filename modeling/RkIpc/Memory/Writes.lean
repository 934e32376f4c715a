import Mathlib.Algebra.Order.Ring.Int
import Mathlib.Logic.Function.Basic
import Mathlib.Tactic.Linarith
import Mathlib.Tactic.Ring

/-!
# Writes to a raster

What a function that draws does to a memory is the list of its writes. A loop that draws one line
after the other moves a pointer by the pitch of the raster, so that a line which lies in a row is
drawn in the rows below it.

## Main definitions

* `stored`: a memory after some writes
* `memset`: a run of bytes
* `lines`: a loop that draws one line below the other
* `counting`: a loop that counts up, with a second index beside the first

## Main results

* `stored_of_untouched`: what is not written stays
* `stored_of_mem`, `stored_congr`: what is written, if each place is written with one value
* `mem_memset_iff`, `mem_lines_iff`, `mem_counting_iff`: what is written
* `row_of`, `column_of`: the place of an offset in a raster
-/

namespace Memory

variable {α : Type*}

/-- **A memory after some writes**, the first one first. -/
def stored (m : ℤ → α) (ws : List (ℤ × α)) : ℤ → α :=
  ws.foldl (fun m w => Function.update m w.1 w.2) m

/-- What is not written stays. -/
theorem stored_of_untouched {m : ℤ → α} {ws : List (ℤ × α)} {o : ℤ} (h : ∀ w ∈ ws, w.1 ≠ o) :
    stored m ws o = m o := by
  induction ws generalizing m with
  | nil => rfl
  | cons w ws ih =>
    have hrest : stored (Function.update m w.1 w.2) ws o = Function.update m w.1 w.2 o :=
      ih fun w hw => h w (List.mem_cons_of_mem _ hw)
    rw [stored, List.foldl_cons]
    exact hrest.trans (Function.update_of_ne (h w List.mem_cons_self).symm _ _)

/-- What is written at a place, if it is always the same. -/
theorem stored_of_mem {m : ℤ → α} {ws : List (ℤ × α)} {o : ℤ} {v : α} (hmem : (o, v) ∈ ws)
    (h : ∀ w ∈ ws, w.1 = o → w.2 = v) : stored m ws o = v := by
  induction ws generalizing m with
  | nil => cases hmem
  | cons w ws ih =>
    obtain ⟨hw, hrest⟩ := List.forall_mem_cons.mp h
    rw [stored, List.foldl_cons]
    by_cases hagain : (o, v) ∈ ws
    · exact ih hagain hrest
    · -- this is the last write at the place
      obtain rfl : (o, v) = w := (List.mem_cons.mp hmem).resolve_right hagain
      have huntouched : ∀ w ∈ ws, w.1 ≠ o := fun w hw ho =>
        hagain ((Prod.ext ho (hrest w hw ho) : w = (o, v)) ▸ hw)
      exact (stored_of_untouched huntouched).trans (Function.update_self ..)

/-- Writes are known by what is written, if each place is written with one value. -/
theorem stored_congr {m : ℤ → α} {ws ws' : List (ℤ × α)} (h : ∀ w, w ∈ ws ↔ w ∈ ws')
    (hone : ∀ w ∈ ws, ∀ w' ∈ ws, w.1 = w'.1 → w.2 = w'.2) : stored m ws = stored m ws' := by
  funext o
  by_cases ho : ∃ w ∈ ws, w.1 = o
  · obtain ⟨w, hw, rfl⟩ := ho
    rw [stored_of_mem hw fun w' hw' heq => hone w' hw' w hw heq,
      stored_of_mem ((h w).mp hw) fun w' hw' heq => hone w' ((h w').mpr hw') w hw heq]
  · have huntouched : ∀ w ∈ ws, w.1 ≠ o := fun w hw heq => ho ⟨w, hw, heq⟩
    rw [stored_of_untouched huntouched, stored_of_untouched fun w hw => huntouched w ((h w).mpr hw)]

/-- `memset(ptr, value, size)`. -/
def memset (ptr : ℤ) (value : α) (size : ℕ) : List (ℤ × α) :=
  (List.range size).map fun i : ℕ => (ptr + i, value)

theorem mem_memset_iff {ptr : ℤ} {value : α} {size : ℕ} {w : ℤ × α} :
    w ∈ memset ptr value size ↔ (ptr ≤ w.1 ∧ w.1 < ptr + size) ∧ w.2 = value := by
  obtain ⟨o, v⟩ := w
  simp only [memset, List.mem_map, List.mem_range, Prod.mk.injEq]
  constructor
  · rintro ⟨i, hi, rfl, rfl⟩
    exact ⟨⟨by omega, by omega⟩, rfl⟩
  · rintro ⟨⟨hlo, hhi⟩, rfl⟩
    exact ⟨(o - ptr).toNat, by omega, by omega, rfl⟩

/-- **A loop that draws one line below the other**: what is written, and the pointer behind it. -/
def lines (pitch : ℤ) (line : ℤ → List (ℤ × α)) : ℕ → ℤ → List (ℤ × α) × ℤ
  | 0, ptr => ([], ptr)
  | n + 1, ptr =>
    let below := lines pitch line n (ptr + pitch)
    (line ptr ++ below.1, below.2)

section Lines

variable {pitch ptr : ℤ} {line : ℤ → List (ℤ × α)} {n : ℕ}

theorem lines_snd : (lines pitch line n ptr).2 = ptr + pitch * n := by
  induction n generalizing ptr with
  | zero => simp [lines]
  | succ n ih =>
    rw [lines, ih]
    push_cast
    ring

/-- **What is written** is one of the lines. -/
theorem mem_lines_iff {w : ℤ × α} :
    w ∈ (lines pitch line n ptr).1 ↔ ∃ i < n, w ∈ line (ptr + pitch * i) := by
  induction n generalizing ptr with
  | zero => simp [lines]
  | succ n ih =>
    rw [lines, List.mem_append, ih]
    constructor
    · rintro (hw | ⟨i, hi, hw⟩)
      · exact ⟨0, n.succ_pos, by simpa using hw⟩
      · refine ⟨i + 1, Nat.succ_lt_succ hi, ?_⟩
        convert hw using 2
        push_cast
        ring
    · rintro ⟨i, hi, hw⟩
      cases i with
      | zero => exact .inl (by simpa using hw)
      | succ i =>
        refine .inr ⟨i, Nat.lt_of_succ_lt_succ hi, ?_⟩
        convert hw using 2
        push_cast
        ring

end Lines

/-! ## Counting loops -/

/-- **A loop that counts up** to `hi`, and moves a second index along. -/
def counting (hi : ℤ) (next : ℤ → ℤ) (body : ℤ → ℤ → List α) (i p : ℤ) : List α :=
  if i < hi then body i p ++ counting hi next body (i + 1) (next p) else []
termination_by (hi - i).toNat

/-- **What is written**: the second index is in step with the first. -/
theorem mem_counting_iff {hi i : ℤ} {next beside : ℤ → ℤ} {body : ℤ → ℤ → List α} {x : α}
    (hnext : ∀ k, next (beside k) = beside (k + 1)) :
    x ∈ counting hi next body i (beside i) ↔ ∃ k, i ≤ k ∧ k < hi ∧ x ∈ body k (beside k) := by
  induction hn : (hi - i).toNat generalizing i with
  | zero =>
    rw [counting, if_neg (by omega)]
    refine iff_of_false List.not_mem_nil ?_
    rintro ⟨k, hlo, hhi, -⟩
    omega
  | succ n ih =>
    rw [counting, if_pos (by omega), List.mem_append, hnext, ih (by omega)]
    constructor
    · rintro (hx | ⟨k, hlo, hhi, hx⟩)
      · exact ⟨i, le_refl i, by omega, hx⟩
      · exact ⟨k, by omega, hhi, hx⟩
    · rintro ⟨k, hlo, hhi, hx⟩
      rcases hlo.eq_or_lt with rfl | hlt
      · exact .inl hx
      · exact .inr ⟨k, hlt, hhi, hx⟩

/-! ## Rasters -/

section Raster

variable {pitch row column o : ℤ}

theorem row_of (ho : o = pitch * row + column) (hlo : 0 ≤ column) (hhi : column < pitch) :
    o / pitch = row := by
  rw [ho, Int.add_comm, Int.add_mul_ediv_left _ _ (by omega), Int.ediv_eq_zero_of_lt hlo hhi,
    zero_add]

theorem column_of (ho : o = pitch * row + column) (hlo : 0 ≤ column) (hhi : column < pitch) :
    o % pitch = column := by
  rw [ho, Int.add_comm, Int.add_mul_emod_self_left, Int.emod_eq_of_lt hlo hhi]

/-- An offset in one of the rows is in the raster. -/
theorem lt_of_row {rows : ℤ} (ho : o = pitch * row + column) (hhi : column < pitch)
    (hrow : row < rows) (hlo : 0 ≤ pitch) : o < pitch * rows := by
  have hle : pitch * (row + 1) ≤ pitch * rows := Int.mul_le_mul_of_nonneg_left hrow hlo
  rw [ho]
  linarith

end Raster

end Memory
