import Mathlib.Data.List.Forall2

/-!
# Blocks of memory

A block has room for as many values as it was made with. Values are written into it from an offset
on if there is room for all of them, and what is before and behind them stays.

## Main definitions

* `write`: values are written into a block
* `fill`: a loop that writes one value after the other

## Main results

* `length_write`, `drop_write`: the size of a block, and what is behind the values
* `write_append`: values that take the place of as many others
* `write_zero_eq_some_iff`: values at the beginning of a block
* `fill_eq_some_iff`, `exists_fill`: the loop writes one value for each item
-/

namespace Memory

variable {α : Type*} {block block' values pre old post : List α} {off : ℕ}

/-- **Values are written** from `off` on, if there is room for them. -/
def write (block : List α) (off : ℕ) (values : List α) : Option (List α) :=
  if off + values.length ≤ block.length then
    some (block.take off ++ values ++ block.drop (off + values.length))
  else none

theorem write_eq_none_iff : write block off values = none ↔ block.length < off + values.length := by
  unfold write
  split <;> simp_all

theorem write_isSome_iff :
    (write block off values).isSome ↔ off + values.length ≤ block.length := by
  rw [← not_iff_not, Bool.not_eq_true, Option.isSome_eq_false_iff, Option.isNone_iff_eq_none,
    write_eq_none_iff, Nat.not_le]

theorem length_write (h : write block off values = some block') :
    block'.length = block.length := by
  unfold write at h
  split at h
  · next hroom =>
    rw [← Option.some.inj h]
    simp only [List.length_append, List.length_take, List.length_drop]
    omega
  · cases h

/-- A write into a block that has room. -/
theorem exists_write (h : off + values.length ≤ block.length) :
    ∃ block', write block off values = some block' ∧ block'.length = block.length := by
  obtain ⟨block', hwrite⟩ := Option.isSome_iff_exists.mp (write_isSome_iff.mpr h)
  exact ⟨block', hwrite, length_write hwrite⟩

/-- What is behind the values stays. -/
theorem drop_write {n : ℕ} (h : write block off values = some block')
    (hn : off + values.length ≤ n) : block'.drop n = block.drop n := by
  unfold write at h
  split at h
  · next hroom =>
    have hlen : (block.take off ++ values).length = off + values.length := by
      rw [List.length_append, List.length_take_of_le (by omega)]
    rw [← Option.some.inj h, List.drop_append, List.drop_eq_nil_of_le (by omega), List.nil_append,
      List.drop_drop]
    congr 1
    omega
  · cases h

/-- Values take the place of as many others. -/
theorem write_append (h : old.length = values.length) :
    write (pre ++ (old ++ post)) pre.length values = some (pre ++ (values ++ post)) := by
  have hroom : pre.length + values.length ≤ (pre ++ (old ++ post)).length := by
    simp only [List.length_append]
    omega
  rw [write, if_pos hroom, List.take_left, ← h, ← List.length_append, ← List.append_assoc,
    List.drop_left, List.append_assoc]

/-- Values at the beginning of a block. -/
theorem write_zero_eq_some_iff : write block 0 values = some block' ↔
    values.length ≤ block.length ∧ block' = values ++ block.drop values.length := by
  unfold write
  rw [Nat.zero_add, List.take_zero, List.nil_append]
  constructor
  · intro h
    split at h
    · next hroom => exact ⟨hroom, (Option.some.inj h).symm⟩
    · cases h
  · rintro ⟨hroom, rfl⟩
    exact if_pos hroom

/-- What is in a block after a write at its beginning. -/
theorem getElem?_write_zero (h : write block 0 values = some block') (j : ℕ) :
    block'[j]? = (values[j]?).or block[j]? := by
  obtain ⟨-, rfl⟩ := write_zero_eq_some_iff.mp h
  rcases Nat.lt_or_ge j values.length with hj | hj
  · rw [List.getElem?_append_left hj, List.getElem?_eq_getElem hj, Option.some_or]
  · rw [List.getElem?_append_right hj, List.getElem?_eq_none hj, Option.none_or,
      List.getElem?_drop, Nat.add_sub_cancel' hj]

/-- **Values behind values** are one write. -/
theorem write_write (xs ys : List α) :
    ((write block off xs).bind fun block => write block (off + xs.length) ys) =
      write block off (xs ++ ys) := by
  by_cases hroom : off + (xs ++ ys).length ≤ block.length
  · have hsum : off + (xs.length + ys.length) ≤ block.length := by
      rwa [List.length_append] at hroom
    have hxs : write block off xs =
        some (block.take off ++ xs ++ block.drop (off + xs.length)) := if_pos (by omega)
    have hpre : (block.take off ++ xs).length = off + xs.length := by
      rw [List.length_append, List.length_take_of_le (by omega)]
    rw [hxs, Option.bind_some, ← List.take_append_drop ys.length (block.drop (off + xs.length)),
      ← hpre, write_append (by rw [List.length_take, List.length_drop, hpre]; omega),
      List.drop_drop, hpre, write, if_pos hroom, List.length_append]
    simp only [List.append_assoc, Nat.add_assoc]
  · have hxsys : write block off (xs ++ ys) = none := if_neg hroom
    rw [hxsys]
    refine Option.bind_eq_none_iff.mpr fun block₁ h => write_eq_none_iff.mpr ?_
    rw [length_write h]
    rw [List.length_append] at hroom
    omega

/-! ## Loops -/

variable {β : Type*} {f : α → Option β} {room : ℕ} {items : List α} {out out' : List β}

/-- **One value after the other** is written into a block with room for so many, each computed from
an item; `out` are the values so far. -/
def fill (f : α → Option β) (room : ℕ) : List α → List β → Option (List β)
  | [], out => some out
  | a :: items, out =>
    (f a).bind fun b => if out.length < room then fill f room items (out ++ [b]) else none

/-- **The loop writes one value for each item**, if there is room for them. -/
theorem fill_eq_some_iff (hout : out.length ≤ room) : fill f room items out = some out' ↔
    ∃ values, List.Forall₂ (fun a b => f a = some b) items values ∧ out' = out ++ values ∧
      out'.length ≤ room := by
  induction items generalizing out with
  | nil =>
    rw [fill, Option.some.injEq]
    constructor
    · rintro rfl
      exact ⟨[], .nil, (List.append_nil out).symm, hout⟩
    · rintro ⟨values, hvalues, rfl, -⟩
      cases hvalues
      exact (List.append_nil out).symm
  | cons a items ih =>
    rw [fill, Option.bind_eq_some_iff]
    have hlen : ∀ b : β, (out ++ [b]).length = out.length + 1 := fun b => by
      rw [List.length_append, List.length_singleton]
    constructor
    · rintro ⟨b, hb, h⟩
      split at h
      · next hroom =>
        obtain ⟨values, hvalues, rfl, hle⟩ := (ih (by rw [hlen]; exact hroom)).mp h
        exact ⟨b :: values, .cons hb hvalues, List.append_assoc .., hle⟩
      · cases h
    · rintro ⟨values, hvalues, rfl, hle⟩
      cases hvalues with
      | cons hb hvalues =>
        rename_i b values
        have hroom : out.length < room := by
          rw [List.length_append, List.length_cons] at hle
          omega
        refine ⟨b, hb, ?_⟩
        rw [if_pos hroom]
        exact (ih (by rw [hlen]; exact hroom)).mpr
          ⟨values, hvalues, (List.append_assoc out [b] values).symm, hle⟩

/-- Where the loop has written what it computed from an item. -/
theorem getElem?_of_fill (h : fill f room items [] = some out') {n : ℕ} {a : α}
    (ha : items[n]? = some a) : ∃ b, f a = some b ∧ out'[n]? = some b := by
  obtain ⟨values, hvalues, heq, -⟩ := (fill_eq_some_iff (Nat.zero_le room)).mp h
  obtain rfl : out' = values := heq
  obtain ⟨hn, rfl⟩ := List.getElem?_eq_some_iff.mp ha
  have hn' : n < out'.length := hvalues.length_eq ▸ hn
  refine ⟨out'[n], ?_, List.getElem?_eq_getElem hn'⟩
  exact (List.forall₂_iff_get.mp hvalues).2 n hn hn'

theorem length_of_fill (h : fill f room items [] = some out') :
    out'.length = items.length ∧ items.length ≤ room := by
  obtain ⟨values, hvalues, heq, hle⟩ := (fill_eq_some_iff (Nat.zero_le room)).mp h
  obtain rfl : out' = values := heq
  exact ⟨hvalues.length_eq.symm, hvalues.length_eq ▸ hle⟩

/-- **The loop runs to its end** if every item gives a value and there is room. -/
theorem exists_fill (hitems : ∀ a ∈ items, ∃ b, f a = some b)
    (hroom : out.length + items.length ≤ room) : ∃ out', fill f room items out = some out' := by
  induction items generalizing out with
  | nil => exact ⟨out, rfl⟩
  | cons a items ih =>
    obtain ⟨⟨b, hb⟩, hitems⟩ := List.forall_mem_cons.mp hitems
    rw [List.length_cons] at hroom
    have hlen : (out ++ [b]).length = out.length + 1 := by
      rw [List.length_append, List.length_singleton]
    obtain ⟨out', h⟩ := ih hitems (show (out ++ [b]).length + items.length ≤ room by omega)
    refine ⟨out', ?_⟩
    rw [fill, hb, Option.bind_some, if_pos (by omega)]
    exact h

end Memory
