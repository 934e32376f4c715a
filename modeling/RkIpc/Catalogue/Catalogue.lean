import Mathlib.Data.List.Sort
import Mathlib.Data.List.Nodup
import Mathlib.Order.Basic
import Mathlib.Tactic.Tauto

/-!
# Catalogues of dated entries

A catalogue lists entries from the newest to the oldest, each name at most once. Entries are
added at the place their date requires, removed by name, and cut back from the oldest end.
Nothing here depends on what an entry is: a catalogue is over any type with a name and a date.

## Main definitions

* `Catalogue name time`: entries sorted by date, newest first, with distinct names
* `Catalogue.insertNew`, `Catalogue.insertAll`: add an entry, or entries in turn, unless its name
  is listed
* `Catalogue.erase`: remove a name
* `Catalogue.keepNewest k`: the `k` newest entries

## Main results

* `mem_names_insertNew`, `mem_names_erase`: the names after an addition and after a removal
* `erase_getLast`: removing the oldest name cuts the catalogue back by one
* `time_le_of_mem_drop`: an entry cut off is at most as new as an entry kept
* `filter_name_eq`: the one entry of a name
* `oldestFirst_iff`: when the entries also stand from the oldest to the newest
-/

variable {α ν τ : Type*} [LinearOrder τ]

/-- **A catalogue**: entries from newest to oldest, no name twice. -/
structure Catalogue (name : α → ν) (time : α → τ) where
  entries : List α
  newestFirst : entries.Pairwise fun x y => time y ≤ time x
  nodup : (entries.map name).Nodup

namespace Catalogue

variable {name : α → ν} {time : α → τ}

theorem ext {c d : Catalogue name time} (h : c.entries = d.entries) : c = d := by
  cases c
  cases d
  cases h
  rfl

/-- The catalogue without entries. -/
def empty : Catalogue name time := ⟨[], List.Pairwise.nil, List.nodup_nil⟩

@[simp] theorem empty_entries : (empty : Catalogue name time).entries = [] := rfl

/-- The names listed. -/
def names (c : Catalogue name time) : List ν := c.entries.map name

theorem mem_names {c : Catalogue name time} {n : ν} :
    n ∈ c.names ↔ ∃ x ∈ c.entries, name x = n := List.mem_map

/-- The `k` newest entries. -/
def keepNewest (c : Catalogue name time) (k : ℕ) : Catalogue name time where
  entries := c.entries.take k
  newestFirst := c.newestFirst.sublist (List.take_sublist _ _)
  nodup := c.nodup.sublist ((List.take_sublist _ _).map name)

@[simp] theorem keepNewest_entries (c : Catalogue name time) (k : ℕ) :
    (c.keepNewest k).entries = c.entries.take k := rfl

theorem keepNewest_of_length_le {c : Catalogue name time} {k : ℕ} (hk : c.entries.length ≤ k) :
    c.keepNewest k = c :=
  ext (List.take_of_length_le hk)

theorem keepNewest_keepNewest (c : Catalogue name time) {j k : ℕ} (h : j ≤ k) :
    (c.keepNewest k).keepNewest j = c.keepNewest j :=
  ext (by simp [List.take_take, Nat.min_eq_left h])

/-- The oldest of the `k + 1` newest entries comes after the `k` newest. -/
theorem take_succ_of_getLast {c : Catalogue name time} {k : ℕ} {x : α}
    (hk : k + 1 ≤ c.entries.length) (hx : (c.keepNewest (k + 1)).entries.getLast? = some x) :
    c.entries.take (k + 1) = c.entries.take k ++ [x] := by
  -- the last of the `k + 1` newest entries is the one at place `k`
  rw [keepNewest_entries, List.getLast?_take, if_neg (Nat.succ_ne_zero k)] at hx
  rw [List.take_add_one]
  simp only [Nat.add_sub_cancel, List.getElem?_eq_getElem hk, Option.some_or] at hx
  rw [List.getElem?_eq_getElem hk, hx]
  rfl

/-- **Only old entries go**: an entry cut off is at most as new as any entry kept. -/
theorem time_le_of_mem_drop {c : Catalogue name time} {k : ℕ} {x y : α}
    (hx : x ∈ c.entries.drop k) (hy : y ∈ (c.keepNewest k).entries) : time x ≤ time y := by
  -- what is kept stands before what is cut off
  have hp := c.newestFirst
  rw [← List.take_append_drop k c.entries, List.pairwise_append] at hp
  exact hp.2.2 y hy x hx

/-- **The entries also stand from the oldest to the newest** if and only if all have one date. -/
theorem oldestFirst_iff {c : Catalogue name time} :
    (c.entries.Pairwise fun x y => time x ≤ time y) ↔
      ∀ x ∈ c.entries, ∀ y ∈ c.entries, time x = time y := by
  constructor
  · intro h x hx y hy
    let same (x y : α) : Prop := time x = time y
    have hsame : c.entries.Pairwise same := h.imp₂ (fun _ _ => le_antisymm) c.newestFirst
    have hflip : c.entries.Pairwise (flip same) := hsame.imp Eq.symm
    have hrefl : ∀ x ∈ c.entries, same x x := fun _ _ => rfl
    exact List.Pairwise.forall_of_forall_of_flip hrefl hsame hflip hx hy
  · intro h
    exact List.pairwise_of_forall_mem_list fun x hx y hy => le_of_eq (h x hx y hy)

/-- The order of a catalogue: `x` may stand before `y`. -/
abbrev NoOlder (time : α → τ) (x y : α) : Prop := time y ≤ time x

instance : Std.Total (NoOlder time) := ⟨fun x y => le_total (time y) (time x)⟩

instance : IsTrans α (NoOlder time) := ⟨fun _ _ _ hxy hyz => le_trans hyz hxy⟩

section Update

variable [DecidableEq ν]

/-- Add an entry at the place its date requires, unless its name is already listed. -/
def insertNew (c : Catalogue name time) (x : α) : Catalogue name time :=
  if hx : name x ∈ c.names then c
  else
    { entries := c.entries.orderedInsert (NoOlder time) x
      newestFirst := c.newestFirst.orderedInsert x c.entries
      -- the entries are those of before and `x`, whose name is new
      nodup := by
        have hp := (List.perm_orderedInsert (NoOlder time) x c.entries).map name
        exact hp.nodup_iff.mpr (List.nodup_cons.mpr ⟨hx, c.nodup⟩) }

theorem insertNew_of_mem {c : Catalogue name time} {x : α} (hx : name x ∈ c.names) :
    c.insertNew x = c := dif_pos hx

theorem insertNew_entries {c : Catalogue name time} {x : α} (hx : name x ∉ c.names) :
    (c.insertNew x).entries = c.entries.orderedInsert (NoOlder time) x := by
  simp only [insertNew, dif_neg hx]

theorem insertNew_perm {c : Catalogue name time} {x : α} (hx : name x ∉ c.names) :
    (c.insertNew x).entries.Perm (x :: c.entries) := by
  rw [insertNew_entries hx]
  exact List.perm_orderedInsert _ _ _

/-- After an addition the name is listed, and the other names as before. -/
theorem mem_names_insertNew {c : Catalogue name time} {x : α} {n : ν} :
    n ∈ (c.insertNew x).names ↔ n = name x ∨ n ∈ c.names := by
  by_cases hx : name x ∈ c.names
  -- the name is listed already, and nothing changes
  · rw [insertNew_of_mem hx]
    exact ⟨Or.inr, fun h => h.elim (fun he => he ▸ hx) id⟩
  · rw [names, ((insertNew_perm hx).map name).mem_iff]
    simp [names]

/-- Add the entries one after the other, each unless its name is already listed. -/
def insertAll (c : Catalogue name time) (xs : List α) : Catalogue name time :=
  xs.foldl insertNew c

@[simp] theorem insertAll_nil (c : Catalogue name time) : c.insertAll [] = c := rfl

@[simp] theorem insertAll_cons (c : Catalogue name time) (x : α) (xs : List α) :
    c.insertAll (x :: xs) = (c.insertNew x).insertAll xs := rfl

theorem mem_names_insertAll {c : Catalogue name time} {xs : List α} {n : ν} :
    n ∈ (c.insertAll xs).names ↔ n ∈ xs.map name ∨ n ∈ c.names := by
  induction xs generalizing c with
  | nil => simp
  | cons x xs ih =>
    -- the first entry is added to `c`, the others to what that gives
    rw [insertAll_cons, ih, mem_names_insertNew, List.map_cons, List.mem_cons]
    tauto

/-- Remove a name. -/
def erase (c : Catalogue name time) (n : ν) : Catalogue name time where
  entries := c.entries.filter fun x => name x ≠ n
  newestFirst := c.newestFirst.filter _
  nodup := c.nodup.sublist (List.filter_sublist.map name)

@[simp] theorem erase_entries (c : Catalogue name time) (n : ν) :
    (c.erase n).entries = c.entries.filter fun x => name x ≠ n := rfl

@[simp] theorem mem_names_erase {c : Catalogue name time} {n m : ν} :
    m ∈ (c.erase n).names ↔ m ≠ n ∧ m ∈ c.names := by
  simp only [mem_names, erase_entries, List.mem_filter, decide_eq_true_eq]
  constructor
  · rintro ⟨x, ⟨hx, hn⟩, rfl⟩
    exact ⟨hn, x, hx, rfl⟩
  · rintro ⟨hn, x, hx, rfl⟩
    exact ⟨x, ⟨hx, hn⟩, rfl⟩

/-- **A name has one entry.** -/
theorem filter_name_eq {c : Catalogue name time} {x : α} (hx : x ∈ c.entries) :
    c.entries.filter (fun y => name y = name x) = [x] := by
  have hnodup := c.nodup
  generalize c.entries = entries at hx hnodup
  -- induction on the entries, of which one is `x` and the others have other names
  induction entries with
  | nil => cases hx
  | cons y l ih =>
    rw [List.map_cons, List.nodup_cons] at hnodup
    rcases List.mem_cons.mp hx with rfl | hmem
    · have hnone : l.filter (fun y => name y = name x) = [] := by
        rw [List.filter_eq_nil_iff]
        intro z hz hname
        exact hnodup.1 (List.mem_map.mpr ⟨z, hz, by simpa using hname⟩)
      rw [List.filter_cons_of_pos (by simp), hnone]
    · have hne : name y ≠ name x := fun h => hnodup.1 (h ▸ List.mem_map_of_mem hmem)
      rw [List.filter_cons_of_neg (by simpa using hne)]
      exact ih hmem hnodup.2

/-- An addition leaves the other names alone. -/
theorem erase_insertNew (c : Catalogue name time) (x : α) :
    (c.insertNew x).erase (name x) = c.erase (name x) := by
  by_cases hx : name x ∈ c.names
  · rw [insertNew_of_mem hx]
  · apply ext
    rw [erase_entries, erase_entries, insertNew_entries hx]
    -- the new entry is not among those that are kept
    generalize c.entries = l
    induction l with
    | nil => simp
    | cons y l ih =>
      rw [List.orderedInsert_cons]
      split
      · rw [List.filter_cons_of_neg (by simp)]
      · rw [List.filter_cons, List.filter_cons, ih]

/-- Removing the oldest name cuts the catalogue back by one entry. -/
theorem erase_getLast {c : Catalogue name time} {x : α} (hx : c.entries.getLast? = some x) :
    c.erase (name x) = c.keepNewest (c.entries.length - 1) := by
  obtain ⟨l, hl⟩ := List.getLast?_eq_some_iff.mp hx
  apply ext
  -- no other entry has the name of the last one
  have hn := c.nodup
  rw [hl, List.map_append, List.nodup_append] at hn
  have hne : ∀ y ∈ l, name y ≠ name x := fun y hy =>
    hn.2.2 _ (List.mem_map_of_mem hy) _ (by simp)
  -- so the removal leaves the entries before it
  simp only [erase_entries, keepNewest_entries, hl, List.filter_append, List.length_append,
    List.length_singleton, Nat.add_sub_cancel, List.take_left']
  simpa using hne

end Update

end Catalogue
