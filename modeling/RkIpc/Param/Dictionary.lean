import RkIpc.Table.Slots
import RkIpc.Text.Scan

/-!
# Dictionaries

A dictionary of `common/param/dictionary.c` keeps strings with their values in slots. It starts
with 128 slots and doubles when they are full. A value may be null, which is how the parser of the
parameters marks a section.

## Main definitions

* `Dictionary`: slots with distinct keys
* `dictionaryGet`, `dictionarySet`, `dictionaryUnset`: the operations

## Main results

* `lookup_dictionarySet`, `lookup_dictionaryUnset`: they change one key
-/

namespace RkIpc.Param

open Text

/-- **A dictionary**: `key[i]` and `val[i]` for every slot `i`, free slots having no key. -/
structure Dictionary where
  slots : List (Option (Str × Option Str))
  size_pos : 0 < slots.length
  distinct : Slots.Distinct slots

namespace Dictionary

/-- The entries, in the order of their slots. -/
def entries (d : Dictionary) : List (Str × Option Str) := d.slots.reduceOption

/-- `d->n`: how many slots are taken. -/
def n (d : Dictionary) : ℕ := d.entries.length

/-- The value of a key, if the key is there. -/
def lookup (d : Dictionary) : Str → Option (Option Str) := Slots.lookup d.slots

variable {d : Dictionary} {key : Str} {val : Option Str}

theorem lookup_eq_some_iff : d.lookup key = some val ↔ (key, val) ∈ d.entries :=
  Slots.lookup_eq_some_iff d.distinct

end Dictionary

/-- `DICTMINSZ`. -/
def dictMinSz : ℕ := 128

/-- `dictionary_new(0)`. -/
def dictionaryNew : Dictionary where
  slots := List.replicate dictMinSz none
  size_pos := by rw [List.length_replicate]; exact Nat.succ_pos 127
  distinct := by simp [Slots.Distinct]

/-- `dictionary_get`. -/
def dictionaryGet (d : Dictionary) (key : Str) (default : Option Str) : Option Str :=
  (d.lookup key).getD default

/-- `dictionary_grow`, if all slots are taken. -/
def dictionaryGrow (d : Dictionary) : List (Option (Str × Option Str)) :=
  if d.n = d.slots.length then d.slots ++ List.replicate d.slots.length none else d.slots

section Grow

variable (d : Dictionary)

theorem reduceOption_dictionaryGrow : (dictionaryGrow d).reduceOption = d.slots.reduceOption := by
  unfold dictionaryGrow
  split
  · exact Slots.reduceOption_append_replicate _
  · rfl

theorem distinct_dictionaryGrow : Slots.Distinct (dictionaryGrow d) := by
  rw [Slots.Distinct, reduceOption_dictionaryGrow]
  exact d.distinct

theorem lookup_dictionaryGrow : Slots.lookup (dictionaryGrow d) = d.lookup :=
  funext fun _ => Slots.lookup_congr (distinct_dictionaryGrow d) d.distinct fun _ => by
    rw [reduceOption_dictionaryGrow]

/-- A slot is free after growing. -/
theorem free_dictionaryGrow (i : ℕ) :
    (dictionaryGrow d)[Slots.free (dictionaryGrow d) i]? = some none := by
  refine Slots.free_spec ?_ i
  rw [reduceOption_dictionaryGrow]
  have hle : d.n ≤ d.slots.length := List.reduceOption_length_le d.slots
  have hpos := d.size_pos
  change d.n < _
  unfold dictionaryGrow
  split
  · rw [List.length_append, List.length_replicate]
    omega
  · omega

theorem length_dictionaryGrow_pos : 0 < (dictionaryGrow d).length := by
  have hpos := d.size_pos
  unfold dictionaryGrow
  split
  · rw [List.length_append]
    omega
  · exact hpos

end Grow

/-- **`dictionary_set`**: the value replaces the one the key has, or the key takes the first free
slot from `d->n` on. Both strings are copied. -/
def dictionarySet (d : Dictionary) (key : Str) (val : Option Str) : Dictionary :=
  match h : Slots.find d.slots key with
  | some i =>
    { slots := d.slots.set i (some (key, val.map cstr))
      size_pos := by rw [List.length_set]; exact d.size_pos
      distinct := by
        obtain ⟨w, hw⟩ := Slots.find_eq_some h
        exact Slots.distinct_overwrite d.distinct hw }
  | none =>
    { slots := (dictionaryGrow d).set (Slots.free (dictionaryGrow d) d.n)
        (some (key, val.map cstr))
      size_pos := by rw [List.length_set]; exact length_dictionaryGrow_pos d
      distinct := by
        apply Slots.distinct_insert (distinct_dictionaryGrow d) (free_dictionaryGrow d _)
        rw [lookup_dictionaryGrow]
        exact Slots.find_eq_none_iff.mp h }

/-- **`dictionary_unset`**: the slot of the key is freed. -/
def dictionaryUnset (d : Dictionary) (key : Str) : Dictionary :=
  match Slots.find d.slots key with
  | some i =>
    { slots := d.slots.set i none
      size_pos := by rw [List.length_set]; exact d.size_pos
      distinct := Slots.distinct_clear d.distinct }
  | none => d

@[simp] theorem lookup_dictionaryNew (key : Str) : dictionaryNew.lookup key = none := by
  simp [Dictionary.lookup, dictionaryNew, Slots.lookup]

/-- **Setting a key** changes this key. -/
theorem lookup_dictionarySet (d : Dictionary) (key : Str) (val : Option Str) :
    (dictionarySet d key val).lookup = Function.update d.lookup key (some (val.map cstr)) := by
  unfold dictionarySet Dictionary.lookup
  split
  · next h =>
    obtain ⟨w, hw⟩ := Slots.find_eq_some h
    exact Slots.lookup_overwrite d.distinct hw
  · next h =>
    have hnone := Slots.find_eq_none_iff.mp h
    rw [Slots.lookup_insert (free_dictionaryGrow d _) (by
      rw [lookup_dictionaryGrow]
      exact hnone), lookup_dictionaryGrow]
    rfl

/-- Setting a key to the value that it has changes nothing. -/
theorem dictionarySet_eq_self {d : Dictionary} {key : Str} {val : Option Str}
    (h : d.lookup key = some val) (hval : val.map cstr = val) : dictionarySet d key val = d := by
  unfold dictionarySet
  split
  · next i hi =>
    obtain ⟨w, hw⟩ := Slots.find_eq_some hi
    have hmem : (key, w) ∈ d.entries := List.reduceOption_mem_iff.mpr (List.mem_of_getElem? hw)
    obtain rfl := Option.some.inj (h.symm.trans (Dictionary.lookup_eq_some_iff.mpr hmem))
    obtain ⟨hlt, hget⟩ := List.getElem?_eq_some_iff.mp hw
    have hslots : d.slots.set i (some (key, val.map cstr)) = d.slots := by
      rw [hval, ← hget, List.set_getElem_self]
    cases d
    simpa only [Dictionary.mk.injEq] using hslots
  · next hnone => exact absurd ((Slots.find_eq_none_iff.mp hnone).symm.trans h) nofun

/-- **Removing a key** changes this key. -/
theorem lookup_dictionaryUnset (d : Dictionary) (key : Str) :
    (dictionaryUnset d key).lookup = Function.update d.lookup key none := by
  unfold dictionaryUnset
  split
  · next h =>
    obtain ⟨w, hw⟩ := Slots.find_eq_some h
    exact Slots.lookup_clear d.distinct hw
  · next h =>
    have hnone : d.lookup key = none := Slots.find_eq_none_iff.mp h
    rw [← hnone, Function.update_eq_self]

end RkIpc.Param
