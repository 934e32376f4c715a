import Mathlib.Data.List.ReduceOption
import Mathlib.Data.List.Nodup
import Mathlib.Logic.Function.Basic

/-!
# Slots

Entries with distinct keys are kept in slots, some of which are free. An entry is overwritten in
its slot, added in a free one, and removed by freeing its slot. What the slots hold is a partial
map, and each of the three changes it at one key only.

## Main definitions

* `Slots.find`, `Slots.free`: the slot of a key, and a free slot
* `Slots.lookup`: the map the slots hold
* `Slots.Distinct`: no key has two slots

## Main results

* `lookup_eq_some_iff`: the map, by the entries
* `lookup_overwrite`, `lookup_insert`, `lookup_clear`: what a change of a slot does to the map
-/

namespace Slots

variable {κ ν : Type} {s : List (Option (κ × ν))} {k : κ} {v : ν} {i : ℕ}

theorem exists_set {x : Option (κ × ν)} (h : s[i]? = some x) (y : Option (κ × ν)) :
    ∃ a b, s = a ++ x :: b ∧ s.set i y = a ++ y :: b := by
  obtain ⟨hi, rfl⟩ := List.getElem?_eq_some_iff.mp h
  have hex : ∃ a b, s = a ++ s[i] :: b ∧ a.length = i ∧ s.set i y = a ++ y :: b :=
    List.exists_of_set hi
  obtain ⟨a, b, hs, -, hset⟩ := hex
  exact ⟨a, b, hs, hset⟩

/-- Free slots at the end change nothing. -/
theorem reduceOption_append_replicate (n : ℕ) :
    (s ++ List.replicate n none).reduceOption = s.reduceOption := by
  rw [List.reduceOption_append, List.reduceOption_replicate_none, List.append_nil]

variable [DecidableEq κ]

/-- The slot of a key. -/
def find (s : List (Option (κ × ν))) (k : κ) : Option ℕ :=
  s.findIdx? fun slot => slot.any fun e => e.1 = k

/-- The first free slot from `i` on, and from the beginning if there is none. -/
def free (s : List (Option (κ × ν))) (i : ℕ) : ℕ :=
  ((s.drop i).findIdx? Option.isNone).elim (s.findIdx Option.isNone) fun j => i + j

/-- **The map the slots hold.** -/
def lookup (s : List (Option (κ × ν))) (k : κ) : Option ν :=
  (s.reduceOption.find? fun e => e.1 = k).map Prod.snd

/-- No key has two slots. -/
def Distinct (s : List (Option (κ × ν))) : Prop := (s.reduceOption.map Prod.fst).Nodup

/-! ## The map -/

@[simp] theorem lookup_cons_none : lookup (none :: s) k = lookup s k := by
  simp [lookup]

@[simp] theorem lookup_cons_some {e : κ × ν} :
    lookup (some e :: s) k = if e.1 = k then some e.2 else lookup s k := by
  by_cases h : e.1 = k <;> simp [lookup, h]

theorem lookup_append {t : List (Option (κ × ν))} :
    lookup (s ++ t) k = (lookup s k).or (lookup t k) := by
  simp [lookup, List.reduceOption_append, Option.map_or]

theorem lookup_eq_none_iff : lookup s k = none ↔ ∀ e ∈ s.reduceOption, e.1 ≠ k := by
  simp [lookup]

theorem lookup_eq_none_iff_notMem : lookup s k = none ↔ k ∉ s.reduceOption.map Prod.fst := by
  rw [lookup_eq_none_iff, List.mem_map]
  exact ⟨fun h ⟨e, he, hk⟩ => h e he hk, fun h e he hk => h ⟨e, he, hk⟩⟩

theorem mem_of_lookup (h : lookup s k = some v) : (k, v) ∈ s.reduceOption := by
  obtain ⟨e, he, rfl⟩ := Option.map_eq_some_iff.mp h
  obtain rfl : e.1 = k := by simpa using List.find?_some he
  exact List.mem_of_find?_eq_some he

/-- With distinct keys, the map is what the entries say. -/
theorem lookup_eq_some_iff (hs : Distinct s) : lookup s k = some v ↔ (k, v) ∈ s.reduceOption := by
  refine ⟨mem_of_lookup, fun hmem => ?_⟩
  cases h : lookup s k with
  | none => exact absurd rfl (lookup_eq_none_iff.mp h _ hmem)
  | some w =>
    have heq := List.inj_on_of_nodup_map hs (mem_of_lookup h) hmem rfl
    rw [(Prod.mk.inj heq).2]

/-- A permutation of the entries holds the same map. -/
theorem lookup_congr {t : List (Option (κ × ν))} (hs : Distinct s) (ht : Distinct t)
    (h : ∀ e, e ∈ s.reduceOption ↔ e ∈ t.reduceOption) : lookup s k = lookup t k :=
  Option.ext fun v => by rw [lookup_eq_some_iff hs, lookup_eq_some_iff ht, h]

/-! ## Finding a slot -/

theorem find_eq_some (h : find s k = some i) : ∃ v, s[i]? = some (some (k, v)) := by
  obtain ⟨hi, hp, -⟩ := List.findIdx?_eq_some_iff_getElem.mp h
  cases hslot : s[i] with
  | none => simp [hslot] at hp
  | some e =>
    obtain rfl : e.1 = k := by simpa [hslot] using hp
    exact ⟨e.2, by rw [List.getElem?_eq_getElem hi, hslot]⟩

theorem find_eq_none_iff : find s k = none ↔ lookup s k = none := by
  rw [find, List.findIdx?_eq_none_iff, lookup_eq_none_iff]
  constructor
  · intro h e he hk
    simpa [hk] using h (some e) (List.reduceOption_mem_iff.mp he)
  · intro h slot hslot
    cases slot with
    | none => rfl
    | some e => simpa using h e (List.reduceOption_mem_iff.mpr hslot)

omit [DecidableEq κ] in
/-- A free slot is found if there is one. -/
theorem free_spec (h : s.reduceOption.length < s.length) (i : ℕ) : s[free s i]? = some none := by
  have hnone : ∃ slot ∈ s, slot.isNone := by
    by_contra hall
    push Not at hall
    refine absurd (List.reduceOption_length_eq_iff.mpr fun slot hslot => ?_)
      (Nat.ne_of_lt h)
    simpa [Option.isSome_iff_ne_none] using hall slot hslot
  unfold free
  cases hj : (s.drop i).findIdx? Option.isNone with
  | none =>
    have hlt := List.findIdx_lt_length.mpr hnone
    have := List.findIdx_getElem (w := hlt)
    rw [Option.elim_none, List.getElem?_eq_getElem hlt, Option.isNone_iff_eq_none.mp this]
  | some j =>
    obtain ⟨hlt, hp, -⟩ := List.findIdx?_eq_some_iff_getElem.mp hj
    rw [Option.elim_some, ← List.getElem?_drop, List.getElem?_eq_getElem hlt,
      Option.isNone_iff_eq_none.mp hp]

/-! ## Changing a slot -/

/-- A key has the slot it has, and no other. -/
theorem Distinct.lookup_ends {a b : List (Option (κ × ν))} {e : κ × ν}
    (hs : Distinct (a ++ some e :: b)) : lookup a e.1 = none ∧ lookup b e.1 = none := by
  simp only [Distinct, List.reduceOption_append, List.reduceOption_cons_of_some, List.map_append,
    List.map_cons, List.nodup_append, List.nodup_cons] at hs
  obtain ⟨-, ⟨hb, -⟩, hab⟩ := hs
  refine ⟨lookup_eq_none_iff_notMem.mpr fun ha => ?_, lookup_eq_none_iff_notMem.mpr hb⟩
  exact hab _ ha _ List.mem_cons_self rfl

omit [DecidableEq κ] in
theorem distinct_overwrite {w : ν} (hs : Distinct s) (h : s[i]? = some (some (k, w))) :
    Distinct (s.set i (some (k, v))) := by
  obtain ⟨a, b, rfl, hset⟩ := exists_set h (some (k, v))
  rw [hset]
  simpa [Distinct, List.reduceOption_append] using hs

theorem lookup_overwrite {w : ν} (hs : Distinct s) (h : s[i]? = some (some (k, w))) :
    lookup (s.set i (some (k, v))) = Function.update (lookup s) k (some v) := by
  obtain ⟨a, b, rfl, hset⟩ := exists_set h (some (k, v))
  ext1 k'
  rw [hset, Function.update_apply, lookup_append, lookup_append, lookup_cons_some,
    lookup_cons_some]
  by_cases hk : k = k'
  · subst hk
    rw [hs.lookup_ends.1]
    simp
  · simp [hk, Ne.symm hk]

theorem distinct_insert (hs : Distinct s) (h : s[i]? = some none) (hk : lookup s k = none) :
    Distinct (s.set i (some (k, v))) := by
  obtain ⟨a, b, rfl, hset⟩ := exists_set h (some (k, v))
  rw [lookup_eq_none_iff_notMem] at hk
  simp only [Distinct, List.reduceOption_append, List.reduceOption_cons_of_none,
    List.map_append] at hs hk
  rw [hset]
  simp only [Distinct, List.reduceOption_append, List.reduceOption_cons_of_some, List.map_append,
    List.map_cons]
  exact List.nodup_middle.mpr (List.nodup_cons.mpr ⟨hk, hs⟩)

theorem lookup_insert (h : s[i]? = some none) (hk : lookup s k = none) :
    lookup (s.set i (some (k, v))) = Function.update (lookup s) k (some v) := by
  obtain ⟨a, b, rfl, hset⟩ := exists_set h (some (k, v))
  rw [lookup_append, lookup_cons_none, Option.or_eq_none_iff] at hk
  ext1 k'
  rw [hset, Function.update_apply, lookup_append, lookup_append, lookup_cons_some,
    lookup_cons_none]
  by_cases hkk : k = k'
  · subst hkk
    simp [hk.1]
  · simp [hkk, Ne.symm hkk]

omit [DecidableEq κ] in
theorem distinct_clear (hs : Distinct s) : Distinct (s.set i none) := by
  rcases Nat.lt_or_ge i s.length with hi | hi
  · obtain ⟨a, b, hs', hset⟩ := exists_set (List.getElem?_eq_getElem hi) none
    rw [hset]
    rw [hs'] at hs
    have hsub : (a ++ none :: b).reduceOption.Sublist (a ++ s[i] :: b).reduceOption := by
      simp only [List.reduceOption_append, List.reduceOption_cons_of_none]
      refine List.Sublist.append_left ?_ _
      cases s[i] with
      | none => simp
      | some e => simp
    exact List.Nodup.sublist (hsub.map _) hs
  · rwa [List.set_eq_of_length_le hi]

theorem lookup_clear {w : ν} (hs : Distinct s) (h : s[i]? = some (some (k, w))) :
    lookup (s.set i none) = Function.update (lookup s) k none := by
  obtain ⟨a, b, rfl, hset⟩ := exists_set h none
  ext1 k'
  rw [hset, Function.update_apply, lookup_append, lookup_append, lookup_cons_some,
    lookup_cons_none]
  by_cases hk : k = k'
  · subst hk
    rw [hs.lookup_ends.1, hs.lookup_ends.2]
    simp
  · simp [hk, Ne.symm hk]

end Slots
