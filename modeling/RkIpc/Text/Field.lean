import RkIpc.Memory.Block
import RkIpc.Text.Scan

/-!
# Strings in fields of fixed size

A field of fixed size holds a string if the string is in it with a terminator. Copying a string
over the beginning of a field without its terminator leaves what was behind, so that the field
holds the new string if the one before was not longer.

## Main definitions

* `Holds`: a field holds a string
* `Padded`: a string, and nothing but zeros behind it
* `content`: the string that is read from a field
* `sprintf`, `strcat`, `strcats`, `strftime`: the functions that write a string into a field

## Main results

* `strcats_cases`: strings that are put one behind the other
* `Padded.write`: a field that is copied over stays padded
* `holds_write_iff`: whether it then holds what was copied
-/

namespace Text

open Memory

/-- **The field holds the string**, with a terminator. -/
def Holds (field : List UInt8) (s : Str) : Prop := cstr field = s ∧ 0 ∈ field

/-- **A string, and zeros behind it.** -/
def Padded (field : List UInt8) : Prop :=
  ∃ (s : Str) (k : ℕ), 0 ∉ s ∧ field = s ++ List.replicate k 0

variable {field field' s t : List UInt8}

theorem cstr_isPrefix (field : List UInt8) : cstr field <+: field := List.takeWhile_prefix _

theorem padded_replicate (n : ℕ) : Padded (List.replicate n 0) :=
  ⟨[], n, List.not_mem_nil, (List.nil_append _).symm⟩

/-- The string ends where the zeros begin. -/
theorem cstr_append_replicate (h : 0 ∉ s) (k : ℕ) : cstr (s ++ List.replicate k 0) = s := by
  cases k with
  | zero => rw [List.replicate_zero, List.append_nil, cstr_eq_self h]
  | succ k => rw [List.replicate_succ, cstr_append_zero h]

/-- **A field that is copied over** stays padded. -/
theorem Padded.write (hf : Padded field) (ht : 0 ∉ t) (hw : write field 0 t = some field') :
    Padded field' := by
  obtain ⟨s, k, hs, rfl⟩ := hf
  obtain ⟨-, rfl⟩ := write_zero_eq_some_iff.mp hw
  refine ⟨t ++ s.drop t.length, k - (t.length - s.length), ?_, ?_⟩
  · rw [List.mem_append, not_or]
    exact ⟨ht, fun h => hs (List.mem_of_mem_drop h)⟩
  · rw [List.drop_append, List.drop_replicate, List.append_assoc]

/-- **The field holds what was copied** if there was room for a terminator, and the string before
was not longer. -/
theorem holds_write_iff (hf : Padded field) (ht : 0 ∉ t) (hw : write field 0 t = some field') :
    Holds field' t ↔ t.length < field.length ∧ (cstr field).length ≤ t.length := by
  obtain ⟨s, k, hs, rfl⟩ := hf
  obtain ⟨hroom, rfl⟩ := write_zero_eq_some_iff.mp hw
  rw [Holds, cstr_append_replicate hs, List.drop_append, List.drop_replicate, ← List.append_assoc]
  have h0 : 0 ∉ t ++ s.drop t.length := by
    rw [List.mem_append, not_or]
    exact ⟨ht, fun h => hs (List.mem_of_mem_drop h)⟩
  rw [cstr_append_replicate h0, List.mem_append, or_iff_right h0, List.mem_replicate,
    List.length_append, List.length_replicate]
  rw [List.length_append, List.length_replicate] at hroom
  constructor
  · rintro ⟨hsame, hzeros, -⟩
    have hdrop : s.drop t.length = [] :=
      List.append_cancel_left (hsame.trans (List.append_nil t).symm)
    have hle := List.drop_eq_nil_iff.mp hdrop
    exact ⟨by omega, hle⟩
  · rintro ⟨hlt, hle⟩
    rw [List.drop_eq_nil_of_le hle, List.append_nil]
    exact ⟨rfl, by omega, rfl⟩

/-! ## Printing into a field -/

/-- The string that is read from a field, if it ends in it. -/
def content (field : List UInt8) : Option Str := if 0 ∈ field then some (cstr field) else none

/-- `sprintf` of a text. -/
def sprintf (field : List UInt8) (s : Str) : Option (List UInt8) := write field 0 (s ++ [0])

/-- `strcat`. -/
def strcat (field : List UInt8) (s : Str) : Option (List UInt8) :=
  write field (cstr field).length (cstr s ++ [0])

/-- `strcat`, one string after the other. -/
def strcats (field : List UInt8) (ss : List Str) : Option (List UInt8) := ss.foldlM strcat field

/-- **`strftime`** writes the text if it fits, and says nothing of the field otherwise. -/
def strftime (left : ℕ → List UInt8) (field : List UInt8) (text : Str) : List UInt8 :=
  (sprintf field text).getD (left field.length)

section Print

variable {left : ℕ → List UInt8} {ss : List Str}

theorem content_of_holds (h : Holds field s) : content field = some s := by
  rw [content, if_pos h.2, h.1]

theorem sprintf_eq_none_iff : sprintf field s = none ↔ field.length ≤ s.length := by
  rw [sprintf, write_eq_none_iff, Nat.zero_add, List.length_append, List.length_singleton]
  omega

/-- What was printed is held. -/
theorem holds_of_sprintf (hs : 0 ∉ s) (h : sprintf field s = some field') : Holds field' s := by
  obtain ⟨-, rfl⟩ := write_zero_eq_some_iff.mp h
  rw [List.append_assoc, List.singleton_append]
  exact ⟨cstr_append_zero hs, by simp⟩

theorem exists_sprintf (hlen : s.length < field.length) : ∃ field', sprintf field s = some field' :=
  Option.ne_none_iff_exists'.mp fun h => absurd (sprintf_eq_none_iff.mp h) (by omega)

theorem holds_strftime (hs : 0 ∉ s) (hlen : s.length < field.length) :
    Holds (strftime left field s) s := by
  obtain ⟨field', h⟩ := exists_sprintf hlen
  rw [strftime, h]
  exact holds_of_sprintf hs h

theorem strftime_of_le (hlen : field.length ≤ s.length) :
    strftime left field s = left field.length := by
  rw [strftime, sprintf_eq_none_iff.mpr hlen]
  rfl

theorem length_lt_of_holds (h : Holds field s) : s.length < field.length := by
  obtain ⟨rfl, h0⟩ := h
  have hpre := cstr_isPrefix field
  refine hpre.length_le.lt_of_ne fun hlen => zero_notMem_cstr field ?_
  have hall : cstr field = field := hpre.eq_of_length hlen
  rwa [hall]

/-- What is put behind a string is held behind it. -/
theorem holds_of_strcat (hf : Holds field t) (h : strcat field s = some field') :
    Holds field' (t ++ cstr s) ∧ field'.length = field.length := by
  refine ⟨?_, length_write h⟩
  obtain ⟨rfl, h0⟩ := hf
  unfold strcat write at h
  split at h
  · have hpre := cstr_isPrefix field
    have htake : field.take (cstr field).length = cstr field :=
      (List.prefix_iff_eq_take.mp hpre).symm
    have hzero : 0 ∉ cstr field ++ cstr s := by
      rw [List.mem_append, not_or]
      exact ⟨zero_notMem_cstr field, zero_notMem_cstr s⟩
    rw [← Option.some.inj h, htake, ← List.append_assoc, List.append_assoc, List.singleton_append]
    exact ⟨cstr_append_zero hzero, by simp⟩
  · cases h

theorem strcat_eq_none_iff (hf : Holds field t) :
    strcat field s = none ↔ field.length ≤ (t ++ cstr s).length := by
  rw [strcat, write_eq_none_iff, hf.1, List.length_append, List.length_append,
    List.length_singleton]
  omega

/-- **Strings are put one behind the other** if there is room for all of them. -/
theorem strcats_cases (hf : Holds field t) :
    (field.length ≤ (t ++ ss.flatMap cstr).length ∧ strcats field ss = none) ∨
      ∃ field', strcats field ss = some field' ∧ Holds field' (t ++ ss.flatMap cstr) ∧
        field'.length = field.length := by
  induction ss generalizing field t with
  | nil =>
    refine .inr ⟨field, rfl, ?_, rfl⟩
    rwa [List.flatMap_nil, List.append_nil]
  | cons s ss ih =>
    rw [List.flatMap_cons, ← List.append_assoc, strcats, List.foldlM_cons]
    cases h : strcat field s with
    | none =>
      have hlen := (strcat_eq_none_iff hf).mp h
      refine .inl ⟨?_, rfl⟩
      rw [List.length_append]
      omega
    | some field' =>
      obtain ⟨hf', hlen⟩ := holds_of_strcat hf h
      rw [← hlen]
      exact ih hf'

end Print

end Text
