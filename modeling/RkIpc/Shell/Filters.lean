import RkIpc.Text.Decimal

/-!
# Filters of lines

Commands that print something for each line of their input: `awk` prints a field of the line, or how
many fields it has, and `sed` prints a line by its number.

## Main definitions

* `fields`: the words of a line
* `awkPrint`, `awkNF`, `sedPrint`, `wcLines`: the commands
* `output`: what is written

## Main results

* `fields_append_cons`: white space separates fields
* `exists_of_fields_eq_singleton`: a line with one field
* `sedPrint_map`: a line of what is printed for each line
-/

namespace Shell

open Text

/-! ## Fields -/

/-- **The fields of a line**: words between white space. -/
def fields (line : Str) : List Str := (line.splitOnP isSpace).filter (· ≠ [])

variable {s t w : Str} {c : UInt8}

@[simp] theorem fields_nil : fields [] = [] := rfl

/-- **White space separates fields.** -/
theorem fields_append_cons (hc : isSpace c = true) (s t : Str) :
    fields (s ++ c :: t) = fields s ++ fields t := by
  rw [fields, List.splitOnP_append_cons _ _ hc, List.filter_append, fields, fields]

theorem fields_cons_space (hc : isSpace c = true) (t : Str) : fields (c :: t) = fields t :=
  fields_append_cons hc [] t

/-- A word is its only field. -/
theorem fields_word (hne : w ≠ []) (hw : ∀ c ∈ w, isSpace c = false) : fields w = [w] := by
  rw [fields, List.splitOnP_eq_singleton hw, List.filter_singleton]
  simp [hne]

/-- A line that begins with a word. -/
theorem fields_cons_word (hc : isSpace c = false) (s : Str) :
    fields (c :: s) = (c :: s).takeWhile (! isSpace ·) ::
      fields ((c :: s).dropWhile (! isSpace ·)) := by
  have hword : ∀ d ∈ (c :: s).takeWhile (! isSpace ·), isSpace d = false := fun d hd => by
    simpa using List.mem_takeWhile_imp hd
  have hne : (c :: s).takeWhile (! isSpace ·) ≠ [] := by
    rw [List.takeWhile_cons_of_pos (by simpa using hc)]
    simp
  conv_lhs => rw [← List.takeWhile_append_dropWhile (p := (! isSpace ·)) (l := c :: s)]
  have hrest := List.head?_dropWhile_not (! isSpace ·) (c :: s)
  cases hdrop : (c :: s).dropWhile (! isSpace ·) with
  | nil => rw [List.append_nil, fields_word hne hword, fields_nil]
  | cons d rest =>
    rw [hdrop] at hrest
    have hd : isSpace d = true := by simpa using hrest
    rw [fields_append_cons hd, fields_word hne hword, fields_cons_space hd]
    rfl

/-- **There is no field** if and only if there is nothing but white space. -/
theorem fields_eq_nil_iff : fields s = [] ↔ ∀ c ∈ s, isSpace c = true := by
  induction s with
  | nil => simp
  | cons c s ih =>
    rw [List.forall_mem_cons]
    cases hc : isSpace c with
    | true => rw [fields_cons_space hc, ih, eq_self_iff_true, true_and]
    | false => simp [fields_cons_word hc]

/-- **A line with one field**: the word, and white space around it. -/
theorem exists_of_fields_eq_singleton (h : fields s = [w]) :
    ∃ p q, s = p ++ w ++ q ∧ (∀ c ∈ p, isSpace c = true) ∧ (∀ c ∈ q, isSpace c = true) ∧
      w ≠ [] ∧ ∀ c ∈ w, isSpace c = false := by
  induction s with
  | nil => cases h
  | cons c s ih =>
    cases hc : isSpace c with
    | true =>
      rw [fields_cons_space hc] at h
      obtain ⟨p, q, rfl, hp, hq, hw⟩ := ih h
      exact ⟨c :: p, q, rfl, List.forall_mem_cons.mpr ⟨hc, hp⟩, hq, hw⟩
    | false =>
      rw [fields_cons_word hc] at h
      obtain ⟨rfl, hrest⟩ := List.cons.inj h
      refine ⟨[], (c :: s).dropWhile (! isSpace ·), ?_, by simp, fields_eq_nil_iff.mp hrest, ?_,
        fun d hd => by simpa using List.mem_takeWhile_imp hd⟩
      · rw [List.nil_append, List.takeWhile_append_dropWhile]
      · rw [List.takeWhile_cons_of_pos (by simpa using hc)]
        simp

theorem length_fields_le (s : Str) : (fields s).length ≤ s.length := by
  induction hn : s.length using Nat.strong_induction_on generalizing s with
  | _ n ih =>
    cases s with
    | nil => simp
    | cons c s =>
      rw [List.length_cons] at hn
      cases hc : isSpace c with
      | true =>
        rw [fields_cons_space hc]
        exact (ih s.length (by omega) s rfl).trans (by omega)
      | false =>
        have hdrop : ((c :: s).dropWhile (! isSpace ·)).length ≤ s.length := by
          rw [List.dropWhile_cons_of_pos (by simpa using hc)]
          exact (List.dropWhile_sublist _).length_le
        have hrest := ih _ (by omega) ((c :: s).dropWhile (! isSpace ·)) rfl
        rw [fields_cons_word hc, List.length_cons]
        omega

/-! ## Commands -/

/-- `awk '{print $k}'`. -/
def awkPrint (k : ℤ) (lines : List Str) : List Str :=
  if k < 0 then []
  else lines.map fun line => if k = 0 then line else (fields line)[(k - 1).toNat]?.getD []

/-- `awk '{print NF}'`. -/
def awkNF (lines : List Str) : List Str := lines.map fun line => decimalNat (fields line).length

/-- `sed -n` with the number of a line and `p`. -/
def sedPrint (row : ℕ) (lines : List Str) : List Str :=
  if row = 0 then [] else lines[row - 1]?.toList

/-- `wc -l`. -/
def wcLines (lines : List Str) : List Str := [decimalNat lines.length]

/-- **What is written.** -/
def output (lines : List Str) : List UInt8 := lines.flatMap (· ++ [10])

theorem output_singleton (line : Str) : output [line] = line ++ [10] := by simp [output]

/-- **A line of what is printed for each line.** -/
theorem sedPrint_map (row : ℕ) (f : Str → Str) (lines : List Str) :
    sedPrint (row + 1) (lines.map f) = lines[row]?.toList.map f := by
  rw [sedPrint, if_neg (Nat.succ_ne_zero row), Nat.add_sub_cancel, List.getElem?_map]
  cases lines[row]? <;> rfl

/-- A field of a line, counted from one. -/
theorem sedPrint_awkPrint {lines : List Str} {row k : ℕ} {line : Str}
    (h : lines[row]? = some line) (hk : 0 < k) :
    sedPrint (row + 1) (awkPrint k lines) = [(fields line)[k - 1]?.getD []] := by
  have hcast : ((k : ℤ) - 1).toNat = k - 1 := by omega
  rw [awkPrint, if_neg (by omega), sedPrint_map, h, hcast]
  simp only [if_neg (by omega : ¬ (k : ℤ) = 0)]
  rfl

theorem sedPrint_awkNF {lines : List Str} {row : ℕ} {line : Str} (h : lines[row]? = some line) :
    sedPrint (row + 1) (awkNF lines) = [decimalNat (fields line).length] := by
  rw [awkNF, sedPrint_map, h]
  rfl

theorem sedPrint_succ {lines : List Str} {row : ℕ} {line : Str} (h : lines[row]? = some line) :
    sedPrint (row + 1) lines = [line] := by
  have hid := sedPrint_map row id lines
  rwa [List.map_id, h] at hid

end Shell
