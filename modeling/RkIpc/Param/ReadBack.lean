import RkIpc.Param.IniParser

/-!
# Reading back what was printed

An entry is printed as `key = value` with the key padded to thirty bytes, and its value is not
quoted. Which values are read back follows from the formats a line goes through: not one that a
quote would open, not one with a comment sign, an outer blank, a newline or a final backslash, and
not one for which the line would be too long.

## Main definitions

* `Plain`, `Readable`: values, and entries, that are read back
* `SectionName`: a section whose header is read back
* `Reads`: what a part of a file does to the variables of the loop

## Main results

* `iniparserLine_entryLine`, `iniparserLine_header`: what is said by a line that was printed
* `reads_entry`, `reads_header`: what such a line does
-/

namespace RkIpc.Param

open Text

/-- A quote, with something between it and the next one. -/
def Quoted (q : UInt8) (val : Str) : Prop := ∃ c w, val = q :: c :: w ∧ c ≠ q

/-- **A value that means itself** in a line. -/
structure Plain (val : Str) : Prop where
  trim : Trim val
  noComment : 59 ∉ val ∧ 35 ∉ val
  noBackslash : val.getLast? ≠ some 92
  notEmptyQuotes : val ≠ lit "\"\"" ∧ val ≠ lit "''"
  notQuoted : ¬ Quoted 34 val ∧ ¬ Quoted 39 val

/-- **An entry that is read back** from its line: the name is that of a key, the value means
itself, and the line is not too long. -/
structure Readable (key val : Str) : Prop where
  nonempty : key ≠ []
  noEquals : 61 ∉ key
  noNewline : 10 ∉ key ∧ 10 ∉ val
  trim : Trim key
  noComment : key.head? ≠ some 35 ∧ key.head? ≠ some 59
  noHeader : ¬ (key.head? = some 91 ∧ val.getLast? = some 93)
  plain : Plain val
  fits : max 30 key.length + val.length ≤ 1019

/-- **A section that is read back** from its header, if it is not the empty one. -/
structure SectionName (s : Str) : Prop where
  trim : Trim s
  noColon : colon ∉ s

/-! ## Formats -/

section Formats

variable {ds : List Directive} {key tail val : Str} {q : UInt8}

/-- The key of a line is what comes before the equals sign. -/
theorem scan_keyFormat (hkey : key ≠ []) (hno : 61 ∉ key) :
    scan (keyFormat ++ ds) (key ++ 61 :: tail) = key :: scan ds (stripLeft tail) := by
  change scan (.set (· ≠ 61) :: .blank :: .char 61 :: .blank :: ds) (key ++ 61 :: tail) = _
  rw [scan_set_until hkey hno, scan_blank, stripLeft_eq_self (by simp [isSpace]),
    scan_char_cons, if_pos rfl, scan_blank]

theorem scan_quoted (h : ¬ Quoted q val) : scan [.char q, .set (· ≠ q), .char q] val = [] := by
  match val with
  | [] => rw [scan_char_nil]
  | [c] =>
    rw [scan_char_cons, scan_set_nil]
    exact ite_self []
  | c :: d :: w =>
    rw [scan_char_cons]
    split
    · next hc =>
      -- the next byte is the quote that closes it
      have hd : d = q := by
        by_contra hne
        exact h ⟨d, w, by rw [hc], hne⟩
      exact scan_set_cons (by simp [hd])
    · rfl

theorem sscanf2_quoted (hkey : key ≠ []) (hno : 61 ∉ key) (h : ¬ Quoted q (stripLeft tail)) :
    sscanf2 (keyFormat ++ [.char q, .set (· ≠ q), .char q]) (key ++ 61 :: tail) = none := by
  rw [sscanf2, scan_keyFormat hkey hno, scan_quoted h]

/-- A value without comment sign is read whole. -/
theorem sscanf2_unquoted (hkey : key ≠ []) (hno : 61 ∉ key) (hne : stripLeft tail ≠ [])
    (hcomment : 59 ∉ stripLeft tail ∧ 35 ∉ stripLeft tail) :
    sscanf2 unquoted (key ++ 61 :: tail) = some (key, stripLeft tail) := by
  have hset : ∀ c ∈ stripLeft tail, (decide (c ≠ 59) && decide (c ≠ 35)) = true := by
    intro c hc
    rw [Bool.and_eq_true]
    exact ⟨all_ne hcomment.1 c hc, all_ne hcomment.2 c hc⟩
  rw [sscanf2, unquoted, scan_keyFormat hkey hno, scan_set_all hne hset, scan_nil]

/-- Nothing behind the equals sign. -/
theorem sscanf2_empty (hkey : key ≠ []) (hno : 61 ∉ key) :
    sscanf2 unquoted (key ++ [61]) = none ∧ sscanf2 commentOnly (key ++ [61]) = none ∧
      sscanf2 equalsOnly (key ++ [61]) = some (key, [61]) := by
  refine ⟨?_, ?_, ?_⟩
  · rw [sscanf2, unquoted, scan_keyFormat hkey hno]
    rfl
  · rw [sscanf2, commentOnly, scan_keyFormat hkey hno]
    rfl
  · rw [sscanf2, equalsOnly, scan_set_until hkey hno, scan_blank,
      stripLeft_eq_self (by simp [isSpace]), scan_set_all (by simp) (by simp), scan_nil]

end Formats

/-! ## The line of an entry -/

/-- The key with its padding, up to the equals sign. -/
def paddedKey (key : Str) : Str := key ++ List.replicate (30 - key.length) 32 ++ [32]

/-- The line of an entry without the white space at its end. -/
def entryText (key val : Str) : Str :=
  paddedKey key ++ 61 :: if val = [] then [] else 32 :: val

section Entry

variable {key val : Str}

theorem strlwc_eq_self {s : Str} {len : ℕ} (h0 : 0 ∉ s) (hlow : lower s = s)
    (hlen : s.length ≤ len - 1) : strlwc s len = s := by
  rw [strlwc, cstr_eq_self h0, List.take_of_length_le hlen, hlow]

theorem entryLine_eq (key val : Str) : entryLine key val = paddedKey key ++ 61 :: 32 :: val := by
  simp [entryLine, paddedKey, show lit " = " = [32, 61, 32] from rfl]

theorem strip_paddedKey (htrim : Trim key) : strip (paddedKey key) = key := by
  rw [paddedKey, List.append_assoc]
  refine strip_append htrim fun c hc => ?_
  rw [List.mem_append, List.mem_replicate, List.mem_singleton] at hc
  rcases hc with ⟨-, rfl⟩ | rfl <;> rfl

theorem paddedKey_ne_nil (key : Str) : paddedKey key ≠ [] := by
  simp [paddedKey]

theorem equals_notMem_paddedKey (h : 61 ∉ key) : 61 ∉ paddedKey key := by
  simp [paddedKey, h]

theorem length_paddedKey (key : Str) : (paddedKey key).length = max 30 key.length + 1 := by
  simp only [paddedKey, List.length_append, List.length_replicate, List.length_singleton]
  omega

/-- The line ends with the value, or with the equals sign. -/
theorem getLast?_entryText :
    (entryText key val).getLast? = if val = [] then some 61 else val.getLast? := by
  unfold entryText
  split
  · simp
  · next h =>
    obtain ⟨c, w, rfl⟩ := List.exists_cons_of_ne_nil h
    rw [List.getLast?_append_of_ne_nil _ (by simp), List.getLast?_cons_cons,
      List.getLast?_cons_cons]

theorem head?_entryText (hne : key ≠ []) : (entryText key val).head? = key.head? := by
  obtain ⟨c, w, rfl⟩ := List.exists_cons_of_ne_nil hne
  simp [entryText, paddedKey]

theorem trim_entryText (hne : key ≠ []) (hkey : Trim key) (hval : Trim val) :
    Trim (entryText key val) where
  head := by
    rw [head?_entryText hne]
    exact hkey.head
  last := by
    rw [getLast?_entryText]
    split
    · rintro c hc
      obtain rfl := Option.some.inj hc
      rfl
    · exact hval.last

theorem stripRight_entryLine (hne : key ≠ []) (hkey : Trim key) (hval : Trim val) :
    stripRight (entryLine key val ++ [10]) = entryText key val := by
  have htrim := trim_entryText hne hkey hval
  rw [stripRight_append (by simp [isSpace]), entryLine_eq]
  by_cases hv : val = []
  · -- the blank behind the equals sign goes too
    subst hv
    have hsplit : paddedKey key ++ [61, 32] = entryText key [] ++ [32] := by
      simp [entryText]
    rw [hsplit, stripRight_append (by simp [isSpace])]
    exact stripRight_eq_self htrim.last
  · rw [show paddedKey key ++ 61 :: 32 :: val = entryText key val by simp [entryText, hv]]
    exact stripRight_eq_self htrim.last

/-- **The line of an entry says the entry.** -/
theorem iniparserLine_entryText (h : Readable key val) (h0 : 0 ∉ key) (hlow : lower key = key)
    (sec : Str) : iniparserLine (entryText key val) sec = .value key val := by
  have htrim := trim_entryText h.nonempty h.trim h.plain.trim
  have hpad := paddedKey_ne_nil key
  have hno := equals_notMem_paddedKey h.noEquals
  have hlen : key.length ≤ (entryText key val).length - 1 := by
    have hkey := length_paddedKey key
    rw [entryText, List.length_append, List.length_cons, hkey]
    omega
  have hne : entryText key val ≠ [] := by simp [entryText]
  have hkey : strlwc (strip (paddedKey key)) (entryText key val).length = key := by
    rw [strip_paddedKey h.trim, strlwc_eq_self h0 hlow hlen]
  unfold iniparserLine
  simp only [strip_eq_self htrim, head?_entryText h.nonempty, getLast?_entryText]
  rw [if_neg hne, if_neg (not_or.mpr h.noComment), if_neg]
  · by_cases hv : val = []
    · have htext : entryText key val = paddedKey key ++ [61] := by simp [entryText, hv]
      have hquoted : ∀ q, ¬ Quoted q (stripLeft []) := by
        rintro q ⟨c, w, hw, -⟩
        cases hw
      obtain ⟨h₁, h₂, h₃⟩ := sscanf2_empty hpad hno
      rw [htext] at hkey ⊢
      rw [doubleQuoted, singleQuoted, sscanf2_quoted hpad hno (hquoted _),
        sscanf2_quoted hpad hno (hquoted _), Option.or_none, h₁, h₂, h₃]
      simp only [Option.none_or, hkey, hv]
    · have htext : entryText key val = paddedKey key ++ 61 :: 32 :: val := by
        simp [entryText, hv]
      have hleft : stripLeft (32 :: val) = val := by
        rw [show 32 :: val = [32] ++ val from rfl, stripLeft_append (by simp [isSpace]),
          stripLeft_eq_self h.plain.trim.head]
      rw [htext] at hkey ⊢
      rw [doubleQuoted, singleQuoted, sscanf2_quoted hpad hno (hleft.symm ▸ h.plain.notQuoted.1),
        sscanf2_quoted hpad hno (hleft.symm ▸ h.plain.notQuoted.2), Option.or_none,
        sscanf2_unquoted hpad hno (hleft.symm ▸ hv) (hleft.symm ▸ h.plain.noComment), hleft]
      simp only [hkey, strip_eq_self h.plain.trim]
      rw [if_neg (not_or.mpr h.plain.notEmptyQuotes)]
  · -- a key that opens a bracket does not have a value that closes it
    rintro ⟨hhead, hlast⟩
    split at hlast
    · cases hlast
    · exact h.noHeader ⟨hhead, hlast⟩

/-- A round of the loop on the line of an entry. -/
theorem loadLine_entryLine (h : Readable key val) (h0 : 0 ∉ key) (hlow : lower key = key)
    (st : Loader) : loadLine st (entryLine key val ++ [10]) false =
      some { st with
        line := [], dict := dictionarySet st.dict (st.sec ++ colon :: key) (some val) } := by
  have hlong : ¬ (entryLine key val ++ [10]).length ≤ 1 := by
    rw [entryLine_eq]
    simp only [List.length_append, List.length_cons]
    omega
  have hlast : ¬ (entryText key val).getLast? = some 92 := by
    rw [getLast?_entryText]
    split
    · simp
    · exact h.plain.noBackslash
  rw [loadLine, if_neg hlong, if_neg (by simp), stripRight_entryLine h.nonempty h.trim h.plain.trim,
    if_neg hlast, loadStatus, iniparserLine_entryText h h0 hlow]

end Entry

/-! ## The header of a section -/

section Header

variable {s : Str}

theorem trim_header (s : Str) : Trim (91 :: s ++ [93]) where
  head := by
    rintro c hc
    obtain rfl := Option.some.inj hc
    rfl
  last := by
    rintro c hc
    rw [List.getLast?_concat] at hc
    obtain rfl := Option.some.inj hc
    rfl

/-- **The header of a section says the section**, and an empty header the section before. -/
theorem iniparserLine_header (h : SectionName s) (h0 : 0 ∉ s) (hlow : lower s = s)
    (hno : 93 ∉ s) {sec : Str} (hsec : s = [] → sec = []) :
    iniparserLine (91 :: s ++ [93]) sec = .section s := by
  have hscan : (scan [.char 91, .set (· ≠ 93)] (91 :: s ++ [93])).headD sec = s := by
    rw [List.cons_append, scan_char_cons, if_pos rfl]
    rcases eq_or_ne s [] with rfl | hne
    · rw [List.nil_append, scan_set_cons rfl, List.headD_nil, hsec rfl]
    · rw [scan_set_until hne hno, List.headD_cons]
  unfold iniparserLine
  simp only [strip_eq_self (trim_header s), hscan]
  rw [if_neg (by simp), if_neg (by simp), if_pos ⟨rfl, by rw [List.getLast?_concat]⟩,
    strip_eq_self h.trim, strlwc_eq_self h0 hlow (by simp)]

/-- A round of the loop on the header of a section. -/
theorem loadLine_header (h : SectionName s) (h0 : 0 ∉ s) (hlow : lower s = s) (hno : 93 ∉ s)
    {st : Loader} (hsec : s = [] → st.sec = []) : loadLine st (91 :: s ++ [93] ++ [10]) false =
      some { st with line := [], sec := s, dict := dictionarySet st.dict s none } := by
  have hstrip : stripRight (91 :: s ++ [93] ++ [10]) = 91 :: s ++ [93] := by
    rw [stripRight_append (by simp [isSpace])]
    exact stripRight_eq_self (trim_header s).last
  rw [loadLine, if_neg (by simp), if_neg fun h => h.1 (by rw [List.getLast?_concat]),
    hstrip, List.getLast?_concat, if_neg (by simp), loadStatus,
    iniparserLine_header h h0 hlow hno hsec]

end Header

/-! ## Parts of a file -/

/-- **The part `text` of a file** takes the loop from `st` to `st'`. -/
def Reads (st : Loader) (text : List UInt8) (st' : Loader) : Prop :=
  ∀ rest st'', Loads st' rest st'' → Loads st (text ++ rest) st''

theorem Reads.nil (st : Loader) : Reads st [] st := fun _ _ h => h

theorem Reads.trans {st st₁ st₂ : Loader} {a b : List UInt8} (h₁ : Reads st a st₁)
    (h₂ : Reads st₁ b st₂) : Reads st (a ++ b) st₂ := fun rest st'' h => by
  rw [List.append_assoc]
  exact h₁ _ _ (h₂ _ _ h)

theorem Reads.loadAll {st st' : Loader} {file : List UInt8} (h : Reads st file st') :
    loadAll st file = some st' := by
  have := h [] st' (Loads.nil st')
  rw [List.append_nil] at this
  exact this.loadAll

/-- The loop between two lines. -/
def between (sec : Str) (d : Dictionary) : Loader := ⟨[], sec, d, 0⟩

theorem reads_line {st st' : Loader} {line : List UInt8} (hst : st.line = []) (h0 : 0 ∉ line)
    (hline : 10 ∉ line) (hlen : line.length ≤ 1022)
    (hstep : loadLine st (line ++ [10]) false = some st') : Reads st (line ++ [10]) st' := by
  intro rest st'' h
  rw [List.append_assoc]
  exact Loads.line hst h0 hline hlen hstep h

/-- An empty line is passed over. -/
theorem reads_blank (sec : Str) (d : Dictionary) : Reads (between sec d) [10] (between sec d) := by
  rw [← List.nil_append [10]]
  exact reads_line rfl (by simp) (by simp) (by simp) rfl

theorem reads_header {s : Str} (h : SectionName s) (h0 : 0 ∉ s) (hlow : lower s = s)
    (hno : 93 ∉ s) (hline : 10 ∉ s) (hlen : s.length ≤ 1020) {sec : Str}
    (hsec : s = [] → sec = []) (d : Dictionary) :
    Reads (between sec d) (91 :: s ++ [93] ++ [10]) (between s (dictionarySet d s none)) := by
  refine reads_line rfl (by simpa using h0) (by simpa using hline) ?_
    (loadLine_header h h0 hlow hno hsec)
  simp only [List.length_append, List.length_cons, List.length_nil]
  omega

theorem reads_entry {key val : Str} (h : Readable key val) (h0 : 0 ∉ key ∧ 0 ∉ val)
    (hlow : lower key = key) (sec : Str) (d : Dictionary) :
    Reads (between sec d) (entryLine key val ++ [10])
      (between sec (dictionarySet d (sec ++ colon :: key) (some val))) := by
  have hpad : ∀ c : UInt8, c ≠ 32 → c ≠ 61 → c ∉ key → c ∉ val → c ∉ entryLine key val := by
    intro c h32 h61 hk hv
    simp [entryLine_eq, paddedKey, h32, h61, hk, hv]
  refine reads_line rfl (hpad 0 (by decide) (by decide) h0.1 h0.2)
    (hpad 10 (by decide) (by decide) h.noNewline.1 h.noNewline.2) ?_
    (loadLine_entryLine h h0.1 hlow _)
  have hfits := h.fits
  rw [entryLine_eq, List.length_append, length_paddedKey, List.length_cons, List.length_cons]
  omega

end RkIpc.Param
