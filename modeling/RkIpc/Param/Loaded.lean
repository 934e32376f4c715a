import RkIpc.Param.IniParser

/-!
# What a loaded dictionary looks like

Whatever the ini file contains, the keys of the dictionary are in small letters, a key without
colon is the name of a section that stood in a header, and no string contains a terminator. Setting
an entry keeps this.

## Main definitions

* `Dictionary.Loaded`: the invariant

## Main results

* `iniparserLoad_loaded`: it holds after loading any file
* `Dictionary.Loaded.set`: and after setting an entry
-/

namespace RkIpc.Param

open Text

/-- Small letters, and no terminator. -/
def KeyBytes (s : Str) : Prop := ∀ c ∈ s, c ≠ 0 ∧ toLower c = c

/-- **What stood between brackets** in one line. -/
structure HeaderName (s : Str) : Prop where
  bytes : KeyBytes s
  noNewline : 10 ∉ s
  noBracket : 93 ∉ s
  short : s.length ≤ 1020

/-- **The invariant of a dictionary that was loaded.** -/
structure Dictionary.Loaded (d : Dictionary) : Prop where
  key : ∀ k v, d.lookup k = some v → KeyBytes k
  val : ∀ k v, d.lookup k = some (some v) → 0 ∉ v
  header : ∀ s v, d.lookup s = some v → colon ∉ s → v = none ∧ HeaderName s

theorem KeyBytes.lower_eq {s : Str} (h : KeyBytes s) : lower s = s :=
  (List.map_congr_left fun c hc => (h c hc).2).trans (List.map_id s)

theorem KeyBytes.zero_notMem {s : Str} (h : KeyBytes s) : 0 ∉ s := fun h0 => (h 0 h0).1 rfl

theorem keyBytes_strlwc (s : List UInt8) (len : ℕ) : KeyBytes (strlwc s len) := by
  intro c hc
  obtain ⟨d, hd, rfl⟩ := List.mem_map.mp hc
  refine ⟨fun h0 => ?_, toLower_toLower d⟩
  have hd0 : d ≠ 0 := by
    rintro rfl
    exact zero_notMem_cstr s (List.mem_of_mem_take hd)
  unfold toLower at h0
  grind

theorem length_strlwc_le (s : List UInt8) (len : ℕ) : (strlwc s len).length ≤ s.length := by
  rw [strlwc, lower, List.length_map, List.length_take]
  exact (Nat.min_le_right _ _).trans (List.takeWhile_sublist _).length_le

/-- What is not a letter comes from the string. -/
theorem mem_of_mem_strlwc {s : List UInt8} {len : ℕ} {c : UInt8} (hc : ¬ (97 ≤ c ∧ c ≤ 122))
    (hlow : toLower c = c) (h : c ∈ strlwc s len) : c ∈ s :=
  (List.takeWhile_sublist _).subset (List.mem_of_mem_take ((mem_lower_iff hc hlow).mp h))

namespace Dictionary.Loaded

variable {d : Dictionary}

theorem dictionaryNew : (dictionaryNew).Loaded where
  key k v h := by simp at h
  val k v h := by simp at h
  header s v h := by simp at h

/-- A section is added. -/
theorem setSection (h : d.Loaded) {s : Str} (hs : HeaderName s) :
    (dictionarySet d s none).Loaded where
  key k v hk := by
    rw [lookup_dictionarySet, Function.update_apply] at hk
    split at hk
    · next heq => exact heq ▸ hs.bytes
    · exact h.key k v hk
  val k v hk := by
    rw [lookup_dictionarySet, Function.update_apply] at hk
    split at hk
    · simp at hk
    · exact h.val k v hk
  header k v hk hcolon := by
    rw [lookup_dictionarySet, Function.update_apply] at hk
    split at hk
    · next heq => exact ⟨by simpa using hk.symm, heq ▸ hs⟩
    · exact h.header k v hk hcolon

/-- An entry is set. -/
theorem set (h : d.Loaded) {key val : Str} (hkey : KeyBytes key) (hcolon : colon ∈ key) :
    (dictionarySet d key (some val)).Loaded where
  key k v hk := by
    rw [lookup_dictionarySet, Function.update_apply] at hk
    split at hk
    · next heq => exact heq ▸ hkey
    · exact h.key k v hk
  val k v hk := by
    rw [lookup_dictionarySet, Function.update_apply] at hk
    split at hk
    · obtain rfl : cstr val = v := by simpa using hk
      exact zero_notMem_cstr val
    · exact h.val k v hk
  header k v hk hno := by
    rw [lookup_dictionarySet, Function.update_apply] at hk
    split at hk
    · next heq => exact absurd (heq ▸ hcolon) hno
    · exact h.header k v hk hno

end Dictionary.Loaded

/-! ## Lines -/

/-- The invariant of the loop. -/
structure Loader.Loaded (st : Loader) : Prop where
  noNewline : 10 ∉ st.line
  short : st.line.length ≤ 1021
  sec : HeaderName st.sec
  dict : st.dict.Loaded

theorem iniparserLine_eq_section {input sec name : Str}
    (h : iniparserLine input sec = .section name) :
    (strip input).head? = some 91 ∧ (strip input).getLast? = some 93 ∧
      name = strlwc (strip ((scan [.char 91, .set (· ≠ 93)] (strip input)).headD sec))
        (strip input).length := by
  unfold iniparserLine at h
  dsimp only at h
  split_ifs at h with hempty hcomment hheader
  · exact ⟨hheader.1, hheader.2, (LineStatus.section.inj h).symm⟩
  all_goals
    repeat' split at h
    all_goals cases h

theorem iniparserLine_value {input sec key val : Str}
    (h : iniparserLine input sec = .value key val) : KeyBytes key := by
  unfold iniparserLine at h
  dsimp only at h
  split_ifs at h with hempty hcomment hheader
  repeat' split at h
  all_goals cases h
  all_goals exact keyBytes_strlwc _ _

theorem length_takeWhile_lt {c : UInt8} {s : Str} (h : c ∈ s) :
    (s.takeWhile (· ≠ c)).length < s.length := by
  refine Nat.lt_of_le_of_ne (List.takeWhile_sublist _).length_le fun heq => ?_
  have htake := (List.takeWhile_sublist _).eq_of_length heq
  simpa using List.takeWhile_eq_self_iff.mp htake c h

/-- A header is in one line. -/
theorem iniparserLine_section {input sec name : Str} (hline : 10 ∉ input)
    (hlen : input.length ≤ 1022) (hsec : HeaderName sec)
    (h : iniparserLine input sec = .section name) : HeaderName name := by
  obtain ⟨hhead, hlast, rfl⟩ := iniparserLine_eq_section h
  have hshort : (strip input).length ≤ 1022 := (length_strip_le input).trans hlen
  -- what is converted, or what was there before
  obtain ⟨hnl, hbr, hw⟩ : 10 ∉ (scan [.char 91, .set (· ≠ 93)] (strip input)).headD sec ∧
      93 ∉ (scan [.char 91, .set (· ≠ 93)] (strip input)).headD sec ∧
      ((scan [.char 91, .set (· ≠ 93)] (strip input)).headD sec).length ≤ 1020 := by
    obtain ⟨c, rest, hstrip⟩ : ∃ c rest, strip input = c :: rest :=
      List.exists_cons_of_ne_nil fun hnil => by simp [hnil] at hhead
    cases hscan : scan [.char 91, .set (· ≠ 93)] (strip input) with
    | nil => exact ⟨hsec.noNewline, hsec.noBracket, hsec.short⟩
    | cons w ws =>
      have hsub : w ⊆ strip input := subset_of_mem_scan (hscan ▸ List.mem_cons_self)
      obtain rfl : c = 91 := by simpa [hstrip] using hhead
      rw [hstrip, scan_char_cons, if_pos rfl] at hscan
      obtain ⟨-, rfl, -⟩ := scan_set_eq_cons hscan
      refine ⟨fun hn => hline (strip_subset _ (hsub hn)), fun hb => ?_, ?_⟩
      · simpa using List.mem_takeWhile_imp hb
      · -- the bracket at the end is not taken
        have hmem : 93 ∈ rest := by
          rw [hstrip] at hlast
          simpa using List.mem_of_getLast? hlast
        have hlt := length_takeWhile_lt hmem
        rw [hstrip, List.length_cons] at hshort
        rw [List.headD_cons]
        omega
  exact
    { bytes := keyBytes_strlwc _ _
      noNewline := fun h => hnl (strip_subset _ (mem_of_mem_strlwc (by decide) (by decide) h))
      noBracket := fun h => hbr (strip_subset _ (mem_of_mem_strlwc (by decide) (by decide) h))
      short := (length_strlwc_le _ _).trans ((length_strip_le _).trans hw) }

theorem loadStatus_loaded {st : Loader} {line : Str} (hst : st.Loaded) (hline : 10 ∉ line)
    (hlen : line.length ≤ 1022) : (loadStatus st line).Loaded := by
  unfold loadStatus
  split
  · exact ⟨List.not_mem_nil, Nat.zero_le _, hst.sec, hst.dict⟩
  · exact ⟨List.not_mem_nil, Nat.zero_le _, hst.sec, hst.dict⟩
  · next h =>
    have hname := iniparserLine_section hline hlen hst.sec h
    exact ⟨List.not_mem_nil, Nat.zero_le _, hname, hst.dict.setSection hname⟩
  · next key val h =>
    have hkey : KeyBytes (st.sec ++ colon :: key) := by
      intro c hc
      rw [List.mem_append, List.mem_cons] at hc
      rcases hc with hc | rfl | hc
      · exact hst.sec.bytes c hc
      · exact ⟨by decide, by decide⟩
      · exact iniparserLine_value h c hc
    exact ⟨List.not_mem_nil, Nat.zero_le _, hst.sec,
      hst.dict.set hkey (List.mem_append_right _ List.mem_cons_self)⟩
  · exact ⟨List.not_mem_nil, Nat.zero_le _, hst.sec, hst.dict⟩

theorem subset_dropLast_of_isPrefix {a b : Str} (h : a <+: b) (hne : a ≠ b) : a ⊆ b.dropLast := by
  obtain ⟨t, rfl⟩ := h
  have ht : t ≠ [] := fun ht => hne (by rw [ht, List.append_nil])
  rw [List.dropLast_append_of_ne_nil ht]
  exact List.subset_append_left _ _

theorem dropLast_subset_of_isPrefix {a b : Str} (h : a <+: b) : a.dropLast ⊆ b.dropLast := by
  rcases eq_or_ne a b with rfl | hne
  · exact fun _ hx => hx
  · exact fun _ hx => subset_dropLast_of_isPrefix h hne (List.dropLast_subset _ hx)

/-- Without the newline at its end, a line has none. -/
theorem newline_notMem_stripRight {line : Str} (h : 10 ∉ line.dropLast) :
    10 ∉ stripRight line := by
  intro hmem
  rcases eq_or_ne (stripRight line) line with heq | hne
  · have hl : line ≠ [] := by
      rintro rfl
      simp [stripRight] at hmem
    rw [heq, ← List.dropLast_append_getLast hl, List.mem_append, List.mem_singleton] at hmem
    have hlast := stripRight_getLast (s := line) 10 (by
      rw [heq, List.getLast?_eq_getLast_of_ne_nil hl, ← hmem.resolve_left h]
      rfl)
    exact absurd hlast (by decide)
  · exact h (subset_dropLast_of_isPrefix (isPrefix_stripRight line) hne hmem)

theorem length_stripRight_le {line : Str} {feof : Bool} (hlen : line.length ≤ 1023)
    (hfeof : feof → line.length ≤ 1022) (hlong : ¬ (line.getLast? ≠ some 10 ∧ !feof)) :
    (stripRight line).length ≤ 1022 := by
  have hle := (isPrefix_stripRight line).length_le
  rcases Nat.lt_or_ge 1022 line.length with hfull | hfull
  · -- the newline at its end goes
    have hlast : line.getLast? = some 10 := by
      by_contra hne
      have hfalse : feof = false := Bool.eq_false_iff.mpr fun h => absurd (hfeof h) (by omega)
      exact hlong ⟨hne, by rw [hfalse]; rfl⟩
    have hne : stripRight line ≠ line := fun heq => by
      have := stripRight_getLast (s := line) 10 (by rw [heq, hlast]; rfl)
      exact absurd this (by decide)
    have : (stripRight line).length ≠ line.length := fun heq =>
      hne ((isPrefix_stripRight line).eq_of_length heq)
    omega
  · omega

/-- **A round keeps the invariant**, if the line fits the buffer. -/
theorem loadLine_loaded {st st' : Loader} {line : Str} {feof : Bool} (hst : st.Loaded)
    (hline : 10 ∉ line.dropLast) (hlen : line.length ≤ 1023) (hfeof : feof → line.length ≤ 1022)
    (h : loadLine st line feof = some st') : st'.Loaded := by
  unfold loadLine at h
  split_ifs at h with hshort hlong hcont
  · exact Option.some.inj h ▸ hst
  all_goals
    have hnl := newline_notMem_stripRight hline
    have hle : (stripRight line).length ≤ 1022 := length_stripRight_le hlen hfeof hlong
    obtain rfl := Option.some.inj h
  · refine ⟨fun hmem => hnl (List.dropLast_subset _ hmem), ?_, hst.sec, hst.dict⟩
    rw [List.length_dropLast]
    omega
  · exact loadStatus_loaded hst hnl hle

theorem length_cstr_le (s : List UInt8) : (cstr s).length ≤ s.length :=
  (List.takeWhile_sublist _).length_le

/-- What `fgets` reads fits the buffer. -/
theorem round_loaded {st st' : Loader} {file : List UInt8} (hst : st.Loaded)
    (h : loadLine st (st.line ++ cstr (fgets (asciiLineSz - st.line.length - 1) file).1)
      ((fgets (asciiLineSz - st.line.length - 1) file).1.length <
          asciiLineSz - st.line.length - 1 &&
        (fgets (asciiLineSz - st.line.length - 1) file).1.getLast? != some 10) = some st') :
    st'.Loaded := by
  generalize hlimit : asciiLineSz - st.line.length - 1 = limit at h
  have hshort := hst.short
  have hchunk := length_fgets_le limit file
  have hnl := newline_notMem_fgets limit file
  generalize (fgets limit file).1 = chunk at h hchunk hnl
  have hcstr := length_cstr_le chunk
  unfold asciiLineSz at hlimit
  refine loadLine_loaded hst ?_ ?_ ?_ h
  · intro hmem
    rcases eq_or_ne (cstr chunk) [] with hnil | hne
    · rw [hnil, List.append_nil] at hmem
      exact hst.noNewline (List.dropLast_subset _ hmem)
    · rw [List.dropLast_append_of_ne_nil hne, List.mem_append] at hmem
      exact hnl (dropLast_subset_of_isPrefix (List.takeWhile_prefix _)
        (hmem.resolve_left hst.noNewline))
  · rw [List.length_append]
    omega
  · intro hfeof
    have := of_decide_eq_true (Bool.and_eq_true_iff.mp hfeof).1
    rw [List.length_append]
    omega

/-- **Every round keeps the invariant.** -/
theorem loadLoop_loaded {fuel : ℕ} {st st' : Loader} {file : List UInt8} (hst : st.Loaded)
    (h : loadLoop fuel st file = some st') : st'.Loaded := by
  induction fuel generalizing st file with
  | zero => exact Option.some.inj h ▸ hst
  | succ fuel ih =>
    rw [loadLoop] at h
    split at h
    · exact Option.some.inj h ▸ hst
    · obtain ⟨st₁, hstep, hrest⟩ := Option.bind_eq_some_iff.mp h
      exact ih (round_loaded hst hstep) hrest

/-- **The invariant holds after loading any file.** -/
theorem iniparserLoad_loaded {file : Option (List UInt8)} {d : Dictionary}
    (h : iniparserLoad file = some d) : d.Loaded := by
  obtain ⟨content, -, h⟩ := Option.bind_eq_some_iff.mp h
  obtain ⟨st, hst, h⟩ := Option.bind_eq_some_iff.mp h
  have hinit : (⟨[], [], dictionaryNew, 0⟩ : Loader).Loaded :=
    ⟨List.not_mem_nil, Nat.zero_le _,
      ⟨fun c hc => absurd hc List.not_mem_nil, List.not_mem_nil, List.not_mem_nil, Nat.zero_le _⟩,
      Dictionary.Loaded.dictionaryNew⟩
  split_ifs at h
  obtain rfl := Option.some.inj h
  exact (loadLoop_loaded hinit hst).dict

/-- **The rounds are enough**: every one of them reads a byte. -/
theorem loadLoop_eq_loadAll {fuel : ℕ} {st : Loader} {file : List UInt8} (hst : st.Loaded)
    (hfuel : file.length ≤ fuel) : loadLoop fuel st file = loadAll st file := by
  suffices ∀ n m (st : Loader) (file : List UInt8), st.Loaded → file.length ≤ n →
      file.length ≤ m → loadLoop n st file = loadLoop m st file from
    this _ _ _ _ hst hfuel le_rfl
  intro n
  induction n with
  | zero =>
    intro m st file _ hn _
    obtain rfl : file = [] := List.length_eq_zero_iff.mp (by omega)
    cases m <;> simp [loadLoop]
  | succ n ih =>
    intro m st file hst hn hm
    rcases eq_or_ne file [] with rfl | hfile
    · cases m <;> simp [loadLoop]
    obtain ⟨m, rfl⟩ := Nat.exists_eq_add_one.mpr
      (Nat.lt_of_lt_of_le (List.length_pos_iff.mpr hfile) hm)
    have hlimit : 0 < asciiLineSz - st.line.length - 1 := by
      have := hst.short
      simp only [asciiLineSz]
      omega
    have hlt := length_fgets_snd_lt hlimit hfile
    rw [loadLoop, loadLoop, if_neg hfile, if_neg hfile]
    refine Option.bind_congr fun st₁ hstep => ?_
    exact ih m st₁ _ (round_loaded hst hstep) (by omega) (by omega)

end RkIpc.Param
