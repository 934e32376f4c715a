import RkIpc.Param.Dictionary
import RkIpc.Text.Decimal

/-!
# Reading and writing the ini file

`common/param/iniparser.c` reads an ini file line by line into a dictionary. A section is a key
without value, and an entry is the key `section:key`. Entries are printed below their section, as
they are, and what a line means is found out by a chain of formats when it is read again.

## Main definitions

* `iniparserLine`, `loadLine`, `iniparserLoad`: a line, a step of the loop, and a file
* `iniparserDumpIni`: the file for a dictionary
* `iniparserSet`, `iniparserUnset`, `iniparserGetstring`, `iniparserGetint`: a key in small letters

## Main results

* `length_fgets_snd_lt`: every turn of the loop reads something
* `Loads.line`: the loop goes through a file line by line
-/

namespace RkIpc.Param

open Text

/-- `ASCIILINESZ`. -/
def asciiLineSz : ℕ := 1024

/-- `strlwc`: at most `len - 1` bytes, in small letters. -/
def strlwc (s : List UInt8) (len : ℕ) : Str := lower ((cstr s).take (len - 1))

/-! ## Keys -/

/-- `iniparser_getstring`. -/
def iniparserGetstring (d : Dictionary) (key : Str) (default : Option Str) : Option Str :=
  dictionaryGet d (strlwc key (asciiLineSz + 1)) default

/-- `iniparser_find_entry`: whether the key is there, with a value or without. -/
def iniparserFindEntry (d : Dictionary) (entry : Str) : Bool :=
  (d.lookup (strlwc entry (asciiLineSz + 1))).isSome

/-- `iniparser_getint`. A key without value makes `strtol` read at a null pointer, and nothing is
said about that. -/
def iniparserGetint (d : Dictionary) (key : Str) (notfound : ℤ) : Option ℤ :=
  match d.lookup (strlwc key (asciiLineSz + 1)) with
  | none => some notfound
  | some none => none
  | some (some s) => some (strtol s)

/-- `iniparser_set`. -/
def iniparserSet (d : Dictionary) (entry : Str) (val : Option Str) : Dictionary :=
  dictionarySet d (strlwc entry (asciiLineSz + 1)) val

/-- `iniparser_unset`. -/
def iniparserUnset (d : Dictionary) (entry : Str) : Dictionary :=
  dictionaryUnset d (strlwc entry (asciiLineSz + 1))

/-! ## Writing -/

/-- A colon. -/
def colon : UInt8 := 58

/-- `iniparser_getsecname` for every number: the keys without a colon. -/
def iniparserSections (d : Dictionary) : List Str :=
  (d.entries.map Prod.fst).filter (colon ∉ ·)

/-- The entries of a section, which `strncmp` recognises. -/
def sectionEntries (d : Dictionary) (s : Str) : List (Str × Option Str) :=
  d.entries.filter fun e => (s ++ [colon]).isPrefixOf e.1

/-- `"%-30s = %s"`. -/
def entryLine (key val : Str) : Str :=
  key ++ List.replicate (30 - key.length) 32 ++ lit " = " ++ val

/-- `iniparser_dumpsection_ini`. -/
def iniparserDumpsectionIni (d : Dictionary) (s : Str) : List UInt8 :=
  if iniparserFindEntry d s then
    lit "\n[" ++ s ++ lit "]\n" ++
      ((sectionEntries d s).flatMap fun e =>
        entryLine (e.1.drop (s.length + 1)) (e.2.getD []) ++ lit "\n") ++ lit "\n"
  else []

/-- **`iniparser_dump_ini`.** -/
def iniparserDumpIni (d : Dictionary) : List UInt8 :=
  if iniparserSections d = [] then
    d.entries.flatMap fun e => e.1 ++ lit " = " ++ e.2.getD (lit "(null)") ++ lit "\n"
  else (iniparserSections d).flatMap (iniparserDumpsectionIni d) ++ lit "\n"

/-! ## Reading a line -/

/-- `line_status`, with what the line says. -/
inductive LineStatus where
  | error
  | empty
  | comment
  | section (name : Str)
  | value (key val : Str)
deriving DecidableEq, Repr

/-- `"%[^=] = "`, which every format of an entry begins with. -/
def keyFormat : List Directive := [.set (· ≠ 61), .blank, .char 61, .blank]

/-- `"%[^=] = \"%[^\"]\""`. -/
def doubleQuoted : List Directive := keyFormat ++ [.char 34, .set (· ≠ 34), .char 34]

/-- `"%[^=] = '%[^\']'"`. -/
def singleQuoted : List Directive := keyFormat ++ [.char 39, .set (· ≠ 39), .char 39]

/-- `"%[^=] = %[^;#]"`. -/
def unquoted : List Directive := keyFormat ++ [.set fun c => c ≠ 59 && c ≠ 35]

/-- `"%[^=] = %[;#]"`. -/
def commentOnly : List Directive := keyFormat ++ [.set fun c => c == 59 || c == 35]

/-- `"%[^=] %[=]"`. -/
def equalsOnly : List Directive := [.set (· ≠ 61), .blank, .set (· == 61)]

/-- The test `sscanf(line, format, key, value) == 2`, with what it converts. -/
def sscanf2 (format : List Directive) (line : Str) : Option (Str × Str) :=
  match scan format line with
  | [key, value] => some (key, value)
  | _ => none

/-- **`iniparser_line`**; `sec` is what `section` holds before. -/
def iniparserLine (input sec : Str) : LineStatus :=
  let line := strip input
  let len := line.length
  let key (k : Str) : Str := strlwc (strip k) len
  if line = [] then .empty
  else if line.head? = some 35 ∨ line.head? = some 59 then .comment
  else if line.head? = some 91 ∧ line.getLast? = some 93 then
    -- `section` stays as it is if there is nothing to convert
    .section (strlwc (strip ((scan [.char 91, .set (· ≠ 93)] line).headD sec)) len)
  else match (sscanf2 doubleQuoted line).or (sscanf2 singleQuoted line) with
    | some (k, v) => .value (key k) v
    | none =>
      match sscanf2 unquoted line with
      | some (k, v) =>
        .value (key k) (if strip v = lit "\"\"" ∨ strip v = lit "''" then [] else strip v)
      | none =>
        match (sscanf2 commentOnly line).or (sscanf2 equalsOnly line) with
        | some (k, _) => .value (key k) []
        | none => .error

/-! ## Reading a file -/

/-- What `fgets` reads with room for `limit` bytes, and the rest of the file. -/
def fgets : ℕ → List UInt8 → List UInt8 × List UInt8
  | 0, file => ([], file)
  | _ + 1, [] => ([], [])
  | limit + 1, c :: file =>
    if c = 10 then ([c], file) else (c :: (fgets limit file).1, (fgets limit file).2)

/-- The variables of the loop: `line[0 .. last)`, `section`, `dict` and `errs`. -/
structure Loader where
  line : Str
  sec : Str
  dict : Dictionary
  errs : ℕ

/-- The `switch` on a line that is complete. -/
def loadStatus (st : Loader) (line : Str) : Loader :=
  match iniparserLine line st.sec with
  | .empty | .comment => { st with line := [] }
  | .section name => { st with line := [], sec := name, dict := dictionarySet st.dict name none }
  | .value key val =>
    { st with line := [], dict := dictionarySet st.dict (st.sec ++ colon :: key) (some val) }
  | .error => { st with line := [], errs := st.errs + 1 }

/-- **The body of the loop**, with `line` as `fgets` has left it, or no result if the line is too
long. -/
def loadLine (st : Loader) (line : Str) (feof : Bool) : Option Loader :=
  if line.length ≤ 1 then some st
  else if line.getLast? ≠ some 10 ∧ !feof then none
  else if (stripRight line).getLast? = some 92 then
    -- the line goes on in the next one, behind what is kept without the backslash
    some { st with line := (stripRight line).dropLast }
  else some (loadStatus st (stripRight line))

/-- `while (fgets(line + last, ASCIILINESZ - last, in) != NULL)`. Every round reads a byte, so there
are no more rounds than bytes. -/
def loadLoop : ℕ → Loader → List UInt8 → Option Loader
  | 0, st, _ => some st
  | fuel + 1, st, file =>
    if file = [] then some st
    else
      let limit := asciiLineSz - st.line.length - 1
      let chunk := (fgets limit file).1
      let feof := chunk.length < limit && chunk.getLast? != some 10
      (loadLine st (st.line ++ cstr chunk) feof).bind fun st =>
        loadLoop fuel st (fgets limit file).2

/-- The loop over a whole file. -/
def loadAll (st : Loader) (file : List UInt8) : Option Loader := loadLoop file.length st file

/-- **`iniparser_load`** on the content of the file, if it can be opened. -/
def iniparserLoad (file : Option (List UInt8)) : Option Dictionary := do
  let content ← file
  let st ← loadAll ⟨[], [], dictionaryNew, 0⟩ content
  if st.errs = 0 then some st.dict else none

/-! ## Going through a file -/

section Fgets

variable {limit : ℕ} {file line rest : List UInt8}

theorem fgets_append (limit : ℕ) (file : List UInt8) :
    (fgets limit file).1 ++ (fgets limit file).2 = file := by
  fun_induction fgets limit file with
  | case1 file => rfl
  | case2 => rfl
  | case3 limit file => rfl
  | case4 limit c file hc ih => rw [List.cons_append, ih]

/-- A whole line fits. -/
theorem fgets_line (hline : 10 ∉ line) (hlimit : line.length < limit) :
    fgets limit (line ++ 10 :: rest) = (line ++ [10], rest) := by
  induction line generalizing limit with
  | nil =>
    obtain ⟨limit, rfl⟩ := Nat.exists_eq_add_one.mpr hlimit
    simp [fgets]
  | cons c line ih =>
    rw [List.length_cons] at hlimit
    obtain ⟨limit, rfl⟩ := Nat.exists_eq_add_one.mpr (Nat.zero_lt_of_lt hlimit)
    rw [List.mem_cons, not_or] at hline
    rw [List.cons_append, fgets, if_neg (Ne.symm hline.1), ih hline.2 (by omega), List.cons_append]

theorem length_fgets_le (limit : ℕ) (file : List UInt8) : (fgets limit file).1.length ≤ limit := by
  fun_induction fgets limit file with
  | case1 file => exact le_refl 0
  | case2 => exact Nat.zero_le _
  | case3 limit file => exact Nat.succ_le_succ (Nat.zero_le _)
  | case4 limit c file hc ih => exact Nat.succ_le_succ ih

/-- A newline ends what is read. -/
theorem newline_notMem_fgets (limit : ℕ) (file : List UInt8) :
    10 ∉ (fgets limit file).1.dropLast := by
  fun_induction fgets limit file with
  | case1 file => simp
  | case2 => simp
  | case3 limit file => simp
  | case4 limit c file hc ih =>
    dsimp only
    cases hchunk : (fgets limit file).1 with
    | nil => simp
    | cons a chunk =>
      rw [hchunk] at ih
      rw [List.dropLast_cons_of_ne_nil (List.cons_ne_nil a chunk), List.mem_cons, not_or]
      exact ⟨fun h => hc h.symm, ih⟩

/-- Something is read. -/
theorem length_fgets_snd_lt (hlimit : 0 < limit) (hfile : file ≠ []) :
    (fgets limit file).2.length < file.length := by
  have hlen := congrArg List.length (fgets_append limit file)
  rw [List.length_append] at hlen
  have hpos : 0 < (fgets limit file).1.length := by
    obtain ⟨limit, rfl⟩ := Nat.exists_eq_add_one.mpr hlimit
    obtain ⟨c, file, rfl⟩ := List.exists_cons_of_ne_nil hfile
    rw [fgets]
    split
    · exact Nat.zero_lt_one
    · exact Nat.succ_pos _
  omega

end Fgets

/-- The loop goes from `st` to `st'` on the rest of the file, whatever rounds are left over. -/
def Loads (st : Loader) (file : List UInt8) (st' : Loader) : Prop :=
  ∀ fuel, file.length ≤ fuel → loadLoop fuel st file = some st'

theorem Loads.loadAll {st st' : Loader} {file : List UInt8} (h : Loads st file st') :
    loadAll st file = some st' := h _ le_rfl

theorem Loads.nil (st : Loader) : Loads st [] st := by
  intro fuel _
  cases fuel <;> simp [loadLoop]

/-- **A line of the file** is a round of the loop. -/
theorem Loads.line {st st₁ st' : Loader} {line rest : List UInt8} (hst : st.line = [])
    (h0 : 0 ∉ line) (hline : 10 ∉ line) (hlen : line.length ≤ 1022)
    (hstep : loadLine st (line ++ [10]) false = some st₁) (hrest : Loads st₁ rest st') :
    Loads st (line ++ 10 :: rest) st' := by
  intro fuel hfuel
  rw [List.length_append, List.length_cons] at hfuel
  obtain ⟨fuel, rfl⟩ := Nat.exists_eq_add_one.mpr (show 0 < fuel by omega)
  have hcstr : cstr (line ++ [10]) = line ++ [10] := cstr_eq_self (by simpa using h0)
  have hfgets : fgets (1024 - 1) (line ++ 10 :: rest) = (line ++ [10], rest) :=
    fgets_line hline (by omega)
  rw [loadLoop, if_neg (by simp), hst]
  simp only [List.length_nil, asciiLineSz, Nat.sub_zero, hfgets, hcstr, List.nil_append]
  rw [show (_ && _) = false from Bool.and_eq_false_iff.mpr (Or.inr (by simp)), hstep,
    Option.bind_some]
  exact hrest fuel (by omega)

end RkIpc.Param
