import RkIpc.Param.Loaded

/-!
# The parameter store

`common/param/param.c` keeps one dictionary for the whole program, behind `g_ini_d_`, and the ini
file it was loaded from. An operation has no result where the source says nothing about what
happens: when it uses a dictionary that was freed, or writes beyond a local buffer.

## Main definitions

* `Store`: the file and the dictionary
* `rkParamSave`, `rkParamReload`, `rkParamInit`: writing and reading the file
* `rkParamGetString`, `rkParamSetString`, `rkParamGetInt`, `rkParamSetInt`: one parameter

## Main results

* `rkParamSetInt_eq`: an `int` is set if its text fits the local buffer
* `rkParamGetInt_set`, `rkParamGetString_set`: what is read after a parameter was set
* `rkParamGetInt_set_iff`: the numbers that are read back
-/

namespace RkIpc.Param

open Text

/-- `MAX_SECTION_KEYS`. -/
def maxSectionKeys : ℕ := 1024

/-- `g_ini_d_`: a null pointer, a dictionary, or a pointer to a dictionary that was freed. -/
inductive IniD where
  | null
  | live (d : Dictionary)
  | freed

/-- **The store**: what is at `g_ini_path_`, if it can be opened, and `g_ini_d_`. -/
structure Store where
  file : Option (List UInt8)
  iniD : IniD

/-- `iniparser_getsecnkeys`. -/
def iniparserGetsecnkeys (d : Dictionary) (s : Str) : ℕ :=
  if iniparserFindEntry d s then (sectionEntries d (strlwc s (asciiLineSz + 1))).length else 0

/-- `rk_param_dump`, which collects the keys of a section in an array. -/
def rkParamDump (d : Dictionary) : Option Unit :=
  if ∀ s ∈ iniparserSections d, iniparserGetsecnkeys d s ≤ maxSectionKeys then some () else none

/-- **`rk_param_save`**; `opened` is whether `fopen` succeeds. The file is cut before anything is
written. -/
def rkParamSave (opened : Bool) (p : Store) : Option (ℤ × Store) :=
  match p.iniD with
  | .null =>
    some (if opened then (0, { p with file := some [] }) else (-1, { p with iniD := .null }))
  | .live d =>
    some (if opened then (0, { p with file := some (iniparserDumpIni d) })
      else (-1, { p with iniD := .null }))
  | .freed => none

/-- `rk_param_get_int`. -/
def rkParamGetInt (p : Store) (entry : Str) (default : ℤ) : Option ℤ :=
  match p.iniD with
  | .null => some default
  | .live d => iniparserGetint d entry default
  | .freed => none

/-- `iniparser_set` on `g_ini_d_`; nothing is set in a null dictionary. -/
def Store.set (p : Store) (entry : Str) (val : Option Str) : Option Store :=
  match p.iniD with
  | .null => some p
  | .live d => some { p with iniD := .live (iniparserSet d entry val) }
  | .freed => none

/-- `iniparser_unset` on `g_ini_d_`. -/
def Store.unset (p : Store) (entry : Str) : Option Store :=
  match p.iniD with
  | .null => some p
  | .live d => some { p with iniD := .live (iniparserUnset d entry) }
  | .freed => none

/-- `rk_param_set_int`: the text goes through `char tmp[8]`. -/
def rkParamSetInt (p : Store) (entry : Str) (val : ℤ) : Option Store :=
  if (decimal val).length + 1 ≤ 8 then p.set entry (some (decimal val)) else none

/-- `rk_param_get_string`. -/
def rkParamGetString (p : Store) (entry : Str) (default : Option Str) : Option (Option Str) :=
  match p.iniD with
  | .null => some default
  | .live d => some (iniparserGetstring d entry default)
  | .freed => none

/-- `rk_param_set_string`. -/
def rkParamSetString (p : Store) (entry : Str) (val : Option Str) : Option Store := p.set entry val

/-- The dictionary that was loaded is dumped to the log, and is the one in use. -/
def Store.use (p : Store) (d : Dictionary) : Option (ℤ × Store) :=
  (rkParamDump d).map fun _ => (0, { p with iniD := .live d })

/-- **`rk_param_init`**; `factory` is the content of `/tmp/rkipc-factory-config.ini`, if there is
one. The dictionary in use before is forgotten. -/
def rkParamInit (factory : Option (List UInt8)) (p : Store) : Option (ℤ × Store) :=
  match iniparserLoad p.file with
  | some d => p.use d
  | none =>
    -- `cp /tmp/rkipc-factory-config.ini`, and another try
    let p := { p with file := factory.or p.file }
    match iniparserLoad p.file with
    | some d => p.use d
    | none => some (-1, { p with iniD := .null })

/-- **`rk_param_reload`**. -/
def rkParamReload (p : Store) : Option (ℤ × Store) :=
  match p.iniD with
  | .freed => none
  | .null | .live _ =>
    match iniparserLoad p.file with
    | some d => p.use d
    | none => some (-1, { p with iniD := .null })

/-- **An `int` is set** if its text fits `tmp`. -/
theorem rkParamSetInt_eq {p : Store} {entry : Str} {val : ℤ} (h : -999999 ≤ val ∧ val ≤ 9999999) :
    rkParamSetInt p entry val = p.set entry (some (decimal val)) := by
  have := length_decimal_le_seven_iff.mpr h
  exact if_pos (by omega)

theorem rkParamSetInt_eq_some_iff {p p' : Store} {entry : Str} {val : ℤ} :
    rkParamSetInt p entry val = some p' ↔
      (-999999 ≤ val ∧ val ≤ 9999999) ∧ p.set entry (some (decimal val)) = some p' := by
  rw [rkParamSetInt, ← length_decimal_le_seven_iff]
  split
  · exact ⟨fun h => ⟨by omega, h⟩, fun h => h.2⟩
  · exact ⟨nofun, fun h => by omega⟩

/-- **A text is found** in the dictionary in use. -/
theorem rkParamGetString_eq_text_iff {p : Store} {entry value : Str} :
    rkParamGetString p entry none = some (some value) ↔
      ∃ d, p.iniD = .live d ∧ d.lookup (strlwc entry (asciiLineSz + 1)) = some (some value) := by
  unfold rkParamGetString
  cases p.iniD with
  | null => exact ⟨nofun, nofun⟩
  | freed => exact ⟨nofun, nofun⟩
  | live d =>
    dsimp only [iniparserGetstring, dictionaryGet]
    constructor
    · intro h
      refine ⟨d, rfl, ?_⟩
      cases hd : d.lookup (strlwc entry (asciiLineSz + 1)) with
      | none => simp [hd] at h
      | some o => simpa [hd] using h
    · rintro ⟨_, ⟨⟩, hd⟩
      simp [hd]

/-! ## Reading what was set -/

/-- A dictionary is in use. -/
def Store.Live (p : Store) : Prop := ∃ d, p.iniD = .live d

section Live

variable {p p' : Store} {entry val : Str}

theorem Store.Live.exists_set (hp : p.Live) (entry : Str) (val : Option Str) :
    ∃ p', p.set entry val = some p' := by
  obtain ⟨d, hd⟩ := hp
  rw [Store.set, hd]
  exact ⟨_, rfl⟩

/-- A text that is set once more changes nothing. -/
theorem Store.set_eq_self (h : rkParamGetString p entry none = some (some val))
    (hval : 0 ∉ val) : p.set entry (some val) = some p := by
  obtain ⟨d, hd, hlookup⟩ := rkParamGetString_eq_text_iff.mp h
  have hself : iniparserSet d entry (some val) = d :=
    dictionarySet_eq_self hlookup (by rw [Option.map_some, cstr_eq_self hval])
  rw [Store.set, hd]
  dsimp only
  rw [hself, ← hd]

theorem Store.iniD_of_set {d : Dictionary} (hd : p.iniD = .live d)
    (hset : p.set entry (some val) = some p') :
    p'.iniD = .live (iniparserSet d entry (some val)) := by
  rw [Store.set, hd] at hset
  rw [← Option.some.inj hset]

theorem Store.Live.of_set (hp : p.Live) (hset : p.set entry (some val) = some p') : p'.Live :=
  hp.imp' _ fun _ hd => Store.iniD_of_set hd hset

/-- **A number that is read**, after a parameter was set. -/
theorem rkParamGetInt_set (hp : p.Live) (hset : p.set entry (some val) = some p') (key : Str)
    (default : ℤ) :
    rkParamGetInt p' key default =
      if strlwc key (asciiLineSz + 1) = strlwc entry (asciiLineSz + 1) then
        some (strtol (cstr val))
      else rkParamGetInt p key default := by
  obtain ⟨d, hd⟩ := hp
  rw [rkParamGetInt, rkParamGetInt, hd, Store.iniD_of_set hd hset]
  simp only [iniparserGetint, iniparserSet, lookup_dictionarySet, Function.update_apply]
  by_cases hkey : strlwc key (asciiLineSz + 1) = strlwc entry (asciiLineSz + 1)
  · rw [if_pos hkey, if_pos hkey]
    rfl
  · rw [if_neg hkey, if_neg hkey]

/-- **A text that is read**, after a parameter was set. -/
theorem rkParamGetString_set (hp : p.Live) (hset : p.set entry (some val) = some p') (key : Str)
    (default : Option Str) :
    rkParamGetString p' key default =
      if strlwc key (asciiLineSz + 1) = strlwc entry (asciiLineSz + 1) then
        some (some (cstr val))
      else rkParamGetString p key default := by
  obtain ⟨d, hd⟩ := hp
  rw [rkParamGetString, rkParamGetString, hd, Store.iniD_of_set hd hset]
  simp only [iniparserGetstring, dictionaryGet, iniparserSet, lookup_dictionarySet,
    Function.update_apply]
  split <;> rfl

/-- **A number is read back** if and only if its text fits `tmp`. -/
theorem rkParamGetInt_set_iff (hp : p.Live) (entry : Str) (v : Int32) :
    (∃ p', rkParamSetInt p entry v.toInt = some p' ∧
        ∀ default, rkParamGetInt p' entry default = some v.toInt) ↔
      -999999 ≤ v.toInt ∧ v.toInt ≤ 9999999 := by
  constructor
  · rintro ⟨p', hset, -⟩
    exact (rkParamSetInt_eq_some_iff.mp hset).1
  · intro hv
    obtain ⟨p', hset⟩ := hp.exists_set entry (some (decimal v.toInt))
    refine ⟨p', (rkParamSetInt_eq hv).trans hset, fun default => ?_⟩
    rw [rkParamGetInt_set hp hset, if_pos rfl, cstr_decimal,
      strtol_decimal ⟨by omega, by omega⟩]

/-- A loaded dictionary, and the largest number with a text that fits. -/
theorem rkParamGetInt_set_iff_seven :
    ∃ p', rkParamSetInt ⟨none, .live dictionaryNew⟩ (lit "s:k") (9999999 : Int32).toInt = some p' ∧
      ∀ default, rkParamGetInt p' (lit "s:k") default = some (9999999 : Int32).toInt :=
  (rkParamGetInt_set_iff ⟨dictionaryNew, rfl⟩ (lit "s:k") 9999999).mpr (by decide)

/-- **Eight digits overflow the buffer.** -/
theorem rkParamSetInt_overflow :
    rkParamSetInt ⟨none, .live dictionaryNew⟩ (lit "s:k") (10000000 : Int32).toInt = none :=
  if_neg (by decide)

end Live

end RkIpc.Param
