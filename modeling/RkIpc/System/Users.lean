import RkIpc.Param.Keys
import RkIpc.Param.Lifecycle
import Mathlib.Data.Set.Card

/-!
# The users

A user of `common/system/system.c` is spread over the section `user.N` and three entries of it,
and `system.device_info:user_num` counts the users. Adding a user writes all of them and counts
one more; deleting one removes the section only and counts one less. The level goes through a
buffer of two bytes.

## Main definitions

* `userEntry`, `rkSystemGetUserNum`, `rkSystemAddUser`, `rkSystemDelUser`: the operations
* `HasUser`, `userCount`: the users there are
* `addedUser`, `deletedUser`: the dictionary after the entries are written

## Main results

* `userEntry_inj`: the keys of users are distinct
* `rkSystemAddUser_run`, `rkSystemDelUser_run`: the calls of the store that the operations make
* `rkSystemAddUser_eq`, `rkSystemDelUser_eq`: what the operations leave
* `hasUser_addedUser`, `hasUser_deletedUser`: the users there are then
-/

namespace RkIpc.System

open Text Param Transition

/-- What a key of a user is: the section, or an entry of it. -/
inductive Field where
  | user
  | level
  | name
  | password
deriving DecidableEq, Repr

/-- The end of a key. -/
def Field.suffix : Field → Str
  | .user => []
  | .level => lit ":user_level"
  | .name => lit ":user_name"
  | .password => lit ":password"

/-- `snprintf(entry, 127, "user.%d…", id)`. -/
def userEntry (id : Int32) (f : Field) : Str := lit "user." ++ decimal id.toInt ++ f.suffix

/-- `"system.device_info:user_num"`. -/
def userNumEntry : Str := lit "system.device_info:user_num"

/-! ## The operations -/

/-- `rk_system_get_user_num`. -/
def rkSystemGetUserNum (p : Store) : Option ℤ := rkParamGetInt p userNumEntry 1

/-- `rk_system_set_user_num`. -/
def rkSystemSetUserNum (p : Store) (value : ℤ) : Option Store := rkParamSetInt p userNumEntry value

/-- `rk_system_get_user_level`. -/
def rkSystemGetUserLevel (p : Store) (id : Int32) : Option ℤ :=
  rkParamGetInt p (userEntry id .level) (-1)

/-- `rk_system_get_user_name`. -/
def rkSystemGetUserName (p : Store) (id : Int32) : Option (Option Str) :=
  rkParamGetString p (userEntry id .name) none

/-- `rk_system_get_password`. -/
def rkSystemGetPassword (p : Store) (id : Int32) : Option (Option Str) :=
  rkParamGetString p (userEntry id .password) none

/-- `user_num` is changed by `change`, and the parameters are saved. -/
def countUsers (opened : Bool) (p : Store) (change : ℤ) : Option (ℤ × Store) := do
  let userNum ← rkSystemGetUserNum p
  let p ← rkSystemSetUserNum p (userNum + change)
  (rkParamSave opened p).map fun r => (0, r.2)

/-- **`rk_system_add_user`**; `opened` is whether the ini file can be opened. -/
def rkSystemAddUser (opened : Bool) (p : Store) (id userLevel : Int32)
    (userName password : Option Str) : Option (ℤ × Store) := do
  let p ← p.set (userEntry id .user) none
  -- `snprintf(user_level_char, 2, "%d", user_level)` keeps one byte
  let p ← p.set (userEntry id .level) (some ((decimal userLevel.toInt).take 1))
  let p ← p.set (userEntry id .name) userName
  let p ← p.set (userEntry id .password) password
  countUsers opened p 1

/-- **`rk_system_del_user`**. -/
def rkSystemDelUser (opened : Bool) (p : Store) (id : Int32) : Option (ℤ × Store) := do
  let p ← p.unset (userEntry id .user)
  countUsers opened p (-1)

/-! ## The calls they make -/

section Calls

variable {opened : Bool} {p p' : Store} {id : Int32} {r : ℤ}

theorem set_step {q : Store} {entry : Str} {val : Option Str} (h : p.set entry val = some q) :
    Call.Step p (.setString entry val) q := ⟨true, Option.map_eq_some_iff.mpr ⟨q, h, rfl⟩⟩

theorem countUsers_run {change : ℤ} (h : countUsers opened p change = some (r, p')) :
    ∃ n, Run Call.Step p [.getInt userNumEntry 1, .setInt userNumEntry n, .save opened] p' := by
  obtain ⟨n, hget, h⟩ := Option.bind_eq_some_iff.mp h
  obtain ⟨q, hset, h⟩ := Option.bind_eq_some_iff.mp h
  obtain ⟨⟨ret, q'⟩, hsave, he⟩ := Option.map_eq_some_iff.mp h
  obtain ⟨-, rfl⟩ := Prod.mk.inj he
  have hget' : Call.Step p (.getInt userNumEntry 1) p :=
    ⟨true, Option.map_eq_some_iff.mpr ⟨n, hget, rfl⟩⟩
  have hset' : Call.Step p (.setInt userNumEntry (n + change)) q :=
    ⟨true, Option.map_eq_some_iff.mpr ⟨q, hset, rfl⟩⟩
  have hsave' : Call.Step q (.save opened) q' :=
    ⟨ret == 0, Option.map_eq_some_iff.mpr ⟨(ret, q'), hsave, rfl⟩⟩
  exact ⟨n + change, ((Run.single hget').snoc hset').snoc hsave'⟩

/-- **Adding a user** is a sequence of calls. -/
theorem rkSystemAddUser_run {userLevel : Int32} {userName password : Option Str}
    (h : rkSystemAddUser opened p id userLevel userName password = some (r, p')) :
    ∃ n, Run Call.Step p
      [.setString (userEntry id .user) none,
        .setString (userEntry id .level) (some ((decimal userLevel.toInt).take 1)),
        .setString (userEntry id .name) userName, .setString (userEntry id .password) password,
        .getInt userNumEntry 1, .setInt userNumEntry n, .save opened] p' := by
  obtain ⟨p₁, h₁, h⟩ := Option.bind_eq_some_iff.mp h
  obtain ⟨p₂, h₂, h⟩ := Option.bind_eq_some_iff.mp h
  obtain ⟨p₃, h₃, h⟩ := Option.bind_eq_some_iff.mp h
  obtain ⟨p₄, h₄, h⟩ := Option.bind_eq_some_iff.mp h
  obtain ⟨n, hn⟩ := countUsers_run h
  have hsets := (((Run.single (set_step h₁)).snoc (set_step h₂)).snoc (set_step h₃)).snoc
    (set_step h₄)
  exact ⟨n, hsets.append hn⟩

/-- **Deleting a user** is one. -/
theorem rkSystemDelUser_run (h : rkSystemDelUser opened p id = some (r, p')) :
    ∃ n, Run Call.Step p [.unset (userEntry id .user), .getInt userNumEntry 1,
      .setInt userNumEntry n, .save opened] p' := by
  obtain ⟨q, hunset, h⟩ := Option.bind_eq_some_iff.mp h
  obtain ⟨n, hn⟩ := countUsers_run h
  have hunset' : Call.Step p (.unset (userEntry id .user)) q :=
    ⟨true, Option.map_eq_some_iff.mpr ⟨q, hunset, rfl⟩⟩
  exact ⟨n, (Run.single hunset').append hn⟩

end Calls

/-! ## Keys -/

theorem keyBytes_suffix (f : Field) : KeyBytes f.suffix := by
  cases f <;> decide

/-- A key of a user is not changed by `strlwc`. -/
theorem strlwc_userEntry (id : Int32) (f : Field) :
    strlwc (userEntry id f) (asciiLineSz + 1) = userEntry id f :=
  strlwc_numbered (by decide +kernel) (keyBytes_suffix f) (by cases f <;> decide +kernel) id

theorem strlwc_userNumEntry : strlwc userNumEntry (asciiLineSz + 1) = userNumEntry := by
  have hbytes : KeyBytes userNumEntry := by decide +kernel
  exact strlwc_eq_self hbytes.zero_notMem hbytes.lower_eq (by decide +kernel)

/-- **The keys of users are distinct.** -/
theorem userEntry_inj {i j : Int32} {f g : Field} :
    userEntry i f = userEntry j g ↔ i = j ∧ f = g := by
  have hcolon : ∀ f : Field, ∀ c ∈ f.suffix.head?, c = colon := fun f => by
    cases f <;> decide +kernel
  have hsuffix : f.suffix = g.suffix ↔ f = g := by
    cases f <;> cases g <;> decide
  rw [userEntry, userEntry, numbered_inj (by decide) (hcolon f) (hcolon g), hsuffix,
    Int32.toInt_inj]

/-- The key of a user begins with a `u`. -/
theorem userEntry_ne {s : Str} (i : Int32) (f : Field) (hs : s.head? ≠ some 117) :
    userEntry i f ≠ s := by
  rintro rfl
  apply hs
  rw [userEntry, List.append_assoc, List.head?_append_of_ne_nil _ (by decide)]
  rfl

theorem userEntry_ne_userNumEntry (i : Int32) (f : Field) : userEntry i f ≠ userNumEntry :=
  userEntry_ne i f (by decide)

/-! ## Dictionaries -/

/-- The dictionary with the entries of a user. -/
def addedUser (d : Dictionary) (id userLevel : Int32) (userName password : Option Str) :
    Dictionary :=
  dictionarySet (dictionarySet (dictionarySet (dictionarySet d (userEntry id .user) none)
    (userEntry id .level) (some ((decimal userLevel.toInt).take 1)))
    (userEntry id .name) userName) (userEntry id .password) password

/-- The dictionary without the section of a user. -/
def deletedUser (d : Dictionary) (id : Int32) : Dictionary :=
  dictionaryUnset d (userEntry id .user)

/-- **There is a user**: a section `user.N`, and a name in it. -/
def HasUser (d : Dictionary) (id : Int32) : Prop :=
  d.lookup (userEntry id .user) ≠ none ∧ ∃ name, d.lookup (userEntry id .name) = some (some name)

/-- **How many users there are.** -/
noncomputable def userCount (d : Dictionary) : ℕ := Set.ncard {id | HasUser d id}

/-- `user_num`, as the dictionary has it. -/
def userNum (d : Dictionary) : Option ℤ := iniparserGetint d userNumEntry 1

section Live

variable {p : Store} {d : Dictionary} {id : Int32} {n : ℤ} {opened : Bool}

theorem userNum_dictionarySet (f : Field) (val : Option Str) :
    userNum (dictionarySet d (userEntry id f) val) = userNum d := by
  rw [userNum, userNum, iniparserGetint, iniparserGetint, strlwc_userNumEntry,
    lookup_dictionarySet, Function.update_of_ne (userEntry_ne_userNumEntry id f).symm]

theorem userNum_addedUser {userLevel : Int32} {userName password : Option Str} :
    userNum (addedUser d id userLevel userName password) = userNum d := by
  simp only [addedUser, userNum_dictionarySet]

theorem userNum_deletedUser : userNum (deletedUser d id) = userNum d := by
  rw [userNum, userNum, iniparserGetint, iniparserGetint, strlwc_userNumEntry, deletedUser,
    lookup_dictionaryUnset, Function.update_of_ne (userEntry_ne_userNumEntry id _).symm]

/-- `user_num` is read back after it was set. -/
theorem userNum_set (h : -999999 ≤ n ∧ n ≤ 9999999) :
    userNum (dictionarySet d userNumEntry (some (decimal n))) = some n := by
  rw [userNum, iniparserGetint, strlwc_userNumEntry, lookup_dictionarySet, Function.update_self,
    Option.map_some, cstr_decimal]
  simp only
  rw [strtol_decimal ⟨by omega, by omega⟩]

/-- The store after the dictionary was saved. -/
def savedStore (opened : Bool) (file : Option (List UInt8)) (d : Dictionary) : Store :=
  if opened then ⟨some (iniparserDumpIni d), .live d⟩ else ⟨file, .null⟩

/-- **The number of users is changed** if its text fits the buffer. -/
theorem countUsers_eq (hp : p.iniD = .live d) (hn : userNum d = some n) (change : ℤ) :
    countUsers opened p change =
      if -999999 ≤ n + change ∧ n + change ≤ 9999999 then
        some (0, savedStore opened p.file
          (dictionarySet d userNumEntry (some (decimal (n + change)))))
      else none := by
  have hget : rkSystemGetUserNum p = some n := by
    rw [rkSystemGetUserNum, rkParamGetInt, hp]
    exact hn
  have hset : p.set userNumEntry (some (decimal (n + change))) = some { p with
      iniD := .live (dictionarySet d userNumEntry (some (decimal (n + change)))) } := by
    rw [Store.set, hp]
    simp only [iniparserSet, strlwc_userNumEntry]
  have hfits := length_decimal_le_seven_iff (v := n + change)
  rw [countUsers, hget]
  simp only [bind, Option.bind_some, rkSystemSetUserNum, rkParamSetInt]
  by_cases h : -999999 ≤ n + change ∧ n + change ≤ 9999999
  · have hlen := hfits.mpr h
    rw [if_pos h, if_pos (by omega), hset, Option.bind_some]
    cases opened <;> rfl
  · have hlen := mt hfits.mp h
    rw [if_neg h, if_neg (by omega), Option.bind_none]

/-- **Adding a user** writes the entries and counts. -/
theorem rkSystemAddUser_eq (hp : p.iniD = .live d) (hn : userNum d = some n) (id userLevel : Int32)
    (userName password : Option Str) :
    rkSystemAddUser opened p id userLevel userName password =
      if -999999 ≤ n + 1 ∧ n + 1 ≤ 9999999 then
        some (0, savedStore opened p.file (dictionarySet
          (addedUser d id userLevel userName password) userNumEntry (some (decimal (n + 1)))))
      else none := by
  rw [rkSystemAddUser]
  simp only [Store.set, hp, iniparserSet, strlwc_userEntry, bind, Option.bind_some]
  exact countUsers_eq rfl (userNum_addedUser.trans hn) 1

/-- **Deleting a user** removes the section and counts. -/
theorem rkSystemDelUser_eq (hp : p.iniD = .live d) (hn : userNum d = some n) (id : Int32) :
    rkSystemDelUser opened p id =
      if -999999 ≤ n + -1 ∧ n + -1 ≤ 9999999 then
        some (0, savedStore opened p.file
          (dictionarySet (deletedUser d id) userNumEntry (some (decimal (n + -1)))))
      else none := by
  have hunset : p.unset (userEntry id .user) =
      some { p with iniD := .live (deletedUser d id) } := by
    rw [Store.unset, hp]
    simp only [iniparserUnset, strlwc_userEntry, deletedUser]
  rw [rkSystemDelUser, hunset]
  simp only [bind, Option.bind_some]
  exact countUsers_eq rfl (userNum_deletedUser.trans hn) (-1)

end Live

/-! ## The keys of users afterwards -/

section Keys

variable {d : Dictionary} {id i : Int32} {f : Field}

/-- The number of users is not a key of a user. -/
theorem lookup_userNum_set (val : Option Str) :
    (dictionarySet d userNumEntry val).lookup (userEntry i f) = d.lookup (userEntry i f) := by
  rw [lookup_dictionarySet, Function.update_of_ne (userEntry_ne_userNumEntry i f)]

/-- What was written for a user. -/
def writtenFor (userLevel : Int32) (userName password : Option Str) : Field → Option Str
  | .user => none
  | .level => some ((decimal userLevel.toInt).take 1)
  | .name => userName
  | .password => password

/-- The keys of the user have what was written, and those of others what they had. -/
theorem lookup_addedUser (userLevel : Int32) (userName password : Option Str) :
    (addedUser d id userLevel userName password).lookup (userEntry i f) =
      if i = id then some ((writtenFor userLevel userName password f).map cstr)
      else d.lookup (userEntry i f) := by
  simp only [addedUser, lookup_dictionarySet, Function.update_apply, userEntry_inj]
  by_cases hi : i = id
  · subst hi
    cases f <;> simp [writtenFor]
  · simp [hi]

theorem lookup_deletedUser :
    (deletedUser d id).lookup (userEntry i f) =
      if i = id ∧ f = .user then none else d.lookup (userEntry i f) := by
  simp only [deletedUser, lookup_dictionaryUnset, Function.update_apply, userEntry_inj]

theorem hasUser_userNum_set {val : Option Str} :
    HasUser (dictionarySet d userNumEntry val) i ↔ HasUser d i := by
  simp only [HasUser, lookup_userNum_set]

/-- There is one user more. -/
theorem hasUser_addedUser {userLevel : Int32} {userName : Str} {password : Option Str} :
    HasUser (addedUser d id userLevel (some userName) password) i ↔ i = id ∨ HasUser d i := by
  simp only [HasUser, lookup_addedUser]
  by_cases hi : i = id
  · simp [hi, writtenFor]
  · simp [hi]

/-- There is one user less. -/
theorem hasUser_deletedUser : HasUser (deletedUser d id) i ↔ i ≠ id ∧ HasUser d i := by
  simp only [HasUser, lookup_deletedUser]
  by_cases hi : i = id
  · simp [hi]
  · simp [hi]

/-- There are finitely many users, since each has a key. -/
theorem finite_hasUser (d : Dictionary) : {i | HasUser d i}.Finite := by
  refine Set.Finite.of_finite_image (f := fun i => userEntry i .name)
    (Set.Finite.subset (d.entries.map Prod.fst).toFinset.finite_toSet ?_) ?_
  · rintro k ⟨i, ⟨-, name, hname⟩, rfl⟩
    rw [Finset.mem_coe, List.mem_toFinset, List.mem_map]
    exact ⟨_, Dictionary.lookup_eq_some_iff.mp hname, rfl⟩
  · exact fun i _ j _ h => (userEntry_inj.mp h).1

theorem userCount_userNum_set {val : Option Str} :
    userCount (dictionarySet d userNumEntry val) = userCount d := by
  simp only [userCount, hasUser_userNum_set]

/-- A user who is new is counted, and one who was there is not counted again. -/
theorem userCount_addedUser {userLevel : Int32} {userName : Str} {password : Option Str} :
    (¬ HasUser d id →
      userCount (addedUser d id userLevel (some userName) password) = userCount d + 1) ∧
    (HasUser d id →
      userCount (addedUser d id userLevel (some userName) password) = userCount d) := by
  have hset : {i | HasUser (addedUser d id userLevel (some userName) password) i} =
      insert id {i | HasUser d i} := Set.ext fun i => hasUser_addedUser
  rw [userCount, hset]
  constructor
  · intro h
    have hnew : id ∉ {i | HasUser d i} := h
    rw [Set.ncard_insert_of_notMem hnew (finite_hasUser d), userCount]
  · intro h
    have hold : id ∈ {i | HasUser d i} := h
    rw [Set.insert_eq_of_mem hold, userCount]

/-- Who is not there is not deleted. -/
theorem userCount_deletedUser (h : ¬ HasUser d id) :
    userCount (deletedUser d id) = userCount d := by
  have hset : {i | HasUser (deletedUser d id) i} = {i | HasUser d i} := Set.ext fun i =>
    hasUser_deletedUser.trans (and_iff_right_of_imp fun hi heq => h (heq ▸ hi))
  rw [userCount, hset, userCount]

end Keys

end RkIpc.System
