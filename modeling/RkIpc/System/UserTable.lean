import RkIpc.System.Users

/-!
# The table of users

Users are added and deleted in any order. After every operation the getters should answer what the
last operation on a user says, and `user_num` should be the number of users. It stays so exactly if
nobody is deleted, every user is added once, and every level is a digit.

## Main definitions

* `UserOp`, `userOps`: an operation, and operations in turn
* `Consistent`, `Answers`, `UserTable`: what should hold
* `UserOp.Fits`: the operations after which it does

## Main results

* `userTable_step_iff`: one operation
* `userTable_iff`: the operations in turn
* `deleted_name_remains`: the name of a user who was deleted
-/

namespace RkIpc.System

open Text Param

/-- A request of a client. -/
inductive UserOp where
  | add (id userLevel : Int32) (userName password : Str)
  | del (id : Int32)

/-- The user it is about. -/
def UserOp.id : UserOp → Int32
  | .add id _ _ _ => id
  | .del id => id

/-- The operation; `opened` is whether the ini file can be opened to save it. -/
def UserOp.run (p : Store) (opened : Bool) : UserOp → Option Store
  | .add id userLevel userName password =>
    (rkSystemAddUser opened p id userLevel (some userName) (some password)).map Prod.snd
  | .del id => (rkSystemDelUser opened p id).map Prod.snd

/-- Operations in turn. -/
def userOps : List (UserOp × Bool) → Store → Option Store
  | [], p => some p
  | a :: ops, p => (a.1.run p a.2).bind (userOps ops)

/-- **`user_num` is the number of users.** -/
def Consistent (p : Store) : Prop :=
  ∃ d, p.iniD = .live d ∧ rkSystemGetUserNum p = some (userCount d : ℤ)

/-- **The getters answer what the operation says.** -/
def Answers (p : Store) : UserOp → Prop
  | .add id userLevel userName password =>
    rkSystemGetUserLevel p id = some userLevel.toInt ∧
      rkSystemGetUserName p id = some (some (cstr userName)) ∧
      rkSystemGetPassword p id = some (some (cstr password))
  | .del id => rkSystemGetUserName p id = some none ∧ rkSystemGetPassword p id = some none

/-- The last operation on a user. -/
def lastOn (id : Int32) (ops : List (UserOp × Bool)) : Option UserOp :=
  ((ops.map Prod.fst).filter fun op => op.id = id).getLast?

/-- **The table of users is right** after `ops`. -/
structure UserTable (ops : List (UserOp × Bool)) (p : Store) : Prop where
  consistent : Consistent p
  answers : ∀ id op, lastOn id ops = some op → Answers p op

/-- **The operation fits**: it adds somebody new, with a digit for the level, and the ini file can
be opened; and there is room for the text of the number. -/
def UserOp.Fits (p : Store) (opened : Bool) : UserOp → Prop
  | .add id userLevel _ _ =>
    opened = true ∧ (0 ≤ userLevel.toInt ∧ userLevel.toInt ≤ 9) ∧
      ∀ d, p.iniD = .live d → ¬ HasUser d id ∧ userCount d < 9999999
  | .del _ => False

/-! ## Getters -/

section Getters

variable {p : Store} {d : Dictionary} {id : Int32}

theorem rkSystemGetUserName_eq (hp : p.iniD = .live d) :
    rkSystemGetUserName p id = some ((d.lookup (userEntry id .name)).getD none) := by
  rw [rkSystemGetUserName, rkParamGetString, hp]
  simp only [iniparserGetstring, strlwc_userEntry, dictionaryGet]

theorem rkSystemGetPassword_eq (hp : p.iniD = .live d) :
    rkSystemGetPassword p id = some ((d.lookup (userEntry id .password)).getD none) := by
  rw [rkSystemGetPassword, rkParamGetString, hp]
  simp only [iniparserGetstring, strlwc_userEntry, dictionaryGet]

theorem rkSystemGetUserLevel_eq (hp : p.iniD = .live d) {s : Str}
    (h : d.lookup (userEntry id .level) = some (some s)) :
    rkSystemGetUserLevel p id = some (strtol s) := by
  rw [rkSystemGetUserLevel, rkParamGetInt, hp]
  simp only [iniparserGetint, strlwc_userEntry, h]

theorem rkSystemGetUserNum_eq (hp : p.iniD = .live d) : rkSystemGetUserNum p = userNum d := by
  rw [rkSystemGetUserNum, rkParamGetInt, hp, userNum]

/-- The getters depend on the entries of the user. -/
theorem answers_congr {p' : Store} {d' : Dictionary} (hp : p.iniD = .live d)
    (hp' : p'.iniD = .live d') {op : UserOp}
    (h : ∀ f ≠ Field.user, d'.lookup (userEntry op.id f) = d.lookup (userEntry op.id f)) :
    Answers p' op ↔ Answers p op := by
  have hlevel : rkSystemGetUserLevel p' op.id = rkSystemGetUserLevel p op.id := by
    rw [rkSystemGetUserLevel, rkSystemGetUserLevel, rkParamGetInt, rkParamGetInt, hp, hp']
    simp only [iniparserGetint, strlwc_userEntry, h .level (by decide)]
  have hname : rkSystemGetUserName p' op.id = rkSystemGetUserName p op.id := by
    rw [rkSystemGetUserName_eq hp, rkSystemGetUserName_eq hp', h .name (by decide)]
  have hpassword : rkSystemGetPassword p' op.id = rkSystemGetPassword p op.id := by
    rw [rkSystemGetPassword_eq hp, rkSystemGetPassword_eq hp', h .password (by decide)]
  cases op with
  | add id userLevel userName password =>
    simp only [UserOp.id] at hlevel hname hpassword
    rw [Answers, Answers, hlevel, hname, hpassword]
  | del id =>
    simp only [UserOp.id] at hname hpassword
    rw [Answers, Answers, hname, hpassword]

end Getters

/-! ## One operation -/

/-- The dictionary after the entries are written, and the change of the number. -/
def UserOp.write (d : Dictionary) : UserOp → Dictionary
  | .add id userLevel userName password => addedUser d id userLevel (some userName) (some password)
  | .del id => deletedUser d id

/-- One more, or one less. -/
def UserOp.change : UserOp → ℤ
  | .add _ _ _ _ => 1
  | .del _ => -1

/-- The dictionary after the operation. -/
def UserOp.after (d : Dictionary) (n : ℤ) (op : UserOp) : Dictionary :=
  dictionarySet (op.write d) userNumEntry (some (decimal (n + op.change)))

section Step

variable {p p' : Store} {d : Dictionary} {n : ℤ} {op : UserOp} {opened : Bool}

theorem run_eq (hp : p.iniD = .live d) (hn : userNum d = some n) :
    op.run p opened =
      if -999999 ≤ n + op.change ∧ n + op.change ≤ 9999999 then
        some (savedStore opened p.file (op.after d n))
      else none := by
  cases op with
  | add id userLevel userName password =>
    rw [UserOp.run, rkSystemAddUser_eq hp hn, apply_ite (Option.map Prod.snd)]
    rfl
  | del id =>
    rw [UserOp.run, rkSystemDelUser_eq hp hn, apply_ite (Option.map Prod.snd)]
    rfl

/-- The entries of the others stay as they are. -/
theorem lookup_after_of_ne {i : Int32} (hi : i ≠ op.id) (f : Field) :
    (op.after d n).lookup (userEntry i f) = d.lookup (userEntry i f) := by
  rw [UserOp.after, lookup_userNum_set]
  cases op with
  | add id userLevel userName password => exact (lookup_addedUser _ _ _).trans (if_neg hi)
  | del id => exact lookup_deletedUser.trans (if_neg fun h => hi h.1)

theorem lastOn_append (id : Int32) (ops : List (UserOp × Bool)) (op : UserOp) (opened : Bool) :
    lastOn id (ops ++ [(op, opened)]) = if op.id = id then some op else lastOn id ops := by
  rw [lastOn, List.map_append, List.filter_append]
  by_cases h : op.id = id <;> simp [h, lastOn]

theorem lastOn_id {id : Int32} {ops : List (UserOp × Bool)} (h : lastOn id ops = some op) :
    op.id = id := by
  have := List.mem_of_getLast? h
  rw [List.mem_filter] at this
  exact of_decide_eq_true this.2

/-- **Somebody who is added fits, and the table stays right.** -/
theorem userTable_of_fits {ops : List (UserOp × Bool)} (h : UserTable ops p)
    (hfits : op.Fits p opened) :
    ∃ p', op.run p opened = some p' ∧ UserTable (ops ++ [(op, opened)]) p' := by
  obtain ⟨d, hp, hnum⟩ := h.consistent
  rw [rkSystemGetUserNum_eq hp] at hnum
  cases op with
  | del id => exact hfits.elim
  | add id userLevel userName password =>
    obtain ⟨rfl, hlevel, hnew⟩ := hfits
    obtain ⟨hnew, hroom⟩ := hnew d hp
    set op := UserOp.add id userLevel userName password with hop
    have hrange : -999999 ≤ (userCount d : ℤ) + op.change ∧
        (userCount d : ℤ) + op.change ≤ 9999999 := by
      simp only [hop, UserOp.change]
      omega
    refine ⟨savedStore true p.file (op.after d (userCount d)), ?_, ?_, ?_⟩
    · rw [run_eq hp hnum, if_pos hrange]
    · refine ⟨_, rfl, ?_⟩
      rw [rkSystemGetUserNum_eq rfl, UserOp.after, userNum_set hrange, userCount_userNum_set]
      simp only [hop, UserOp.write, UserOp.change]
      rw [userCount_addedUser.1 hnew, Nat.cast_add, Nat.cast_one]
    · intro i op' hlast
      rw [lastOn_append] at hlast
      split at hlast
      · -- the entries that were written
        obtain rfl := Option.some.inj hlast
        have hwritten : ∀ f, (op.after d (userCount d)).lookup (userEntry id f) =
            some ((writtenFor userLevel (some userName) (some password) f).map cstr) := fun f =>
          (lookup_userNum_set _).trans ((lookup_addedUser _ _ _).trans (if_pos rfl))
        refine ⟨?_, ?_, ?_⟩
        · have h0 : 0 ∉ (decimal userLevel.toInt).take 1 := fun h0 =>
            (keyBytes_decimal _).zero_notMem (List.mem_of_mem_take h0)
          rw [rkSystemGetUserLevel_eq rfl (hwritten .level), cstr_eq_self h0,
            strtol_take_one_iff.mpr hlevel]
        · rw [rkSystemGetUserName_eq rfl, hwritten]
          rfl
        · rw [rkSystemGetPassword_eq rfl, hwritten]
          rfl
      · next hne =>
        obtain rfl := lastOn_id hlast
        exact (answers_congr hp rfl fun f _ => lookup_after_of_ne (Ne.symm hne) f).mpr
          (h.answers _ op' hlast)

/-- **If the table is right after an operation, the operation fits.** -/
theorem fits_of_userTable {ops : List (UserOp × Bool)} (h : UserTable ops p)
    (hrun : op.run p opened = some p') (h' : UserTable (ops ++ [(op, opened)]) p') :
    op.Fits p opened := by
  obtain ⟨d, hp, hnum⟩ := h.consistent
  rw [rkSystemGetUserNum_eq hp] at hnum
  rw [run_eq hp hnum] at hrun
  split at hrun
  · next hrange =>
    obtain rfl := Option.some.inj hrun
    have hopened : opened = true := by
      obtain ⟨d', hd', -⟩ := h'.consistent
      cases opened with
      | false => cases hd'
      | true => rfl
    subst hopened
    have hanswer := h'.answers op.id op (by rw [lastOn_append, if_pos rfl])
    -- the number that was set, and the users there are
    have hcount : (userCount d : ℤ) + op.change = userCount (op.write d) := by
      obtain ⟨d', hd', hnum'⟩ := h'.consistent
      obtain rfl := IniD.live.inj hd'
      rw [rkSystemGetUserNum_eq rfl, UserOp.after, userNum_set hrange, userCount_userNum_set]
        at hnum'
      exact Option.some.inj hnum'
    cases op with
    | del id =>
      simp only [UserOp.change, UserOp.write] at hcount
      by_cases huser : HasUser d id
      · -- the name is still there
        obtain ⟨-, name, hname⟩ := huser
        have hafter : ((UserOp.del id).after d (userCount d)).lookup (userEntry id .name) =
            some (some name) :=
          (lookup_userNum_set _).trans
            (lookup_deletedUser.trans ((if_neg fun h => by cases h.2).trans hname))
        have hget := hanswer.1
        rw [rkSystemGetUserName_eq rfl, hafter] at hget
        cases hget
      · rw [userCount_deletedUser huser] at hcount
        omega
    | add id userLevel userName password =>
      simp only [UserOp.change, UserOp.write] at hcount hrange
      have hlevel : strtol ((decimal userLevel.toInt).take 1) = userLevel.toInt := by
        have h0 : 0 ∉ (decimal userLevel.toInt).take 1 := fun h0 =>
          (keyBytes_decimal _).zero_notMem (List.mem_of_mem_take h0)
        have hget := hanswer.1
        have hwritten : ((UserOp.add id userLevel userName password).after d
            (userCount d)).lookup (userEntry id .level) =
              some (some (cstr ((decimal userLevel.toInt).take 1))) :=
          (lookup_userNum_set _).trans ((lookup_addedUser _ _ _).trans (if_pos rfl))
        rw [rkSystemGetUserLevel_eq rfl hwritten, cstr_eq_self h0] at hget
        exact Option.some.inj hget
      refine ⟨rfl, strtol_take_one_iff.mp hlevel, fun d' hd' => ?_⟩
      obtain rfl := IniD.live.inj (hp.symm.trans hd')
      refine ⟨fun huser => ?_, by omega⟩
      rw [userCount_addedUser.2 huser] at hcount
      omega
  · cases hrun

/-- **One operation** keeps the table right if and only if it fits. -/
theorem userTable_step_iff {ops : List (UserOp × Bool)} (h : UserTable ops p) :
    (∃ p', op.run p opened = some p' ∧ UserTable (ops ++ [(op, opened)]) p') ↔
      op.Fits p opened :=
  ⟨fun ⟨_, hrun, h'⟩ => fits_of_userTable h hrun h', userTable_of_fits h⟩

end Step

/-! ## Operations in turn -/

theorem userOps_append (ops : List (UserOp × Bool)) (a : UserOp × Bool) (p : Store) :
    userOps (ops ++ [a]) p = (userOps ops p).bind fun p' => a.1.run p' a.2 := by
  induction ops generalizing p with
  | nil => simp [userOps]
  | cons b ops ih =>
    rw [List.cons_append, userOps, userOps, Option.bind_assoc]
    exact Option.bind_congr fun p' _ => ih p'

/-- **The table of users is right after every operation** if and only if every operation fits. -/
theorem userTable_iff {p₀ : Store} (h₀ : Consistent p₀) (ops : List (UserOp × Bool)) :
    (∀ pre, pre <+: ops → ∃ p, userOps pre p₀ = some p ∧ UserTable pre p) ↔
      ∀ pre op opened rest, ops = pre ++ (op, opened) :: rest →
        ∃ p, userOps pre p₀ = some p ∧ op.Fits p opened := by
  constructor
  · rintro h pre op opened rest rfl
    obtain ⟨p, hrun, htable⟩ := h pre (List.prefix_append _ _)
    obtain ⟨p', hrun', htable'⟩ := h (pre ++ [(op, opened)]) ⟨rest, by simp⟩
    rw [userOps_append, hrun, Option.bind_some] at hrun'
    exact ⟨p, hrun, fits_of_userTable htable hrun' htable'⟩
  · intro h pre
    induction pre using List.reverseRecOn with
    | nil =>
      exact fun _ => ⟨p₀, rfl, h₀, fun id op hlast => by cases hlast⟩
    | append_singleton pre a ih =>
      rintro ⟨rest, hrest⟩
      have hops : ops = pre ++ a :: rest := by rw [← hrest, List.append_assoc]; rfl
      obtain ⟨p, hrun, htable⟩ := ih ⟨a :: rest, hops.symm⟩
      obtain ⟨q, hq, hfits⟩ := h pre a.1 a.2 rest hops
      obtain rfl := Option.some.inj (hrun.symm.trans hq)
      obtain ⟨p', hrun', htable'⟩ := userTable_of_fits htable hfits
      exact ⟨p', by rw [userOps_append, hrun]; exact hrun', htable'⟩

/-- A store without users. -/
def noUsers : Store where
  file := none
  iniD := .live (dictionarySet (dictionarySet dictionaryNew (lit "system.device_info") none)
    userNumEntry (some (lit "0")))

theorem noUsers_consistent : Consistent noUsers ∧ ∀ d, noUsers.iniD = .live d →
    ∀ id, ¬ HasUser d id := by
  have hnone : ∀ d, noUsers.iniD = .live d → ∀ id, ¬ HasUser d id := by
    rintro d hd id ⟨huser, -⟩
    obtain rfl := IniD.live.inj hd
    have hhead : userEntry id .user ≠ lit "system.device_info" := userEntry_ne id _ (by decide)
    rw [lookup_userNum_set, lookup_dictionarySet, Function.update_of_ne hhead] at huser
    exact huser (lookup_dictionaryNew _)
  refine ⟨⟨_, rfl, ?_⟩, hnone⟩
  have hempty : {i | HasUser (dictionarySet (dictionarySet dictionaryNew (lit "system.device_info")
      none) userNumEntry (some (lit "0"))) i} = ∅ :=
    Set.eq_empty_iff_forall_notMem.mpr fun i => hnone _ rfl i
  rw [userCount, hempty, Set.ncard_empty]
  decide +kernel

/-- The first user. -/
theorem userTable_iff_first : ∃ p,
    userOps [(.add 5 3 (lit "a") (lit "b"), true)] noUsers = some p ∧
      UserTable [(.add 5 3 (lit "a") (lit "b"), true)] p := by
  refine (userTable_iff noUsers_consistent.1 [(.add 5 3 (lit "a") (lit "b"), true)]).mpr ?_ _
    (List.prefix_refl _)
  rintro pre op opened rest h
  cases pre with
  | nil =>
    obtain ⟨h, -⟩ := List.cons.inj h
    obtain ⟨rfl, rfl⟩ := Prod.mk.inj h
    refine ⟨noUsers, rfl, rfl, by decide, fun d hd => ⟨noUsers_consistent.2 d hd 5, ?_⟩⟩
    have hempty : {i | HasUser d i} = ∅ :=
      Set.eq_empty_iff_forall_notMem.mpr fun i => noUsers_consistent.2 d hd i
    rw [userCount, hempty, Set.ncard_empty]
    decide
  | cons b pre => simp at h

/-- **The name of a user who was deleted remains.** -/
theorem deleted_name_remains : Consistent noUsers ∧
    (userOps [(.add 5 3 (lit "a") (lit "b"), true), (.del 5, true)] noUsers).bind
      (rkSystemGetUserName · 5) = some (some (lit "a")) :=
  ⟨noUsers_consistent.1, by decide +kernel⟩

end RkIpc.System
