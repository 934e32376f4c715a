import Mathlib.Algebra.BigOperators.Fin
import RkIpc.Counter.ReadWrite
import RkIpc.System.UserTable

/-!
# Counting users from several connections

Every connection of the socket server has a thread of its own, and `rk_system_add_user` and
`rk_system_del_user` take the mutex of the parameters for one access at a time. The number of users
is read in one access and written in another. It comes out right if no connection reads it between
the two accesses of another one.

## Main definitions

* `Atom`, `UserOp.atoms`: the accesses, and those an operation makes
* `World`, `World.step`: connections with the accesses they have still to make
* `World.Undisturbed`: a step that does not come between

## Main results

* `execAll_atoms`: the accesses of an operation make the operation
* `userNum_of_undisturbed`: the number of users at the end
* `userNum_lost`: two users who are counted as one
-/

namespace RkIpc.System

open Text Param Transition

/-- **An access** that is not interrupted. -/
inductive Atom where
  | set (entry : Str) (val : Option Str)
  | unset (entry : Str)
  | getNum
  | setNum (change : ℤ)
  | save (opened : Bool)
deriving DecidableEq

/-- The access, with the variable `user_num` of the function. -/
def Atom.exec (p : Store) (userNum : ℤ) : Atom → Option (Store × ℤ)
  | .set entry val => (p.set entry val).map (·, userNum)
  | .unset entry => (p.unset entry).map (·, userNum)
  | .getNum => (rkSystemGetUserNum p).map (p, ·)
  | .setNum change => (rkSystemSetUserNum p (userNum + change)).map (·, userNum)
  | .save opened => (rkParamSave opened p).map (·.2, userNum)

/-- The change of the number of users. -/
def Atom.change : Atom → ℤ
  | .setNum change => change
  | _ => 0

/-- **The accesses of an operation.** -/
def UserOp.atoms (opened : Bool) : UserOp → List Atom
  | .add id userLevel userName password =>
    [.set (userEntry id .user) none,
      .set (userEntry id .level) (some ((decimal userLevel.toInt).take 1)),
      .set (userEntry id .name) (some userName), .set (userEntry id .password) (some password),
      .getNum, .setNum 1, .save opened]
  | .del id => [.unset (userEntry id .user), .getNum, .setNum (-1), .save opened]

/-- Accesses one after the other. -/
def execAll : List Atom → Store → ℤ → Option (Store × ℤ)
  | [], p, n => some (p, n)
  | a :: as, p, n => (a.exec p n).bind fun r => execAll as r.1 r.2

theorem bind_pair {α β : Type*} (x : Option (α × β)) :
    (x.bind fun r => some r.2) = x.map fun r => r.2 := Option.map_eq_bind.symm

/-- **The accesses of an operation make the operation.** -/
theorem execAll_atoms (op : UserOp) (opened : Bool) (p : Store) (n : ℤ) :
    (execAll (op.atoms opened) p n).map Prod.fst = op.run p opened := by
  cases op with
  | add id userLevel userName password =>
    simp only [UserOp.atoms, execAll, Atom.exec, UserOp.run, rkSystemAddUser, countUsers, bind,
      Option.bind_map, Option.map_bind, Option.map_map, Function.comp_def, Option.map_some,
      bind_pair]
  | del id =>
    simp only [UserOp.atoms, execAll, Atom.exec, UserOp.run, rkSystemDelUser, countUsers, bind,
      Option.bind_map, Option.map_bind, Option.map_map, Function.comp_def, Option.map_some,
      bind_pair]

/-! ## Connections -/

/-- **Connections**: the store, the accesses each has still to make, and its variable `user_num`. -/
structure World (ι : Type*) where
  store : Store
  todo : ι → List Atom
  userNum : ι → ℤ

variable {ι : Type*}

/-- Every connection has operations to make, one after the other. -/
def World.start (p : Store) (ops : ι → List (UserOp × Bool)) : World ι where
  store := p
  todo i := (ops i).flatMap fun op => op.1.atoms op.2
  userNum _ := 0

/-- **The next access of a connection.** -/
def World.step [DecidableEq ι] (w : World ι) (i : ι) : Option (World ι) :=
  match w.todo i with
  | [] => none
  | a :: as => (a.exec w.store (w.userNum i)).map fun r =>
    ⟨r.1, Function.update w.todo i as, Function.update w.userNum i r.2⟩

/-- The number of users was read, and is written next. -/
def writesNext : List Atom → Bool
  | .setNum _ :: _ => true
  | _ => false

/-- What must hold for the next of the accesses of `i`. -/
def World.Clear (w : World ι) (i : ι) : List Atom → Prop
  | .getNum :: _ => ∀ j, j ≠ i → writesNext (w.todo j) = false
  | .setNum change :: _ => -999999 ≤ w.userNum i + change ∧ w.userNum i + change ≤ 9999999
  | .save opened :: _ => opened = true
  | _ => True

/-- **The connection is not disturbed**: it does not read the number between the two accesses of
another one, the text of the number fits its buffer, and the ini file can be opened. -/
def World.Undisturbed (w : World ι) (i : ι) : Prop := w.Clear i (w.todo i)

instance [Fintype ι] [DecidableEq ι] (w : World ι) (i : ι) :
    ∀ as, Decidable (w.Clear i as)
  | .getNum :: _ => inferInstanceAs (Decidable (∀ j, j ≠ i → writesNext (w.todo j) = false))
  | .setNum _ :: _ => inferInstanceAs (Decidable (_ ∧ _))
  | .save opened :: _ => inferInstanceAs (Decidable (opened = true))
  | [] | .set _ _ :: _ | .unset _ :: _ => .isTrue trivial

instance [Fintype ι] [DecidableEq ι] (w : World ι) (i : ι) : Decidable (w.Undisturbed i) :=
  inferInstanceAs (Decidable (w.Clear i (w.todo i)))

/-- An access that leaves the number of users alone. -/
inductive Atom.Quiet : Atom → Prop
  | set (id : Int32) (f : Field) (val : Option Str) : Quiet (.set (userEntry id f) val)
  | unset (id : Int32) : Quiet (.unset (userEntry id .user))
  | save (opened : Bool) : Quiet (.save opened)

/-- **Accesses of operations**: a number is written right after it was read. -/
inductive Accesses : List Atom → Prop
  | nil : Accesses []
  | quiet {a : Atom} {as : List Atom} : a.Quiet → Accesses as → Accesses (a :: as)
  | count {as : List Atom} (change : ℤ) :
      Accesses as → Accesses (.getNum :: .setNum change :: as)

theorem Accesses.atoms {as : List Atom} (h : Accesses as) (op : UserOp) (opened : Bool) :
    Accesses (op.atoms opened ++ as) := by
  have hsave : Accesses (.save opened :: as) := .quiet (.save _) h
  cases op with
  | add id userLevel userName password =>
    exact .quiet (.set _ _ _) (.quiet (.set _ _ _) (.quiet (.set _ _ _) (.quiet (.set _ _ _)
      (.count 1 hsave))))
  | del id => exact .quiet (.unset _) (.count (-1) hsave)

theorem Accesses.flatMap (ops : List (UserOp × Bool)) :
    Accesses (ops.flatMap fun op => op.1.atoms op.2) := by
  induction ops with
  | nil => exact .nil
  | cons op ops ih => exact ih.atoms op.1 op.2

/-- What the accesses change. -/
def remaining (as : List Atom) : ℤ := (as.map Atom.change).sum

theorem remaining_cons (a : Atom) (as : List Atom) :
    remaining (a :: as) = a.change + remaining as := by
  rw [remaining, List.map_cons, List.sum_cons, remaining]

theorem remaining_flatMap (ops : List (UserOp × Bool)) :
    remaining (ops.flatMap fun op => op.1.atoms op.2) = (ops.map fun op => op.1.change).sum := by
  induction ops with
  | nil => rfl
  | cons op ops ih =>
    have hop : remaining (op.1.atoms op.2) = op.1.change := by
      obtain ⟨op, opened⟩ := op
      cases op <;> rfl
    rw [List.map_cons, List.sum_cons, ← ih, ← hop, List.flatMap_cons, remaining, remaining,
      remaining, List.map_append, List.sum_append]

/-! ## The counter -/

/-- **What the store and the variables say of the counter.** -/
structure Models (w : World ι) (c : Counter ι) : Prop where
  live : ∃ d, w.store.iniD = .live d ∧ userNum d = some c.value
  threads : ∀ i, (c.pending i = none ∧ Accesses (w.todo i)) ∨
    ∃ change as, c.pending i = some (w.userNum i) ∧ w.todo i = .setNum change :: as ∧ Accesses as

/-! ### Single accesses -/

section Access

variable {p : Store} {d : Dictionary} {n v : ℤ}

/-- A quiet access succeeds, and the number of users is what it was. -/
theorem Atom.Quiet.exec {a : Atom} (ha : a.Quiet)
    (hsave : ∀ opened, a = .save opened → opened = true) (hp : p.iniD = .live d) :
    ∃ q d', a.exec p n = some (q, n) ∧ q.iniD = .live d' ∧ userNum d' = userNum d := by
  cases ha with
  | set id f val =>
    refine ⟨⟨p.file, .live (dictionarySet d (userEntry id f) val)⟩, _, ?_, rfl,
      userNum_dictionarySet f val⟩
    rw [Atom.exec, Store.set, hp]
    simp only [iniparserSet, strlwc_userEntry]
    rfl
  | unset id =>
    refine ⟨⟨p.file, .live (deletedUser d id)⟩, _, ?_, rfl, userNum_deletedUser⟩
    rw [Atom.exec, Store.unset, hp]
    simp only [iniparserUnset, strlwc_userEntry]
    rfl
  | save opened =>
    obtain rfl := hsave opened rfl
    refine ⟨⟨some (iniparserDumpIni d), .live d⟩, d, ?_, rfl, rfl⟩
    rw [Atom.exec, rkParamSave, hp]
    rfl

theorem exec_getNum (hp : p.iniD = .live d) (hv : userNum d = some v) :
    Atom.getNum.exec p n = some (p, v) := by
  rw [Atom.exec, rkSystemGetUserNum_eq hp, hv]
  rfl

/-- The number of users is what was written. -/
theorem exec_setNum (hp : p.iniD = .live d) {change : ℤ}
    (h : -999999 ≤ n + change ∧ n + change ≤ 9999999) :
    ∃ q d', (Atom.setNum change).exec p n = some (q, n) ∧ q.iniD = .live d' ∧
      userNum d' = some (n + change) := by
  refine ⟨⟨p.file, .live (dictionarySet d userNumEntry (some (decimal (n + change))))⟩, _, ?_, rfl,
    userNum_set h⟩
  rw [Atom.exec, rkSystemSetUserNum, rkParamSetInt_eq h, Store.set, hp]
  simp only [iniparserSet, strlwc_userNumEntry]
  rfl

end Access

/-! ### Connections -/

variable [DecidableEq ι] {w w' : World ι} {c : Counter ι} {i : ι}

/-- The connection that moves has other accesses to make and another number, the others do not. -/
theorem Models.of_update {q : Store} {d : Dictionary} {as : List Atom} {n v : ℤ}
    {o : Option ℤ} (h : Models w c) (hq : q.iniD = .live d) (hd : userNum d = some v)
    (hi : (o = none ∧ Accesses as) ∨
      ∃ change rest, o = some n ∧ as = .setNum change :: rest ∧ Accesses rest) :
    Models ⟨q, Function.update w.todo i as, Function.update w.userNum i n⟩
      ⟨v, Function.update c.pending i o⟩ := by
  refine ⟨⟨d, hq, hd⟩, fun j => ?_⟩
  dsimp only
  by_cases hj : j = i
  · subst hj
    simpa only [Function.update_self] using hi
  · simpa only [Function.update_of_ne hj] using h.threads j

/-- **A connection that is not disturbed moves**, and the counter with it. -/
theorem Models.step (h : Models w c) (hw : w.Undisturbed i) (htodo : w.todo i ≠ []) :
    ∃ w' a c', w.step i = some w' ∧ c.Alone (i, a) ∧ Counter.Step c (i, a) c' ∧ Models w' c' ∧
      remaining (w.todo i) = a.change + remaining (w'.todo i) ∧
      ∀ j, j ≠ i → w'.todo j = w.todo j := by
  obtain ⟨d, hp, hv⟩ := h.live
  -- what the step leaves, from the access and what is to be done after it
  have hstep : ∀ {x : Atom} {as : List Atom} {q : Store} {n : ℤ}, w.todo i = x :: as →
      x.exec w.store (w.userNum i) = some (q, n) → w.step i =
        some ⟨q, Function.update w.todo i as, Function.update w.userNum i n⟩ := by
    intro x as q n hx hexec
    rw [World.step, hx]
    simp only [hexec, Option.map_some]
  unfold World.Undisturbed at hw
  obtain ⟨hpending, haccesses⟩ | ⟨change, as, hpending, hx, has⟩ := h.threads i
  · cases hx : w.todo i with
    | nil => exact absurd hx htodo
    | cons x as =>
      rw [hx] at haccesses hw
      cases haccesses with
      | quiet hquiet has =>
        -- the counter is left alone
        have hsave : ∀ opened, x = .save opened → opened = true := by
          rintro opened rfl
          exact hw
        obtain ⟨q, d', hexec, hq, hd'⟩ := hquiet.exec hsave hp
        have hchange : x.change = 0 := by cases hquiet <;> rfl
        refine ⟨_, .other, ⟨c.value, Function.update c.pending i none⟩, hstep hx hexec, trivial, ?_,
          h.of_update hq (hd'.trans hv) (.inl ⟨rfl, has⟩), ?_,
          fun j hj => Function.update_of_ne hj _ _⟩
        · rw [← hpending, Function.update_eq_self]
          exact .other i
        · dsimp only
          rw [Function.update_self, remaining_cons, hchange]
          rfl
      | count change has =>
        -- the number is read, and nobody else has one to write
        have halone : c.Alone (i, .read) := fun j hj => by
          obtain ⟨hj', -⟩ | ⟨change, as, -, hj', -⟩ := h.threads j
          · exact hj'
          · have hwrites := hw j hj
            rw [hj'] at hwrites
            cases hwrites
        refine ⟨_, .read, _, hstep hx (exec_getNum hp hv), halone, .read i,
          h.of_update hp hv (.inr ⟨change, _, rfl, rfl, has⟩), ?_,
          fun j hj => Function.update_of_ne hj _ _⟩
        dsimp only
        rw [Function.update_self, remaining_cons]
        rfl
  · -- the number that was read is written
    rw [hx] at hw
    obtain ⟨q, d', hexec, hq, hd'⟩ := exec_setNum (p := w.store) hp hw
    refine ⟨_, .write change, _, hstep hx hexec, trivial, .write hpending,
      h.of_update hq hd' (.inl ⟨rfl, has⟩), ?_, fun j hj => Function.update_of_ne hj _ _⟩
    dsimp only
    rw [Function.update_self, hx, remaining_cons]
    rfl

/-! ## Runs -/

variable [Fintype ι]

/-- **Connections that are not disturbed run as the counter does**, and what they have still to
change becomes less by what the counter changes. -/
theorem Models.run {is : List ι} (h : Models w c)
    (hrun : Run (fun w i w' => w.Undisturbed i ∧ w.step i = some w') w is w') :
    ∃ as c', Run (fun s a t => s.Alone a ∧ Counter.Step s a t) c as c' ∧ Models w' c' ∧
      ∑ i, remaining (w.todo i) =
        (as.map fun a => a.2.change).sum + ∑ i, remaining (w'.todo i) := by
  induction hrun with
  | nil => exact ⟨[], c, .nil, h, (Int.zero_add _).symm⟩
  | @snoc is w₁ w₂ i _ hstep ih =>
    obtain ⟨as, c₁, hrun, h₁, hsum⟩ := ih
    have htodo : w₁.todo i ≠ [] := fun hnil => by
      have := hstep.2
      rw [World.step, hnil] at this
      cases this
    obtain ⟨w₃, a, c₂, hw₃, halone, hcounter, h₂, hremaining, hothers⟩ := h₁.step hstep.1 htodo
    obtain rfl := Option.some.inj (hstep.2.symm.trans hw₃)
    refine ⟨as ++ [(i, a)], c₂, .snoc hrun ⟨halone, hcounter⟩, h₂, ?_⟩
    have hrest : ∑ j, remaining (w₁.todo j) = a.change + ∑ j, remaining (w₂.todo j) := by
      rw [← Finset.add_sum_erase _ _ (Finset.mem_univ i), hremaining,
        ← Finset.add_sum_erase (a := i) Finset.univ (fun j => remaining (w₂.todo j))
          (Finset.mem_univ i), Int.add_assoc]
      refine congrArg _ (congrArg _ (Finset.sum_congr rfl fun j hj => ?_))
      rw [hothers j (Finset.ne_of_mem_erase hj)]
    rw [hsum, hrest, List.map_append, List.sum_append, List.map_singleton, List.sum_singleton,
      Int.add_assoc]

omit [DecidableEq ι] [Fintype ι] in
theorem Models.start {p : Store} {d : Dictionary} {n₀ : ℤ} (hp : p.iniD = .live d)
    (hn : userNum d = some n₀) (ops : ι → List (UserOp × Bool)) :
    Models (World.start p ops) ⟨n₀, fun _ => none⟩ where
  live := ⟨d, hp, hn⟩
  threads i := .inl ⟨rfl, .flatMap (ops i)⟩

/-- **The number of users comes out right** in every run in which no connection is disturbed, and
every connection that is not disturbed moves on. -/
theorem userNum_of_undisturbed {p : Store} {d : Dictionary} {n₀ : ℤ} (hp : p.iniD = .live d)
    (hn : userNum d = some n₀) (ops : ι → List (UserOp × Bool)) {is : List ι}
    (hrun : Run (fun w i w' => w.Undisturbed i ∧ w.step i = some w') (World.start p ops) is w) :
    (∀ i, w.Undisturbed i → w.todo i ≠ [] → (w.step i).isSome) ∧
      ((∀ i, w.todo i = []) → rkSystemGetUserNum w.store =
        some (n₀ + ∑ i, ((ops i).map fun op => op.1.change).sum)) := by
  obtain ⟨as, c, hcounter, hw, hsum⟩ := (Models.start hp hn ops).run hrun
  refine ⟨fun i hi htodo => ?_, fun hdone => ?_⟩
  · obtain ⟨w', -, -, hstep, -⟩ := hw.step hi htodo
    rw [hstep]
    rfl
  · obtain ⟨d', hd', hvalue⟩ := hw.live
    obtain ⟨-, hc⟩ := Counter.value_eq hcounter (Counter.Exact.of_none fun _ => rfl)
    have hnone : ∑ i, remaining (w.todo i) = 0 :=
      Finset.sum_eq_zero fun i _ => by rw [hdone i]; rfl
    have hall : ∑ i, remaining ((World.start p ops).todo i) =
        ∑ i, ((ops i).map fun op => op.1.change).sum :=
      Finset.sum_congr rfl fun i _ => remaining_flatMap (ops i)
    rw [hnone, Int.add_zero, hall] at hsum
    rw [rkSystemGetUserNum_eq hd', hvalue, hc, hsum]

/-- Two connections that add a user each. -/
def twoAdds (i : Bool) : List (UserOp × Bool) :=
  [(.add (if i then 5 else 6) 3 (lit "a") (lit "b"), true)]

/-- Two users, one added after the other. -/
theorem userNum_of_undisturbed_inTurn : ∃ is, ∃ w : World Bool,
    Run (fun w i w' => w.Undisturbed i ∧ w.step i = some w') (World.start noUsers twoAdds) is w ∧
      (∀ i, w.todo i = []) ∧ rkSystemGetUserNum w.store = some 2 := by
  have hdone : (((List.replicate 7 true ++ List.replicate 7 false).foldlM
      (fun (w : World Bool) i => if w.Undisturbed i then w.step i else none)
      (World.start noUsers twoAdds)).map fun w => (w.todo true, w.todo false)) = some ([], []) := by
    decide +kernel
  obtain ⟨w, hw, heq⟩ := Option.map_eq_some_iff.mp hdone
  obtain ⟨htrue, hfalse⟩ := Prod.mk.inj heq
  have hrun : Run (fun w i w' => w.Undisturbed i ∧ w.step i = some w') (World.start noUsers twoAdds)
      _ w := (Run.of_foldlM hw).mono fun w i w' h => by
    split at h
    · exact ⟨‹_›, h⟩
    · cases h
  have hnil : ∀ i, w.todo i = [] := fun i => by cases i <;> assumption
  obtain ⟨d, hd, -⟩ := noUsers_consistent.1
  have hnum : userNum d = some 0 := by
    rw [← rkSystemGetUserNum_eq hd]
    decide +kernel
  exact ⟨_, w, hrun, hnil, (userNum_of_undisturbed hd hnum twoAdds hrun).2 hnil⟩

/-- **Two users who are counted as one**: both connections read the number before either writes. -/
theorem userNum_lost : rkSystemGetUserNum noUsers = some 0 ∧ ∃ is, ∃ w : World Bool,
    Run (fun w i w' => w.step i = some w') (World.start noUsers twoAdds) is w ∧
      (∀ i, w.todo i = []) ∧ rkSystemGetUserNum w.store = some 1 ∧
      (0 : ℤ) + ∑ i, ((twoAdds i).map fun op => op.1.change).sum = 2 := by
  have hdone : (([true, true, true, true, false, false, false, false, true, false, true, false,
      true, false].foldlM World.step (World.start noUsers twoAdds)).map fun w =>
        (w.todo true, w.todo false, rkSystemGetUserNum w.store)) = some ([], [], some 1) := by
    decide +kernel
  obtain ⟨w, hw, heq⟩ := Option.map_eq_some_iff.mp hdone
  obtain ⟨htrue, hfalse, hnum⟩ : w.todo true = [] ∧ w.todo false = [] ∧ _ := by
    simpa only [Prod.mk.injEq] using heq
  exact ⟨by decide +kernel, _, w, Run.of_foldlM hw, fun i => by cases i <;> assumption, hnum,
    by decide⟩

end RkIpc.System
