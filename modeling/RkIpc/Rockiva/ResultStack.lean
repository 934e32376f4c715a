import Mathlib.Data.Fintype.Basic
import RkIpc.LinkedList.Stack
import RkIpc.Transition.Run

/-!
# The results of the detection

`rkba_callback` pushes the result of a detection onto a stack and, if this has grown too large,
drops one; `rkipc_rknn_object_get` pops the newest. Each operation on the stack is a critical
section of its own, the size is read outside of them, and the pointer to the stack is read before
each call.

`ROCKIVA_BA_Release` ends the callbacks. The time and the result that are pushed are one value here.

## Main definitions

* `ResultStack`, `IvaEvent`, `ResultStack.step`: the variables with the threads, and what can happen
  next
* `Kept`: the size is right and bounded, what is dropped is older than what has come, and a result
  is there when `rkipc_rknn_object_get` returns 0
* `IvaEvent.Orderly`: the stack is there when it is used, callbacks follow one another, nothing is
  taken between a test and its pop, and a callback drops when a result has been taken since its push

## Main results

* `kept_of_orderly`: orderly runs keep the newest results
* `newest_dropped`: a callback that finds the stack full drops its own result
-/

namespace RkIpc.Rockiva

open LinkedList Transition

/-- `MAX_RKNN_LIST_NUM`. -/
def maxRknnListNum : ℤ := 10

/-- The node that a callback has pushed, and the number of results that had been popped then. -/
structure Pushed where
  own : ℕ
  seen : ℕ
deriving DecidableEq

/-- Where a thread stands that calls `rkba_callback` or `rkipc_rknn_object_get`; `p` is the pointer
to the stack that it has read. -/
inductive IvaPc (α : Type)
  | idle
  /-- `rknn_list_push(p, ..)` -/
  | push (p : Option ℕ) (v : α)
  /-- about to read `rknn_list_` -/
  | testLoad (n : Pushed)
  /-- `rknn_list_size(p)` in the callback -/
  | test (n : Pushed) (p : Option ℕ)
  | dropLoad (n : Pushed)
  /-- `rknn_list_drop(p)` -/
  | drop (n : Pushed) (p : Option ℕ)
  /-- `rknn_list_size(p)` in `rkipc_rknn_object_get` -/
  | get (p : Option ℕ)
  | popLoad
  /-- `rknn_list_pop(p, ..)` -/
  | pop (p : Option ℕ)

namespace IvaPc

variable {α : Type}

/-- The pointer it has read. -/
def pointer : IvaPc α → Option (Option ℕ)
  | push p _ | test _ p | drop _ p | get p | pop p => some p
  | idle | testLoad _ | dropLoad _ | popLoad => none

/-- It is not in a call. -/
def isIdle : IvaPc α → Bool
  | idle => true
  | _ => false

/-- It is in `rkba_callback`. -/
def inCallback : IvaPc α → Bool
  | push _ _ | testLoad _ | test _ _ | dropLoad _ | drop _ _ => true
  | idle | get _ | popLoad | pop _ => false

/-- What it has pushed, in a callback that has not returned. -/
def pushed : IvaPc α → Option Pushed
  | testLoad n | test n _ | dropLoad n | drop n _ => some n
  | idle | push _ _ | get _ | popLoad | pop _ => none

/-- It is in `rkipc_rknn_object_get`, past the test of the size. -/
def tested : IvaPc α → Bool
  | popLoad | pop _ => true
  | _ => false

/-- It takes a node off next. -/
def takes : IvaPc α → Bool
  | pop _ | drop _ _ => true
  | _ => false

/-- What it has pushed, if it drops a node next. -/
def dropping : IvaPc α → Option Pushed
  | drop n _ => some n
  | _ => none

end IvaPc

/-- Where the thread stands that calls `rkipc_rockiva_init` and `rkipc_rockiva_deinit`. -/
inductive IvaMain
  | idle
  /-- the callback is registered, and the stack is created next -/
  | create
  /-- the callback is released, and the stack is destroyed next -/
  | destroy
deriving DecidableEq

/-- **The variables of the detection**: the nodes, `rknn_list_` among the stacks created so far,
the stack it points to, whether the callback is registered, the threads, and whether one of them has
used a stack that is not there. Noted are the number of results popped, the drops, each by the node
pushed and the node dropped, the sizes when a callback returned, and what `rkipc_rknn_object_get`
has returned and stored. -/
structure ResultStack (ι α : Type) where
  heap : Heap α
  list : Option ℕ
  created : ℕ
  stack : Stack
  registered : Bool
  main : IvaMain
  threads : ι → IvaPc α
  crashed : Bool
  taken : ℕ
  drops : List (ℕ × ℕ)
  sizes : List ℤ
  gets : List (ℤ × Option α)

/-- What can happen next. `ok` is whether `rk_signal_create` succeeds in `rkipc_rockiva_init`. -/
inductive IvaEvent (ι α : Type)
  | init
  | create (ok : Bool)
  | deinit
  | destroy
  | callback (i : ι) (v : α)
  | get (i : ι)
  | thread (i : ι)

namespace ResultStack

variable {ι α : Type} [DecidableEq ι]

/-- The variables at the start of the program. -/
def start : ResultStack ι α where
  heap := Heap.empty
  list := none
  created := 0
  stack := Stack.empty
  registered := false
  main := .idle
  threads := fun _ => .idle
  crashed := false
  taken := 0
  drops := []
  sizes := []
  gets := []

/-- Thread `i` goes on. -/
def goOn (s : ResultStack ι α) (i : ι) (c : IvaPc α) : ResultStack ι α :=
  { s with threads := Function.update s.threads i c }

/-- `rknn_list_size`; none when the stack was freed. -/
def rknnListSize (s : ResultStack ι α) (p : Option ℕ) : Option ℤ :=
  if p = none then some (-1) else if p = s.list then some s.stack.size else none

/-- The top node is taken off by `rknn_list_pop` or `rknn_list_drop`; none when the stack was
freed. -/
def rknnListPop (s : ResultStack ι α) (p : Option ℕ) :
    Option (Option (ℕ × α) × ResultStack ι α) :=
  if p = none then some (none, s)
  else if p = s.list then
    (s.stack.pop s.heap).map fun r => (r.1, { s with heap := r.2.1, stack := r.2.2 })
  else none

/-- `rknn_list_push`, with the address of the node; none when there is no stack. -/
def rknnListPush (s : ResultStack ι α) (p : Option ℕ) (v : α) : Option (ℕ × ResultStack ι α) :=
  if p = none then none
  else if p = s.list then
    let r := s.stack.push s.heap v
    some (r.1, { s with heap := r.2.1, stack := r.2.2 })
  else none

/-- The callback of thread `i` returns. -/
def callbackReturn (s : ResultStack ι α) (i : ι) : ResultStack ι α :=
  { s.goOn i .idle with sizes := (if s.list = none then -1 else s.stack.size) :: s.sizes }

/-- A thread has used a stack that is not there. -/
def crash (s : ResultStack ι α) : ResultStack ι α := { s with crashed := true }

/-- The next step of thread `i`. -/
def threadStep (s : ResultStack ι α) (i : ι) : Option (ResultStack ι α) :=
  match s.threads i with
  | .idle => none
  -- **`rkba_callback`**
  | .push p v =>
    match s.rknnListPush p v with
    | none => some s.crash
    | some (own, s) => some (s.goOn i (.testLoad ⟨own, s.taken⟩))
  | .testLoad n => some (s.goOn i (.test n s.list))
  | .test n p =>
    match s.rknnListSize p with
    | none => some s.crash
    | some size =>
      some (if maxRknnListNum ≤ size then s.goOn i (.dropLoad n) else s.callbackReturn i)
  | .dropLoad n => some (s.goOn i (.drop n s.list))
  | .drop n p =>
    match s.rknnListPop p with
    | none => some s.crash
    | some (popped, s) =>
      some { s.callbackReturn i with drops := popped.toList.map (fun x => (n.own, x.1)) ++ s.drops }
  -- **`rkipc_rknn_object_get`**
  | .get p =>
    match s.rknnListSize p with
    | none => some s.crash
    | some size =>
      some (if size ≠ 0 then s.goOn i .popLoad
        else { s.goOn i .idle with gets := (-1, none) :: s.gets })
  | .popLoad => some (s.goOn i (.pop s.list))
  | .pop p =>
    match s.rknnListPop p with
    | none => some s.crash
    | some (popped, s) =>
      some { s.goOn i .idle with
        taken := s.taken + popped.toList.length
        gets := (0, popped.map Prod.snd) :: s.gets }

/-- `create_rknn_list`. -/
def createRknnList (s : ResultStack ι α) : ResultStack ι α :=
  if s.list = none then
    { s with list := some s.created, created := s.created + 1, stack := Stack.empty }
  else s

/-- `destory_rknn_list`. -/
def destoryRknnList (s : ResultStack ι α) : Option (ResultStack ι α) :=
  if s.list = none then some s
  else (Stack.clear s.heap.brk s.stack.top s.heap).map fun h => { s with heap := h, list := none }

/-- The variables after an event; `none` when it cannot happen. -/
def step (s : ResultStack ι α) (e : IvaEvent ι α) : Option (ResultStack ι α) :=
  if s.crashed then none
  else
    match e with
    -- **`rkipc_rockiva_init`**: `ROCKIVA_BA_Init`, and what comes after it
    | .init => if s.main = .idle then some { s with registered := true, main := .create } else none
    | .create ok =>
      if s.main = .create then
        some (if ok then { s.createRknnList with main := .idle } else { s with main := .idle })
      else none
    -- **`rkipc_rockiva_deinit`**: `ROCKIVA_BA_Release`, and what comes after it
    | .deinit =>
      if s.main = .idle then some { s with registered := false, main := .destroy } else none
    | .destroy =>
      if s.main = .destroy then
        match s.destoryRknnList with
        | none => some s.crash
        | some s => some { s with main := .idle }
      else none
    | .callback i v =>
      if s.registered ∧ (s.threads i).isIdle then some (s.goOn i (.push s.list v)) else none
    | .get i => if (s.threads i).isIdle then some (s.goOn i (.get s.list)) else none
    | .thread i => s.threadStep i

end ResultStack

variable {ι α : Type}

/-- **The newest results are kept**: no thread has used a stack that is not there; the size is the
number of nodes, and in its bound when a callback has returned; every node that was dropped is older
than the one the callback had pushed; and `rkipc_rknn_object_get` returned 0 if and only if it
stored a result. -/
structure Kept (s : ResultStack ι α) : Prop where
  safe : s.crashed = false
  size : s.list ≠ none → ∃ l, Chain s.heap s.stack.top l ∧ s.stack.size = l.length
  bounded : ∀ n ∈ s.sizes, n ≤ maxRknnListNum - 1
  newest : ∀ d ∈ s.drops, d.2 < d.1
  stored : ∀ g ∈ s.gets, g.1 = 0 ↔ g.2 ≠ none

/-- **Orderly**: callbacks and `rkipc_rknn_object_get` begin while there is a stack, and it is
destroyed when all of them have returned; a callback begins when no other one is under way; nothing
is taken off the stack while another thread is between its test of the size and its pop; and when a
callback drops, a result has been popped since its push. -/
def IvaEvent.Orderly (s : ResultStack ι α) : IvaEvent ι α → Prop
  | .callback _ _ => s.list ≠ none ∧ ∀ j, (s.threads j).inCallback = false
  | .get _ => s.list ≠ none
  | .destroy => ∀ i, (s.threads i).isIdle = true
  | .thread i =>
    ((s.threads i).takes = true → ∀ j, j ≠ i → (s.threads j).tested = false) ∧
      ∀ n ∈ (s.threads i).dropping, n.seen < s.taken
  | .init | .create _ | .deinit => True

instance [Fintype ι] [DecidableEq ι] (s : ResultStack ι α) (e : IvaEvent ι α) :
    Decidable (e.Orderly s) :=
  match e with
  | .callback _ _ =>
    inferInstanceAs (Decidable (s.list ≠ none ∧ ∀ j, (s.threads j).inCallback = false))
  | .get _ => inferInstanceAs (Decidable (s.list ≠ none))
  | .destroy => inferInstanceAs (Decidable (∀ i, (s.threads i).isIdle = true))
  | .thread i =>
    inferInstanceAs (Decidable
      (((s.threads i).takes = true → ∀ j, j ≠ i → (s.threads j).tested = false) ∧
        ∀ n ∈ (s.threads i).dropping, n.seen < s.taken))
  | .init | .create _ | .deinit => .isTrue trivial

/-! ## What a callback knows of the nodes -/

/-- All nodes are older than `own`. -/
def Older (own : ℕ) (l : List (ℕ × α)) : Prop := ∀ x ∈ l, x.1 < own

/-- **What a callback knows**: its node is on top while nothing has been popped since its push, and
all nodes are older otherwise. -/
structure Pushed.Knows (n : Pushed) (taken : ℕ) (l : List (ℕ × α)) : Prop where
  seen : n.seen ≤ taken
  top : n.seen = taken → ∃ v rest, l = (n.own, v) :: rest ∧ Older n.own rest
  older : n.seen < taken → Older n.own l

/-- A consumer pops: what is left is older. -/
theorem Pushed.Knows.pop {n : Pushed} {taken : ℕ} {x : ℕ × α} {l : List (ℕ × α)}
    (h : n.Knows taken (x :: l)) : n.Knows (taken + 1) l where
  seen := Nat.le_succ_of_le h.seen
  top heq := absurd h.seen (by omega)
  older _ := by
    rcases Nat.eq_or_lt_of_le h.seen with heq | hlt
    · obtain ⟨v, rest, hl, hrest⟩ := h.top heq
      obtain ⟨-, rfl⟩ := List.cons.inj hl
      exact hrest
    · exact fun y hy => h.older hlt y (List.mem_cons_of_mem x hy)

namespace ResultStack

/-- **The invariant**: a thread that is in a call has read the pointer to the stack that is there;
one callback is under way at most, and the size exceeds the bound by its node at most; and there is
a node for a consumer that is past its test. -/
structure Inv (s : ResultStack ι α) : Prop where
  safe : s.crashed = false
  holds : s.list ≠ none → ∃ l, s.stack.Holds s.heap l ∧
    ∀ i, ∀ n ∈ (s.threads i).pushed, n.Knows s.taken l
  atMost : s.list ≠ none → s.stack.size ≤ maxRknnListNum
  between : s.list ≠ none → (∀ i, (s.threads i).pushed = none) →
    s.stack.size ≤ maxRknnListNum - 1
  serial : ∀ i j, (s.threads i).inCallback = true → (s.threads j).inCallback = true → i = j
  tested : ∀ i, (s.threads i).tested = true → s.stack.top ≠ none
  inside : ∀ i, (s.threads i).isIdle = false → s.list ≠ none
  pointer : ∀ i p, (s.threads i).pointer = some p → p = s.list
  bounded : ∀ n ∈ s.sizes, n ≤ maxRknnListNum - 1
  newest : ∀ d ∈ s.drops, d.2 < d.1
  stored : ∀ g ∈ s.gets, g.1 = 0 ↔ g.2 ≠ none

variable {s t : ResultStack ι α} {i : ι}

theorem inv_start : (start : ResultStack ι α).Inv where
  safe := rfl
  holds h := absurd rfl h
  atMost h := absurd rfl h
  between h := absurd rfl h
  serial _ _ h := by cases h
  tested _ h := by cases h
  inside _ h := by cases h
  pointer _ _ h := by cases h
  bounded := by simp [start]
  newest := by simp [start]
  stored := by simp [start]

theorem Inv.kept (hs : s.Inv) : Kept s where
  safe := hs.safe
  size hlist := by
    obtain ⟨l, hl, -⟩ := hs.holds hlist
    exact ⟨l, hl.chain, hl.size⟩
  bounded := hs.bounded
  newest := hs.newest
  stored := hs.stored

/-- While one callback is under way, no other thread has pushed. -/
theorem Inv.pushed_of_ne (hs : s.Inv) (hi : (s.threads i).inCallback = true) {j : ι} (hne : j ≠ i) :
    (s.threads j).pushed = none := by
  have hj : (s.threads j).inCallback ≠ true := fun h => hne (hs.serial j i h hi)
  cases hc : s.threads j with
  | testLoad | test | dropLoad | drop => rw [hc] at hj; exact absurd rfl hj
  | idle | push | get | popLoad | pop => rfl

variable [DecidableEq ι]

@[simp] theorem threads_goOn_self (s : ResultStack ι α) (i : ι) (c : IvaPc α) :
    (s.goOn i c).threads i = c := Function.update_self ..

theorem threads_goOn_of_ne (s : ResultStack ι α) {i j : ι} (h : j ≠ i) (c : IvaPc α) :
    (s.goOn i c).threads j = s.threads j := Function.update_of_ne h ..

/-- The threads after one of them has gone on. -/
theorem goOn_threads {c : IvaPc α} {P : ι → IvaPc α → Prop} (hc : P i c)
    (h : ∀ j, j ≠ i → P j (s.threads j)) (j : ι) : P j ((s.goOn i c).threads j) := by
  rcases eq_or_ne j i with rfl | hne
  · rwa [threads_goOn_self]
  · rw [threads_goOn_of_ne s hne]
    exact h j hne

/-- The thread that goes on is the only one in a callback, if it is in one. -/
theorem Inv.serial_goOn {c : IvaPc α} (hs : s.Inv)
    (hserial : c.inCallback = true → ∀ j, j ≠ i → (s.threads j).inCallback = false) (j k : ι)
    (hj : ((s.goOn i c).threads j).inCallback = true)
    (hk : ((s.goOn i c).threads k).inCallback = true) : j = k := by
  rcases eq_or_ne j i with rfl | hji
  · rw [threads_goOn_self] at hj
    by_contra hne
    rw [threads_goOn_of_ne s (Ne.symm hne), hserial hj k (Ne.symm hne)] at hk
    cases hk
  · rw [threads_goOn_of_ne s hji] at hj
    rcases eq_or_ne k i with rfl | hki
    · rw [threads_goOn_self] at hk
      rw [hserial hk j hji] at hj
      cases hj
    · rw [threads_goOn_of_ne s hki] at hk
      exact hs.serial j k hj hk

omit [DecidableEq ι] in
/-- While a callback goes on, no other one is under way. -/
theorem Inv.others (hs : s.Inv) (hi : (s.threads i).inCallback = true) (j : ι) (hne : j ≠ i) :
    (s.threads j).inCallback = false := by
  by_contra h
  exact hne (hs.serial j i (Bool.eq_true_of_not_eq_false h) hi)

/-- A thread goes on in a call, or returns; a callback returns when the size is in its bound. -/
theorem Inv.goOn {c : IvaPc α} (hs : s.Inv) (hlist : s.list ≠ none)
    (hpointer : ∀ p, c.pointer = some p → p = s.list)
    (hserial : c.inCallback = true → ∀ j, j ≠ i → (s.threads j).inCallback = false)
    (hpushed : c.pushed = (s.threads i).pushed ∨
      c.pushed = none ∧ s.stack.size ≤ maxRknnListNum - 1)
    (htested : c.tested = true → s.stack.top ≠ none) : (s.goOn i c).Inv := by
  refine ⟨hs.safe, fun _ => ?_, hs.atMost, fun _ hnone => ?_, hs.serial_goOn hserial,
    goOn_threads (P := fun _ c => c.tested = true → s.stack.top ≠ none) htested
      fun j _ => hs.tested j, fun _ _ => hlist,
    goOn_threads (P := fun _ c => ∀ p, c.pointer = some p → p = s.list) hpointer
      fun j _ => hs.pointer j, hs.bounded, hs.newest, hs.stored⟩
  · obtain ⟨l, hl, hknows⟩ := hs.holds hlist
    refine ⟨l, hl, goOn_threads (s := s) (P := fun _ c => ∀ n ∈ c.pushed, n.Knows s.taken l) ?_
      fun j _ => hknows j⟩
    rcases hpushed with heq | ⟨hnone, -⟩
    · rw [heq]
      exact hknows i
    · rw [hnone]
      exact nofun
  · change s.stack.size ≤ _
    rcases hpushed with heq | ⟨-, hsize⟩
    -- the callback under way is the same
    · refine hs.between hlist fun j => ?_
      rcases eq_or_ne j i with rfl | hne
      · rw [← heq, ← threads_goOn_self s j c]
        exact hnone j
      · rw [← threads_goOn_of_ne s hne c]
        exact hnone j
    · exact hsize

/-- A thread pushes a node. -/
theorem Inv.push {v : α} (hs : s.Inv) (hlist : s.list ≠ none)
    (hin : (s.threads i).inCallback = true) (hi : (s.threads i).pushed = none) :
    ({ s.goOn i (.testLoad ⟨(s.stack.push s.heap v).1, s.taken⟩) with
      heap := (s.stack.push s.heap v).2.1
      stack := (s.stack.push s.heap v).2.2 } : ResultStack ι α).Inv := by
  obtain ⟨l, hl, -⟩ := hs.holds hlist
  have hnone : ∀ j, (s.threads j).pushed = none := fun j => by
    rcases eq_or_ne j i with rfl | hne
    · exact hi
    · exact hs.pushed_of_ne hin hne
  have hsize := hs.between hlist hnone
  refine ⟨hs.safe, fun _ => ⟨_, hl.push v, ?_⟩, fun _ => ?_, fun _ hthreads => ?_,
    hs.serial_goOn fun _ => hs.others hin,
    fun j _ => nofun, fun _ _ => hlist,
    goOn_threads (s := s) (P := fun _ c => ∀ p, c.pointer = some p → p = s.list) nofun
      fun j _ => hs.pointer j, hs.bounded, hs.newest, hs.stored⟩
  · refine goOn_threads (s := s) (P := fun _ c => ∀ n ∈ c.pushed, n.Knows s.taken _) ?_
      fun j _ => ?_
    -- the new node is on top, and every other one is older
    · intro n hn
      obtain rfl := Option.some.inj hn
      exact ⟨le_rfl, fun _ => ⟨v, l, rfl, fun x hx => hl.chain.lt_brk _ (List.mem_map_of_mem hx)⟩,
        fun hlt => absurd hlt (lt_irrefl _)⟩
    · rw [hnone j]
      exact nofun
  · change s.stack.size + 1 ≤ _
    omega
  · have h := hthreads i
    change ((s.goOn i _).threads i).pushed = none at h
    rw [threads_goOn_self] at h
    cases h

/-- A thread takes a node off and returns; nobody else is past a test. -/
theorem Inv.pop {a : ℕ} {x : α} {h : Heap α} {k : Stack} (hs : s.Inv) (taken : ℕ)
    (hlist : s.list ≠ none) (hpop : s.stack.pop s.heap = some (some (a, x), h, k))
    (htested : ∀ j, j ≠ i → (s.threads j).tested = false)
    (hknows : ∀ j, j ≠ i → ∀ n ∈ (s.threads j).pushed, ∀ l : List (ℕ × α),
      n.Knows s.taken ((a, x) :: l) → n.Knows taken l) :
    ({ s.goOn i .idle with heap := h, stack := k, taken := taken } : ResultStack ι α).Inv ∧
      k.size ≤ maxRknnListNum - 1 := by
  obtain ⟨l, hl, hall⟩ := hs.holds hlist
  have hatMost := hs.atMost hlist
  cases l with
  | nil =>
    rw [hl.pop_nil] at hpop
    cases hpop
  | cons n l =>
    obtain ⟨h', k', hpop', hl', hsize⟩ := hl.pop_cons
    rw [hpop'] at hpop
    obtain ⟨hn, rfl, rfl⟩ : (n.1, n.2) = (a, x) ∧ h' = h ∧ k' = k := by simpa using hpop
    obtain rfl : n = (a, x) := hn
    have hless : k'.size ≤ maxRknnListNum - 1 := by omega
    refine ⟨⟨hs.safe, fun _ => ⟨l, hl', ?_⟩, fun _ => ?_, fun _ _ => hless, hs.serial_goOn nofun,
      goOn_threads (s := s) (P := fun _ c => c.tested = true → k'.top ≠ none) nofun ?_,
      fun _ _ => hlist,
      goOn_threads (s := s) (P := fun _ c => ∀ p, c.pointer = some p → p = s.list) nofun
        fun j _ => hs.pointer j, hs.bounded, hs.newest, hs.stored⟩, hless⟩
    · refine goOn_threads (s := s) (P := fun _ c => ∀ n ∈ c.pushed, n.Knows taken l) nofun ?_
      exact fun j hne n hn => hknows j hne n hn l (hall j n hn)
    · change k'.size ≤ _
      omega
    · intro j hne h
      rw [htested j hne] at h
      cases h

omit [DecidableEq ι] in
/-- What `rkipc_rknn_object_get` has returned is noted. -/
theorem Inv.noteGet {g : ℤ × Option α} (hs : s.Inv) (hg : g.1 = 0 ↔ g.2 ≠ none) :
    ({ s with gets := g :: s.gets } : ResultStack ι α).Inv :=
  { hs with stored := List.forall_mem_cons.mpr ⟨hg, hs.stored⟩ }

omit [DecidableEq ι] in
/-- What a callback has dropped is noted. -/
theorem Inv.noteDrop {d : ℕ × ℕ} (hs : s.Inv) (hd : d.2 < d.1) :
    ({ s with drops := d :: s.drops } : ResultStack ι α).Inv :=
  { hs with newest := List.forall_mem_cons.mpr ⟨hd, hs.newest⟩ }

omit [DecidableEq ι] in
/-- The size when a callback returns is noted. -/
theorem Inv.noteSize {n : ℤ} (hs : s.Inv) (hn : n ≤ maxRknnListNum - 1) :
    ({ s with sizes := n :: s.sizes } : ResultStack ι α).Inv :=
  { hs with bounded := List.forall_mem_cons.mpr ⟨hn, hs.bounded⟩ }

/-- A callback returns when the size is in its bound. -/
theorem Inv.callbackReturn (hs : s.Inv) (hlist : s.list ≠ none)
    (hsize : s.stack.size ≤ maxRknnListNum - 1) : (s.callbackReturn i).Inv := by
  have hidle : (s.goOn i .idle).Inv := hs.goOn hlist nofun nofun (Or.inr ⟨rfl, hsize⟩) nofun
  rw [ResultStack.callbackReturn, if_neg hlist]
  exact hidle.noteSize hsize

omit [DecidableEq ι] in
/-- A thread reads the size of the stack that is there. -/
theorem Inv.rknnListSize {p : Option ℕ} (hs : s.Inv) (hi : (s.threads i).pointer = some p)
    (hidle : (s.threads i).isIdle = false) : s.rknnListSize p = some s.stack.size := by
  obtain rfl := hs.pointer i p hi
  rw [ResultStack.rknnListSize, if_neg (hs.inside i hidle), if_pos rfl]

/-- One step of a thread. -/
theorem Inv.threadStep (hs : s.Inv) (hi : IvaEvent.Orderly s (.thread i))
    (ht : s.threadStep i = some t) : t.Inv := by
  have hinside := hs.inside i
  have hpointer := hs.pointer i
  have hothers := hs.others (i := i)
  have hsize := fun p => hs.rknnListSize (i := i) (p := p)
  unfold ResultStack.threadStep at ht
  cases hc : s.threads i with
  | idle =>
    simp only [hc] at ht
    cases ht
  | push p v =>
    rw [hc] at hinside hpointer
    have hlist := hinside rfl
    obtain rfl := hpointer p rfl
    simp only [hc, rknnListPush, if_neg hlist, if_true] at ht
    obtain rfl := Option.some.inj ht
    exact hs.push hlist (by rw [hc]; rfl) (by rw [hc]; rfl)
  | testLoad n =>
    rw [hc] at hinside hothers
    simp only [hc] at ht
    obtain rfl := Option.some.inj ht
    exact hs.goOn (hinside rfl) (fun p hp => (Option.some.inj hp).symm) (fun _ => hothers rfl)
      (Or.inl (by rw [hc]; rfl)) nofun
  | test n p =>
    rw [hc] at hinside hsize hothers
    simp only [hc, hsize p rfl rfl] at ht
    obtain rfl := Option.some.inj ht
    split_ifs with hfull
    · exact hs.goOn (hinside rfl) nofun (fun _ => hothers rfl) (Or.inl (by rw [hc]; rfl)) nofun
    · exact hs.callbackReturn (hinside rfl) (by omega)
  | dropLoad n =>
    rw [hc] at hinside hothers
    simp only [hc] at ht
    obtain rfl := Option.some.inj ht
    exact hs.goOn (hinside rfl) (fun p hp => (Option.some.inj hp).symm) (fun _ => hothers rfl)
      (Or.inl (by rw [hc]; rfl)) nofun
  | drop n p =>
    rw [hc] at hinside hpointer
    have hlist := hinside rfl
    obtain rfl := hpointer p rfl
    obtain ⟨l, hl, hknows⟩ := hs.holds hlist
    have hin : (s.threads i).inCallback = true := by rw [hc]; rfl
    have hmine := hknows i n (by rw [hc]; rfl)
    simp only [IvaEvent.Orderly, hc] at hi
    simp only [hc, rknnListPop, if_neg hlist, if_true] at ht
    cases l with
    | nil =>
      -- nothing is there to be dropped
      simp only [hl.pop_nil, Option.map_some] at ht
      obtain rfl := Option.some.inj ht
      refine hs.callbackReturn hlist ?_
      rw [hl.size, List.length_nil]
      decide
    | cons x l =>
      obtain ⟨h', k', hpop, -⟩ := hl.pop_cons
      simp only [hpop, Option.map_some] at ht
      obtain rfl := Option.some.inj ht
      -- a result has been popped since the push, so the top is older
      have holder := hmine.older (hi.2 n rfl) x List.mem_cons_self
      obtain ⟨hinv, hless⟩ := hs.pop (i := i) s.taken hlist hpop (hi.1 rfl) fun j hne m hm => by
        rw [hs.pushed_of_ne hin hne] at hm
        cases hm
      have hreturn := (hinv.noteSize hless).noteDrop (d := (n.own, x.1)) holder
      rw [ResultStack.callbackReturn, if_neg hlist]
      exact hreturn
  | get p =>
    rw [hc] at hinside hsize
    have hlist := hinside rfl
    simp only [hc, hsize p rfl rfl] at ht
    obtain rfl := Option.some.inj ht
    split_ifs with hne
    · -- there is a node: the size is their number
      obtain ⟨l, hl, -⟩ := hs.holds hlist
      refine hs.goOn hlist nofun nofun (Or.inl (by rw [hc]; rfl)) fun _ htop => hne ?_
      rw [hl.size, hl.top_eq_none_iff.mp htop]
      rfl
    · have hidle : (s.goOn i .idle).Inv :=
        hs.goOn hlist nofun nofun (Or.inl (by rw [hc]; rfl)) nofun
      exact hidle.noteGet (by simp)
  | popLoad =>
    rw [hc] at hinside
    simp only [hc] at ht
    obtain rfl := Option.some.inj ht
    exact hs.goOn (hinside rfl) (fun p hp => (Option.some.inj hp).symm) nofun
      (Or.inl (by rw [hc]; rfl)) fun _ => hs.tested i (by rw [hc]; rfl)
  | pop p =>
    rw [hc] at hinside hpointer
    have hlist := hinside rfl
    obtain rfl := hpointer p rfl
    obtain ⟨l, hl, -⟩ := hs.holds hlist
    have htop := hs.tested i (by rw [hc]; rfl)
    simp only [IvaEvent.Orderly, hc] at hi
    simp only [hc, rknnListPop, if_neg hlist, if_true] at ht
    cases l with
    | nil => exact absurd (hl.top_eq_none_iff.mpr rfl) htop
    | cons n l =>
      obtain ⟨h', k', hpop, -⟩ := hl.pop_cons
      simp only [hpop, Option.map_some] at ht
      obtain rfl := Option.some.inj ht
      have hinv := (hs.pop (i := i) (s.taken + 1) hlist hpop (hi.1 rfl)
        fun _ _ _ _ _ hm => hm.pop).1
      exact hinv.noteGet (by simp)

omit [DecidableEq ι] in
/-- The thread that starts and stops the detection goes on. -/
theorem Inv.setMain (hs : s.Inv) (registered : Bool) (main : IvaMain) :
    ({ s with registered := registered, main := main } : ResultStack ι α).Inv :=
  { hs with }

theorem IvaPc.eq_idle {c : IvaPc α} (h : c.isIdle = true) : c = .idle := by
  cases c with
  | idle => rfl
  | push | testLoad | test | dropLoad | drop | get | popLoad | pop => cases h

omit [DecidableEq ι] in
/-- Nobody is in a call, and there is no stack or an empty one. -/
theorem Inv.renew (hs : s.Inv) (hidle : ∀ i, s.threads i = .idle) (heap : Heap α)
    (list : Option ℕ) (created : ℕ) (stack : Stack) (hstack : list ≠ none → stack = Stack.empty) :
    ({ s with heap := heap, list := list, created := created, stack := stack } :
      ResultStack ι α).Inv := by
  refine ⟨hs.safe, fun hlist => ⟨[], ?_, ?_⟩, fun hlist => ?_, fun hlist _ => ?_, hs.serial, ?_, ?_,
    ?_, hs.bounded, hs.newest, hs.stored⟩
  · rw [hstack hlist]
    exact Stack.holds_empty
  · intro i n hn
    rw [hidle i] at hn
    cases hn
  · obtain rfl := hstack hlist
    exact (by decide : Stack.empty.size ≤ maxRknnListNum)
  · obtain rfl := hstack hlist
    exact (by decide : Stack.empty.size ≤ maxRknnListNum - 1)
  · intro i h
    rw [hidle i] at h
    cases h
  · intro i h
    rw [hidle i] at h
    cases h
  · intro i p h
    rw [hidle i] at h
    cases h

omit [DecidableEq ι] in
/-- `create_rknn_list`: without a stack no thread is in a call. -/
theorem Inv.createRknnList (hs : s.Inv) : s.createRknnList.Inv := by
  unfold ResultStack.createRknnList
  split_ifs with hnone
  · have hidle : ∀ i, s.threads i = .idle := fun i => by
      apply IvaPc.eq_idle
      by_contra h
      exact hs.inside i (Bool.eq_false_of_not_eq_true h) hnone
    exact hs.renew hidle _ _ _ _ fun _ => rfl
  · exact hs

/-- **Every orderly step keeps the invariant.** -/
theorem Inv.step {e : IvaEvent ι α} (hs : s.Inv) (he : e.Orderly s) (ht : s.step e = some t) :
    t.Inv := by
  unfold ResultStack.step at ht
  rw [if_neg (by simp [hs.safe])] at ht
  cases e with
  | init =>
    dsimp only at ht
    split_ifs at ht
    obtain rfl := Option.some.inj ht
    exact hs.setMain _ _
  | create ok =>
    dsimp only at ht
    split_ifs at ht with hmain hok
    · obtain rfl := Option.some.inj ht
      exact hs.createRknnList.setMain _ _
    · obtain rfl := Option.some.inj ht
      exact hs.setMain s.registered _
  | deinit =>
    dsimp only at ht
    split_ifs at ht
    obtain rfl := Option.some.inj ht
    exact hs.setMain _ _
  | destroy =>
    dsimp only at ht
    split_ifs at ht
    unfold ResultStack.destoryRknnList at ht
    by_cases hlist : s.list = none
    · rw [if_pos hlist] at ht
      obtain rfl := Option.some.inj ht
      exact hs.setMain s.registered _
    · obtain ⟨l, hl, -⟩ := hs.holds hlist
      obtain ⟨h', hclear⟩ := hl.exists_clear
      simp only [if_neg hlist, hclear, Option.map_some] at ht
      obtain rfl := Option.some.inj ht
      -- nobody has a pointer to the stack
      have hgone := hs.renew (fun i => IvaPc.eq_idle (he i)) h' none s.created s.stack (absurd rfl)
      exact hgone.setMain s.registered _
  | callback i v =>
    dsimp only at ht
    split_ifs at ht with hbegin
    obtain rfl := Option.some.inj ht
    have hidle := IvaPc.eq_idle hbegin.2
    exact hs.goOn he.1 (fun p hp => (Option.some.inj hp).symm) (fun _ j _ => he.2 j)
      (Or.inl (by rw [hidle]; rfl)) nofun
  | get i =>
    dsimp only at ht
    split_ifs at ht with hbegin
    obtain rfl := Option.some.inj ht
    have hidle := IvaPc.eq_idle hbegin
    exact hs.goOn he (fun p hp => (Option.some.inj hp).symm) nofun
      (Or.inl (by rw [hidle]; rfl)) nofun
  | thread i => exact hs.threadStep he ht

end ResultStack

/-- **The newest results are kept**, in every state of every orderly run. -/
theorem kept_of_orderly [DecidableEq ι] {t : ResultStack ι α} {es : List (IvaEvent ι α)}
    (hrun : Run (fun s e u => e.Orderly s ∧ s.step e = some u) ResultStack.start es t) : Kept t :=
  (hrun.invariant (I := ResultStack.Inv) (fun _ _ _ hs h => hs.step h.1 h.2)
    ResultStack.inv_start).kept

/-- A result is pushed by one thread, and popped by the other. -/
def oneResult : List (IvaEvent Bool ℕ) :=
  [.init, .create true, .callback false 7] ++ List.replicate 3 (.thread false) ++ [.get true] ++
    List.replicate 3 (.thread true) ++ [.deinit, .destroy]

theorem kept_of_orderly_oneResult :
    ∃ t, Run (fun s (e : IvaEvent Bool ℕ) u => e.Orderly s ∧ s.step e = some u) ResultStack.start
        oneResult t ∧
      t.gets = [(0, some 7)] ∧ Kept t := by
  obtain ⟨t, ht, hgets⟩ : ∃ t, oneResult.foldlM
      (fun s e => if e.Orderly s then s.step e else none) ResultStack.start = some t ∧
      t.gets = [(0, some 7)] := ⟨_, rfl, rfl⟩
  have hrun := Run.of_foldlM_guard ht
  exact ⟨t, hrun, hgets, kept_of_orderly hrun⟩

/-- The detection is started, and ten results come, the newest of them 9. -/
def tenResults : List (IvaEvent Bool ℕ) :=
  [.init, .create true] ++
    (List.range 9).flatMap (fun v => .callback false v :: List.replicate 3 (.thread false)) ++
    .callback false 9 :: List.replicate 5 (.thread false)

/-- **A callback that finds the stack full** drops the result it has just pushed. -/
theorem newest_dropped :
    ∃ t, Run (fun s (e : IvaEvent Bool ℕ) u => s.step e = some u) ResultStack.start tenResults t ∧
      t.drops = [(9, 9)] ∧ (t.stack.top.bind t.heap.load).map Node.val = some 8 ∧ ¬ Kept t := by
  obtain ⟨t, ht, hdrops, htop⟩ : ∃ t,
      tenResults.foldlM ResultStack.step ResultStack.start = some t ∧
      t.drops = [(9, 9)] ∧ (t.stack.top.bind t.heap.load).map Node.val = some 8 :=
    ⟨_, rfl, rfl, rfl⟩
  refine ⟨t, Run.of_foldlM ht, hdrops, htop, fun h => ?_⟩
  have hlt := h.newest (9, 9) (by rw [hdrops]; exact List.mem_singleton.mpr rfl)
  exact absurd hlt (by decide)

end RkIpc.Rockiva
