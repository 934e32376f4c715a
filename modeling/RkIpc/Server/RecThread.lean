import RkIpc.Server.Map

/-!
# The thread of a connection

`rec_thread` greets the client and then serves one request after the other: it reads the name of a
function, compares it with every entry of the table, and runs the handlers that match. A result
that is not zero closes the connection. The variable `len` keeps its value from one request to the
next, which matters when a read fails without being noticed.

## Main definitions

* `recBody`: from `again` to `out`
* `RecThread`, `recStart`, `recRound`, `recRounds`: the thread, its greeting, and its rounds
* `nameBytes`: how a client sends the name of a function

## Main results

* `dispatch_map`, `dispatch_triple`: the loop over the table runs at most one handler
* `recRounds_invariant`: what one round preserves holds of every state reached
-/

namespace RkIpc.Server

open Imperative Wire

/-- `for (i = 0; i < maplen; i++)`: the handlers whose name is at `name`, one after the other. -/
def dispatch (env : Env) (name : Buf) : List FunMap → ℤ → Program Conn ℤ ℤ
  | [], ret => pure ret
  | e :: es, ret =>
    if strcmpEq (cString e.funName) name.mem then do
      let ret ← Program.call (serve env e.handler)
      dispatch env name es ret
    else dispatch env name es ret

/-- **A request**, from `again` to `out`: `ret`, and the variable `len`. -/
def recBody (env : Env) (len : Buf) : Program Conn ℤ (ℤ × Buf) := do
  let len ← readOrClose len 4
  if len.toInt ≤ 0 then Program.exit (-1)
  else do
    -- `len` is positive here, so the block is there
    let name ← newMemory env len.toInt.toNat
    let name ← readOrClose name len.toInt
    record (.compare len name)
    -- `ret` is zero whenever a request is read
    let ret ← dispatch env name map 0
    pure (ret, len)

/-- Whether the thread goes on, has closed the connection, or waits for ever. -/
inductive Status where
  | running
  | closed
  | blocked
deriving DecidableEq, Repr

/-- The connection, the variable `len`, and the status of the thread. -/
structure RecThread where
  conn : Conn
  len : Buf
  status : Status

/-- The greeting. -/
def recStart (len : Buf) (conn : Conn) : RecThread :=
  match (sockWrite (encode32 0) : Program Conn ℤ ℤ) conn with
  | (.value r, conn) =>
    { conn := conn, len := len,
      status := if r = sockerrClosed then Status.closed else Status.running }
  | (_, conn) => { conn := conn, len := len, status := Status.blocked }

/-- The end of a request: the completion word, or `close`. -/
def recOut (ret : ℤ) (len : Buf) (conn : Conn) : RecThread :=
  if ret = 0 then
    match (sockWrite (encode32 ret) : Program Conn ℤ ℤ) conn with
    -- the result of this write is not looked at
    | (.value _, conn) => { conn := conn, len := len, status := Status.running }
    | (_, conn) => { conn := conn, len := len, status := Status.blocked }
  else { conn := conn, len := len, status := Status.closed }

/-- **One round** of the thread, if it is still running. -/
def recRound (env : Env) (t : RecThread) : RecThread :=
  match t.status with
  | .running =>
    match recBody env t.len t.conn with
    | (.value (ret, len), conn) => recOut ret len conn
    | (.returned ret, conn) => recOut ret t.len conn
    | (.blocked, conn) => { t with conn := conn, status := Status.blocked }
  | _ => t

/-- The thread after at most `n` rounds. -/
def recRounds (env : Env) : ℕ → RecThread → RecThread
  | 0, t => t
  | n + 1, t => recRounds env n (recRound env t)

/-- The greeting sends a word and records nothing. -/
theorem recStart_cases (len : Buf) (c : Conn) :
    ∃ writes out status,
      recStart len c = ⟨{ c with writes := writes, out := out }, len, status⟩ := by
  unfold recStart
  rcases sockWrite_cases (ρ := ℤ) (encode32 0) c with ⟨writes, out, h | ⟨r, h⟩⟩ <;> rw [h]
  · exact ⟨writes, out, Status.blocked, rfl⟩
  · exact ⟨writes, out, _, rfl⟩

/-- The end of a request closes the connection or sends a word; it records nothing. -/
theorem recOut_cases (ret : ℤ) (len : Buf) (c : Conn) :
    (ret ≠ 0 ∧ recOut ret len c = ⟨c, len, Status.closed⟩) ∨
    (ret = 0 ∧ ∃ writes out status,
      recOut ret len c = ⟨{ c with writes := writes, out := out }, len, status⟩) := by
  unfold recOut
  by_cases hret : ret = 0
  · refine Or.inr ⟨hret, ?_⟩
    rw [if_pos hret]
    rcases sockWrite_cases (ρ := ℤ) (encode32 ret) c with ⟨writes, out, h | ⟨r, h⟩⟩ <;> rw [h]
    · exact ⟨writes, out, Status.blocked, rfl⟩
    · exact ⟨writes, out, Status.running, rfl⟩
  · exact Or.inl ⟨hret, if_neg hret⟩

/-- What a request meets, with its end, a round meets. -/
theorem recRound_of_body {env : Env} {t : RecThread} {P : Conn → Prop} {E : ℤ → Conn → Prop}
    {B : Conn → Prop} {I : RecThread → Prop}
    (hbody : Program.Triple P (recBody env t.len) (fun p c => E p.1 c) E B)
    (hout : ∀ ret len c, E ret c → I (recOut ret len c))
    (hblocked : ∀ c, B c → I { t with conn := c, status := Status.blocked })
    (hrun : t.status = Status.running) (ht : P t.conn) : I (recRound env t) := by
  have h := hbody t.conn ht
  rw [recRound, hrun]
  dsimp only
  generalize recBody env t.len t.conn = o at h ⊢
  rcases o with ⟨⟨ret, len⟩ | ret | _, c⟩
  · exact hout ret len c h
  · exact hout ret t.len c h
  · exact hblocked c h

/-- **What one round preserves holds of every state reached.** -/
theorem recRounds_invariant {env : Env} {I : RecThread → Prop}
    (hI : ∀ t, I t → I (recRound env t)) :
    ∀ (n : ℕ) {t : RecThread}, I t → I (recRounds env n t) := by
  intro n
  induction n with
  | zero => exact fun ht => ht
  | succ n ih => exact fun ht => ih (hI _ ht)

theorem dispatch_of_none {env : Env} {name : Buf} {es : List FunMap} (ret : ℤ)
    (hes : ∀ e ∈ es, ¬ strcmpEq (cString e.funName) name.mem) :
    dispatch env name es ret = pure ret := by
  induction es with
  | nil => rfl
  | cons e es ih =>
    rw [dispatch, if_neg (hes e (by simp))]
    exact ih fun f hf => hes f (List.mem_cons_of_mem _ hf)

theorem dispatch_of_mem {env : Env} {name : Buf} {es : List FunMap} {e : FunMap} (ret : ℤ)
    (hnodup : es.Nodup) (he : e ∈ es) (hname : strcmpEq (cString e.funName) name.mem)
    (hunique : ∀ f ∈ es, strcmpEq (cString f.funName) name.mem → f = e) (c : Conn) :
    dispatch env name es ret c = Program.call (serve env e.handler) c := by
  induction es with
  | nil => simp at he
  | cons f es ih =>
    obtain ⟨hf, hnodup⟩ := List.nodup_cons.mp hnodup
    rcases List.mem_cons.mp he with rfl | he
    · -- the entries after this one do not match
      have hrest : ∀ g ∈ es, ¬ strcmpEq (cString g.funName) name.mem := fun g hg hgn =>
        hf (hunique g (List.mem_cons_of_mem _ hg) hgn ▸ hg)
      rw [dispatch, if_pos hname]
      simp only [dispatch_of_none _ hrest, Bind.bind, pure]
      generalize Program.call (serve env e.handler) c = o
      rcases o with ⟨_ | _ | _, t⟩ <;> rfl
    · have hne : ¬ strcmpEq (cString f.funName) name.mem := fun hfn =>
        hf (hunique f (by simp) hfn ▸ he)
      rw [dispatch, if_neg hne]
      exact ih hnodup he fun g hg => hunique g (List.mem_cons_of_mem _ hg)

/-- **The loop over the table** runs the handler of the entry that matches. -/
theorem dispatch_map {env : Env} {name : Buf} {e : FunMap} (ret : ℤ) (he : e ∈ map)
    (hname : strcmpEq (cString e.funName) name.mem) (c : Conn) :
    dispatch env name map ret c = Program.call (serve env e.handler) c :=
  dispatch_of_mem ret map_nodup he hname (fun _ hf hfn => map_entry_unique hf he hfn hname) c

/-- What every handler of the table meets, the loop meets. -/
theorem dispatch_triple {env : Env} {name : Buf} {P : Conn → Prop} {V : ℤ → Conn → Prop}
    {R : ℤ → Conn → Prop} {B : Conn → Prop} (hnone : ∀ c, P c → V 0 c)
    (hserve : ∀ e ∈ map, Program.Triple P (serve env e.handler) V V B) :
    Program.Triple P (dispatch env name map 0) V R B := by
  by_cases hex : ∃ e ∈ map, strcmpEq (cString e.funName) name.mem
  · obtain ⟨e, he, hname⟩ := hex
    intro c hc
    rw [dispatch_map 0 he hname]
    exact (hserve e he).call c hc
  · rw [dispatch_of_none 0 fun e he hn => hex ⟨e, he, hn⟩]
    exact Program.Triple.pure hnone

/-! ## A quiet environment -/

/-- Memory that holds zeros, and operations that succeed. -/
def Env.quiet : Env where
  junk _ _ := 0
  op _ _ := ⟨0, [0, 0, 0], [[], [], [], []]⟩

/-- The bytes of a request's name: its length and the string with its terminator. -/
def nameBytes (name : String) : List UInt8 :=
  encode32 ((cString name).length + 1) ++ cString name ++ [0]

end RkIpc.Server
