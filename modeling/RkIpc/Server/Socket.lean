import RkIpc.Imperative.Program
import RkIpc.Wire.Int32

/-!
# The socket of a connection

`sock_read` and `sock_write` repeat `read` and `write` until all bytes are through. The outcomes of
`read` are a list that ends where the server waits for ever; a chunk longer than what is asked for
stays for the next `read`, and one without bytes is the end of the stream. The outcomes of `write`
are a list after which every `write` succeeds.

A pointer is what memory holds from there on, with the number of bytes that are its own and the
number of bytes a read has put there. What a variable or an allocated block holds before is
arbitrary.

## Main definitions

* `Buf`, `Arg`: memory at a pointer, and the arguments of a call
* `Conn`: the connection, with the record of what was read and called
* `sockRead`, `sockWrite`, `newMemory`, `malloc`: the operations
* `readOrClose`, `writeOrClose`: the two with the test every caller makes

## Main results

* `readLoop_cases`, `sockWrite_cases`: what a read that returns has done, and what a write leaves
-/

namespace RkIpc.Server

open Imperative Wire

/-- `SOCKERR_IO`. -/
def sockerrIo : ℤ := -1

/-- `SOCKERR_CLOSED`. -/
def sockerrClosed : ℤ := -2

/-- `SOCKERR_OK`. -/
def sockerrOk : ℤ := 0

/-- **Memory at a pointer**: `size` bytes belong to it, and the first `got` of them have been
read from the socket. -/
structure Buf where
  size : ℕ
  mem : ℕ → UInt8
  got : ℕ

/-- The bytes read overwrite the beginning. -/
def Buf.fill (b : Buf) (bytes : List UInt8) : Buf where
  size := b.size
  mem i := (bytes[i]?).getD (b.mem i)
  got := bytes.length

/-- The value of an `int` variable. -/
def Buf.toInt (b : Buf) : ℤ := decode32 b.mem

/-- An argument of a call: an `int`, or a pointer, which may be null, with the length word that
announced it. -/
inductive Arg where
  | int (v : Buf)
  | str (len : Buf) (value : Option Buf)

/-- What the record of a connection keeps: a `sock_read` that failed, a length word, the comparison
of a name with the map, and a call with its arguments. -/
inductive Event where
  | readFailed (r : ℤ)
  | length (len : Buf)
  | compare (len name : Buf)
  | call (op : String) (args : List Arg)

/-- An outcome of `read`. -/
inductive ReadEvent where
  | data (bytes : List UInt8)
  | eintr
  | error
deriving DecidableEq, Repr

/-- An outcome of `write`: at most `n` bytes are taken, it fails, or it never returns. -/
inductive WriteEvent where
  | wrote (n : ℕ)
  | eintr
  | epipe
  | error
  | stall
deriving DecidableEq, Repr

/-- A connection: the outcomes of `read` and `write` to come, how many pieces of memory were used
and operations called, the bytes sent, and the record. -/
structure Conn where
  reads : List ReadEvent
  writes : List WriteEvent
  memory : ℕ
  calls : ℕ
  out : List UInt8
  log : List Event

/-- A connection just accepted. -/
def Conn.accepted (reads : List ReadEvent) (writes : List WriteEvent) : Conn where
  reads := reads
  writes := writes
  memory := 0
  calls := 0
  out := []
  log := []

/-- What an operation comes back with. -/
structure OpResult where
  ret : ℤ
  ints : List ℤ
  strs : List (List UInt8)
deriving DecidableEq, Repr

/-- What the server does not decide: what the `k`-th piece of memory holds before it is written, and
what the `k`-th call of an operation comes back with. -/
structure Env where
  junk : ℕ → ℕ → UInt8
  op : ℕ → String → OpResult

variable {ρ : Type}

/-! ## `sock_read` -/

/-- `while (status != count)`: the result, the bytes read, and the outcomes left. -/
def readLoop (count : ℕ) (got : List UInt8) :
    List ReadEvent → Option ℤ × List UInt8 × List ReadEvent
  | [] => (if got.length = count then some count else none, got, [])
  | e :: evs =>
    if got.length = count then (some count, got, e :: evs)
    else match e with
      | .eintr => readLoop count got evs
      | .error => (some sockerrIo, got, evs)
      | .data [] => (some sockerrClosed, got, evs)
      | .data (b :: bs) =>
        -- `read` returns at most what is asked for
        let n := count - got.length
        if (b :: bs).length ≤ n then readLoop count (got ++ b :: bs) evs
        else (some count, got ++ (b :: bs).take n, .data ((b :: bs).drop n) :: evs)

/-- `sock_read`: its result, and the memory read into. -/
def sockRead (buf : Buf) (count : ℤ) : Program Conn ρ (ℤ × Buf) := fun c =>
  if count ≤ 0 then (.value (sockerrOk, buf), c)
  else match readLoop count.toNat [] c.reads with
    | (none, _, reads) => (.blocked, { c with reads := reads })
    | (some r, got, reads) =>
      (.value (r, buf.fill got),
        { c with
          reads := reads
          log := if r < 0 then c.log ++ [Event.readFailed r] else c.log })

/-- `if (sock_read(fd, buf, count) == SOCKERR_CLOSED) return -1;` -/
def readOrClose (buf : Buf) (count : ℤ) : Program Conn ℤ Buf := do
  let (r, buf) ← sockRead buf count
  if r = sockerrClosed then Program.exit (-1) else pure buf

/-- A `sock_read` that returns has read all bytes, or failed in one of two ways. -/
theorem readLoop_cases {count : ℕ} {evs : List ReadEvent} :
    ∀ {got : List UInt8} {r : ℤ} {bytes : List UInt8} {rest : List ReadEvent},
      got.length ≤ count → readLoop count got evs = (some r, bytes, rest) →
      (r = count ∧ bytes.length = count) ∨ r = sockerrIo ∨ r = sockerrClosed := by
  induction evs with
  | nil =>
    intro got r bytes rest _ h
    -- nothing more comes: the read returns only if it is done
    simp only [readLoop, Prod.mk.injEq, Option.ite_none_right_eq_some, Option.some.injEq] at h
    obtain ⟨⟨hlen, rfl⟩, rfl, -⟩ := h
    exact Or.inl ⟨rfl, hlen⟩
  | cons e evs ih =>
    intro got r bytes rest hle h
    unfold readLoop at h
    split at h
    · rename_i hlen
      simp only [Prod.mk.injEq, Option.some.injEq] at h
      obtain ⟨rfl, rfl, -⟩ := h
      exact Or.inl ⟨rfl, hlen⟩
    · split at h
      · exact ih hle h
      · simp only [Prod.mk.injEq, Option.some.injEq] at h
        exact Or.inr (Or.inl h.1.symm)
      · simp only [Prod.mk.injEq, Option.some.injEq] at h
        exact Or.inr (Or.inr h.1.symm)
      · -- a chunk that fits is taken whole, and one that does not completes the read
        rename_i b bs
        simp only at h
        split at h
        · rename_i hfit
          refine ih ?_ h
          rw [List.length_append]
          omega
        · rename_i hfit
          simp only [Prod.mk.injEq, Option.some.injEq] at h
          obtain ⟨rfl, rfl, -⟩ := h
          refine Or.inl ⟨rfl, ?_⟩
          rw [List.length_append, List.length_take]
          omega

/-! ## `sock_write` -/

/-- `while (status != count)`: the result, the bytes written, and the outcomes left. -/
def writeLoop (bytes : List UInt8) : List WriteEvent → Option ℤ × List UInt8 × List WriteEvent
  | [] => (some sockerrOk, bytes, [])
  | e :: evs =>
    if bytes = [] then (some sockerrOk, [], e :: evs)
    else match e with
      | .eintr => writeLoop bytes evs
      | .epipe => (some sockerrClosed, [], evs)
      | .error => (some sockerrIo, [], evs)
      | .stall => (none, [], evs)
      | .wrote n =>
        let (r, written, evs) := writeLoop (bytes.drop n) evs
        (r, bytes.take n ++ written, evs)

/-- `sock_write`: its result, where `SOCKERR_OK` stands for the count as well. -/
def sockWrite (bytes : List UInt8) : Program Conn ρ ℤ := fun c =>
  match writeLoop bytes c.writes with
  | (none, written, writes) => (.blocked, { c with writes := writes, out := c.out ++ written })
  | (some r, written, writes) =>
    (.value r, { c with writes := writes, out := c.out ++ written })

/-- A write changes neither what is to be read nor the record. -/
theorem sockWrite_cases (bytes : List UInt8) (c : Conn) :
    ∃ writes out, (sockWrite bytes : Program Conn ρ ℤ) c =
        (Outcome.blocked, { c with writes := writes, out := out }) ∨
      ∃ r, (sockWrite bytes : Program Conn ρ ℤ) c =
        (Outcome.value r, { c with writes := writes, out := out }) := by
  unfold sockWrite
  split
  · exact ⟨_, _, Or.inl rfl⟩
  · exact ⟨_, _, Or.inr ⟨_, rfl⟩⟩

/-- `if (sock_write(fd, bytes, count) == SOCKERR_CLOSED) return -1;` -/
def writeOrClose (bytes : List UInt8) : Program Conn ℤ Unit := do
  let r ← sockWrite bytes
  if r = sockerrClosed then Program.exit (-1) else pure ()

/-! ## Memory and the record -/

/-- Memory of `size` bytes: a variable, or a block `malloc` has found. -/
def newMemory (env : Env) (size : ℕ) : Program Conn ρ Buf := fun c =>
  (.value { size := size, mem := env.junk c.memory, got := 0 }, { c with memory := c.memory + 1 })

/-- `malloc`: a negative length is a size no block has. -/
def malloc (env : Env) (len : ℤ) : Program Conn ρ (Option Buf) :=
  if len < 0 then pure none
  else do
    let b ← newMemory env len.toNat
    pure (some b)

/-- An event is recorded. -/
def record (e : Event) : Program Conn ρ Unit := fun c => (.value (), { c with log := c.log ++ [e] })

end RkIpc.Server
