import Mathlib.Data.Nat.Find
import Mathlib.Data.Prod.Lex
import RkIpc.Server.Socket
import RkIpc.Transition.Loop

/-!
# Exact transfers

`sock_read` and `sock_write` repeat `read` and `write` until all bytes are through. What a call
returns is given by a schedule: a number of bytes, of which at most those asked for are moved, or an
error. A `read` that moves none is at the end of the stream, a `write` moves at least one, and a
call that is interrupted is not interrupted for ever.

Memory has an address for every byte. The calls are recorded with the address and the length they
are made with, so that what they may touch is known.

## Main definitions

* `IoResult`, `Schedule`, `WriteSchedule`: what the calls return
* `sockReadLoop`, `sockWriteLoop`: the functions
* `ReadsExactly`, `WritesExactly`: what they have done when they return

## Main results

* `transfers_exact`: they return, having done this
* `sockRead_transfer`, `sockWrite_transfer`: they do what the server's functions do
-/

namespace RkIpc.Server

open Imperative Transition

/-! ## Calls -/

/-- `errno`. -/
inductive Errno where
  | eintr
  | epipe
  | other
deriving DecidableEq, Repr

/-- **What `read` or `write` returns**: the bytes moved, if there is room for them, or `-1`. -/
inductive IoResult where
  | moved (n : ℕ)
  | failed (errno : Errno)
deriving DecidableEq, Repr

/-- **The results of the calls**, in which no call is interrupted for ever. -/
structure Schedule where
  result : ℕ → IoResult
  retried : ∀ k, ∃ j, result (k + j) ≠ .failed .eintr

/-- The results of `write`, which moves something. -/
structure WriteSchedule extends Schedule where
  positive : ∀ k, result k ≠ .moved 0

/-- An address, and a number of bytes. -/
structure Access where
  address : ℕ
  length : ℕ
deriving DecidableEq, Repr

/-- The bytes of the `size` that are at `base`. -/
def Access.Within (x : Access) (base size : ℕ) : Prop :=
  base ≤ x.address ∧ x.address + x.length ≤ base + size

instance (x : Access) (base size : ℕ) : Decidable (x.Within base size) :=
  inferInstanceAs (Decidable (_ ∧ _))

/-- The kernel stores the `n` bytes of `bytes` at `address`. -/
def copyOut (mem : ℕ → UInt8) (address n : ℕ) (bytes : ℕ → UInt8) : ℕ → UInt8 := fun a =>
  if address ≤ a ∧ a < address + n then bytes (a - address) else mem a

/-- The `n` bytes at `address`. -/
def bytesAt (mem : ℕ → UInt8) (address n : ℕ) : List UInt8 :=
  (List.range n).map fun i => mem (address + i)

/-! ## `sock_read` -/

/-- The variables of `sock_read`: `status`, memory, the bytes of the stream that are read, and the
calls made. -/
structure Reading where
  status : ℕ
  mem : ℕ → UInt8
  pos : ℕ
  calls : List Access

/-- A round of `while (status != count)`. -/
def sockReadRound (result : ℕ → IoResult) (stream : ℕ → UInt8) (base : ℕ) (count : ℤ)
    (s : Reading) : Round Reading (ℤ × Reading) :=
  if s.status = count then .done (s.status, s)
  else
    let asked := (count - s.status).toNat
    let address := base + s.status
    let s' := { s with calls := s.calls ++ [⟨address, asked⟩] }
    match result s.calls.length with
    | .failed .eintr => .next s'
    | .failed _ => .done (sockerrIo, s')
    | .moved n =>
      let n := min n asked
      if n = 0 then .done (sockerrClosed, s')
      else .next { s' with
        status := s.status + n
        mem := copyOut s.mem address n fun i => stream (s.pos + i)
        pos := s.pos + n }

/-- **`sock_read`**, into the memory at `base`. -/
def sockReadLoop (result : ℕ → IoResult) (stream : ℕ → UInt8) (base : ℕ) (count : ℤ)
    (fuel : ℕ) (mem : ℕ → UInt8) (pos : ℕ) : Option (ℤ × Reading) :=
  if count ≤ 0 then some (sockerrOk, ⟨0, mem, pos, []⟩)
  else loop (sockReadRound result stream base count) fuel ⟨0, mem, pos, []⟩

/-! ## `sock_write` -/

/-- The variables of `sock_write`: `status`, the bytes sent, and the calls made. -/
structure Writing where
  status : ℕ
  sent : List UInt8
  calls : List Access
deriving DecidableEq, Repr

/-- A round of `while (status != count)`. -/
def sockWriteRound (result : ℕ → IoResult) (mem : ℕ → UInt8) (base : ℕ) (count : ℤ)
    (s : Writing) : Round Writing (ℤ × Writing) :=
  if s.status = count then .done (s.status, s)
  else
    let asked := (count - s.status).toNat
    let address := base + s.status
    let s' := { s with calls := s.calls ++ [⟨address, asked⟩] }
    match result s.calls.length with
    | .failed .epipe => .done (sockerrClosed, s')
    | .failed .eintr => .next s'
    | .failed .other => .done (sockerrIo, s')
    | .moved n =>
      let n := min n asked
      .next { s' with
        status := s.status + n
        sent := s.sent ++ bytesAt mem address n }

/-- **`sock_write`**, from the memory at `base`. -/
def sockWriteLoop (result : ℕ → IoResult) (mem : ℕ → UInt8) (base : ℕ) (count : ℤ)
    (fuel : ℕ) (sent : List UInt8) : Option (ℤ × Writing) :=
  if count < 0 then some (sockerrOk, ⟨0, sent, []⟩)
  else loop (sockWriteRound result mem base count) fuel ⟨0, sent, []⟩

/-! ## What is expected -/

/-- **A transfer of `count` bytes is reported**: as the count, or as one of two errors. -/
def Reported (r count : ℤ) : Prop := r = count ∨ r = sockerrIo ∨ r = sockerrClosed

/-- **What `sock_read` has done** when it returns `r` in state `s`, from memory `mem` and position
`pos` of the stream. An error is reported where a call met it, and nowhere else. -/
structure ReadsExactly (result : ℕ → IoResult) (stream : ℕ → UInt8) (base : ℕ) (count : ℤ)
    (mem : ℕ → UInt8) (pos : ℕ) (r : ℤ) (s : Reading) : Prop where
  stored : r = count → (s.pos : ℤ) = pos + count ∧
    ∀ i : ℕ, i < count → s.mem (base + i) = stream (pos + i)
  complete : (s.pos : ℤ) = pos + count → r = count
  closed : r = sockerrClosed ↔ ∃ k < s.calls.length, result k = .moved 0
  failed : r = sockerrIo ↔ ∃ k < s.calls.length, ∃ errno ≠ Errno.eintr, result k = .failed errno
  reported : Reported r count
  kept : ∀ a : ℕ, a < base ∨ base + count ≤ a → s.mem a = mem a
  within : ∀ x ∈ s.calls, x.Within base count.toNat

/-- **What `sock_write` has done** when it returns `r` in state `s`, after the bytes `sent`. -/
structure WritesExactly (result : ℕ → IoResult) (mem : ℕ → UInt8) (base : ℕ) (count : ℤ)
    (sent : List UInt8) (r : ℤ) (s : Writing) : Prop where
  stored : r = count → s.sent = sent ++ bytesAt mem base count.toNat
  complete : s.sent = sent ++ bytesAt mem base count.toNat → r = count
  closed : r = sockerrClosed ↔ ∃ k < s.calls.length, result k = .failed .epipe
  failed : r = sockerrIo ↔ ∃ k < s.calls.length, result k = .failed .other
  reported : Reported r count
  within : ∀ x ∈ s.calls, x.Within base count.toNat

/-! ## Descent -/

namespace Schedule

variable (schedule : Schedule)

/-- How many calls are interrupted from the `k`-th on. -/
def wait (k : ℕ) : ℕ := Nat.find (schedule.retried k)

theorem wait_succ_lt {k : ℕ} (h : schedule.result k = .failed .eintr) :
    schedule.wait (k + 1) < schedule.wait k := by
  have hspec := Nat.find_spec (schedule.retried k)
  have hpos : 0 < schedule.wait k := by
    rw [wait, Nat.find_pos]
    simp [h]
  have hle : schedule.wait (k + 1) ≤ schedule.wait k - 1 := by
    refine Nat.find_min' _ ?_
    rwa [Nat.add_assoc, Nat.add_sub_cancel' (show 1 ≤ schedule.wait k by omega)]
  omega

/-- What is left to do after `k` calls: the bytes, and the interrupted calls before some move. -/
def left (count : ℤ) (status k : ℕ) : ℕ ×ₗ ℕ := toLex ((count - status).toNat, schedule.wait k)

theorem left_lt_of_eintr {count : ℤ} {status k : ℕ} (h : schedule.result k = .failed .eintr) :
    schedule.left count status (k + 1) < schedule.left count status k :=
  Prod.Lex.toLex_lt_toLex.2 (.inr ⟨rfl, schedule.wait_succ_lt h⟩)

theorem left_lt_of_moved {count : ℤ} {status k n : ℕ} (hn : 0 < n)
    (hle : n ≤ (count - status).toNat) :
    schedule.left count (status + n) (k + 1) < schedule.left count status k := by
  refine Prod.Lex.toLex_lt_toLex.2 (.inl ?_)
  simp only
  push_cast
  omega

end Schedule

/-- A property that no call had before may be one of the last call. -/
theorem exists_lt_append_iff {p : ℕ → Prop} {calls : List Access} (x : Access)
    (h : ∀ k < calls.length, ¬ p k) :
    (∃ k < (calls ++ [x]).length, p k) ↔ p calls.length := by
  rw [List.length_append, List.length_singleton]
  constructor
  · rintro ⟨k, hk, hp⟩
    obtain hk | rfl := Nat.lt_succ_iff_lt_or_eq.1 hk
    · exact absurd hp (h k hk)
    · exact hp
  · intro hp
    exact ⟨_, Nat.lt_succ_self _, hp⟩

/-- A call after which the function goes on. -/
theorem forall_lt_append {p : ℕ → Prop} {calls : List Access} (x : Access)
    (h : ∀ k < calls.length, p k) (hp : p calls.length) :
    ∀ k < (calls ++ [x]).length, p k := by
  intro k hk
  rw [List.length_append, List.length_singleton] at hk
  obtain hk | rfl := Nat.lt_succ_iff_lt_or_eq.1 hk
  · exact h k hk
  · exact hp

/-! ## `sock_read` is exact -/

/-- A `read` after which `sock_read` goes on: it moved something, or was interrupted. -/
def IoResult.ReadsOn (x : IoResult) : Prop := x = .failed .eintr ∨ ∃ n ≠ 0, x = .moved n

theorem IoResult.ReadsOn.not_closed {x : IoResult} (h : x.ReadsOn) : x ≠ .moved 0 := by
  rcases h with rfl | ⟨n, hn, rfl⟩
  · exact nofun
  · rwa [Ne, IoResult.moved.injEq]

theorem IoResult.ReadsOn.not_failed {x : IoResult} (h : x.ReadsOn) :
    ¬ ∃ errno ≠ Errno.eintr, x = .failed errno := by
  rintro ⟨errno, herrno, rfl⟩
  rcases h with h | ⟨n, -, h⟩
  · exact herrno (IoResult.failed.inj h)
  · cases h

/-- **The invariant** of `sock_read`. -/
structure Reading.Inv (result : ℕ → IoResult) (stream : ℕ → UInt8) (base : ℕ) (count : ℤ)
    (mem : ℕ → UInt8) (pos : ℕ) (s : Reading) : Prop where
  le : (s.status : ℤ) ≤ count
  position : s.pos = pos + s.status
  stored : ∀ i < s.status, s.mem (base + i) = stream (pos + i)
  kept : ∀ a : ℕ, a < base ∨ base + count ≤ a → s.mem a = mem a
  within : ∀ x ∈ s.calls, x.Within base count.toNat
  on : ∀ k < s.calls.length, (result k).ReadsOn

section Read

variable {schedule : Schedule} {stream : ℕ → UInt8} {base : ℕ} {count : ℤ} {mem : ℕ → UInt8}
  {pos : ℕ} {s s' : Reading}

/-- The call of a round is made for what is left of the buffer. -/
theorem within_append {calls : List Access} {status : ℕ} (hle : (status : ℤ) ≤ count)
    (h : ∀ x ∈ calls, x.Within base count.toNat) :
    ∀ x ∈ calls ++ [⟨base + status, (count - status).toNat⟩], x.Within base count.toNat := by
  intro x hx
  rcases List.mem_append.1 hx with hx | hx
  · exact h x hx
  · rw [List.mem_singleton.1 hx]
    exact ⟨Nat.le_add_right _ _, by simp only; omega⟩

/-- Bytes that are moved into the buffer. -/
theorem Reading.Inv.moved {result : ℕ → IoResult} (hs : s.Inv result stream base count mem pos)
    {n : ℕ} (hn : n ≤ (count - s.status).toNat) (calls : List Access)
    (hcalls : ∀ x ∈ calls, x.Within base count.toNat)
    (hon : ∀ k < calls.length, (result k).ReadsOn) :
    Reading.Inv result stream base count mem pos
      ⟨s.status + n, copyOut s.mem (base + s.status) n fun i => stream (s.pos + i), s.pos + n,
        calls⟩ where
  le := by have := hs.le; push_cast; omega
  position := by simp only [hs.position, Nat.add_assoc]
  stored := by
    intro i hi
    simp only [copyOut]
    split
    · rw [hs.position]
      congr 1
      omega
    · simp only at hi
      exact hs.stored i (by omega)
  kept := by
    intro a ha
    have hle := hs.le
    have hout : ¬ (base + s.status ≤ a ∧ a < base + s.status + n) := by omega
    simp only [copyOut, if_neg hout]
    exact hs.kept a ha
  within := hcalls
  on := hon

/-- A round that goes on keeps the invariant, and less is left to do. -/
theorem sockReadRound_next (hs : s.Inv schedule.result stream base count mem pos)
    (h : sockReadRound schedule.result stream base count s = .next s') :
    s'.Inv schedule.result stream base count mem pos ∧
      schedule.left count s'.status s'.calls.length <
        schedule.left count s.status s.calls.length := by
  have hcalls := within_append hs.le hs.within
  unfold sockReadRound at h
  split at h
  · cases h
  · simp only at h
    split at h
    · next hev =>
      cases h
      refine ⟨⟨hs.le, hs.position, hs.stored, hs.kept, hcalls,
        forall_lt_append _ hs.on (.inl hev)⟩, ?_⟩
      rw [List.length_append]
      exact schedule.left_lt_of_eintr hev
    · cases h
    · next n hev =>
      split at h
      · cases h
      · next hn =>
        cases h
        -- something was moved, so the call goes on
        have hon : (schedule.result s.calls.length).ReadsOn :=
          .inr ⟨n, by rintro rfl; exact hn (Nat.zero_min _), hev⟩
        refine ⟨hs.moved (Nat.min_le_right _ _) _ hcalls (forall_lt_append _ hs.on hon), ?_⟩
        rw [List.length_append]
        exact schedule.left_lt_of_moved (Nat.pos_of_ne_zero hn) (Nat.min_le_right _ _)

/-- The round in which all is read. -/
theorem Reading.Inv.done {result : ℕ → IoResult} (hcount : 0 < count)
    (hs : s.Inv result stream base count mem pos) (heq : (s.status : ℤ) = count) :
    ReadsExactly result stream base count mem pos s.status s where
  stored := by
    intro _
    refine ⟨?_, fun i hi => hs.stored i (by omega)⟩
    rw [hs.position, ← heq]
    push_cast
    rfl
  complete _ := heq
  closed := by
    refine iff_of_false ?_ ?_
    · unfold sockerrClosed
      omega
    · rintro ⟨k, hk, h⟩
      exact (hs.on k hk).not_closed h
  failed := by
    refine iff_of_false ?_ ?_
    · unfold sockerrIo
      omega
    · rintro ⟨k, hk, h⟩
      exact (hs.on k hk).not_failed h
  reported := .inl heq
  kept := hs.kept
  within := hs.within

/-- The round in which a call meets an error: what it says is what is returned. -/
theorem Reading.Inv.stopped {result : ℕ → IoResult} (hcount : 0 < count)
    (hs : s.Inv result stream base count mem pos) (hne : (s.status : ℤ) ≠ count) {r : ℤ}
    (hr : (r = sockerrClosed ∧ result s.calls.length = .moved 0) ∨ (r = sockerrIo ∧
      ∃ errno ≠ Errno.eintr, result s.calls.length = .failed errno)) :
    ReadsExactly result stream base count mem pos r
      { s with calls := s.calls ++ [⟨base + s.status, (count - s.status).toNat⟩] } := by
  -- an error is not the count
  have hneg : r ≠ count := by
    unfold sockerrIo sockerrClosed at hr
    omega
  have hclosed := exists_lt_append_iff ⟨base + s.status, (count - s.status).toNat⟩
    fun k hk => (hs.on k hk).not_closed
  have hfailed := exists_lt_append_iff ⟨base + s.status, (count - s.status).toNat⟩
    fun k hk => (hs.on k hk).not_failed
  refine ⟨fun h => absurd h hneg, fun h => absurd ?_ hne, ?_, ?_, .inr ?_, hs.kept,
    within_append hs.le hs.within⟩
  · have hpos := hs.position
    simp only at h
    omega
  · rw [hclosed]
    rcases hr with ⟨rfl, hend⟩ | ⟨rfl, errno, -, hio⟩
    · exact iff_of_true rfl hend
    · exact iff_of_false (by decide) (by rw [hio]; exact nofun)
  · rw [hfailed]
    rcases hr with ⟨rfl, hend⟩ | ⟨rfl, hio⟩
    · refine iff_of_false (by decide) ?_
      rintro ⟨errno, -, h⟩
      rw [hend] at h
      cases h
    · exact iff_of_true rfl hio
  · rcases hr with ⟨rfl, -⟩ | ⟨rfl, -⟩
    · exact .inr rfl
    · exact .inl rfl

/-- A round that ends the function. -/
theorem sockReadRound_done (hcount : 0 < count)
    (hs : s.Inv schedule.result stream base count mem pos) {r : ℤ}
    (h : sockReadRound schedule.result stream base count s = .done (r, s')) :
    ReadsExactly schedule.result stream base count mem pos r s' := by
  unfold sockReadRound at h
  split at h
  · next heq =>
    cases h
    exact hs.done hcount heq
  · next hne =>
    simp only at h
    split at h
    · cases h
    · next errno herrno hev =>
      cases h
      exact hs.stopped hcount hne (.inr ⟨rfl, errno, herrno, hev⟩)
    · next n hev =>
      split at h
      · next hn =>
        cases h
        -- there is room, so that nothing was moved
        have hle := hs.le
        have hzero : n = 0 := by omega
        exact hs.stopped hcount hne (.inl ⟨rfl, hzero ▸ hev⟩)
      · cases h

end Read

/-- **`sock_read` returns**, and what it returns says what is stored. -/
theorem exists_readsExactly (schedule : Schedule) (stream : ℕ → UInt8) (base : ℕ) {count : ℤ}
    (hcount : 0 < count) (mem : ℕ → UInt8) (pos : ℕ) :
    ∃ r s, Yields (fun fuel => sockReadLoop schedule.result stream base count fuel mem pos) (r, s) ∧
      ReadsExactly schedule.result stream base count mem pos r s := by
  have hwf := InvImage.wf (fun s : Reading => schedule.left count s.status s.calls.length)
    (wellFounded_lt (α := ℕ ×ₗ ℕ))
  have hstart : Reading.Inv schedule.result stream base count mem pos ⟨0, mem, pos, []⟩ :=
    ⟨hcount.le, rfl, nofun, fun _ _ => rfl, nofun, nofun⟩
  obtain ⟨⟨r, s⟩, hr, hexact⟩ := exists_loop_yields (Q := fun x =>
    ReadsExactly schedule.result stream base count mem pos x.1 x.2) hwf
    (fun s s' hs h => sockReadRound_next hs h)
    (fun s x hs h => sockReadRound_done hcount hs h) hstart
  refine ⟨r, s, ?_, hexact⟩
  simpa only [sockReadLoop, if_neg (not_le.2 hcount)] using hr

/-! ## `sock_write` is exact -/

theorem bytesAt_add (mem : ℕ → UInt8) (address m n : ℕ) :
    bytesAt mem address (m + n) = bytesAt mem address m ++ bytesAt mem (address + m) n := by
  simp only [bytesAt, List.range_add, List.map_append, List.map_map, Nat.add_assoc,
    Function.comp_def]

theorem length_bytesAt (mem : ℕ → UInt8) (address n : ℕ) : (bytesAt mem address n).length = n := by
  simp [bytesAt]

/-- A `write` after which `sock_write` goes on. -/
def IoResult.WritesOn (x : IoResult) : Prop := x = .failed .eintr ∨ ∃ n, x = .moved n

theorem IoResult.WritesOn.not_failed {x : IoResult} (h : x.WritesOn) {errno : Errno}
    (herrno : errno ≠ .eintr) : x ≠ .failed errno := by
  rintro rfl
  rcases h with h | ⟨n, h⟩
  · exact herrno (IoResult.failed.inj h)
  · cases h

/-- **The invariant** of `sock_write`. -/
structure Writing.Inv (result : ℕ → IoResult) (mem : ℕ → UInt8) (base : ℕ) (count : ℤ)
    (sent : List UInt8) (s : Writing) : Prop where
  le : (s.status : ℤ) ≤ count
  stored : s.sent = sent ++ bytesAt mem base s.status
  within : ∀ x ∈ s.calls, x.Within base count.toNat
  on : ∀ k < s.calls.length, (result k).WritesOn

section Write

variable {schedule : WriteSchedule} {mem : ℕ → UInt8} {base : ℕ} {count : ℤ} {sent : List UInt8}
  {s s' : Writing}

/-- A round that goes on keeps the invariant, and less is left to do. -/
theorem sockWriteRound_next (hs : s.Inv schedule.result mem base count sent)
    (h : sockWriteRound schedule.result mem base count s = .next s') :
    s'.Inv schedule.result mem base count sent ∧
      schedule.left count s'.status s'.calls.length <
        schedule.left count s.status s.calls.length := by
  have hle := hs.le
  have hcalls := within_append hs.le hs.within
  unfold sockWriteRound at h
  split at h
  · cases h
  · next hne =>
    simp only at h
    split at h
    · cases h
    · next hev =>
      cases h
      refine ⟨⟨hs.le, hs.stored, hcalls, forall_lt_append _ hs.on (.inl hev)⟩, ?_⟩
      rw [List.length_append]
      exact schedule.left_lt_of_eintr hev
    · cases h
    · next n hev =>
      have hpos : n ≠ 0 := fun h0 => schedule.positive s.calls.length (h0 ▸ hev)
      cases h
      refine ⟨⟨by push_cast; omega, ?_, hcalls, forall_lt_append _ hs.on (.inr ⟨n, hev⟩)⟩, ?_⟩
      · simp only [bytesAt_add, hs.stored, List.append_assoc]
      · rw [List.length_append]
        exact schedule.left_lt_of_moved (by omega) (Nat.min_le_right _ _)

/-- The round in which all is sent. -/
theorem Writing.Inv.done {result : ℕ → IoResult} (hcount : 0 < count)
    (hs : s.Inv result mem base count sent) (heq : (s.status : ℤ) = count) :
    WritesExactly result mem base count sent s.status s where
  stored := by
    intro _
    rw [hs.stored, ← heq, Int.toNat_natCast]
  complete _ := heq
  closed := by
    refine iff_of_false ?_ ?_
    · unfold sockerrClosed
      omega
    · rintro ⟨k, hk, h⟩
      exact (hs.on k hk).not_failed (by decide) h
  failed := by
    refine iff_of_false ?_ ?_
    · unfold sockerrIo
      omega
    · rintro ⟨k, hk, h⟩
      exact (hs.on k hk).not_failed (by decide) h
  reported := .inl heq
  within := hs.within

/-- The round in which a call meets an error: what it says is what is returned. -/
theorem Writing.Inv.stopped {result : ℕ → IoResult} (hcount : 0 < count)
    (hs : s.Inv result mem base count sent) (hne : (s.status : ℤ) ≠ count) {r : ℤ}
    (hr : (r = sockerrClosed ∧ result s.calls.length = .failed .epipe) ∨
      (r = sockerrIo ∧ result s.calls.length = .failed .other)) :
    WritesExactly result mem base count sent r
      { s with calls := s.calls ++ [⟨base + s.status, (count - s.status).toNat⟩] } := by
  -- an error is not the count
  have hneg : r ≠ count := by
    unfold sockerrIo sockerrClosed at hr
    omega
  have hclosed := exists_lt_append_iff (p := fun k => result k = .failed .epipe)
    ⟨base + s.status, (count - s.status).toNat⟩ fun k hk => (hs.on k hk).not_failed nofun
  have hfailed := exists_lt_append_iff (p := fun k => result k = .failed .other)
    ⟨base + s.status, (count - s.status).toNat⟩ fun k hk => (hs.on k hk).not_failed nofun
  refine ⟨fun h => absurd h hneg, fun h => absurd ?_ hne, ?_, ?_, .inr ?_,
    within_append hs.le hs.within⟩
  · -- what is sent has the length of all only if it is all
    have hlength := congrArg List.length (hs.stored.symm.trans h)
    rw [List.length_append, List.length_append, length_bytesAt, length_bytesAt] at hlength
    omega
  · rw [hclosed]
    rcases hr with ⟨rfl, hpipe⟩ | ⟨rfl, hio⟩
    · exact iff_of_true rfl hpipe
    · exact iff_of_false (by decide) (by rw [hio]; exact nofun)
  · rw [hfailed]
    rcases hr with ⟨rfl, hpipe⟩ | ⟨rfl, hio⟩
    · exact iff_of_false (by decide) (by rw [hpipe]; exact nofun)
    · exact iff_of_true rfl hio
  · rcases hr with ⟨rfl, -⟩ | ⟨rfl, -⟩
    · exact .inr rfl
    · exact .inl rfl

/-- A round that ends the function. -/
theorem sockWriteRound_done (hcount : 0 < count) (hs : s.Inv schedule.result mem base count sent)
    {r : ℤ} (h : sockWriteRound schedule.result mem base count s = .done (r, s')) :
    WritesExactly schedule.result mem base count sent r s' := by
  unfold sockWriteRound at h
  split at h
  · next heq =>
    cases h
    exact hs.done hcount heq
  · next hne =>
    simp only at h
    split at h
    · next hev =>
      cases h
      exact hs.stopped hcount hne (.inl ⟨rfl, hev⟩)
    · cases h
    · next hev =>
      cases h
      exact hs.stopped hcount hne (.inr ⟨rfl, hev⟩)
    · cases h

end Write

/-- **`sock_write` returns**, and what it returns says what is sent. -/
theorem exists_writesExactly (schedule : WriteSchedule) (mem : ℕ → UInt8) (base : ℕ) {count : ℤ}
    (hcount : 0 < count) (sent : List UInt8) :
    ∃ r s, Yields (fun fuel => sockWriteLoop schedule.result mem base count fuel sent) (r, s) ∧
      WritesExactly schedule.result mem base count sent r s := by
  have hwf := InvImage.wf (fun s : Writing => schedule.left count s.status s.calls.length)
    (wellFounded_lt (α := ℕ ×ₗ ℕ))
  have hstart : Writing.Inv schedule.result mem base count sent ⟨0, sent, []⟩ :=
    ⟨hcount.le, (List.append_nil _).symm, nofun, nofun⟩
  obtain ⟨⟨r, s⟩, hr, hexact⟩ := exists_loop_yields (Q := fun x =>
    WritesExactly schedule.result mem base count sent x.1 x.2) hwf
    (fun s s' hs h => sockWriteRound_next hs h)
    (fun s x hs h => sockWriteRound_done hcount hs h) hstart
  refine ⟨r, s, ?_, hexact⟩
  simpa only [sockWriteLoop, if_neg (not_lt.2 hcount.le)] using hr

/-- **Transfers are exact**, for a buffer of `count` bytes at `base`. -/
theorem transfers_exact (mem : ℕ → UInt8) (base : ℕ) {count : ℤ} (hcount : 0 < count) :
    (∀ (schedule : Schedule) (stream : ℕ → UInt8) (pos : ℕ), ∃ r s,
      Yields (fun fuel => sockReadLoop schedule.result stream base count fuel mem pos) (r, s) ∧
        ReadsExactly schedule.result stream base count mem pos r s) ∧
    ∀ (schedule : WriteSchedule) (sent : List UInt8), ∃ r s,
      Yields (fun fuel => sockWriteLoop schedule.result mem base count fuel sent) (r, s) ∧
        WritesExactly schedule.result mem base count sent r s :=
  ⟨fun schedule stream pos => exists_readsExactly schedule stream base hcount mem pos,
    fun schedule sent => exists_writesExactly schedule mem base hcount sent⟩

/-- A byte at a time, with an interrupted call after each one. -/
def byteByByte : WriteSchedule where
  result k := if k % 2 = 0 then .moved 1 else .failed .eintr
  retried k := ⟨k % 2, by simp [show (k + k % 2) % 2 = 0 by omega]⟩
  positive k := by split <;> simp

/-- Four bytes, a byte at a time. -/
theorem transfers_exact_byteByByte :
    (∃ r s, Yields (fun fuel => sockReadLoop byteByByte.result (fun i => UInt8.ofNat i) 8 4 fuel
        (fun _ => 0) 0) (r, s) ∧
          ReadsExactly byteByByte.result (fun i => UInt8.ofNat i) 8 4 (fun _ => 0) 0 r s) ∧
      ∃ r s, Yields (fun fuel => sockWriteLoop byteByByte.result (fun _ => 0) 8 4 fuel []) (r, s) ∧
        WritesExactly byteByByte.result (fun _ => 0) 8 4 [] r s :=
  have h := transfers_exact (fun _ => 0) 8 (show (0 : ℤ) < 4 by decide)
  ⟨h.1 byteByByte.toSchedule (fun i => UInt8.ofNat i) 0, h.2 byteByByte []⟩

/-! ## The loops of the server -/

/-- The bytes of an outcome. -/
def ReadEvent.bytes : ReadEvent → List UInt8
  | .data bytes => bytes
  | _ => []

/-- What `read` returns. -/
def ReadEvent.result : ReadEvent → IoResult
  | .data bytes => .moved bytes.length
  | .eintr => .failed .eintr
  | .error => .failed .other

/-- The results of a list of outcomes. -/
def readResults (evs : List ReadEvent) (k : ℕ) : IoResult :=
  (evs[k]?.map ReadEvent.result).getD (.moved 0)

/-- The bytes of a list of outcomes. -/
def readStream (evs : List ReadEvent) (i : ℕ) : UInt8 := (evs.flatMap ReadEvent.bytes)[i]?.getD 0

/-- **What was read** is in memory, and as many calls were made as there were outcomes. -/
structure Reading.Follows (base : ℕ) (evs : List ReadEvent) (got : List UInt8) (s : Reading) :
    Prop where
  status : s.status = got.length
  calls : s.calls.length = evs.length
  position : s.pos = (evs.flatMap ReadEvent.bytes).length
  stored : ∀ i < got.length, got[i]? = some (s.mem (base + i))

theorem readResults_append (pre evs : List ReadEvent) (e : ReadEvent) :
    readResults (pre ++ e :: evs) pre.length = e.result := by
  simp [readResults]

theorem readStream_append (pre evs : List ReadEvent) (e : ReadEvent) {i : ℕ}
    (hi : i < e.bytes.length) :
    e.bytes[i]? =
      some (readStream (pre ++ e :: evs) ((pre.flatMap ReadEvent.bytes).length + i)) := by
  rw [readStream, List.flatMap_append, List.getElem?_append_right (Nat.le_add_right _ _),
    Nat.add_sub_cancel_left, List.flatMap_cons, List.getElem?_append_left hi,
    List.getElem?_eq_getElem hi, Option.getD_some]

/-- A call that moves the first `n` bytes of a chunk. -/
theorem Reading.Follows.moved {base : ℕ} {pre : List ReadEvent} {got bs : List UInt8}
    {s : Reading} (hs : s.Follows base pre got) (evs : List ReadEvent) {n : ℕ}
    (hn : n ≤ bs.length) :
    ∀ i < (got ++ bs.take n).length, (got ++ bs.take n)[i]? =
      some (copyOut s.mem (base + s.status) n
        (fun i => readStream (pre ++ .data bs :: evs) (s.pos + i)) (base + i)) := by
  intro i hi
  rw [List.length_append, List.length_take_of_le hn] at hi
  simp only [copyOut, hs.status]
  by_cases hold : i < got.length
  · rw [List.getElem?_append_left hold, hs.stored i hold, if_neg (by omega)]
  · rw [List.getElem?_append_right (by omega), List.getElem?_take_of_lt (by omega),
      if_pos (by omega), hs.position, show base + i - (base + got.length) = i - got.length by omega]
    exact readStream_append pre evs (.data bs) (by simp only [ReadEvent.bytes]; omega)

/-- A call that is interrupted. -/
theorem Reading.Follows.eintr {base : ℕ} {pre : List ReadEvent} {got : List UInt8} {s : Reading}
    (hs : s.Follows base pre got) (x : Access) :
    Reading.Follows base (pre ++ [.eintr]) got { s with calls := s.calls ++ [x] } where
  status := hs.status
  calls := by simp [hs.calls]
  position := by simp [hs.position, ReadEvent.bytes]
  stored := hs.stored

/-- A call that fails. -/
theorem Reading.Follows.round_failed {base count : ℕ} {pre : List ReadEvent} {got : List UInt8}
    {s : Reading} (hs : s.Follows base pre got) (evs : List ReadEvent) (hne : got.length ≠ count)
    {e : ReadEvent} {errno : Errno} (he : e.result = .failed errno) (stream : ℕ → UInt8) :
    ∃ x, sockReadRound (readResults (pre ++ e :: evs)) stream base count s =
      if errno = .eintr then .next { s with calls := s.calls ++ [x] }
      else .done (sockerrIo, { s with calls := s.calls ++ [x] }) := by
  have hstatus : (s.status : ℤ) ≠ count := by rw [hs.status]; exact_mod_cast hne
  refine ⟨⟨base + s.status, (count - s.status : ℤ).toNat⟩, ?_⟩
  rw [sockReadRound, if_neg hstatus, hs.calls, readResults_append, he]
  cases errno <;> rfl

/-- A call at the end of the stream. -/
theorem Reading.Follows.round_closed {base count : ℕ} {pre : List ReadEvent} {got : List UInt8}
    {s : Reading} (hs : s.Follows base pre got) (evs : List ReadEvent) (hne : got.length ≠ count)
    (stream : ℕ → UInt8) :
    ∃ x, sockReadRound (readResults (pre ++ .data [] :: evs)) stream base count s =
      .done (sockerrClosed, { s with calls := s.calls ++ [x] }) := by
  have hstatus : (s.status : ℤ) ≠ count := by rw [hs.status]; exact_mod_cast hne
  refine ⟨⟨base + s.status, (count - s.status : ℤ).toNat⟩, ?_⟩
  simp only [sockReadRound, if_neg hstatus, hs.calls, readResults_append, ReadEvent.result,
    List.length_nil, Nat.zero_min, if_pos]

/-- All that is asked for is there. -/
theorem yields_sockReadRound_of_status {result : ℕ → IoResult} {stream : ℕ → UInt8}
    {base count : ℕ} {s : Reading} (h : s.status = count) :
    Yields (fun fuel => loop (sockReadRound result stream base count) fuel s) ((count : ℤ), s) := by
  rw [← Int.natCast_inj] at h
  exact loop_done (by rw [sockReadRound, if_pos h, h])

/-- A call that moves some bytes of a chunk. -/
theorem Reading.Follows.round_data {base count : ℕ} {pre : List ReadEvent}
    {got bs : List UInt8} {s : Reading} (hs : s.Follows base pre got) (evs : List ReadEvent)
    (hlt : got.length < count) (hbs : bs ≠ []) {n : ℕ}
    (hn : min bs.length (count - got.length) = n) :
    ∃ calls, calls.length = (pre ++ [ReadEvent.data bs]).length ∧
      sockReadRound (readResults (pre ++ .data bs :: evs)) (readStream (pre ++ .data bs :: evs))
        base count s = .next ⟨s.status + n, copyOut s.mem (base + s.status) n fun i =>
          readStream (pre ++ .data bs :: evs) (s.pos + i), s.pos + n, calls⟩ := by
  have hne : (s.status : ℤ) ≠ count := by rw [hs.status]; exact_mod_cast hlt.ne
  have hasked : ((count : ℤ) - s.status).toNat = count - got.length := by
    rw [hs.status]
    omega
  have hpos : min bs.length (count - got.length) ≠ 0 := by
    have := List.length_pos_iff.2 hbs
    omega
  refine ⟨s.calls ++ [⟨base + s.status, count - got.length⟩], ?_, ?_⟩
  · rw [List.length_append, List.length_append, hs.calls]
    rfl
  · subst hn
    simp only [sockReadRound, if_neg hne, hs.calls, readResults_append, ReadEvent.result, hasked,
      if_neg hpos]

/-- **The server's `sock_read`** is this one, for the results and the bytes of its outcomes. -/
theorem readLoop_transfer {base count : ℕ} {evs : List ReadEvent} :
    ∀ {pre : List ReadEvent} {got bytes : List UInt8} {r : ℤ} {rest : List ReadEvent} {s : Reading},
      s.Follows base pre got → got.length ≤ count → readLoop count got evs = (some r, bytes, rest) →
      ∃ s', Yields (fun fuel => loop (sockReadRound (readResults (pre ++ evs))
          (readStream (pre ++ evs)) base count) fuel s) (r, s') ∧
        ∀ i < bytes.length, bytes[i]? = some (s'.mem (base + i)) := by
  induction evs with
  | nil =>
    intro pre got bytes r rest s hs _ h
    simp only [readLoop, Prod.mk.injEq, Option.ite_none_right_eq_some, Option.some.injEq] at h
    obtain ⟨⟨hlen, rfl⟩, rfl, -⟩ := h
    exact ⟨s, yields_sockReadRound_of_status (hs.status.trans hlen), hs.stored⟩
  | cons e evs ih =>
    intro pre got bytes r rest s hs hle h
    unfold readLoop at h
    by_cases hlen : got.length = count
    · rw [if_pos hlen] at h
      simp only [Prod.mk.injEq, Option.some.injEq] at h
      obtain ⟨rfl, rfl, -⟩ := h
      exact ⟨s, yields_sockReadRound_of_status (hs.status.trans hlen), hs.stored⟩
    · rw [if_neg hlen] at h
      -- the outcomes up to this one
      have hassoc : pre ++ e :: evs = (pre ++ [e]) ++ evs := by rw [List.append_assoc]; rfl
      cases e with
      | eintr =>
        obtain ⟨x, hround⟩ := hs.round_failed evs hlen (e := .eintr) rfl
          (readStream (pre ++ .eintr :: evs))
        obtain ⟨s', hs', hbytes⟩ := ih (hs.eintr x) hle h
        exact ⟨s', loop_next hround (hassoc ▸ hs'), hbytes⟩
      | error =>
        simp only [Prod.mk.injEq, Option.some.injEq] at h
        obtain ⟨rfl, rfl, -⟩ := h
        obtain ⟨x, hround⟩ := hs.round_failed evs hlen (e := .error) rfl
          (readStream (pre ++ .error :: evs))
        exact ⟨_, loop_done hround, hs.stored⟩
      | data bs =>
        cases bs with
        | nil =>
          simp only [Prod.mk.injEq, Option.some.injEq] at h
          obtain ⟨rfl, rfl, -⟩ := h
          obtain ⟨x, hround⟩ := hs.round_closed evs hlen (readStream (pre ++ .data [] :: evs))
          exact ⟨_, loop_done hround, hs.stored⟩
        | cons b bs =>
          have hlt : got.length < count := by omega
          simp only at h
          split at h
          · next hfit =>
            obtain ⟨calls, hcalls, hround⟩ := hs.round_data evs hlt (List.cons_ne_nil b bs)
              (min_eq_left hfit)
            have hstored := hs.moved evs (le_refl (b :: bs).length)
            rw [List.take_length] at hstored
            have hnext : Reading.Follows base (pre ++ [.data (b :: bs)]) (got ++ b :: bs)
                ⟨s.status + (b :: bs).length, copyOut s.mem (base + s.status) (b :: bs).length
                  fun i => readStream (pre ++ .data (b :: bs) :: evs) (s.pos + i),
                  s.pos + (b :: bs).length, calls⟩ :=
              ⟨by simp only [hs.status, List.length_append], hcalls,
                by simp [hs.position, ReadEvent.bytes], hstored⟩
            obtain ⟨s', hs', hbytes⟩ := ih hnext (by rw [List.length_append]; omega) h
            exact ⟨s', loop_next hround (hassoc ▸ hs'), hbytes⟩
          · next hfit =>
            have hroom : count - got.length ≤ (b :: bs).length := by omega
            obtain ⟨calls, -, hround⟩ := hs.round_data evs hlt (List.cons_ne_nil b bs)
              (min_eq_right hroom)
            simp only [Prod.mk.injEq, Option.some.injEq] at h
            obtain ⟨rfl, rfl, -⟩ := h
            refine ⟨_, loop_next hround (yields_sockReadRound_of_status ?_),
              hs.moved evs hroom⟩
            simp only [hs.status]
            omega

/-- What `write` returns. A call that never does is not looked at. -/
def WriteEvent.result : WriteEvent → IoResult
  | .wrote n => .moved n
  | .eintr => .failed .eintr
  | .epipe => .failed .epipe
  | .error => .failed .other
  | .stall => .failed .eintr

/-- The results of a list of outcomes, after which all that is left is written. -/
def writeResults (evs : List WriteEvent) (count k : ℕ) : IoResult :=
  (evs[k]?.map WriteEvent.result).getD (.moved count)

theorem writeResults_append (pre evs : List WriteEvent) (e : WriteEvent) (count : ℕ) :
    writeResults (pre ++ e :: evs) count pre.length = e.result := by
  simp [writeResults]

/-- A call that moves some of what is left. -/
theorem sockWriteRound_moved {result : ℕ → IoResult} (mem : ℕ → UInt8) (base : ℕ) {count n : ℕ}
    {s : Writing} (hlt : s.status < count) (h : result s.calls.length = .moved n) :
    ∃ calls, calls.length = s.calls.length + 1 ∧
      sockWriteRound result mem base count s = .next ⟨s.status + min n (count - s.status),
        s.sent ++ bytesAt mem (base + s.status) (min n (count - s.status)), calls⟩ := by
  have hne : (s.status : ℤ) ≠ count := by exact_mod_cast hlt.ne
  have hasked : ((count : ℤ) - s.status).toNat = count - s.status := by omega
  refine ⟨s.calls ++ [⟨base + s.status, count - s.status⟩], by simp, ?_⟩
  simp only [sockWriteRound, if_neg hne, h, hasked]

/-- A call that fails. -/
theorem sockWriteRound_failed {result : ℕ → IoResult} (mem : ℕ → UInt8) (base : ℕ) {count : ℕ}
    {s : Writing} (hlt : s.status < count) {errno : Errno}
    (h : result s.calls.length = .failed errno) :
    ∃ x, sockWriteRound result mem base count s =
      match errno with
      | .epipe => .done (sockerrClosed, { s with calls := s.calls ++ [x] })
      | .eintr => .next { s with calls := s.calls ++ [x] }
      | .other => .done (sockerrIo, { s with calls := s.calls ++ [x] }) := by
  have hne : (s.status : ℤ) ≠ count := by exact_mod_cast hlt.ne
  refine ⟨⟨base + s.status, (count - s.status : ℤ).toNat⟩, ?_⟩
  rw [sockWriteRound, if_neg hne, h]
  cases errno <;> rfl

/-- All that is to be sent is sent. -/
theorem yields_sockWriteRound_of_status {result : ℕ → IoResult} {mem : ℕ → UInt8}
    {base count : ℕ} {s : Writing} (h : s.status = count) :
    Yields (fun fuel => loop (sockWriteRound result mem base count) fuel s) ((count : ℤ), s) := by
  rw [← Int.natCast_inj] at h
  exact loop_done (by rw [sockWriteRound, if_pos h, h])

/-- The first `n` bytes, and those behind them. -/
theorem bytesAt_take_drop (mem : ℕ → UInt8) (address m n : ℕ) :
    (bytesAt mem address m).take n = bytesAt mem address (min n m) ∧
      (bytesAt mem address m).drop n = bytesAt mem (address + min n m) (m - min n m) := by
  rcases Nat.le_total n m with h | h
  · rw [min_eq_left h]
    have hsplit := bytesAt_add mem address n (m - n)
    rw [Nat.add_sub_cancel' h] at hsplit
    rw [hsplit]
    exact ⟨List.take_left' (length_bytesAt _ _ _), List.drop_left' (length_bytesAt _ _ _)⟩
  · have hlen : (bytesAt mem address m).length ≤ n := by rwa [length_bytesAt]
    rw [min_eq_right h, Nat.sub_self, List.take_of_length_le hlen, List.drop_of_length_le hlen]
    exact ⟨rfl, rfl⟩

/-- **The server's `sock_write`** is this one; where it says `SOCKERR_OK`, it is the count. -/
theorem writeLoop_transfer {mem : ℕ → UInt8} {base count : ℕ} {evs : List WriteEvent} :
    ∀ {pre : List WriteEvent} {written : List UInt8} {r : ℤ} {rest : List WriteEvent} {s : Writing},
      s.calls.length = pre.length → s.status ≤ count →
      writeLoop (bytesAt mem (base + s.status) (count - s.status)) evs = (some r, written, rest) →
      ∃ s', Yields
        (fun fuel => loop (sockWriteRound (writeResults (pre ++ evs) count) mem base count) fuel s)
          (if r = sockerrOk then (count : ℤ) else r, s') ∧ s'.sent = s.sent ++ written := by
  induction evs with
  | nil =>
    intro pre written r rest s hcalls hle h
    simp only [writeLoop, Prod.mk.injEq, Option.some.injEq] at h
    obtain ⟨rfl, rfl, -⟩ := h
    rw [if_pos rfl]
    by_cases hlen : s.status = count
    · refine ⟨s, yields_sockWriteRound_of_status hlen, ?_⟩
      rw [hlen, Nat.sub_self]
      exact (List.append_nil _).symm
    · have hresult : writeResults (pre ++ []) count s.calls.length = .moved count := by
        simp [writeResults, hcalls]
      obtain ⟨calls, -, hround⟩ := sockWriteRound_moved mem base
        (show s.status < count by omega) hresult
      rw [min_eq_right (Nat.sub_le _ _)] at hround
      exact ⟨_, loop_next hround (yields_sockWriteRound_of_status (Nat.add_sub_cancel' hle)), rfl⟩
  | cons e evs ih =>
    intro pre written r rest s hcalls hle h
    unfold writeLoop at h
    by_cases hlen : s.status = count
    · have hnil : bytesAt mem (base + s.status) (count - s.status) = [] := by
        rw [hlen, Nat.sub_self]
        rfl
      rw [if_pos hnil] at h
      simp only [Prod.mk.injEq, Option.some.injEq] at h
      obtain ⟨rfl, rfl, -⟩ := h
      exact ⟨s, yields_sockWriteRound_of_status hlen, (List.append_nil _).symm⟩
    · have hnil : bytesAt mem (base + s.status) (count - s.status) ≠ [] := by
        rw [← List.length_pos_iff, length_bytesAt]
        omega
      rw [if_neg hnil] at h
      have hlt : s.status < count := by omega
      have hresult : writeResults (pre ++ e :: evs) count s.calls.length = e.result := by
        rw [hcalls, writeResults_append]
      -- the outcomes up to this one
      have hassoc : pre ++ e :: evs = (pre ++ [e]) ++ evs := by rw [List.append_assoc]; rfl
      have hcalls' : ∀ calls : List Access, calls.length = s.calls.length + 1 →
          calls.length = (pre ++ [e]).length := fun calls hlen => by
        rw [hlen, hcalls, List.length_append]
        rfl
      cases e with
      | eintr =>
        obtain ⟨x, hround⟩ := sockWriteRound_failed mem base hlt hresult
        obtain ⟨s', hs', hsent⟩ := ih (s := { s with calls := s.calls ++ [x] })
          (hcalls' _ (List.length_append ..)) hle h
        exact ⟨s', loop_next hround (hassoc ▸ hs'), hsent⟩
      | epipe =>
        simp only [Prod.mk.injEq, Option.some.injEq] at h
        obtain ⟨rfl, rfl, -⟩ := h
        obtain ⟨x, hround⟩ := sockWriteRound_failed mem base hlt hresult
        exact ⟨_, loop_done hround, (List.append_nil _).symm⟩
      | error =>
        simp only [Prod.mk.injEq, Option.some.injEq] at h
        obtain ⟨rfl, rfl, -⟩ := h
        obtain ⟨x, hround⟩ := sockWriteRound_failed mem base hlt hresult
        exact ⟨_, loop_done hround, (List.append_nil _).symm⟩
      | stall => simp at h
      | wrote n =>
        obtain ⟨calls, hlength, hround⟩ := sockWriteRound_moved mem base hlt hresult
        obtain ⟨htake, hdrop⟩ := bytesAt_take_drop mem (base + s.status) (count - s.status) n
        simp only [htake, hdrop, Nat.add_assoc, Nat.sub_sub] at h
        generalize hrec : writeLoop _ evs = x at h
        obtain ⟨r', written', rest'⟩ := x
        simp only [Prod.mk.injEq] at h
        obtain ⟨rfl, rfl, rfl⟩ := h
        obtain ⟨s', hs', hsent⟩ := ih (s := ⟨s.status +
          min n (count - s.status), s.sent ++ bytesAt mem (base + s.status)
          (min n (count - s.status)), calls⟩) (hcalls' _ hlength) (by simp only; omega) hrec
        exact ⟨s', loop_next hround (hassoc ▸ hs'), by rw [hsent, List.append_assoc]⟩

/-- **The server's `sock_read`** returns what the function returns, and has filled its memory with
the bytes that the function stores. -/
theorem sockRead_transfer {ρ : Type} {buf buf' : Buf} {count r : ℤ} {c c' : Conn} (base : ℕ)
    (mem : ℕ → UInt8)
    (h : (sockRead buf count : Program Conn ρ (ℤ × Buf)) c = (.value (r, buf'), c')) :
    ∃ s got, Yields (fun fuel => sockReadLoop (readResults c.reads) (readStream c.reads) base count
        fuel mem 0) (r, s) ∧
      (if count ≤ 0 then buf' = buf else buf' = buf.fill got) ∧
      ∀ i < got.length, got[i]? = some (s.mem (base + i)) := by
  unfold sockRead at h
  -- both return at once where nothing is asked for
  by_cases hcount : count ≤ 0
  · rw [if_pos hcount] at h
    simp only [Prod.mk.injEq, Outcome.value.injEq] at h
    obtain ⟨⟨rfl, rfl⟩, -⟩ := h
    refine ⟨⟨0, mem, 0, []⟩, [], ⟨0, fun fuel _ => ?_⟩, if_pos hcount ▸ rfl, nofun⟩
    simp only [sockReadLoop, if_pos hcount]
  · rw [if_neg hcount] at h
    obtain ⟨n, rfl⟩ := Int.eq_ofNat_of_zero_le (not_le.1 hcount).le
    rw [Int.toNat_natCast] at h
    split at h
    · cases h
    · next r' got rest hloop =>
      simp only [Prod.mk.injEq, Outcome.value.injEq] at h
      obtain ⟨⟨rfl, rfl⟩, -⟩ := h
      -- at the start nothing is read
      have hstart : Reading.Follows base [] [] ⟨0, mem, 0, []⟩ := ⟨rfl, rfl, rfl, nofun⟩
      obtain ⟨s, hs, hbytes⟩ := readLoop_transfer hstart (Nat.zero_le _) hloop
      refine ⟨s, got, ?_, if_neg hcount ▸ rfl, hbytes⟩
      simpa only [sockReadLoop, if_neg hcount, List.nil_append] using hs

/-- **The server's `sock_write`** returns what the function returns, `SOCKERR_OK` for the count, and
sends the same bytes. -/
theorem sockWrite_transfer {ρ : Type} {mem : ℕ → UInt8} {base count : ℕ} {r : ℤ} {c c' : Conn}
    (h : (sockWrite (bytesAt mem base count) : Program Conn ρ ℤ) c = (.value r, c')) :
    ∃ s, Yields (fun fuel => sockWriteLoop (writeResults c.writes count) mem base count fuel c.out)
        (if r = sockerrOk then (count : ℤ) else r, s) ∧
      c'.out = s.sent := by
  unfold sockWrite at h
  split at h
  · cases h
  · next r' written rest hloop =>
    simp only [Prod.mk.injEq, Outcome.value.injEq] at h
    obtain ⟨rfl, rfl⟩ := h
    -- at the start nothing is sent
    have hstart : (⟨0, c.out, []⟩ : Writing).calls.length = ([] : List WriteEvent).length := rfl
    obtain ⟨s, hs, hsent⟩ := writeLoop_transfer hstart (Nat.zero_le count) hloop
    refine ⟨s, ?_, hsent.symm⟩
    simpa only [sockWriteLoop, if_neg (not_lt.2 (Int.natCast_nonneg count)), List.nil_append]
      using hs

end RkIpc.Server
