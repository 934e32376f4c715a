import Mathlib.Data.Int.Notation
import RkIpc.LinkedList.Heap
import RkIpc.Queue.Fifo
import RkIpc.Transition.Run

/-!
# The message queue of the storage module

The event listener sends messages to the storage thread through a linked list of elements, under
one mutex. A sender allocates its element with a copy of the data and appends it by walking to
the end of the list; the receiver waits while the list is empty, unlinks the head, and frees the
element once it has been handled.

The steps are the critical sections and the thread-local code around them, so a run is any
interleaving; a wait ends by a signal, by its timeout or for no reason. As for the file list, a
result `none` is a dangling pointer or a walk that does not end, and `num` counts elements in
memory, which are fewer than an `int` can count.

## Main definitions

* `TmsgElement`, `TmsgBuffer`: `rkipc_tmsg_element` and `rkipc_tmsg_buffer`
* `msgPutMsgToBuffer`, `msgTakeMsg`: the two critical sections
* `MsgQueue`, `MsgStep`: the senders, the receiver and the buffer, and their steps

## Main results

* `MsgStep.refines`: every step is one of a first in, first out queue, or leaves it as it is
* `msgQueue_fifo`: what is received is a prefix of what was sent, `num` is the length of the list,
  and no thread follows a dangling pointer
-/

namespace RkIpc.Storage

open LinkedList Queue Transition

/-- `rkipc_tmsg_element`; the `next` link is in the heap. -/
structure TmsgElement where
  msg : ℤ
  data : Option (List UInt8)
  dataLen : ℤ
deriving DecidableEq, Repr

/-- The list fields of `rkipc_tmsg_buffer`, with the heap its elements live in. -/
structure TmsgBuffer where
  first : Option ℕ
  last : Option ℕ
  num : ℤ
  heap : Heap TmsgElement

/-- The buffer `rkipc_storage_msg_create` sets up. -/
def TmsgBuffer.create : TmsgBuffer where
  first := none
  last := none
  num := 0
  heap := Heap.empty

/-! ## `rkipc_storage_msg_put_msg_to_buffer` -/

/-- `while (tmp->next != NULL)`: the last element. -/
def putWalk (h : Heap TmsgElement) : ℕ → ℕ → Option ℕ
  | 0, _ => none
  | fuel + 1, tmp => do
    let n ← h.load tmp
    match n.next with
    | none => some tmp
    | some next => putWalk h fuel next

/-- `rkipc_storage_msg_put_msg_to_buffer`: its result, and the buffer. -/
def msgPutMsgToBuffer (buf : TmsgBuffer) (elm : ℕ) : Option (ℤ × TmsgBuffer) := do
  let n ← buf.heap.load elm
  let h ← if n.next ≠ none then buf.heap.setNext elm none else some buf.heap
  match buf.first with
  | some tmp => do
    let tmp ← putWalk h h.brk tmp
    let h ← h.setNext tmp (some elm)
    some (0, { buf with heap := h, num := buf.num + 1 })
  | none => some (0, { buf with heap := h, first := some elm, num := buf.num + 1 })

/-! ## `rkipc_storage_msg_get_msg_from_buffer_timeout` -/

/-- `rkipc_storage_msg_get_msg_from_buffer_timeout` from `if (buf->num > 0)` on: the element, and
the buffer. -/
def msgTakeMsg (buf : TmsgBuffer) : Option (Option ℕ × TmsgBuffer) :=
  if buf.num > 0 then
    if buf.num = 1 then
      some (buf.first, { buf with first := none, last := none, num := 0 })
    else do
      let elm ← buf.first
      let n ← buf.heap.load elm
      some (some elm, { buf with first := n.next, num := buf.num - 1 })
  else some (none, buf)

/-! ## The senders and the receiver -/

/-- A call of `rkipc_storage_msg_send_msg`: `data` points to at least `data_len` bytes. -/
structure SendCall where
  msg : ℤ
  data : Option (List UInt8)
  dataLen : ℤ
  readable : ∀ bytes, data = some bytes → dataLen ≤ bytes.length

/-- The message of a call: `msg`, a copy of `data_len` bytes if that is positive, and
`data_len`. -/
def SendCall.element (call : SendCall) : TmsgElement where
  msg := call.msg
  data := if call.dataLen > 0 then call.data.map (List.take call.dataLen.toNat) else none
  dataLen := call.dataLen

/-- `rkipc_storage_msg_send_msg` up to the call of `rkipc_storage_msg_put_msg_to_buffer`, by the
outcomes of its two `malloc`s: the element, unless it returns `-1`, and the heap. -/
def msgSendMsgAlloc (h : Heap TmsgElement) (call : SendCall) (elmOk dataOk : Bool) :
    Option (Option ℕ × Heap TmsgElement) :=
  if call.data = none then some (none, h)
  else if !elmOk then some (none, h)
  else if call.dataLen > 0 && !dataOk then do
    let (elm, h) := h.malloc ⟨⟨call.msg, none, call.dataLen⟩, none⟩
    let h ← h.free elm
    some (none, h)
  else
    let (elm, h) := h.malloc ⟨call.element, none⟩
    some (some elm, h)

/-- What the receiver is doing: outside the queue, in `pthread_cond_timedwait`, or handling an
element. -/
inductive Receiver where
  | idle
  | waiting
  | holds (elm : ℕ)
deriving DecidableEq, Repr

/-- The buffer, the elements the senders have allocated and not put yet, and the receiver; the
calls of `rkipc_storage_msg_send_msg` that have returned, with their results, and the messages
`rkipc_storage_msg_get_msg_from_buffer_timeout` has returned. -/
structure MsgQueue (ι : Type) where
  buf : TmsgBuffer
  sender : ι → Option (ℕ × SendCall)
  receiver : Receiver
  sends : List (SendCall × ℤ)
  received : List TmsgElement

variable {ι : Type}

namespace MsgQueue

/-- The queue after `rkipc_storage_msg_create`. -/
def create : MsgQueue ι where
  buf := TmsgBuffer.create
  sender _ := none
  receiver := Receiver.idle
  sends := []
  received := []

/-- The messages whose send returned `0`, in that order. -/
def sent (s : MsgQueue ι) : List TmsgElement :=
  (s.sends.filter (fun c => c.2 = 0)).map (fun c => c.1.element)

/-- The receiver returns from `rkipc_storage_msg_get_msg_from_buffer_timeout` with `elm`. -/
def receive (s : MsgQueue ι) (elm : Option ℕ) (buf : TmsgBuffer) : Option (MsgQueue ι) :=
  match elm with
  | none => some { s with buf := buf, receiver := Receiver.idle }
  | some a => do
    let n ← buf.heap.load a
    some
      { s with
        buf := buf
        receiver := Receiver.holds a
        received := s.received ++ [n.val] }

end MsgQueue

/-- The actions: a sender allocates, a sender puts, the receiver enters its section, the receiver
wakes up, the receiver frees its element. -/
inductive MsgAct (ι : Type) where
  | alloc (i : ι) (call : SendCall) (elmOk dataOk : Bool)
  | put (i : ι)
  | get
  | wake
  | free

/-- What an action does: `none` where it is stuck. -/
def msgExec [DecidableEq ι] (s : MsgQueue ι) : MsgAct ι → Option (MsgQueue ι)
  | .alloc i call elmOk dataOk => do
    let (elm, h) ← msgSendMsgAlloc s.buf.heap call elmOk dataOk
    match elm with
    | none =>
      some { s with buf := { s.buf with heap := h }, sends := s.sends ++ [(call, -1)] }
    | some a =>
      some
        { s with
          buf := { s.buf with heap := h }
          sender := Function.update s.sender i (some (a, call)) }
  | .put i => do
    let (elm, call) ← s.sender i
    let (ret, buf) ← msgPutMsgToBuffer s.buf elm
    some
      { s with
        buf := buf
        sender := Function.update s.sender i none
        sends := s.sends ++ [(call, if ret ≠ 0 then -1 else 0)] }
  | .get =>
    if s.buf.num = 0 then some { s with receiver := Receiver.waiting }
    else do
      let (elm, buf) ← msgTakeMsg s.buf
      s.receive elm buf
  | .wake => do
    let (elm, buf) ← msgTakeMsg s.buf
    s.receive elm buf
  | .free =>
    match s.receiver with
    | .holds a => do
      let h ← s.buf.heap.free a
      some { s with buf := { s.buf with heap := h }, receiver := Receiver.idle }
    | _ => none

/-- When a thread is at an action: a sender allocates when it has nothing to put, and puts when it
has; the receiver enters when it is idle, wakes up while it waits, and frees what it holds. -/
def MsgEnabled (s : MsgQueue ι) : MsgAct ι → Prop
  | .alloc i _ _ _ => s.sender i = none
  | .put i => s.sender i ≠ none
  | .get => s.receiver = Receiver.idle
  | .wake => s.receiver = Receiver.waiting
  | .free => ∃ a, s.receiver = Receiver.holds a

/-- **A step** of one of the threads. -/
def MsgStep [DecidableEq ι] (s : MsgQueue ι) (a : MsgAct ι) (t : MsgQueue ι) : Prop :=
  MsgEnabled s a ∧ msgExec s a = some t

/-! ## The two critical sections -/

theorem putWalk_spec {elm : ℕ} {x : TmsgElement} {h : Heap TmsgElement}
    (he : h.load elm = some ⟨x, none⟩) {l : List (ℕ × TmsgElement)} :
    ∀ {fuel tmp y}, Chain h (some tmp) ((tmp, y) :: l) → elm ∉ ((tmp, y) :: l).map Prod.fst →
      l.length < fuel →
      ∃ t h₁, putWalk h fuel tmp = some t ∧ h.setNext t (some elm) = some h₁ ∧
        t ∈ ((tmp, y) :: l).map Prod.fst ∧ (∀ b, b ≠ t → h₁.load b = h.load b) ∧
        Chain h₁ (some tmp) ((tmp, y) :: l ++ [(elm, x)]) := by
  induction l with
  | nil =>
    intro fuel tmp y hl hn hf
    obtain ⟨-, q, hq, hc⟩ := Chain.cons_iff.mp hl
    obtain rfl := Chain.nil_iff.mp hc
    obtain ⟨fuel, rfl⟩ := Nat.exists_eq_succ_of_ne_zero (Nat.ne_of_gt hf)
    -- the walk stops here, and the element is linked behind
    have hce : Chain h (some elm) [(elm, x)] := Chain.cons_iff.mpr ⟨rfl, none, he, rfl⟩
    obtain ⟨h₁, hset, hframe, hc₁⟩ := Chain.setNext_head hq hce (by simpa [eq_comm] using hn)
    exact ⟨tmp, h₁, by simp [putWalk, hq], hset, by simp, hframe, hc₁⟩
  | cons b l ih =>
    intro fuel tmp y hl hn hf
    obtain ⟨b, z⟩ := b
    obtain ⟨-, q, hq, hc⟩ := Chain.cons_iff.mp hl
    obtain ⟨rfl, -⟩ := Chain.cons_iff.mp hc
    obtain ⟨fuel, rfl⟩ := Nat.exists_eq_succ_of_ne_zero (Nat.ne_of_gt (Nat.zero_lt_of_lt hf))
    rw [List.map_cons, List.mem_cons, not_or] at hn
    obtain ⟨t, h₁, hw, hset, ht, hframe, hc₁⟩ := ih hc hn.2 (by simpa using hf)
    -- the node written lies further on, so this one is read as before
    have htmp : tmp ≠ t := fun hte => hl.notMem_tail (hte ▸ ht)
    refine ⟨t, h₁, by simp [putWalk, hq, hw], hset, ?_, hframe, ?_⟩
    · exact List.mem_cons_of_mem _ ht
    · exact Chain.cons_iff.mpr ⟨rfl, some b, by rw [hframe tmp htmp, hq], hc₁⟩

/-- **The put** appends the element and counts it; it writes to the list only. -/
theorem msgPutMsgToBuffer_spec {buf : TmsgBuffer} {l : List (ℕ × TmsgElement)} {elm : ℕ}
    {x : TmsgElement} (hl : Chain buf.heap buf.first l)
    (he : buf.heap.load elm = some ⟨x, none⟩) (hn : elm ∉ l.map Prod.fst) :
    ∃ buf', msgPutMsgToBuffer buf elm = some (0, buf') ∧
      Chain buf'.heap buf'.first (l ++ [(elm, x)]) ∧ buf'.num = buf.num + 1 ∧
      ∀ b, b ∉ l.map Prod.fst → buf'.heap.load b = buf.heap.load b := by
  cases l with
  | nil =>
    have hfirst := Chain.nil_iff.mp hl
    refine ⟨{ buf with first := some elm, num := buf.num + 1 }, ?_, ?_, rfl, fun b _ => rfl⟩
    · simp [msgPutMsgToBuffer, he, hfirst]
    · exact Chain.cons_iff.mpr ⟨rfl, none, he, rfl⟩
  | cons c l =>
    obtain ⟨c, y⟩ := c
    obtain ⟨hfirst, -⟩ := Chain.cons_iff.mp hl
    rw [hfirst] at hl
    -- the list is no longer than the heap, so the walk ends
    obtain ⟨t, h₁, hw, hset, ht, hframe, hc⟩ := putWalk_spec he hl hn hl.length_le_brk
    refine ⟨{ buf with heap := h₁, num := buf.num + 1 }, ?_, ?_, rfl, ?_⟩
    · simp [msgPutMsgToBuffer, he, hfirst, hw, hset]
    · rw [hfirst]
      exact hc
    · exact fun b hb => hframe b fun hbt => hb (hbt ▸ ht)

theorem msgTakeMsg_nil {buf : TmsgBuffer} (hnum : buf.num = 0) :
    msgTakeMsg buf = some (none, buf) := by
  simp [msgTakeMsg, hnum]

/-- **The take** unlinks the head, the only element or not, and writes to no node. -/
theorem msgTakeMsg_cons {buf : TmsgBuffer} {l : List (ℕ × TmsgElement)} {a : ℕ}
    {x : TmsgElement} (hl : Chain buf.heap buf.first ((a, x) :: l))
    (hnum : buf.num = (l.length + 1 : ℕ)) :
    ∃ buf', msgTakeMsg buf = some (some a, buf') ∧ buf'.heap = buf.heap ∧
      Chain buf'.heap buf'.first l ∧ buf'.num = l.length := by
  obtain ⟨hfirst, q, hq, hc⟩ := Chain.cons_iff.mp hl
  have hpos : buf.num > 0 := by omega
  cases l with
  | nil =>
    -- the counter is one: the special case
    refine ⟨{ buf with first := none, last := none, num := 0 }, ?_, rfl, rfl, rfl⟩
    simp [msgTakeMsg, hnum, hfirst]
  | cons b l =>
    have hne : buf.num ≠ 1 := by
      simp only [List.length_cons] at hnum
      omega
    refine ⟨{ buf with first := q, num := buf.num - 1 }, ?_, rfl, hc, ?_⟩
    · simp only [msgTakeMsg]
      rw [if_pos hpos, if_neg hne]
      simp [hfirst, hq]
    · simp only [hnum]
      omega

/-! ## The queue refines the abstract one -/

/-- **The queue refines** `q`: the list holds what is pending, and what the threads hold besides is
live, off the list, and not shared. -/
structure MsgQueue.Refines (s : MsgQueue ι) (q : Fifo TmsgElement) : Prop where
  nodes : ∃ l, Chain s.buf.heap s.buf.first l ∧ l.map Prod.snd = q.pending ∧
    (∀ i a c, s.sender i = some (a, c) → a ∉ l.map Prod.fst) ∧
    ∀ a, s.receiver = Receiver.holds a → a ∉ l.map Prod.fst
  num : s.buf.num = q.pending.length
  sent : s.sent = q.accepted
  received : s.received = q.delivered
  sender : ∀ i a c, s.sender i = some (a, c) → s.buf.heap.load a = some ⟨c.element, none⟩
  receiver : ∀ a, s.receiver = Receiver.holds a → ∃ n, s.buf.heap.load a = some n
  senders : ∀ i j a c d, s.sender i = some (a, c) → s.sender j = some (a, d) → i = j
  apart : ∀ i a c, s.sender i = some (a, c) → s.receiver ≠ Receiver.holds a

theorem MsgQueue.refines_create : (create : MsgQueue ι).Refines Fifo.empty where
  nodes := ⟨[], rfl, rfl, by simp, by simp⟩
  num := rfl
  sent := rfl
  received := rfl
  sender := by simp [create]
  receiver := by simp [create]
  senders := by simp [create]
  apart := by simp [create]

namespace MsgQueue.Refines

variable {s : MsgQueue ι} {q : Fifo TmsgElement}

/-- A send that fails leaves the list as it is. -/
theorem failed (hs : s.Refines q) (call : SendCall) {h : Heap TmsgElement}
    (hload : ∀ b, b < s.buf.heap.brk → h.load b = s.buf.heap.load b) :
    ({ s with
        buf := { s.buf with heap := h }
        sends := s.sends ++ [(call, -1)] } : MsgQueue ι).Refines q := by
  obtain ⟨l, hl, hm, hsend, hrec⟩ := hs.nodes
  refine ⟨⟨l, hl.frame fun b hb => hload b (hl.lt_brk b hb), hm, hsend, hrec⟩, hs.num, ?_,
    hs.received, ?_, ?_, hs.senders, hs.apart⟩
  · rw [← hs.sent]
    simp [MsgQueue.sent]
  · intro i a c hc
    have ha := hs.sender i a c hc
    exact (hload a (Heap.lt_brk_of_load ha)).trans ha
  · intro a ha
    obtain ⟨n, hn⟩ := hs.receiver a ha
    exact ⟨n, (hload a (Heap.lt_brk_of_load hn)).trans hn⟩

/-- A sender may hold an element it has just allocated. -/
theorem allocated [DecidableEq ι] (hs : s.Refines q) (i : ι) (call : SendCall) :
    ({ s with
        buf := { s.buf with heap := (s.buf.heap.malloc ⟨call.element, none⟩).2 }
        sender := Function.update s.sender i (some (s.buf.heap.brk, call)) } :
      MsgQueue ι).Refines q := by
  obtain ⟨l, hl, hm, hsend, hrec⟩ := hs.nodes
  -- whatever is live already lies below the new address
  have hlt : ∀ j a c, s.sender j = some (a, c) → a < s.buf.heap.brk := fun j a c hc =>
    Heap.lt_brk_of_load (hs.sender j a c hc)
  have hcases : ∀ j a c, Function.update s.sender i (some (s.buf.heap.brk, call)) j = some (a, c) →
      (j = i ∧ a = s.buf.heap.brk ∧ c = call) ∨ s.sender j = some (a, c) := by
    intro j a c hc
    rcases eq_or_ne j i with rfl | hne
    · rw [Function.update_self] at hc
      obtain ⟨rfl, rfl⟩ : s.buf.heap.brk = a ∧ call = c := by simpa using hc
      exact Or.inl ⟨rfl, rfl, rfl⟩
    · rw [Function.update_of_ne hne] at hc
      exact Or.inr hc
  refine ⟨⟨l, hl.malloc _, hm, ?_, hrec⟩, hs.num, hs.sent, hs.received, ?_, ?_, ?_, ?_⟩
  · intro j a c hc
    rcases hcases j a c hc with ⟨-, rfl, -⟩ | hc
    · exact fun ha => Nat.lt_irrefl _ (hl.lt_brk _ ha)
    · exact hsend j a c hc
  · intro j a c hc
    rcases hcases j a c hc with ⟨-, rfl, rfl⟩ | hc
    · exact s.buf.heap.load_malloc_self _
    · exact (s.buf.heap.load_malloc_of_ne _ (hlt j a c hc).ne).trans (hs.sender j a c hc)
  · intro a ha
    obtain ⟨n, hn⟩ := hs.receiver a ha
    exact ⟨n, (s.buf.heap.load_malloc_of_ne _ (Heap.lt_brk_of_load hn).ne).trans hn⟩
  · intro j k a c d hc hd
    rcases hcases j a c hc with ⟨rfl, rfl, -⟩ | hc
    · rcases hcases k _ d hd with ⟨rfl, -, -⟩ | hd
      · rfl
      · exact absurd (hlt k _ d hd) (Nat.lt_irrefl _)
    · rcases hcases k a d hd with ⟨-, rfl, -⟩ | hd
      · exact absurd (hlt j _ c hc) (Nat.lt_irrefl _)
      · exact hs.senders j k a c d hc hd
  · intro j a c hc hrec
    rcases hcases j a c hc with ⟨-, rfl, -⟩ | hc
    · obtain ⟨n, hn⟩ := hs.receiver _ hrec
      exact Nat.lt_irrefl _ (Heap.lt_brk_of_load hn)
    · exact hs.apart j a c hc hrec

/-- A put is a push. -/
theorem put [DecidableEq ι] (hs : s.Refines q) {i : ι} {a : ℕ} {call : SendCall}
    (hi : s.sender i = some (a, call)) :
    ∃ buf', msgPutMsgToBuffer s.buf a = some (0, buf') ∧
      ({ s with
          buf := buf'
          sender := Function.update s.sender i none
          sends := s.sends ++ [(call, 0)] } : MsgQueue ι).Refines (q.push call.element) := by
  obtain ⟨l, hl, hm, hsend, hrec⟩ := hs.nodes
  obtain ⟨buf', hput, hc, hnum, hframe⟩ :=
    msgPutMsgToBuffer_spec hl (hs.sender i a call hi) (hsend i a call hi)
  -- the other senders still hold what they held
  have hother : ∀ j b c, Function.update s.sender i none j = some (b, c) →
      j ≠ i ∧ s.sender j = some (b, c) := by
    intro j b c hj
    rcases eq_or_ne j i with rfl | hne
    · simp at hj
    · rw [Function.update_of_ne hne] at hj
      exact ⟨hne, hj⟩
  refine ⟨buf', hput, ⟨l ++ [(a, call.element)], hc, by simp [hm, Fifo.push], ?_, ?_⟩, ?_, ?_,
    hs.received, ?_, ?_, ?_, ?_⟩
  · intro j b c hj
    obtain ⟨hne, hj⟩ := hother j b c hj
    have hba : b ≠ a := fun hba => hne (hs.senders j i a c call (hba ▸ hj) hi)
    simpa [hba] using hsend j b c hj
  · intro b hb
    have hba : b ≠ a := fun hba => hs.apart i a call hi (hba ▸ hb)
    simpa [hba] using hrec b hb
  · rw [hnum, hs.num]
    simp [Fifo.push]
  · simpa [MsgQueue.sent, Fifo.push] using hs.sent
  · intro j b c hj
    obtain ⟨-, hj⟩ := hother j b c hj
    rw [hframe b (hsend j b c hj), hs.sender j b c hj]
  · intro b hb
    rw [hframe b (hrec b hb)]
    exact hs.receiver b hb
  · intro j k b c d hj hk
    exact hs.senders j k b c d (hother j b c hj).2 (hother k b d hk).2
  · exact fun j b c hj => hs.apart j b c (hother j b c hj).2

/-- A take is a pop, if there is something to take. -/
theorem take (hs : s.Refines q) :
    ∃ elm buf' t q', msgTakeMsg s.buf = some (elm, buf') ∧ s.receive elm buf' = some t ∧
      q.Step q' ∧ t.Refines q' := by
  obtain ⟨l, hl, hm, hsend, -⟩ := hs.nodes
  have hlen : q.pending.length = l.length := by rw [← hm, List.length_map]
  cases l with
  | nil =>
    have hnum : s.buf.num = 0 := by rw [hs.num, hlen]; rfl
    refine ⟨none, s.buf, _, q, msgTakeMsg_nil hnum, rfl, Fifo.Step.stay, ?_⟩
    exact ⟨⟨[], hl, hm, hsend, by simp⟩, hs.num, hs.sent, hs.received, hs.sender, by simp,
      hs.senders, by simp⟩
  | cons b l =>
    obtain ⟨a, x⟩ := b
    have hnum : s.buf.num = (l.length + 1 : ℕ) := by rw [hs.num, hlen]; rfl
    obtain ⟨buf', htake, hheap, hc, hnum'⟩ := msgTakeMsg_cons hl hnum
    obtain ⟨-, p, hp, -⟩ := Chain.cons_iff.mp hl
    rw [← hheap] at hp
    refine ⟨some a, buf', { s with
      buf := buf', receiver := Receiver.holds a, received := s.received ++ [x] },
      q.pop hm.symm, htake, by simp [MsgQueue.receive, hp], Fifo.Step.pop hm.symm, ?_⟩
    refine ⟨⟨l, hc, rfl, ?_, ?_⟩, ?_, hs.sent, ?_, ?_, ?_, hs.senders, ?_⟩
    · intro j b c hj
      exact fun hb => hsend j b c hj (List.mem_cons_of_mem _ hb)
    -- the element taken does not come again in the list
    · rintro b hb
      obtain rfl : a = b := by simpa using hb
      exact hl.notMem_tail
    · simpa [Fifo.pop] using hnum'
    · simp [Fifo.pop, hs.received]
    · intro j b c hj
      rw [hheap]
      exact hs.sender j b c hj
    · rintro b hb
      obtain rfl : a = b := by simpa using hb
      exact ⟨_, hp⟩
    -- and no sender holds it
    · rintro j b c hj hb
      obtain rfl : a = b := by simpa using hb
      exact hsend j a c hj (by simp)

/-- The receiver may free what it holds. -/
theorem freed (hs : s.Refines q) {a : ℕ} (ha : s.receiver = Receiver.holds a) :
    ∃ h, s.buf.heap.free a = some h ∧
      ({ s with
          buf := { s.buf with heap := h }, receiver := Receiver.idle } : MsgQueue ι).Refines q := by
  obtain ⟨l, hl, hm, hsend, hrec⟩ := hs.nodes
  obtain ⟨n, hn⟩ := hs.receiver a ha
  obtain ⟨h, hfree, -, hframe, hc⟩ := hl.free hn (hrec a ha)
  refine ⟨h, hfree, ⟨l, hc, hm, hsend, by simp⟩, hs.num, hs.sent, hs.received, ?_, by simp,
    hs.senders, by simp⟩
  intro j b c hj
  rw [hframe b fun hba => hs.apart j b c hj (hba ▸ ha), hs.sender j b c hj]

end MsgQueue.Refines

/-- The allocations of a send that fails leave what is live as it is; otherwise they add the element
of the call. -/
theorem msgSendMsgAlloc_spec (h : Heap TmsgElement) (call : SendCall) (elmOk dataOk : Bool) :
    (∃ h', msgSendMsgAlloc h call elmOk dataOk = some (none, h') ∧
      ∀ b, b < h.brk → h'.load b = h.load b) ∨
    msgSendMsgAlloc h call elmOk dataOk =
      some (some h.brk, (h.malloc ⟨call.element, none⟩).2) := by
  unfold msgSendMsgAlloc
  split
  · exact Or.inl ⟨h, rfl, fun b _ => rfl⟩
  split
  · exact Or.inl ⟨h, rfl, fun b _ => rfl⟩
  split
  · -- `elm->data` could not be allocated: the element is freed again
    have hnew := h.load_malloc_self ⟨⟨call.msg, none, call.dataLen⟩, none⟩
    obtain ⟨h', hfree, -, -, hframe⟩ := Heap.exists_free hnew
    refine Or.inl ⟨h', by simp [hfree], fun b hb => ?_⟩
    rw [hframe b hb.ne, h.load_malloc_of_ne _ hb.ne]
  · exact Or.inr rfl

/-- **A step refines** a step of the queue, and no thread is stuck at its next action. -/
theorem MsgQueue.Refines.step [DecidableEq ι] {s : MsgQueue ι} {q : Fifo TmsgElement}
    (hs : s.Refines q) {a : MsgAct ι} (ha : MsgEnabled s a) :
    ∃ t q', msgExec s a = some t ∧ q.Step q' ∧ t.Refines q' := by
  cases a with
  | alloc i call elmOk dataOk =>
    rcases msgSendMsgAlloc_spec s.buf.heap call elmOk dataOk with ⟨h, he, hload⟩ | he
    · exact ⟨_, q, by simp [msgExec, he], Fifo.Step.stay, hs.failed call hload⟩
    · exact ⟨_, q, by simp [msgExec, he], Fifo.Step.stay, hs.allocated i call⟩
  | put i =>
    obtain ⟨⟨a, call⟩, hi⟩ := Option.ne_none_iff_exists'.mp ha
    obtain ⟨buf', hput, ht⟩ := hs.put hi
    exact ⟨_, _, by simp [msgExec, hi, hput], Fifo.Step.push call.element, ht⟩
  | get =>
    by_cases hnum : s.buf.num = 0
    -- nothing is there: the receiver waits
    · refine ⟨{ s with receiver := Receiver.waiting }, q, by simp [msgExec, hnum],
        Fifo.Step.stay, ?_⟩
      obtain ⟨l, hl, hm, hsend, -⟩ := hs.nodes
      exact ⟨⟨l, hl, hm, hsend, by simp⟩, hs.num, hs.sent, hs.received, hs.sender, by simp,
        hs.senders, by simp⟩
    · obtain ⟨elm, buf', t, q', htake, hrec, hq, ht⟩ := hs.take
      exact ⟨t, q', by simp [msgExec, hnum, htake, hrec], hq, ht⟩
  | wake =>
    -- whatever ended the wait, the counter is looked at again
    obtain ⟨elm, buf', t, q', htake, hrec, hq, ht⟩ := hs.take
    exact ⟨t, q', by simp [msgExec, htake, hrec], hq, ht⟩
  | free =>
    obtain ⟨a, ha⟩ := ha
    obtain ⟨h, hfree, ht⟩ := hs.freed ha
    exact ⟨_, q, by simp [msgExec, ha, hfree], Fifo.Step.stay, ht⟩

theorem MsgStep.refines [DecidableEq ι] {s t : MsgQueue ι} {a : MsgAct ι} (hst : MsgStep s a t)
    {q : Fifo TmsgElement} (hs : s.Refines q) : ∃ q', q.Step q' ∧ t.Refines q' := by
  obtain ⟨t', q', ht, hq, href⟩ := hs.step hst.1
  obtain rfl : t' = t := by simpa [hst.2] using ht.symm
  exact ⟨q', hq, href⟩

theorem msgRun_refines [DecidableEq ι] {as : List (MsgAct ι)} {s : MsgQueue ι}
    (hr : Run MsgStep MsgQueue.create as s) : ∃ q : Fifo TmsgElement, s.Refines q :=
  hr.invariant (I := fun s => ∃ q : Fifo TmsgElement, s.Refines q)
    (fun _ _ _ ⟨_, hq⟩ hst => let ⟨q', _, hq'⟩ := hst.refines hq; ⟨q', hq'⟩)
    ⟨Fifo.empty, MsgQueue.refines_create⟩

/-- **The message queue is lossless and first in, first out**: in every run, the messages received
are a prefix of those whose send returned `0`, `num` is the length of the list, which is empty
exactly when `num` is zero, and the thread at an action is never stuck. -/
theorem msgQueue_fifo [DecidableEq ι] {as : List (MsgAct ι)} {s : MsgQueue ι}
    (hr : Run MsgStep MsgQueue.create as s) :
    s.received <+: s.sent ∧
    (∃ l, Chain s.buf.heap s.buf.first l ∧ s.buf.num = l.length ∧
      s.sent = s.received ++ l.map Prod.snd) ∧
    (s.buf.first = none ↔ s.buf.num = 0) ∧
    ∀ a, MsgEnabled s a → ∃ t, MsgStep s a t := by
  obtain ⟨q, hs⟩ := msgRun_refines hr
  obtain ⟨l, hl, hm, -⟩ := hs.nodes
  have hlen : s.buf.num = l.length := by rw [hs.num, ← hm, List.length_map]
  refine ⟨?_, ⟨l, hl, hlen, ?_⟩, ?_, fun a ha => ?_⟩
  · rw [hs.received, hs.sent]
    exact q.delivered_prefix
  · rw [hs.received, hs.sent, hm]
    exact q.accepted_eq
  · cases l with
    | nil => simp [Chain.nil_iff.mp hl, hlen]
    | cons b l =>
      obtain ⟨hfirst, -⟩ := Chain.cons_iff.mp hl
      rw [hfirst, hlen, List.length_cons]
      simp only [reduceCtorEq, false_iff]
      omega
  · obtain ⟨t, -, ht, -⟩ := hs.step ha
    exact ⟨t, ha, ht⟩

/-- A receiver that waits is woken by the message sent. -/
theorem msgQueue_fifo_wake : ∃ as, ∃ s : MsgQueue ℕ, Run MsgStep MsgQueue.create as s ∧
    s.received = [⟨1, some [115, 0], 2⟩] ∧ s.received <+: s.sent := by
  have h₁ : Run MsgStep (MsgQueue.create : MsgQueue ℕ) _ _ :=
    Run.single (a := MsgAct.get) ⟨rfl, rfl⟩
  have h₂ := h₁.snoc (a := MsgAct.alloc 0 ⟨1, some [115, 0], 2, by simp⟩ true true) ⟨rfl, rfl⟩
  have h₃ := h₂.snoc (a := MsgAct.put 0) ⟨by simp [MsgEnabled], rfl⟩
  have h₄ := h₃.snoc (a := MsgAct.wake) ⟨rfl, rfl⟩
  exact ⟨_, _, h₄, rfl, (msgQueue_fifo h₄).1⟩

end RkIpc.Storage
