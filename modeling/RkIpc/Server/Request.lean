import RkIpc.Server.RecThread

/-!
# Requests on a connection without failures

A client sends a request: the name of a function and its operands. On a connection on which
nothing fails the bytes arrive in chunks of any size, reads and writes are interrupted or short,
and what a round does is a function of the request.

A string is bounded if its terminator is among the bytes received for it. A null pointer, which is
passed on for a length of zero or less, is no string.

## Main definitions

* `Event.Bounded`: a compared name, and every string of a call, is bounded
* `Value`, `Request`, `FunMap.request`: what a client sends
* `chunks`, `Accepts`: what the reads deliver, and writes that succeed
* `At`: the state of such a connection
* `exitsOf`, `OperandBounded`: where a handler returns early, and which operands are bounded

## Main results

* `readOperands_at`, `serve_at`: what a handler reads, calls and replies
* `recStart_at`, `recRound_at`: the greeting, and what a round does with a request for an entry
-/

namespace RkIpc.Server

open Imperative Wire

/-! ## Bounded strings -/

/-- The terminator is among the bytes received. -/
def Buf.Terminated (b : Buf) : Prop := ∃ i < b.got, b.mem i = 0

/-- A string passed on is there and terminated. -/
def Arg.Bounded : Arg → Prop
  | .int _ => True
  | .str _ none => False
  | .str _ (some value) => value.Terminated

/-- **Every string passed on is bounded**: a name to `strcmp`, an argument to an operation. -/
def Event.Bounded : Event → Prop
  | .compare _ name => name.Terminated
  | .call _ args => ∀ a ∈ args, a.Bounded
  | _ => True

/-- Every string passed on so far was bounded. -/
def Conn.Bounded (c : Conn) : Prop := ∀ e ∈ c.log, e.Bounded

theorem Conn.bounded_concat {c d : Conn} {e : Event} (h : d.log = c.log ++ [e]) :
    d.Bounded ↔ c.Bounded ∧ e.Bounded := by
  simp only [Conn.Bounded, h, List.mem_append, List.mem_singleton]
  constructor
  · exact fun hd => ⟨fun f hf => hd f (Or.inl hf), hd e (Or.inr rfl)⟩
  · rintro ⟨hc, he⟩ f (hf | rfl)
    · exact hc f hf
    · exact he

theorem terminated_fill {b : Buf} {bytes : List UInt8} :
    (b.fill bytes).Terminated ↔ 0 ∈ bytes := by
  simp only [Buf.Terminated, Buf.fill, List.mem_iff_getElem]
  constructor
  · rintro ⟨i, hi, h⟩
    exact ⟨i, hi, by simpa [List.getElem?_eq_getElem hi] using h⟩
  · rintro ⟨i, hi, h⟩
    exact ⟨i, hi, by simp [List.getElem?_eq_getElem hi, h]⟩

/-! ## Requests -/

/-- An operand on the wire: an `int`, or a length word and bytes. -/
inductive Value where
  | int (v : ℤ)
  | str (len : ℤ) (bytes : List UInt8)
deriving DecidableEq, Repr

/-- The words are `int`s, and there are as many bytes as the length announces, if it is
positive. -/
def Value.WellFormed : Value → Prop
  | .int v => InRange v
  | .str len bytes => InRange len ∧ bytes.length = len.toNat

/-- The bytes of an operand. -/
def Value.encode : Value → List UInt8
  | .int v => encode32 v
  | .str len bytes => encode32 len ++ bytes

/-- The operand is an `int` where one is read, and a string otherwise. -/
def Fits : Operand → Value → Prop
  | .int, .int _ => True
  | .int, .str _ _ => False
  | _, .int _ => False
  | _, .str _ _ => True

/-- What a client sends: the length word and the bytes of a name, and operands. -/
structure Request where
  nameLen : ℤ
  name : List UInt8
  operands : List Value
deriving DecidableEq, Repr

/-- The bytes of the operands. -/
def encodeOperands (vs : List Value) : List UInt8 := vs.flatMap Value.encode

/-- The bytes of a request. -/
def Request.encode (r : Request) : List UInt8 :=
  encode32 r.nameLen ++ (r.name ++ encodeOperands r.operands)

/-- The name is as long as announced, and so is every operand. -/
structure Request.WellFormed (r : Request) : Prop where
  nameLen : InRange r.nameLen
  name : r.name.length = r.nameLen.toNat
  operands : ∀ v ∈ r.operands, v.WellFormed

/-- The request names the entry `e`. -/
def Request.Names (r : Request) (e : FunMap) : Prop := cString e.funName ++ [0] <+: r.name

/-- **A request for an entry** of the table: its name, and the operands its handler reads. -/
structure Request.For (r : Request) (e : FunMap) : Prop where
  entry : e ∈ map
  wellFormed : r.WellFormed
  names : r.Names e
  fits : List.Forall₂ Fits e.handler.operands r.operands

/-- The request a client makes for an entry. -/
def FunMap.request (e : FunMap) (vs : List Value) : Request where
  nameLen := (cString e.funName).length + 1
  name := cString e.funName ++ [0]
  operands := vs

set_option maxRecDepth 20000 in
theorem map_names_short : ∀ e ∈ map, (cString e.funName).length < 100 := by
  decide +kernel

theorem FunMap.request_for {e : FunMap} {vs : List Value} (he : e ∈ map)
    (hvs : ∀ v ∈ vs, v.WellFormed) (hfit : List.Forall₂ Fits e.handler.operands vs) :
    (e.request vs).For e where
  entry := he
  wellFormed := by
    have hshort := map_names_short e he
    refine ⟨⟨?_, ?_⟩, ?_, hvs⟩
    · simp only [FunMap.request]
      omega
    · simp only [FunMap.request]
      omega
    · simp only [FunMap.request, List.length_append, List.length_singleton]
      omega
  names := List.prefix_refl _
  fits := hfit

/-- What a handler returns at an operand instead of calling its operation. -/
def exitOf : Operand → Value → Option ℤ
  | .strOrFail, .str len _ => if len = 0 then some (-1) else none
  | .strOrSkip, .str len _ => if len = 0 then some 0 else none
  | _, _ => none

/-- The same at the first operand where it does. -/
def exitsOf : List Operand → List Value → Option ℤ
  | o :: os, v :: vs => (exitOf o v).or (exitsOf os vs)
  | _, _ => none

/-- The string an operand hands on is bounded. -/
def OperandBounded : Operand → Value → Prop
  | _, .int _ => True
  | _, .str _ bytes => 0 ∈ bytes

/-- A handler returns early at its last operand only. -/
def ExitsLast (os : List Operand) : Prop :=
  ∀ o ∈ os.dropLast, o ≠ Operand.strOrFail ∧ o ≠ Operand.strOrSkip

set_option maxRecDepth 20000 in
theorem map_exitsLast : ∀ e ∈ map, ExitsLast e.handler.operands := by
  unfold ExitsLast
  decide +kernel

/-! ## Reads that deliver and writes that succeed -/

/-- What reads that do not fail deliver, if the stream does not end. -/
def chunks : List ReadEvent → Option (List UInt8)
  | [] => some []
  | .eintr :: evs => chunks evs
  | .data (b :: bs) :: evs => (chunks evs).map fun bytes => b :: bs ++ bytes
  | _ => none

/-- Writes that succeed, in parts of any size and perhaps interrupted. -/
def Accepts (evs : List WriteEvent) : Prop :=
  ∀ e ∈ evs, e = WriteEvent.eintr ∨ ∃ n, e = WriteEvent.wrote n

/-- **A read that is delivered enough** takes what it asked for, and leaves the rest. -/
theorem readLoop_delivered {count : ℕ} {evs : List ReadEvent} :
    ∀ (got : List UInt8) {w xs : List UInt8}, chunks evs = some (w ++ xs) →
      got.length + w.length = count →
      ∃ rest, readLoop count got evs = (some (count : ℤ), got ++ w, rest) ∧
        chunks rest = some xs := by
  induction evs with
  | nil =>
    intro got w xs hc hlen
    obtain ⟨rfl, rfl⟩ : w = [] ∧ xs = [] := by simpa [chunks] using hc
    refine ⟨[], ?_, rfl⟩
    have hgot : got.length = count := by simpa using hlen
    simp [readLoop, hgot]
  | cons e evs ih =>
    intro got w xs hc hlen
    unfold readLoop
    by_cases hgot : got.length = count
    · -- all is there already
      obtain rfl : w = [] := List.length_eq_zero_iff.mp (by omega)
      refine ⟨e :: evs, ?_, by simpa using hc⟩
      rw [if_pos hgot, List.append_nil]
    · rw [if_neg hgot]
      rcases e with (_ | ⟨b, bs⟩) | _ | _
      · simp [chunks] at hc
      · obtain ⟨bytes, hb, hbytes⟩ := Option.map_eq_some_iff.mp hc
        dsimp only
        by_cases hfit : (b :: bs).length ≤ count - got.length
        · -- the chunk is a part of what is read
          rw [if_pos hfit]
          have hpre : b :: bs <+: w := List.prefix_of_prefix_length_le
            ⟨bytes, hbytes⟩ (List.prefix_append w xs) (by omega)
          obtain ⟨w', rfl⟩ := hpre
          rw [List.append_assoc, List.append_cancel_left_eq] at hbytes
          rw [List.length_append] at hlen
          obtain ⟨rest, hr, hrest⟩ := ih (got ++ b :: bs) (hbytes ▸ hb)
            (by rw [List.length_append]; omega)
          exact ⟨rest, by rw [hr, List.append_assoc], hrest⟩
        · -- what is read is a part of the chunk
          rw [if_neg hfit]
          have hw : (b :: bs).take (count - got.length) = w := by
            have h := congrArg (List.take w.length) hbytes
            rw [List.take_left, List.take_append_of_le_length (by omega)] at h
            rw [← h]
            congr 1
            omega
          have hxs : (b :: bs).drop (count - got.length) ++ bytes = xs := by
            have h := congrArg (List.drop w.length) hbytes
            rw [List.drop_left, List.drop_append_of_le_length (by omega)] at h
            rw [← h]
            congr 2
            omega
          refine ⟨_, by rw [hw], ?_⟩
          obtain ⟨x, l, hx⟩ := List.exists_cons_of_ne_nil
            (l := (b :: bs).drop (count - got.length)) fun h => by
              have := List.drop_eq_nil_iff.mp h
              omega
          rw [hx] at hxs ⊢
          rw [chunks, hb, ← hxs]
          rfl
      · exact ih got hc hlen
      · simp [chunks] at hc

theorem writeLoop_accepted {evs : List WriteEvent} (h : Accepts evs) :
    ∀ bytes, ∃ rest, writeLoop bytes evs = (some sockerrOk, bytes, rest) ∧ Accepts rest := by
  induction evs with
  | nil => exact fun bytes => ⟨[], rfl, h⟩
  | cons e evs ih =>
    intro bytes
    have htail : Accepts evs := fun e' he' => h e' (List.mem_cons_of_mem _ he')
    unfold writeLoop
    by_cases hb : bytes = []
    · exact ⟨e :: evs, by rw [if_pos hb, hb], h⟩
    · rw [if_neg hb]
      rcases h e (by simp) with rfl | ⟨n, rfl⟩
      · exact ih htail bytes
      · -- a part is written now, the rest by the writes that follow
        obtain ⟨rest, hr, hrest⟩ := ih htail (bytes.drop n)
        exact ⟨rest, by simp [hr], hrest⟩

/-! ## A connection without failures -/

/-- **A connection without failures**: `xs` is still to be read, `out` has been sent, `k`
operations have been called, and whether every string passed on was bounded is `b`. -/
structure At (xs out : List UInt8) (k : ℕ) (b : Prop) (c : Conn) : Prop where
  reads : chunks c.reads = some xs
  writes : Accepts c.writes
  out : c.out = out
  calls : c.calls = k
  bounded : c.Bounded ↔ b

/-- What a statement never does on such a connection. -/
abbrev never {α : Type} (_ : α) : Prop := False

section Handlers

open Program

variable {env : Env} {xs out : List UInt8} {k : ℕ} {b : Prop}

theorem newMemory_at {ρ : Type} {size : ℕ} {R : ρ → Conn → Prop} {B : Conn → Prop} :
    Triple (At xs out k b) (newMemory env size : Program Conn ρ Buf)
      (fun v c => v.got = 0 ∧ At xs out k b c) R B :=
  fun _ hc => ⟨rfl, hc.reads, hc.writes, hc.out, hc.calls, hc.bounded⟩

theorem readOrClose_at {buf : Buf} {w : List UInt8} (hbuf : w = [] → buf.got = 0)
    {R : ℤ → Conn → Prop} :
    Triple (At (w ++ xs) out k b) (readOrClose buf w.length)
      (fun v c => v = buf.fill w ∧ At xs out k b c) R never := by
  intro c hc
  have hloop : ∃ c', (sockRead buf w.length : Program Conn ℤ (ℤ × Buf)) c =
      (.value ((w.length : ℤ), buf.fill w), c') ∧ At xs out k b c' := by
    unfold sockRead
    by_cases hw : w = []
    · -- nothing is read, and nothing is there
      subst hw
      refine ⟨c, ?_, hc⟩
      obtain ⟨size, mem, got⟩ := buf
      obtain rfl : got = 0 := hbuf rfl
      rfl
    · have hpos : 0 < w.length := List.length_pos_iff.mpr hw
      rw [if_neg (by omega)]
      obtain ⟨rest, hr, hrest⟩ :=
        readLoop_delivered [] hc.reads (Nat.zero_add w.length)
      rw [Int.toNat_natCast, hr]
      dsimp only
      rw [if_neg (by omega)]
      exact ⟨_, rfl, hrest, hc.writes, hc.out, hc.calls, hc.bounded⟩
  obtain ⟨c', hread, hc'⟩ := hloop
  have hne : (w.length : ℤ) ≠ sockerrClosed := by
    simp only [sockerrClosed, ne_eq]
    omega
  simp only [readOrClose, Bind.bind, hread, if_neg hne]
  exact ⟨rfl, hc'⟩

theorem toInt_fill {buf : Buf} {v : ℤ} (hv : InRange v) : (buf.fill (encode32 v)).toInt = v :=
  decode32_encode32 hv rfl

theorem readWord_at {v : ℤ} {R : ℤ → Conn → Prop} :
    Triple (At (encode32 v ++ xs) out k b) (readWord env)
      (fun w c => (InRange v → w.toInt = v) ∧ At xs out k b c) R never := by
  refine Triple.bind newMemory_at fun w => ?_
  intro c hc
  refine Triple.post (readOrClose_at (w := encode32 v) (by simp [encode32]))
    (fun u d hd => ?_) c hc.2
  exact ⟨fun hv => hd.1 ▸ toInt_fill hv, hd.2⟩

/-- Nothing about bounded strings is said by other events. -/
theorem record_at {ρ : Type} {e : Event} {R : ρ → Conn → Prop} {B : Conn → Prop} :
    Triple (At xs out k b) (record e) (fun _ c => At xs out k (b ∧ e.Bounded) c) R B :=
  fun _ hc => ⟨hc.reads, hc.writes, hc.out, hc.calls,
    (Conn.bounded_concat rfl).trans (and_congr_left' hc.bounded)⟩

theorem readLength_at {v : ℤ} {R : ℤ → Conn → Prop} :
    Triple (At (encode32 v ++ xs) out k b) (readLength env)
      (fun w c => (InRange v → w.toInt = v) ∧ At xs out k b c) R never := by
  refine Triple.bind readWord_at fun w => ?_
  rintro c ⟨hw, hc⟩
  refine ⟨hw, hc.reads, hc.writes, hc.out, hc.calls, ?_⟩
  exact (Conn.bounded_concat rfl).trans
    ((and_iff_left trivial).trans hc.bounded)

/-- A string is bounded if its terminator has been sent; one of negative length is not. -/
theorem readString_at {len : Buf} {bytes : List UInt8} (hbytes : bytes.length = len.toInt.toNat)
    {R : ℤ → Conn → Prop} :
    Triple (At (bytes ++ xs) out k b) (readString env len)
      (fun a c => (a.Bounded ↔ 0 ∈ bytes) ∧ At xs out k b c) R never := by
  unfold readString malloc
  by_cases hneg : len.toInt < 0
  · -- a null pointer, and no bytes
    rw [if_pos hneg]
    obtain rfl : bytes = [] := List.length_eq_zero_iff.mp (by omega)
    refine Triple.pure fun c hc => ⟨?_, hc⟩
    exact iff_of_false id List.not_mem_nil
  · rw [if_neg hneg]
    have hlen : len.toInt = (bytes.length : ℤ) := by omega
    refine Triple.bind (V := fun v c => ∃ u, v = some u ∧ u.got = 0 ∧ At (bytes ++ xs) out k b c)
      (Triple.bind newMemory_at fun u => Triple.pure fun c hc => ⟨u, rfl, hc⟩) fun v => ?_
    rintro c ⟨u, rfl, hu, hc⟩
    rw [hlen]
    refine Triple.bind (readOrClose_at fun _ => hu) (fun v => Triple.pure fun d hd => ?_) c hc
    exact ⟨hd.1 ▸ terminated_fill, hd.2⟩

theorem readOperand_at {o : Operand} {v : Value} (hfit : Fits o v) (hv : v.WellFormed) :
    Triple (At (v.encode ++ xs) out k b) (readOperand env o)
      (fun a c => exitOf o v = none ∧ (a.Bounded ↔ OperandBounded o v) ∧ At xs out k b c)
      (fun r c => exitOf o v = some r ∧ At xs out k b c) never := by
  cases v with
  | int v =>
    cases o with
    | int =>
      exact Triple.bind readWord_at fun w => Triple.pure fun c hc => ⟨rfl, Iff.rfl, hc.2⟩
    | str | strOrNull | strOrFail | strOrSkip => exact absurd hfit id
  | str len bytes =>
    obtain ⟨hlen, hbytes⟩ := hv
    have hlength : Triple (At ((Value.str len bytes).encode ++ xs) out k b) (readLength env)
        (fun w c => w.toInt = len ∧ At (bytes ++ xs) out k b c)
        (fun r c => exitOf o (.str len bytes) = some r ∧ At xs out k b c) never := by
      rw [Value.encode, List.append_assoc]
      exact readLength_at.post fun w c hc => ⟨hc.1 hlen, hc.2⟩
    have hstring : ∀ w : Buf, w.toInt = len →
        Triple (At (bytes ++ xs) out k b) (readString env w)
          (fun a c => (a.Bounded ↔ 0 ∈ bytes) ∧ At xs out k b c)
          (fun r c => exitOf o (.str len bytes) = some r ∧ At xs out k b c) never := fun w hw =>
      readString_at (by rw [hw, hbytes])
    -- a length of zero comes without bytes
    have hzero : len = 0 → bytes = [] := fun h0 => List.length_eq_zero_iff.mp (by simp [hbytes, h0])
    cases o with
    | int => exact absurd hfit id
    | str =>
      refine Triple.bind hlength fun w => ?_
      rintro c ⟨hw, hc⟩
      exact (hstring w hw).post (fun _ _ h => ⟨rfl, h⟩) c hc
    | strOrNull =>
      refine Triple.bind hlength fun w => ?_
      rintro c ⟨hw, hc⟩
      refine Triple.ite (fun h0 => Triple.pure fun d hd => ?_) (fun h0 => ?_) c hc
      · -- a null pointer is passed on
        obtain rfl := hzero (hw ▸ h0)
        exact ⟨rfl, iff_of_false id List.not_mem_nil, hd⟩
      · exact (hstring w hw).post fun _ _ h => ⟨rfl, h⟩
    | strOrFail | strOrSkip =>
      refine Triple.bind hlength fun w => ?_
      rintro c ⟨hw, hc⟩
      refine Triple.ite (fun h0 => Triple.exit fun d hd => ?_) (fun h0 => ?_) c hc
      · rw [hzero (hw ▸ h0), List.nil_append] at hd
        exact ⟨if_pos (hw ▸ h0), hd⟩
      · exact (hstring w hw).post fun _ _ h => ⟨if_neg (hw ▸ h0), h⟩

theorem exitOf_of_ne {o : Operand} (ho : o ≠ Operand.strOrFail ∧ o ≠ Operand.strOrSkip)
    (v : Value) : exitOf o v = none := by
  obtain ⟨hfail, hskip⟩ := ho
  cases o <;> cases v <;> first | rfl | exact absurd rfl hfail | exact absurd rfl hskip

/-- **The operands** are read one after the other; nothing is left where the handler returns
early. -/
theorem readOperands_at {os : List Operand} {vs : List Value} (hfit : List.Forall₂ Fits os vs)
    (hvs : ∀ v ∈ vs, v.WellFormed) (hlast : ExitsLast os) :
    Triple (At (encodeOperands vs ++ xs) out k b) (readOperands env os)
      (fun args c => exitsOf os vs = none ∧
        ((∀ a ∈ args, a.Bounded) ↔ List.Forall₂ OperandBounded os vs) ∧ At xs out k b c)
      (fun r c => exitsOf os vs = some r ∧ At xs out k b c) never := by
  induction hfit with
  | nil => exact Triple.pure fun c hc => ⟨rfl, by simp, hc⟩
  | @cons o v os vs ho hfit ih =>
    have hv := hvs v (by simp)
    have ih := ih (fun u hu => hvs u (List.mem_cons_of_mem _ hu)) fun p hp => by
      apply hlast p
      cases os with
      | nil => simp at hp
      | cons o' os => exact List.mem_cons_of_mem _ hp
    have henc : encodeOperands (v :: vs) ++ xs = v.encode ++ (encodeOperands vs ++ xs) := by
      simp [encodeOperands]
    -- an early return at this operand leaves no operand behind
    have hleft : ∀ r, exitOf o v = some r → encodeOperands vs ++ xs = xs := by
      intro r hr
      cases hfit with
      | nil => rfl
      | @cons o' v' os vs =>
        rw [exitOf_of_ne (hlast o (by simp)) v] at hr
        cases hr
    rw [henc]
    refine Triple.bind ((readOperand_at ho hv).returns fun r c hc => ?_) fun a => ?_
    · exact ⟨by simp [exitsOf, hc.1], hleft r hc.1 ▸ hc.2⟩
    rintro c ⟨hnone, ha, hc⟩
    have hexits : exitsOf (o :: os) (v :: vs) = exitsOf os vs := by simp [exitsOf, hnone]
    rw [hexits]
    refine Triple.bind ih (fun args => Triple.pure fun d hd => ?_) c hc
    exact ⟨hd.1, by simp [ha, hd.2.1], hd.2.2⟩

/-! ## The reply -/

/-- The bytes of an item of the reply. -/
def replyItem (res : OpResult) : Reply → List UInt8
  | .ret => encode32 res.ret
  | .zero => encode32 0
  | .int n => encode32 (res.ints.getD n 0)
  | .str n => encode32 (res.strs.getD n []).length ++ res.strs.getD n []

/-- The bytes of a reply. -/
def replyBytes (res : OpResult) (rs : List Reply) : List UInt8 := rs.flatMap (replyItem res)

/-- What a handler returns after its reply. -/
def Handler.result (h : Handler) (res : OpResult) : ℤ :=
  match h.returned with
  | .zero => 0
  | .ret => res.ret

theorem callOp_at {op : String} {args : List Arg} {R : ℤ → Conn → Prop} {B : Conn → Prop} :
    Triple (At xs out k b) (callOp env op args)
      (fun res c => res = env.op k op ∧ At xs out (k + 1) (b ∧ ∀ a ∈ args, a.Bounded) c) R B := by
  intro c hc
  refine ⟨by rw [hc.calls], hc.reads, hc.writes, hc.out, congrArg (· + 1) hc.calls, ?_⟩
  exact (Conn.bounded_concat (e := Event.call op args) rfl).trans (and_congr_left' hc.bounded)

theorem sockWrite_at {c : Conn} (hc : At xs out k b c) (bytes : List UInt8) {ρ : Type} :
    ∃ d, (sockWrite bytes : Program Conn ρ ℤ) c = (.value sockerrOk, d) ∧
      At xs (out ++ bytes) k b d := by
  obtain ⟨rest, hw, hrest⟩ := writeLoop_accepted hc.writes bytes
  unfold sockWrite
  rw [hw]
  exact ⟨_, rfl, hc.reads, hrest, congrArg (· ++ bytes) hc.out, hc.calls, hc.bounded⟩

theorem writeOrClose_at {bytes : List UInt8} {R : ℤ → Conn → Prop} :
    Triple (At xs out k b) (writeOrClose bytes) (fun _ c => At xs (out ++ bytes) k b c) R
      never := by
  intro c hc
  obtain ⟨d, hw, hd⟩ := sockWrite_at hc bytes (ρ := ℤ)
  simp only [writeOrClose, Bind.bind, hw]
  exact hd

theorem writeReply_at {res : OpResult} (r : Reply) {R : ℤ → Conn → Prop} :
    Triple (At xs out k b) (writeReply res r) (fun _ c => At xs (out ++ replyItem res r) k b c) R
      never := by
  cases r with
  | ret | zero | int n => exact writeOrClose_at
  | str n =>
    refine Triple.bind writeOrClose_at fun _ => ?_
    rw [replyItem, ← List.append_assoc]
    exact writeOrClose_at

theorem writeReplies_at {res : OpResult} (rs : List Reply) {R : ℤ → Conn → Prop} :
    Triple (At xs out k b) (writeReplies res rs)
      (fun _ c => At xs (out ++ replyBytes res rs) k b c) R never := by
  induction rs generalizing out with
  | nil => exact Triple.pure fun c hc => by simpa [replyBytes] using hc
  | cons r rs ih =>
    refine Triple.bind (writeReply_at r) fun _ => ?_
    have h : out ++ replyBytes res (r :: rs) = out ++ replyItem res r ++ replyBytes res rs := by
      simp [replyBytes]
    rw [h]
    exact ih

/-- **A handler** returns early, or calls its operation and replies. -/
theorem serve_at {h : Handler} {vs : List Value} (hfit : List.Forall₂ Fits h.operands vs)
    (hvs : ∀ v ∈ vs, v.WellFormed) (hlast : ExitsLast h.operands) :
    Triple (At (encodeOperands vs ++ xs) out k b) (serve env h)
      (fun r c => exitsOf h.operands vs = none ∧ r = h.result (env.op k h.op) ∧
        At xs (out ++ replyBytes (env.op k h.op) h.reply) (k + 1)
          (b ∧ List.Forall₂ OperandBounded h.operands vs) c)
      (fun r c => exitsOf h.operands vs = some r ∧ At xs out k b c) never := by
  refine Triple.bind (readOperands_at hfit hvs hlast) fun args => ?_
  rintro c ⟨hnone, hargs, hc⟩
  refine Triple.bind callOp_at (fun res => ?_) c hc
  rintro d ⟨rfl, hd⟩
  rw [hargs] at hd
  refine Triple.bind (writeReplies_at h.reply) (fun _ => ?_) d hd
  unfold Handler.result
  cases h.returned with
  | zero => exact Triple.pure fun e he => ⟨hnone, rfl, he⟩
  | ret => exact Triple.pure fun e he => ⟨hnone, rfl, he⟩

/-! ## A round -/

/-- What the handler of `e` returns for the operands `vs`, as the `k`-th call. -/
def FunMap.ret (env : Env) (k : ℕ) (e : FunMap) (vs : List Value) : ℤ :=
  (exitsOf e.handler.operands vs).getD (e.handler.result (env.op k e.handler.op))

/-- What it replies. -/
def FunMap.reply (env : Env) (k : ℕ) (e : FunMap) (vs : List Value) : List UInt8 :=
  if exitsOf e.handler.operands vs = none then replyBytes (env.op k e.handler.op) e.handler.reply
  else []

/-- How many operations it calls. -/
def FunMap.calls (e : FunMap) (vs : List Value) : ℕ :=
  if exitsOf e.handler.operands vs = none then 1 else 0

/-- If it calls its operation, every string it hands on is bounded. -/
def FunMap.BoundedCall (e : FunMap) (vs : List Value) : Prop :=
  exitsOf e.handler.operands vs = none → List.Forall₂ OperandBounded e.handler.operands vs

theorem At.congr {c : Conn} {b' : Prop} (h : At xs out k b c) (hb : b ↔ b') : At xs out k b' c :=
  ⟨h.reads, h.writes, h.out, h.calls, h.bounded.trans hb⟩

/-- The handler of `e` has returned `ret`. -/
def FunMap.Done (env : Env) (xs out : List UInt8) (k : ℕ) (b : Prop) (e : FunMap)
    (vs : List Value) (ret : ℤ) (c : Conn) : Prop :=
  ret = e.ret env k vs ∧
    At xs (out ++ e.reply env k vs) (k + e.calls vs) (b ∧ e.BoundedCall vs) c

/-- The handler of an entry, by what it returns, replies and calls. -/
theorem serve_entry_at (env : Env) {e : FunMap} {vs : List Value} (he : e ∈ map)
    (hfit : List.Forall₂ Fits e.handler.operands vs) (hvs : ∀ v ∈ vs, v.WellFormed)
    {R : ℤ → Conn → Prop} :
    Triple (At (encodeOperands vs ++ xs) out k b) (call (serve env e.handler))
      (e.Done env xs out k b vs) R never := by
  refine Triple.call (((serve_at hfit hvs (map_exitsLast e he)).post ?_).returns ?_)
  · rintro ret c ⟨hnone, rfl, hc⟩
    simp only [FunMap.Done, FunMap.ret, FunMap.reply, FunMap.calls, FunMap.BoundedCall, hnone,
      Option.getD_none, if_true, true_imp_iff]
    exact ⟨trivial, hc⟩
  · rintro ret c ⟨hsome, hc⟩
    simp only [FunMap.Done, FunMap.ret, FunMap.reply, FunMap.calls, FunMap.BoundedCall, hsome,
      Option.getD_some, reduceCtorEq, if_false, false_imp_iff, and_true, List.append_nil,
      Nat.add_zero]
    exact ⟨trivial, hc⟩

/-- On a name that is terminated, `strcmp` finds the entry the request names. -/
theorem strcmpEq_iff {s : List UInt8} (hs : 0 ∉ s) :
    ∀ {name : List UInt8} {mem : ℕ → UInt8}, (∀ i < name.length, name[i]? = some (mem i)) →
      0 ∈ name → (strcmpEq s mem ↔ s ++ [0] <+: name) := by
  induction s with
  | nil =>
    intro name mem hmem h0
    obtain ⟨a, l, rfl⟩ := List.exists_cons_of_ne_nil (List.ne_nil_of_mem h0)
    have ha : a = mem 0 := by simpa using hmem 0 (by simp)
    simp only [strcmpEq, beq_iff_eq, ← ha, List.nil_append, List.cons_prefix_cons,
      List.nil_prefix, and_true]
    exact eq_comm
  | cons c s ih =>
    intro name mem hmem h0
    obtain ⟨a, l, rfl⟩ := List.exists_cons_of_ne_nil (List.ne_nil_of_mem h0)
    have ha : a = mem 0 := by simpa using hmem 0 (by simp)
    rw [List.mem_cons, not_or] at hs
    rw [List.cons_append, List.cons_prefix_cons, strcmpEq, Bool.and_eq_true, beq_iff_eq, ← ha,
      eq_comm]
    refine and_congr_right fun hca => ih hs.2 (fun i hi => ?_) ?_
    · simpa using hmem (i + 1) (by simpa using hi)
    -- the terminator is not the byte just compared
    · exact (List.mem_cons.mp h0).resolve_left fun h => hs.1 (h.trans hca.symm)

theorem fill_mem {buf : Buf} {bytes : List UInt8} :
    ∀ i < bytes.length, bytes[i]? = some ((buf.fill bytes).mem i) := by
  intro i hi
  simp [Buf.fill, List.getElem?_eq_getElem hi]

/-- The name of a request is read and compared. -/
theorem recBody_at {r : Request} {len : Buf} (hr : r.WellFormed) (hpos : 0 < r.nameLen)
    {E : ℤ → Conn → Prop} {B : Conn → Prop}
    (hrest : ∀ name : Buf, (∃ buf : Buf, name = buf.fill r.name) →
      Triple (At (encodeOperands r.operands ++ xs) out k (b ∧ 0 ∈ r.name))
        (dispatch env name map 0) E E B) (hB : ∀ c, never c → B c) :
    Triple (At (r.encode ++ xs) out k b) (recBody env len) (fun p c => E p.1 c) E B := by
  have henc : r.encode ++ xs =
      encode32 r.nameLen ++ (r.name ++ (encodeOperands r.operands ++ xs)) := by
    simp [Request.encode]
  rw [henc]
  refine Triple.bind ((readOrClose_at (w := encode32 r.nameLen) (by simp [encode32])).blocks hB)
    fun len' => ?_
  rintro c ⟨rfl, hc⟩
  rw [toInt_fill hr.nameLen]
  refine Triple.ite (fun hle => absurd hle (by omega)) (fun _ => ?_) c hc
  have hname : r.nameLen = (r.name.length : ℤ) := by
    have := hr.name
    omega
  rw [hname]
  refine Triple.bind newMemory_at fun buf => ?_
  rintro c ⟨-, hc⟩
  refine Triple.bind ((readOrClose_at fun h => ?_).blocks hB) (fun name => ?_) c hc
  · rw [h] at hname
    simp only [List.length_nil] at hname
    omega
  rintro c ⟨rfl, hc⟩
  refine Triple.bind record_at (fun _ => ?_) c hc
  have hterm : (Event.compare (len.fill (encode32 ↑r.name.length)) (buf.fill r.name)).Bounded ↔
      0 ∈ r.name := terminated_fill
  rw [hterm]
  exact Triple.bind (hrest _ ⟨buf, rfl⟩) fun ret => Triple.pure fun c hc => hc

/-- The end of a request on a connection without failures. -/
theorem recOut_at {ret : ℤ} {len : Buf} {c : Conn} (hc : At xs out k b c) :
    (ret = 0 → (recOut ret len c).status = Status.running ∧
      At xs (out ++ encode32 0) k b (recOut ret len c).conn) ∧
    (ret ≠ 0 → (recOut ret len c).status = Status.closed ∧
      At xs out k b (recOut ret len c).conn) := by
  constructor
  · rintro rfl
    obtain ⟨d, hw, hd⟩ := sockWrite_at hc (encode32 0) (ρ := ℤ)
    rw [recOut, if_pos rfl, hw]
    exact ⟨rfl, hd⟩
  · intro hret
    rw [recOut, if_neg hret]
    exact ⟨rfl, hc⟩

/-- **A request** for an entry of the table is answered by its handler, and followed by the
completion word unless the handler closes the connection. -/
theorem recRound_at (env : Env) {t : RecThread} {r : Request} {e : FunMap} (hr : r.For e)
    (hrun : t.status = Status.running) (hc : At (r.encode ++ xs) out k b t.conn) :
    (e.ret env k r.operands = 0 →
      (recRound env t).status = Status.running ∧
      At xs (out ++ e.reply env k r.operands ++ encode32 0) (k + e.calls r.operands)
        (b ∧ e.BoundedCall r.operands) (recRound env t).conn) ∧
    (e.ret env k r.operands ≠ 0 →
      (recRound env t).status = Status.closed ∧
      At xs (out ++ e.reply env k r.operands) (k + e.calls r.operands)
        (b ∧ e.BoundedCall r.operands) (recRound env t).conn) := by
  have h0 : 0 ∈ r.name := hr.names.subset (by simp)
  have hpos : 0 < r.nameLen := by
    have hlen := hr.wellFormed.name
    have := List.length_pos_of_mem h0
    omega
  refine recRound_of_body (E := e.Done env xs out k b r.operands) (B := fun _ => False)
    (I := fun t' => (e.ret env k r.operands = 0 → t'.status = Status.running ∧ At _ _ _ _ t'.conn) ∧
      (e.ret env k r.operands ≠ 0 → t'.status = Status.closed ∧ At _ _ _ _ t'.conn))
    (recBody_at hr.wellFormed hpos ?_ fun _ h => h) ?_ (fun _ h => absurd h id) hrun hc
  · -- the entry is found, so its handler runs
    rintro name ⟨buf, rfl⟩ c hc
    have hname : strcmpEq (cString e.funName) (buf.fill r.name).mem :=
      (strcmpEq_iff (map_names_terminated e hr.entry) fill_mem h0).mpr hr.names
    have hserve := serve_entry_at env (R := e.Done env xs out k b r.operands) hr.entry hr.fits
      hr.wellFormed.operands c (hc.congr (and_iff_left h0))
    rwa [← dispatch_map 0 hr.entry hname] at hserve
  · rintro ret len c ⟨rfl, hc⟩
    exact recOut_at hc

end Handlers

end RkIpc.Server
