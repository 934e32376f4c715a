import RkIpc.Server.RecThread

/-!
# What the server acts on has been read

Handlers and dispatcher test the result of `sock_read` against `SOCKERR_CLOSED` only. A read that
fails with `SOCKERR_IO`, and a negative length, for which `sock_read` reads nothing and reports
success, go unnoticed: the server compares and passes on what memory held before.

## Main definitions

* `Arg.Complete`, `Event.Complete`: what is passed on has been read from the socket as a whole
* `Event.Undisturbed`: no read has failed with `SOCKERR_IO`, and no length is negative

## Main results

* `actsOnComplete_of_undisturbed`: under that condition the server acts on what it has read, and
  closes the connection after a failed read
* `actsOnUnread`: after a read error it does not
-/

namespace RkIpc.Server

open Imperative Wire

/-- All bytes of the argument have been read. A null pointer stands for a string that is not
given. -/
def Arg.Complete : Arg → Prop
  | .int v => v.got = 4
  | .str len none => len.got = 4 ∧ len.toInt = 0
  | .str len (some value) => len.got = 4 ∧ (value.got : ℤ) = len.toInt

/-- **A name is compared, and an operation called, only with what has been read.** -/
def Event.Complete : Event → Prop
  | .compare len name => len.got = 4 ∧ (name.got : ℤ) = len.toInt
  | .call _ args => ∀ a ∈ args, a.Complete
  | _ => True

/-- **Undisturbed**: the failure of a read is the end of the stream, and no length is negative. -/
def Event.Undisturbed : Event → Prop
  | .readFailed r => r ≠ sockerrIo
  | .length len => 0 ≤ len.toInt
  | _ => True

namespace Conn

/-- Nothing recorded has disturbed the connection. -/
def Undisturbed (c : Conn) : Prop := ∀ e ∈ c.log, e.Undisturbed

/-- Everything recorded is complete. -/
def Complete (c : Conn) : Prop := ∀ e ∈ c.log, e.Complete

/-- A read has failed. -/
def Failed (c : Conn) : Prop := ∃ r, Event.readFailed r ∈ c.log

/-- On an undisturbed connection all is complete, and no read has failed yet. -/
def Fine (X : Prop) (c : Conn) : Prop := c.Undisturbed → c.Complete ∧ ¬ c.Failed ∧ X

/-- On an undisturbed connection all is complete, and after a failed read `ret` is not zero. -/
def Ends (ret : ℤ) (c : Conn) : Prop := c.Undisturbed → c.Complete ∧ (c.Failed → ret ≠ 0)

theorem Fine.ends {X : Prop} {c : Conn} (h : c.Fine X) (ret : ℤ) : c.Ends ret := fun hu =>
  ⟨(h hu).1, fun hf => absurd hf (h hu).2.1⟩

theorem Fine.mono {X Y : Prop} {c : Conn} (h : c.Fine X) (hXY : X → Y) : c.Fine Y := fun hu =>
  ⟨(h hu).1, (h hu).2.1, hXY (h hu).2.2⟩

/-- A further event that is complete and no failure leaves a connection fine. -/
theorem Fine.concat {X : Prop} {c d : Conn} {e : Event} (h : c.Fine X)
    (hlog : d.log = c.log ++ [e]) (he : X → e.Undisturbed → e.Complete)
    (hne : ∀ r, e ≠ Event.readFailed r) : d.Fine (X ∧ e.Undisturbed) := by
  intro hu
  have hmem : ∀ f, f ∈ d.log ↔ f ∈ c.log ∨ f = e := by simp [hlog]
  obtain ⟨hc, hf, hX⟩ := h fun f hf => hu f ((hmem f).mpr (Or.inl hf))
  have heu : e.Undisturbed := hu e ((hmem e).mpr (Or.inr rfl))
  refine ⟨fun f hf => ?_, fun ⟨r, hr⟩ => ?_, hX, heu⟩
  · rcases (hmem f).mp hf with hf | rfl
    · exact hc f hf
    · exact he hX heu
  · rcases (hmem _).mp hr with hr | hr
    · exact hf ⟨r, hr⟩
    · exact hne r hr.symm

end Conn

open Conn Program

/-! ## The operations -/

/-- A read on a fine connection: if its result is not `SOCKERR_CLOSED`, all bytes have arrived. -/
theorem sockRead_fine {buf : Buf} {count : ℤ} {X : Prop}
    (hcount : X → 0 < count ∨ (count = 0 ∧ buf.got = 0)) :
    Triple (Fine X) (sockRead buf count)
      (fun p c => (p.1 = sockerrClosed → c.Ends (-1)) ∧
        (p.1 ≠ sockerrClosed → c.Fine (X ∧ (p.2.got : ℤ) = count)))
      Ends (Fine X) := by
  intro c hc
  unfold sockRead
  split
  · -- nothing to read
    rename_i hle
    refine ⟨fun h => by simp [sockerrOk, sockerrClosed] at h, fun _ => hc.mono fun hX => ⟨hX, ?_⟩⟩
    change (buf.got : ℤ) = count
    have := hcount hX
    omega
  · rename_i hpos
    split
    · exact hc
    · rename_i r got reads hloop
      rcases readLoop_cases (by simp) hloop with ⟨rfl, hgot⟩ | rfl | rfl
      · rw [if_neg (by omega)]
        refine ⟨fun h => ?_, fun _ hu => ?_⟩
        · simp only [sockerrClosed] at h
          omega
        · obtain ⟨h₁, h₂, h₃⟩ := hc hu
          refine ⟨h₁, h₂, h₃, ?_⟩
          simp only [Buf.fill, hgot]
          omega
      -- the connection is disturbed from now on
      · rw [if_pos (by decide)]
        refine ⟨fun h => by simp [sockerrIo, sockerrClosed] at h, fun _ hu => ?_⟩
        exact absurd rfl (hu (Event.readFailed sockerrIo) (by simp))
      · rw [if_pos (by decide)]
        refine ⟨fun _ hu => ?_, fun h => absurd rfl h⟩
        obtain ⟨h₁, -, -⟩ := hc fun e he => hu e (List.mem_append_left _ he)
        refine ⟨fun e he => ?_, fun _ => by decide⟩
        rcases List.mem_append.mp he with he | he
        · exact h₁ e he
        · obtain rfl := List.mem_singleton.mp he
          trivial

theorem newMemory_fine {ρ : Type} {env : Env} {size : ℕ} {X : Prop} {R : ρ → Conn → Prop}
    {B : Conn → Prop} :
    Triple (Fine X) (newMemory env size : Program Conn ρ Buf)
      (fun b c => c.Fine (X ∧ b.got = 0)) R B :=
  fun _ hc => hc.mono fun hX => ⟨hX, rfl⟩

theorem readOrClose_fine {buf : Buf} {count : ℤ} {X : Prop}
    (hcount : X → 0 < count ∨ (count = 0 ∧ buf.got = 0)) :
    Triple (Fine X) (readOrClose buf count) (fun b c => c.Fine (X ∧ (b.got : ℤ) = count)) Ends
      (Fine True) := by
  refine Triple.bind ((sockRead_fine hcount).blocks fun _ h => h.mono fun _ => trivial)
    fun ⟨r, b⟩ => ?_
  refine Triple.ite (fun hr => ?_) fun hr => ?_
  · exact Triple.exit fun c hc => hc.1 hr
  · exact Triple.pure fun c hc => hc.2 hr

theorem record_fine {ρ : Type} {e : Event} {X : Prop} {R : ρ → Conn → Prop} {B : Conn → Prop}
    (he : X → e.Undisturbed → e.Complete) (hne : ∀ r, e ≠ Event.readFailed r) :
    Triple (Fine X) (record e) (fun _ c => c.Fine (X ∧ e.Undisturbed)) R B :=
  fun _ hc => hc.concat rfl he hne

theorem sockWrite_fine {bytes : List UInt8} {X : Prop} {ρ : Type} {R : ρ → Conn → Prop} :
    Triple (Fine X) (sockWrite bytes) (fun _ c => c.Fine X) R (Fine X) := by
  intro c hc
  unfold sockWrite
  split <;> exact hc

/-! ## The handlers -/

theorem readWord_fine {env : Env} {X : Prop} :
    Triple (Fine X) (readWord env) (fun v c => c.Fine (X ∧ v.got = 4)) Ends (Fine True) := by
  refine Triple.bind newMemory_fine fun v => ?_
  refine (readOrClose_fine fun _ => Or.inl (by decide)).post fun b c hc => ?_
  exact hc.mono fun h => ⟨h.1.1, by exact_mod_cast h.2⟩

theorem readLength_fine {env : Env} {X : Prop} :
    Triple (Fine X) (readLength env) (fun v c => c.Fine (X ∧ v.got = 4 ∧ 0 ≤ v.toInt)) Ends
      (Fine True) := by
  refine Triple.bind readWord_fine fun v => ?_
  refine Triple.bind (record_fine (fun _ _ => trivial) (by simp)) fun _ => ?_
  exact Triple.pure fun c hc => hc.mono fun h => ⟨h.1.1, h.1.2, h.2⟩

/-- A string whose length is known to be nonnegative arrives as a whole. -/
theorem readString_fine {env : Env} {len : Buf} {X : Prop}
    (hlen : X → len.got = 4 ∧ 0 ≤ len.toInt) :
    Triple (Fine X) (readString env len) (fun a c => c.Fine (X ∧ a.Complete)) Ends
      (Fine True) := by
  unfold readString malloc
  by_cases hneg : len.toInt < 0
  · -- no connection with such a length is undisturbed
    rw [if_pos hneg]
    exact Triple.pure fun c hc => hc.mono fun hX => absurd (hlen hX).2 (by omega)
  · rw [if_neg hneg]
    refine Triple.bind (V := fun v c => ∃ b, v = some b ∧ c.Fine (X ∧ b.got = 0))
      (Triple.bind newMemory_fine fun b => Triple.pure fun c hc => ⟨b, rfl, hc⟩) fun v => ?_
    rintro c ⟨b, rfl, hc⟩
    refine Triple.bind (readOrClose_fine fun h => ?_) (fun v => Triple.pure fun d hd => ?_) c hc
    · have := h.2
      omega
    · exact hd.mono fun h => ⟨h.1.1, (hlen h.1.1).1, h.2⟩

theorem readOperand_fine {env : Env} {X : Prop} (o : Operand) :
    Triple (Fine X) (readOperand env o) (fun a c => c.Fine (X ∧ a.Complete)) Ends
      (Fine True) := by
  have hstring : ∀ len : Buf, Triple (Fine (X ∧ len.got = 4 ∧ 0 ≤ len.toInt))
      (readString env len) (fun a c => c.Fine (X ∧ a.Complete)) Ends (Fine True) := fun len =>
    (readString_fine fun h => h.2).post fun _ _ h => h.mono fun h => ⟨h.1.1, h.2⟩
  cases o with
  | int =>
    exact Triple.bind readWord_fine fun v => Triple.pure fun c hc => hc
  | str => exact Triple.bind readLength_fine hstring
  | strOrNull =>
    refine Triple.bind readLength_fine fun len => Triple.ite (fun h0 => ?_) fun _ => hstring len
    exact Triple.pure fun c hc => hc.mono fun h => ⟨h.1, h.2.1, h0⟩
  | strOrFail | strOrSkip =>
    refine Triple.bind readLength_fine fun len => Triple.ite (fun _ => ?_) fun _ => hstring len
    exact Triple.exit fun c hc => hc.ends _

theorem readOperands_fine {env : Env} (os : List Operand) {X : Prop} :
    Triple (Fine X) (readOperands env os) (fun args c => c.Fine (X ∧ ∀ a ∈ args, a.Complete)) Ends
      (Fine True) := by
  induction os generalizing X with
  | nil => exact Triple.pure fun c hc => hc.mono fun h => ⟨h, by simp⟩
  | cons o os ih =>
    refine Triple.bind (readOperand_fine o) fun a => Triple.bind ih fun args => ?_
    refine Triple.pure fun c hc => hc.mono fun h => ⟨h.1.1, fun b hb => ?_⟩
    rcases List.mem_cons.mp hb with rfl | hb
    · exact h.1.2
    · exact h.2 b hb

theorem callOp_fine {env : Env} {op : String} {args : List Arg} {R : ℤ → Conn → Prop}
    {B : Conn → Prop} :
    Triple (Fine (∀ a ∈ args, a.Complete)) (callOp env op args) (fun _ c => c.Fine True) R B :=
  fun _ hc =>
    (hc.concat (e := Event.call op args) rfl (fun h _ => h) (by simp)).mono fun _ => trivial

theorem writeOrClose_fine {bytes : List UInt8} :
    Triple (Fine True) (writeOrClose bytes) (fun _ c => c.Fine True) Ends (Fine True) := by
  refine Triple.bind sockWrite_fine fun r => Triple.ite (fun _ => ?_) fun _ => ?_
  · exact Triple.exit fun c hc => hc.ends _
  · exact Triple.pure fun c hc => hc

theorem writeReplies_fine {res : OpResult} (rs : List Reply) :
    Triple (Fine True) (writeReplies res rs) (fun _ c => c.Fine True) Ends (Fine True) := by
  induction rs with
  | nil => exact Triple.pure fun c hc => hc
  | cons r rs ih =>
    refine Triple.bind ?_ fun _ => ih
    cases r with
    | ret | zero | int k => exact writeOrClose_fine
    | str k => exact Triple.bind writeOrClose_fine fun _ => writeOrClose_fine

/-- **A handler** calls its operation with what it has read. -/
theorem serve_fine {env : Env} (h : Handler) :
    Triple (Fine True) (serve env h) Ends Ends (Fine True) := by
  refine Triple.bind (readOperands_fine h.operands) fun args => ?_
  refine Triple.bind (callOp_fine.pre fun c hc => hc.mono fun h => h.2) fun res => ?_
  refine Triple.bind (writeReplies_fine h.reply) fun _ => ?_
  cases h.returned with
  | zero => exact Triple.pure fun c hc => hc.ends _
  | ret => exact Triple.pure fun c hc => hc.ends _

/-! ## The thread -/

theorem recBody_fine {env : Env} {len : Buf} :
    Triple (Fine True) (recBody env len) (fun p c => c.Ends p.1) Ends (Fine True) := by
  refine Triple.bind (readOrClose_fine fun _ => Or.inl (by decide)) fun len => ?_
  refine Triple.ite (fun _ => ?_) fun hpos => ?_
  · exact Triple.exit fun c hc => hc.ends _
  refine Triple.bind newMemory_fine fun name => ?_
  refine Triple.bind (readOrClose_fine fun _ => Or.inl (by omega)) fun name => ?_
  refine Triple.bind (record_fine (fun h _ => ?_) (by simp)) fun _ => ?_
  · exact ⟨by exact_mod_cast h.1.1.2, h.2⟩
  refine Triple.bind ?_ fun ret => Triple.pure fun c hc => hc
  exact (dispatch_triple (fun c hc => hc.ends 0) fun e _ => serve_fine e.handler).pre
    fun c hc => hc.mono fun _ => trivial

/-- On an undisturbed connection all is complete, and a failed read has closed it. -/
def RecThread.Fine (t : RecThread) : Prop :=
  t.conn.Undisturbed → t.conn.Complete ∧ (t.conn.Failed → t.status = Status.closed)

theorem recOut_fine {ret : ℤ} {len : Buf} {c : Conn} (hc : c.Ends ret) :
    (recOut ret len c).Fine := by
  rcases recOut_cases ret len c with ⟨-, h⟩ | ⟨hret, writes, out, status, h⟩ <;> rw [h]
  · exact fun hu => ⟨(hc hu).1, fun _ => rfl⟩
  -- no read has failed, or `ret` would not be zero
  · exact fun hu => ⟨(hc hu).1, fun hf => absurd hret ((hc hu).2 hf)⟩

theorem recRound_fine {env : Env} {t : RecThread} (ht : t.Fine) : (recRound env t).Fine := by
  cases hstatus : t.status with
  | running =>
    -- a thread that still runs has seen no failed read
    have hfine : t.conn.Fine True := fun hu =>
      ⟨(ht hu).1, fun hf => by simpa [hstatus] using (ht hu).2 hf, trivial⟩
    exact recRound_of_body recBody_fine (fun _ _ _ => recOut_fine)
      (fun c hc hu => ⟨(hc hu).1, fun hf => absurd hf (hc hu).2.1⟩) hstatus hfine
  | closed | blocked =>
    rw [recRound, hstatus]
    exact ht

/-- **What the server acts on has been read**: in every run in which no read fails with
`SOCKERR_IO` and no length is negative, every name compared and every argument passed on has been
read as a whole, and a failed read closes the connection. -/
theorem actsOnComplete_of_undisturbed (env : Env) (len : Buf) (reads : List ReadEvent)
    (writes : List WriteEvent) (n : ℕ)
    (hu : (recRounds env n (recStart len (Conn.accepted reads writes))).conn.Undisturbed) :
    (recRounds env n (recStart len (Conn.accepted reads writes))).conn.Complete ∧
    ((recRounds env n (recStart len (Conn.accepted reads writes))).conn.Failed →
      (recRounds env n (recStart len (Conn.accepted reads writes))).status = Status.closed) := by
  refine recRounds_invariant (I := RecThread.Fine) (fun t => recRound_fine) n ?_ hu
  obtain ⟨writes', out, status, h⟩ := recStart_cases len (Conn.accepted reads writes)
  rw [h]
  -- nothing has been recorded yet
  exact fun _ => ⟨fun e he => by simp [Conn.accepted] at he, fun ⟨r, hr⟩ => by
    simp [Conn.accepted] at hr⟩

instance : DecidablePred Arg.Complete
  | .int v => inferInstanceAs (Decidable (v.got = 4))
  | .str len none => inferInstanceAs (Decidable (len.got = 4 ∧ len.toInt = 0))
  | .str len (some value) => inferInstanceAs (Decidable (len.got = 4 ∧ (value.got : ℤ) = len.toInt))

instance : DecidablePred Event.Complete
  | .compare len name => inferInstanceAs (Decidable (len.got = 4 ∧ (name.got : ℤ) = len.toInt))
  | .call _ args => inferInstanceAs (Decidable (∀ a ∈ args, a.Complete))
  | .readFailed _ => isTrue trivial
  | .length _ => isTrue trivial

instance : DecidablePred Event.Undisturbed
  | .readFailed r => inferInstanceAs (Decidable (r ≠ sockerrIo))
  | .length len => inferInstanceAs (Decidable (0 ≤ len.toInt))
  | .compare _ _ => isTrue trivial
  | .call _ _ => isTrue trivial

instance (c : Conn) : Decidable c.Undisturbed := inferInstanceAs (Decidable (∀ e ∈ c.log, _))

instance (c : Conn) : Decidable c.Complete := inferInstanceAs (Decidable (∀ e ∈ c.log, _))

set_option maxRecDepth 20000 in
/-- A getter is served, and then the stream ends. -/
theorem actsOnComplete_of_undisturbed_getter :
    (recRounds Env.quiet 2 (recStart ⟨4, fun _ => 0, 0⟩ (Conn.accepted
      [.data (nameBytes "rk_isp_get_contrast"), .eintr, .data (encode32 0), .data []] []))
      ).conn.Complete :=
  (actsOnComplete_of_undisturbed Env.quiet _ _ _ 2 (by decide +kernel)).1

/-- The name of a getter arrives, and the read of its operand fails. -/
def readErrorRun : RecThread :=
  recRounds Env.quiet 1 (recStart ⟨4, fun _ => 0, 0⟩
    (Conn.accepted [.data (nameBytes "rk_isp_get_contrast"), .error] []))

set_option maxRecDepth 20000 in
/-- **After a read error** the operation is called with what memory held, and the connection
stays open. -/
theorem actsOnUnread : ¬ readErrorRun.conn.Complete ∧ readErrorRun.status = Status.running := by
  decide +kernel

end RkIpc.Server
