import RkIpc.Memory.Block
import RkIpc.Param.IniParser

/-!
# The output of a command

`exec_command` of `common/network/utility.c` reads the output of a command with `fgets`, chunk by
chunk, each behind the one before. The pointer is moved first, and the length that is left is then
reduced by the string at the new place, which is empty.

## Main definitions

* `execCommand`: the buffer after a command
* `Captured`: the longest prefix of the output that fits

## Main results

* `captureLoop_eq`: the loop writes the whole output, if there is room for it
* `execCommand_captured_iff`: the outputs that are captured
* `execCommand_overflow`: one that is not
-/

namespace RkIpc.Network

open Text Param

/-- `while (fgets(tmp_buff, len, stream))`, with `tmp_buff` at `off` of the buffer. Every round but
the last reads a byte, so there are no more than one round more than bytes. There is no result once
something is written behind the buffer. -/
def captureLoop : ℕ → List UInt8 → ℕ → ℤ → List UInt8 → Option (List UInt8)
  | 0, buf, _, _, _ => some buf
  | fuel + 1, buf, off, len, stream =>
    if len ≤ 0 ∨ stream = [] then some buf
    else do
      let (chunk, stream) := fgets (len - 1).toNat stream
      let buf ← Memory.write buf off (chunk ++ [0])
      let off := off + (cstr (buf.drop off)).length
      -- `strlen(tmp_buff)`, after `tmp_buff` was moved
      let len := len - (cstr (buf.drop off)).length
      if len ≤ 1 then some buf else captureLoop fuel buf off len stream

/-- **`exec_command`**; `output` is what the command writes, if `popen` succeeds. -/
def execCommand (output : Option (List UInt8)) (recvBuff : List UInt8) (len : ℤ) :
    Option (List UInt8) := do
  let buf ← Memory.write recvBuff 0 (List.replicate len.toNat 0)
  match output with
  | none => some buf
  | some stream => captureLoop (stream.length + 1) buf 0 len stream

/-- **The longest prefix of the output that fits**, with a terminator. -/
def Captured (output buf : List UInt8) : Prop :=
  cstr buf = output.take (buf.length - 1) ∧ 0 ∈ buf

section Capture

variable {recvBuff output : List UInt8} {size : ℕ}

/-- The room behind a text begins with its terminator. -/
theorem room_eq {n : ℕ} (h : n < size) :
    List.replicate (size - n) (0 : UInt8) = 0 :: List.replicate (size - n - 1) 0 := by
  rw [← List.replicate_succ]
  congr 1
  omega

/-- A chunk and its terminator take the place of zeros. -/
theorem write_chunk {pre chunk : List UInt8} (hroom : pre.length + (chunk.length + 1) ≤ size) :
    Memory.write (pre ++ List.replicate (size - pre.length) 0) pre.length (chunk ++ [0]) =
      some (pre ++ (chunk ++ List.replicate (size - (pre ++ chunk).length) 0)) := by
  have hzeros : List.replicate (size - pre.length) (0 : UInt8) =
      List.replicate (chunk.length + 1) 0 ++
        List.replicate (size - (pre ++ chunk).length - 1) 0 := by
    rw [List.replicate_append_replicate, List.length_append]
    congr 1
    omega
  have hlt : (pre ++ chunk).length < size := by
    rw [List.length_append]
    omega
  rw [hzeros, Memory.write_append (by simp), room_eq hlt, List.append_assoc,
    List.singleton_append]

/-- **The loop** writes everything that is left behind what it has written, if there is room for it
and for the terminator. -/
theorem captureLoop_eq (hsize : 2 ≤ size) (fuel : ℕ) (pre stream : List UInt8)
    (hfuel : stream.length < fuel) (h0 : 0 ∉ stream) (hpre : pre.length < size) :
    captureLoop fuel (pre ++ List.replicate (size - pre.length) 0) pre.length size stream =
      if (pre ++ stream).length < size then
        some (pre ++ stream ++ List.replicate (size - (pre ++ stream).length) 0)
      else none := by
  induction fuel generalizing pre stream with
  | zero => exact absurd hfuel (Nat.not_lt_zero _)
  | succ fuel ih =>
    by_cases hstream : stream = []
    · rw [captureLoop, if_pos (Or.inr hstream), hstream, List.append_nil, if_pos hpre]
    have hpos : ¬ ((size : ℤ) ≤ 0 ∨ stream = []) := by
      rintro (h | h)
      · omega
      · exact hstream h
    have hlimit : ((size : ℤ) - 1).toNat = size - 1 := by omega
    have hlimit0 : 0 < size - 1 := by omega
    have hsplit := fgets_append (size - 1) stream
    have hshort := length_fgets_snd_lt hlimit0 hstream
    rw [captureLoop, if_neg hpos, hlimit]
    generalize fgets (size - 1) stream = r at hsplit hshort ⊢
    obtain ⟨chunk, rest⟩ := r
    dsimp only at hsplit hshort ⊢
    subst hsplit
    rw [List.mem_append, not_or] at h0
    rw [List.length_append] at hfuel hshort
    by_cases hroom : pre.length + (chunk.length + 1) ≤ size
    · have hlt : (pre ++ chunk).length < size := by
        rw [List.length_append]
        omega
      -- the pointer is moved behind the chunk, and there the string is empty
      have hlen : (cstr (chunk ++ List.replicate (size - (pre ++ chunk).length) 0)).length =
          chunk.length := by rw [room_eq hlt, cstr_append_zero h0.1]
      have hnone : (cstr (List.replicate (size - (pre ++ chunk).length) (0 : UInt8))).length =
          0 := by
        rw [room_eq hlt]
        rfl
      rw [write_chunk hroom, Option.bind_eq_bind, Option.bind_some, List.drop_left, hlen,
        ← List.length_append, ← List.append_assoc, List.drop_left, hnone, if_neg (by omega)]
      have hih := ih (pre ++ chunk) rest (by omega) h0.2 hlt
      rw [List.append_assoc pre chunk rest] at hih
      simpa using hih
    · have hnowrite : Memory.write (pre ++ List.replicate (size - pre.length) 0) pre.length
          (chunk ++ [0]) = none := by
        rw [Memory.write_eq_none_iff]
        simp only [List.length_append, List.length_replicate, List.length_singleton]
        omega
      rw [hnowrite, if_neg (by simp only [List.length_append]; omega)]
      rfl

/-- What `exec_command` leaves in a buffer. -/
theorem execCommand_eq (hlen : 2 ≤ recvBuff.length) (h0 : 0 ∉ output) :
    execCommand (some output) recvBuff recvBuff.length =
      if output.length < recvBuff.length then
        some (output ++ List.replicate (recvBuff.length - output.length) 0)
      else none := by
  have hclear : Memory.write recvBuff 0 (List.replicate (recvBuff.length : ℤ).toNat 0) =
      some (List.replicate recvBuff.length 0) := by
    rw [Memory.write_zero_eq_some_iff]
    simp
  rw [execCommand, hclear]
  exact captureLoop_eq hlen (output.length + 1) [] output (Nat.lt_succ_self _) h0 (by
    rw [List.length_nil]
    omega)

/-- **The output is captured** if and only if all of it fits. -/
theorem execCommand_captured_iff (hlen : 2 ≤ recvBuff.length) (h0 : 0 ∉ output) :
    (∃ buf, execCommand (some output) recvBuff recvBuff.length = some buf ∧
      buf.length = recvBuff.length ∧ Captured output buf) ↔ output.length < recvBuff.length := by
  rw [execCommand_eq hlen h0]
  constructor
  · rintro ⟨buf, hbuf, -⟩
    by_contra hlong
    rw [if_neg hlong] at hbuf
    cases hbuf
  · intro hshort
    obtain ⟨k, hk⟩ := Nat.exists_eq_add_of_lt hshort
    have hzeros : recvBuff.length - output.length = k + 1 := by omega
    rw [if_pos hshort, hzeros]
    refine ⟨_, rfl, ?_, ?_, ?_⟩
    · rw [List.length_append, List.length_replicate]
      omega
    · rw [List.replicate_succ, cstr_append_zero h0, List.take_of_length_le]
      rw [List.length_append, List.length_cons, List.length_replicate]
      omega
    · rw [List.replicate_succ]
      simp

end Capture

/-- A reply of `wpa_cli` in a buffer of 8 bytes. -/
theorem execCommand_captured_ok :
    ∃ buf, execCommand (some (lit "OK\n")) (List.replicate 8 7) (List.replicate 8 7).length =
      some buf ∧ buf.length = (List.replicate 8 7).length ∧ Captured (lit "OK\n") buf :=
  (execCommand_captured_iff (by decide) (by decide +kernel)).mpr (by decide +kernel)

/-- **A longer reply** is written beyond the buffer. -/
theorem execCommand_overflow :
    execCommand (some (lit "FAIL-BUSY\n")) (List.replicate 8 7) 8 = none := by decide +kernel

end RkIpc.Network
