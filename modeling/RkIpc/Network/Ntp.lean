import RkIpc.Imperative.Log
import RkIpc.Memory.Block
import RkIpc.Text.Scan

/-!
# Setting the clock

`rkipc_ntp_update` of `common/network/ntp.c` sends a request, waits for an answer and runs `date`
with the time it makes of it. The answer overwrites the request in the same array. The number of
bytes received is kept in a variable without sign, so that an error is not noticed, and it is not
looked at afterwards.

What is computed with floating-point numbers is given by the clock, as is the text of the date.

## Main definitions

* `Exchange`, `Clock`: the outcomes of the system calls, and what time it is
* `getNtpPacket`, `rkipcNtpUpdate`: the request, and the function
* `Trusted`: `date` is run after a reply only, and the socket is closed

## Main results

* `trusted_iff`: the outcomes for which this is so
* `recv_error_sets_clock`: an error that sets the clock
-/

namespace RkIpc.Network

open Text Imperative

/-- `NTP_HLEN`. -/
def ntpHlen : ℕ := 48

/-- `BUFSIZE`. -/
def ntpBufsize : ℕ := 1500

/-- `JAN_1970`. -/
def jan1970 : ℕ := 0x83aa7e80

/-- `struct timeval`. -/
structure Timeval where
  sec : ℕ
  usec : ℕ
deriving DecidableEq, Repr

/-- **The outcome of the exchange**: `socket` or `connect` fails, `select` reports nothing, or
`recv` fails or returns a datagram. -/
inductive Exchange where
  | noSocket
  | noConnect
  | noAnswer
  | recvFailed
  | datagram (bytes : List UInt8)
deriving DecidableEq, Repr

/-- The time stamps of a packet that an offset is computed from: `ntp_orits`, `ntp_recvts` and
`ntp_transts`. -/
structure Stamps where
  orits : List UInt8
  recvts : List UInt8
  transts : List UInt8
deriving DecidableEq, Repr

/-- `struct ntphdr`, at the beginning of the bytes. -/
def stamps (buf : List UInt8) : Stamps where
  orits := (buf.drop 24).take 8
  recvts := (buf.drop 32).take 8
  transts := (buf.drop 40).take 8

/-- **A clock**: the three times `gettimeofday` gives, the fraction `USEC2FRAC` of the first one,
`get_offset`, and the text of the time with the offset. -/
structure Clock (δ : Type) where
  request : Timeval
  frac : UInt32
  recvtv : Timeval
  tv : Timeval
  getOffset : Stamps → Timeval → δ
  dateBuf : Timeval → δ → Str

/-- What the function does that is seen from outside. -/
inductive NtpEvent where
  | opened
  | sent (bytes : List UInt8)
  | closed
  | system (cmd : Str)
deriving DecidableEq, Repr

/-- `htonl`. -/
def htonl (v : UInt32) : List UInt8 :=
  [(v >>> 24).toUInt8, (v >>> 16).toUInt8, (v >>> 8).toUInt8, v.toUInt8]

/-- **`get_ntp_packet`**: the array, if it has room for a packet. The first bytes are `ntp_li`,
`ntp_vn` and `ntp_mode`, and then `ntp_stratum`, `ntp_poll` and `ntp_precision`. -/
def getNtpPacket (request : Timeval) (frac : UInt32) (size : ℕ) : Option (List UInt8) :=
  if size < ntpHlen then none
  else some ([(0 : UInt8) <<< 6 ||| (3 : UInt8) <<< 3 ||| 3, 0, 4, 0xfa] ++ List.replicate 36 0 ++
    htonl (UInt32.ofNat (request.sec + jan1970)) ++ htonl frac ++
    List.replicate (size - ntpHlen) 0)

/-- An event is recorded. -/
def emit {ρ : Type} (e : NtpEvent) : Program (List NtpEvent) ρ Unit :=
  Program.modify fun log => log ++ [e]

/-- `nbytes = recv(sockfd, buf, BUFSIZE, 0)`, where the -1 of an error becomes the largest
`size_t`. -/
def recvLength : Exchange → ℕ
  | .datagram bytes => (bytes.take ntpBufsize).length
  | _ => 2 ^ 32 - 1

/-- The array, with the bytes that were received at its beginning. An error leaves it as it is. -/
def recvInto (buf : List UInt8) : Exchange → List UInt8
  | .datagram bytes => bytes.take ntpBufsize ++ buf.drop (bytes.take ntpBufsize).length
  | _ => buf

/-- **The command** that sets the clock. -/
def dateCommand {δ : Type} (c : Clock δ) (s : Stamps) : Str :=
  lit "busybox date -s \"" ++ c.dateBuf c.tv (c.getOffset s c.recvtv) ++ lit "\" > /dev/null"

/-- **`rkipc_ntp_update`**. -/
def rkipcNtpUpdate {δ : Type} (c : Clock δ) (e : Exchange) : Program (List NtpEvent) ℤ ℤ := do
  if e = .noSocket then Program.exit (-1)
  emit .opened
  if e = .noConnect then
    emit .closed
    Program.exit (-1)
  match getNtpPacket c.request c.frac ntpBufsize with
  | none =>
    emit .closed
    Program.exit (-1)
  | some buf =>
    emit (.sent (buf.take ntpHlen))
    if e ≠ .noAnswer then
      -- never the case
      if (recvLength e : ℤ) < 0 then
        emit .closed
        Program.exit (-1)
      emit (.system (dateCommand c (stamps (recvInto buf e))))
    emit .closed
    pure 0

/-- What one call does. -/
def ntpEvents {δ : Type} (c : Clock δ) (e : Exchange) : List NtpEvent :=
  (rkipcNtpUpdate c e []).2

/-- **The clock is set from a reply only**: `date` is run only if a datagram of at least 48 bytes
was received, and with the time stamps of the datagram, and a socket that was opened is closed at
the end. -/
structure Trusted {δ : Type} (c : Clock δ) (e : Exchange) : Prop where
  command : ∀ cmd, .system cmd ∈ ntpEvents c e →
    ∃ bytes, e = .datagram bytes ∧ ntpHlen ≤ bytes.length ∧ cmd = dateCommand c (stamps bytes)
  closed : .opened ∈ ntpEvents c e → (ntpEvents c e).getLast? = some .closed

/-- **A reply**: a datagram of at least 48 bytes, if `recv` is called. -/
def Exchange.IsReply : Exchange → Prop
  | .recvFailed => False
  | .datagram bytes => ntpHlen ≤ bytes.length
  | _ => True

section

variable {δ : Type} (c : Clock δ)

/-- The request. -/
def requestPacket : List UInt8 :=
  [27, 0, 4, 0xfa] ++ List.replicate 36 0 ++ htonl (UInt32.ofNat (c.request.sec + jan1970)) ++
    htonl c.frac ++ List.replicate 1452 0

theorem getNtpPacket_eq : getNtpPacket c.request c.frac ntpBufsize = some (requestPacket c) := rfl

/-- **The events** of a call, by outcome. -/
theorem ntpEvents_eq (e : Exchange) : ntpEvents c e =
    match e with
    | .noSocket => []
    | .noConnect => [.opened, .closed]
    | .noAnswer => [.opened, .sent ((requestPacket c).take ntpHlen), .closed]
    | e => [.opened, .sent ((requestPacket c).take ntpHlen),
        .system (dateCommand c (stamps (recvInto (requestPacket c) e))), .closed] := by
  have hnonneg : ¬ (recvLength e : ℤ) < 0 := Int.not_lt.mpr (Int.natCast_nonneg _)
  cases e with
  | noSocket | noConnect | noAnswer => rfl
  | recvFailed => rfl
  | datagram bytes =>
    simp only [ntpEvents, rkipcNtpUpdate, getNtpPacket_eq, if_neg hnonneg]
    rfl

/-- The clock is set whatever `recv` returns. -/
theorem mem_ntpEvents (e : Exchange) (hsocket : e ≠ .noSocket) (hconnect : e ≠ .noConnect)
    (hanswer : e ≠ .noAnswer) :
    .system (dateCommand c (stamps (recvInto (requestPacket c) e))) ∈ ntpEvents c e := by
  rw [ntpEvents_eq]
  cases e with
  | noSocket => exact absurd rfl hsocket
  | noConnect => exact absurd rfl hconnect
  | noAnswer => exact absurd rfl hanswer
  | recvFailed | datagram => simp

/-- The time stamps of a reply are those of the datagram. -/
theorem stamps_recvInto (buf : List UInt8) {bytes : List UInt8} (h : ntpHlen ≤ bytes.length) :
    stamps (recvInto buf (.datagram bytes)) = stamps bytes := by
  have hfield : ∀ off, off + 8 ≤ ntpHlen →
      ((recvInto buf (.datagram bytes)).drop off).take 8 = (bytes.drop off).take 8 := by
    intro off hoff
    rw [recvInto, List.drop_append_of_le_length, List.take_append_of_le_length, List.drop_take,
      List.take_take, Nat.min_eq_left]
    all_goals simp only [List.length_take, List.length_drop, ntpHlen, ntpBufsize] at *
    all_goals omega
  rw [stamps, hfield 24 (by decide), hfield 32 (by decide), hfield 40 (by decide)]
  rfl

/-- **The clock is set from a reply only** if and only if `recv`, if it is called, returns one. -/
theorem trusted_iff (e : Exchange) : Trusted c e ↔ e.IsReply := by
  constructor
  · intro h
    cases e with
    | recvFailed =>
      obtain ⟨bytes, hbytes, -⟩ := h.command _ (mem_ntpEvents c .recvFailed nofun nofun nofun)
      cases hbytes
    | datagram bytes =>
      obtain ⟨bytes', hbytes, hlen, -⟩ :=
        h.command _ (mem_ntpEvents c (.datagram bytes) nofun nofun nofun)
      obtain rfl := Exchange.datagram.inj hbytes
      exact hlen
    | noSocket | noConnect | noAnswer => exact trivial
  · intro h
    cases e with
    | recvFailed => exact h.elim
    | datagram bytes =>
      refine ⟨fun cmd hcmd => ⟨bytes, rfl, h, ?_⟩, fun _ => by simp [ntpEvents_eq]⟩
      rw [ntpEvents_eq] at hcmd
      simpa [stamps_recvInto _ h] using hcmd
    | noSocket | noConnect | noAnswer =>
      exact ⟨fun cmd hcmd => by simp [ntpEvents_eq] at hcmd, fun h => by simp_all [ntpEvents_eq]⟩

end

/-- A clock that shows the time stamps it is given. -/
def plainClock : Clock (List UInt8) where
  request := ⟨1700000000, 0⟩
  frac := 0
  recvtv := ⟨1700000001, 0⟩
  tv := ⟨1700000001, 0⟩
  getOffset s _ := s.orits ++ s.recvts ++ s.transts
  dateBuf _ d := d

/-- **An error of `recv`**: the clock is set with what the request has left in the array. -/
theorem recv_error_sets_clock : ¬ Trusted plainClock .recvFailed ∧
    .system (dateCommand plainClock (stamps (requestPacket plainClock))) ∈
      ntpEvents plainClock .recvFailed := by
  have hmem := mem_ntpEvents plainClock .recvFailed nofun nofun nofun
  refine ⟨fun h => ?_, hmem⟩
  obtain ⟨bytes, hbytes, -⟩ := h.command _ hmem
  cases hbytes

end RkIpc.Network
