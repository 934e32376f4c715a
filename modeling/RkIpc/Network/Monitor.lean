import Mathlib.Data.List.Infix
import RkIpc.Text.Scan

/-!
# The monitor of wpa_supplicant

A thread receives events and dispatches them, in a loop that ends when `dispatch_event` does not
return 0. It is meant to do so for the event `CTRL-EVENT-TERMINATING`, which
`wifi_wait_on_socket` makes up when the connection is gone; but its first test drops every event
that contains this text.

What the branches of `dispatch_event` tell the application is left out. The connection to
wpa_supplicant has been set up.

## Main definitions

* `Recv`, `Recv.Gone`: what is received, and whether it says that wpa_supplicant is gone
* `wifiWaitOnSocket`: the event that is passed on
* `dispatchEvent`: the branch that is taken
* `monitor`: the thread after some rounds

## Main results

* `dispatchEvent_ne_terminating`: the branch that ends the loop is never taken
* `stopsWhenGone_iff`: the monitor stops when wpa_supplicant goes away if and only if it never does
-/

namespace RkIpc.Network

open Text

/-- `WPA_EVENT_TERMINATING`. -/
def wpaEventTerminating : Str := lit "CTRL-EVENT-TERMINATING "

/-- `primary_iface`. -/
def primaryIface : Str := lit "wlan0"

/-- What comes out of waiting for an event. -/
inductive Recv
  /-- `monitor_conn` is null -/
  | closed
  /-- `wifi_ctrl_recv` returns -2: the exit socket is ready, or nothing has come for a while -/
  | exit
  /-- `poll` or `recv` fails -/
  | failed
  /-- what `recv` has received, which is nothing at the end of the file -/
  | data (bytes : List UInt8)
deriving DecidableEq, Repr

/-- `snprintf(buf, buflen, "IFNAME=%s %s - …", primary_iface, WPA_EVENT_TERMINATING)`. -/
def fabricated (why : String) : Str :=
  lit "IFNAME=" ++ primaryIface ++ lit " " ++ wpaEventTerminating ++ lit " - " ++ lit why

/-- The event without the level of the message, `<3>`, and the number of bytes that are left of
`nread`. -/
def stripLevel (nread : ℤ) (event : Str) : ℤ × Str :=
  if lit "IFNAME=" <+: event then
    match event.dropWhile (· ≠ 32) with
    | [] => ((lit "CTRL-EVENT-IGNORE ").length, lit "CTRL-EVENT-IGNORE ")
    | 32 :: 60 :: rest =>
      match rest.dropWhile (· ≠ 62) with
      | [] => (nread, event)
      | _ :: text =>
        (nread - (2 + (rest.takeWhile (· ≠ 62)).length), event.takeWhile (· ≠ 32) ++ 32 :: text)
    | _ => (nread, event)
  else
    match event with
    | 60 :: _ =>
      match event.dropWhile (· ≠ 62) with
      | [] => (nread, event)
      | _ :: text => (nread - ((event.takeWhile (· ≠ 62)).length + 1), text)
    | _ => (nread, event)

/-- **`wifi_wait_on_socket`**: what it returns, and the event. The buffer has been zeroed before. -/
def wifiWaitOnSocket (bufSize : ℕ) : Recv → ℤ × Str
  | .closed | .exit =>
    let event := fabricated "connection closed"
    (event.length, event)
  -- `nread` is what it was, and nothing is in the buffer
  | .failed => stripLevel (bufSize - 1) []
  | .data [] =>
    let event := fabricated "signal 0 received"
    (event.length, event)
  | .data bytes => stripLevel bytes.length (cstr bytes)

/-- The branches of `dispatch_event`. -/
inductive Dispatched
  /-- dropped by the first test -/
  | dropped
  | disconnected
  | connected
  | scanResults
  | wrongKey
  | terminating
  | other
deriving DecidableEq, Repr

/-- `str_starts_with`: the first occurrence is at the beginning. -/
def strStartsWith (str search : Str) : Prop := search <+: str

instance (str search : Str) : Decidable (strStartsWith str search) :=
  inferInstanceAs (Decidable (search <+: str))

/-- **`dispatch_event`**. -/
def dispatchEvent (event : Str) : Dispatched :=
  if lit "CTRL-EVENT-BSS" <:+: event ∨ lit "CTRL-EVENT-TERMINATING" <:+: event then .dropped
  else if strStartsWith event (lit "CTRL-EVENT-DISCONNECTED ") then .disconnected
  else if strStartsWith event (lit "CTRL-EVENT-CONNECTED ") then .connected
  else if strStartsWith event (lit "CTRL-EVENT-SCAN-RESULTS ") then .scanResults
  else if lit "reason=WRONG_KEY" <:+: event then .wrongKey
  else if strStartsWith event wpaEventTerminating then .terminating
  else .other

/-- What `dispatch_event` returns. -/
def Dispatched.ret : Dispatched → ℤ
  | .terminating => -1
  | _ => 0

/-- `wifi_close_sockets` has been called. -/
def Dispatched.closes (d : Dispatched) : Bool := d == .terminating

/-- **The thread**: whether it has closed the sockets, and whether it has ended. -/
structure Monitor where
  closed : Bool
  ended : Bool
deriving DecidableEq, Repr

/-- `EVENT_BUF_SIZE`. -/
def eventBufSize : ℕ := 1024

/-- One round of **`RK_wifi_start_monitor`**. -/
def Monitor.round (m : Monitor) (r : Recv) : Monitor :=
  if m.ended then m
  else
    let (n, event) := wifiWaitOnSocket eventBufSize r
    if n = 0 then m
    else
      let d := dispatchEvent event
      ⟨m.closed || d.closes, decide (d.ret ≠ 0)⟩

/-- The thread after `n` rounds on a stream of events. -/
def monitor (events : ℕ → Recv) : ℕ → Monitor
  | 0 => ⟨false, false⟩
  | n + 1 => (monitor events n).round (events n)

/-- wpa_supplicant says that it ends. -/
def Announces (event : Str) : Prop :=
  wpaEventTerminating <+: event ∨
    lit "IFNAME=" <+: event ∧ lit " " ++ wpaEventTerminating <:+: event

/-- **wpa_supplicant is gone**: the connection is closed, or at the end of the file, or an event
announces it. -/
def Recv.Gone : Recv → Prop
  | .closed | .exit => True
  | .failed => False
  | .data bytes => bytes = [] ∨ Announces (wifiWaitOnSocket eventBufSize (.data bytes)).2

/-- **The monitor stops** once wpa_supplicant is gone: after finitely many rounds it has closed the
sockets and ended. -/
def StopsWhenGone (events : ℕ → Recv) : Prop :=
  ∀ n, (events n).Gone → ∃ m, (monitor events m).closed = true ∧ (monitor events m).ended = true

/-- **The branch that ends the loop is never taken**: the first test drops what would take it. -/
theorem dispatchEvent_ne_terminating (event : Str) : dispatchEvent event ≠ .terminating := by
  unfold dispatchEvent
  split_ifs with hdrop h1 h2 h3 h4 hterm
  · nofun
  · nofun
  · nofun
  · nofun
  · nofun
  · -- what begins with the event contains its name
    have hname : lit "CTRL-EVENT-TERMINATING" <:+: event :=
      List.IsInfix.trans (by decide) (List.IsPrefix.isInfix hterm)
    exact absurd (Or.inr hname) hdrop
  · nofun

/-- One round does not end the loop. -/
theorem Monitor.ended_round {m : Monitor} (h : m.ended = false) (r : Recv) :
    (m.round r).ended = false := by
  unfold Monitor.round
  rw [if_neg (by simp [h])]
  dsimp only
  split_ifs
  · exact h
  · have hne := dispatchEvent_ne_terminating (wifiWaitOnSocket eventBufSize r).2
    generalize dispatchEvent (wifiWaitOnSocket eventBufSize r).2 = d at hne
    cases d with
    | terminating => exact absurd rfl hne
    | dropped | disconnected | connected | scanResults | wrongKey | other => rfl

/-- **The monitor never ends.** -/
theorem ended_monitor (events : ℕ → Recv) (n : ℕ) : (monitor events n).ended = false := by
  induction n with
  | zero => rfl
  | succ n ih => exact Monitor.ended_round ih (events n)

/-- **The monitor stops when wpa_supplicant goes away** if and only if it never does. -/
theorem stopsWhenGone_iff (events : ℕ → Recv) :
    StopsWhenGone events ↔ ∀ n, ¬ (events n).Gone := by
  constructor
  · intro h n hgone
    obtain ⟨m, -, hended⟩ := h n hgone
    rw [ended_monitor] at hended
    cases hended
  · exact fun h n hgone => absurd hgone (h n)

/-- **At the end of the file** the loop goes on for ever. -/
theorem monitor_spins : ¬ StopsWhenGone fun _ => .data [] := by
  intro h
  obtain ⟨m, -, hended⟩ := h 0 (Or.inl rfl)
  rw [ended_monitor] at hended
  cases hended

end RkIpc.Network
