import RkIpc.Network.Dns
import RkIpc.Server.Request

/-!
# A served request keeps the connection

`rec_thread` closes the connection when a handler does not return zero. Handlers that return the
result of their operation rely on zero being its success. `rk_network_dns_get` returns the number of
name servers it has found, so a client that asks for them is disconnected when there are any.

## Main definitions

* `dnsResult`: what `rk_network_dns_get` hands back
* `Succeeded`: the operation of an entry has succeeded

## Main results

* `map_dns_returns_ret`: the handler that asks for the name servers returns their number
* `connection_kept_iff`: after a request that succeeded the connection is kept, unless it asked for
  name servers and there is one
* `connection_lost`: with one name server it is lost
-/

namespace RkIpc.Server

open Imperative Network Wire

/-- What `rk_network_dns_get` hands back; `dns` and `dns2` are the buffers before. -/
def dnsResult (resolv : Option (List UInt8)) (dns dns2 : List UInt8) : OpResult :=
  let (count, dns, dns2) := rkNetworkDnsGet resolv dns dns2
  ⟨count, [], [dns, dns2]⟩

/-- The entry asks for the name servers. -/
def FunMap.AsksDns (e : FunMap) : Prop := e.handler.op = "rk_network_dns_get"

instance (e : FunMap) : Decidable e.AsksDns := inferInstanceAs (Decidable (_ = _))

/-- **Success** of the `k`-th operation: `rk_network_dns_get` cannot fail, whatever is in
`resolv.conf`; the others return zero. -/
def Succeeded (env : Env) (k : ℕ) (resolv : Option (List UInt8)) (e : FunMap) : Prop :=
  if e.AsksDns then ∃ dns dns2, env.op k e.handler.op = dnsResult resolv dns dns2
  else (env.op k e.handler.op).ret = 0

set_option maxRecDepth 20000 in
/-- The handler that asks for the name servers returns their number. -/
theorem map_dns_returns_ret : ∀ e ∈ map, e.AsksDns → e.handler.returned = Returned.ret := by
  decide +kernel

/-- A handler whose operation has succeeded returns zero, unless that is a number of name
servers. -/
theorem ret_eq_zero_iff {env : Env} {k : ℕ} {resolv : Option (List UInt8)} {e : FunMap}
    {vs : List Value} (he : e ∈ map) (hcall : exitsOf e.handler.operands vs = none)
    (hs : Succeeded env k resolv e) :
    e.ret env k vs = 0 ↔ (e.AsksDns → NoNameserver resolv) := by
  unfold Succeeded at hs
  simp only [FunMap.ret, hcall, Option.getD_none, Handler.result]
  by_cases hdns : e.AsksDns
  · rw [if_pos hdns] at hs
    obtain ⟨dns, dns2, hop⟩ := hs
    rw [map_dns_returns_ret e he hdns, hop, ← rkNetworkDnsGet_eq_zero_iff resolv dns dns2]
    exact (true_imp_iff.symm.trans (imp_congr_left (iff_of_true trivial hdns)))
  · rw [if_neg hdns] at hs
    refine iff_of_true ?_ fun h => absurd h hdns
    split
    · rfl
    · exact hs

/-- **A served request keeps the connection**: if its operation has succeeded and all writes
succeed, the handler returns zero, and the completion word follows and the thread goes on, if and
only if the request was not for the name servers, or there is none. -/
theorem connection_kept_iff (env : Env) (resolv : Option (List UInt8)) (t : RecThread) (r : Request)
    (e : FunMap) (more : List UInt8) (hr : r.For e) (hrun : t.status = Status.running)
    (hreads : chunks t.conn.reads = some (r.encode ++ more)) (hwrites : Accepts t.conn.writes)
    (hcall : exitsOf e.handler.operands r.operands = none)
    (hs : Succeeded env t.conn.calls resolv e) :
    (e.ret env t.conn.calls r.operands = 0 ↔ (e.AsksDns → NoNameserver resolv)) ∧
    ((recRound env t).status = Status.running ∧
      (recRound env t).conn.out =
        t.conn.out ++ replyBytes (env.op t.conn.calls e.handler.op) e.handler.reply ++ encode32 0 ↔
      (e.AsksDns → NoNameserver resolv)) := by
  have hc : At (r.encode ++ more) t.conn.out t.conn.calls t.conn.Bounded t.conn :=
    ⟨hreads, hwrites, rfl, rfl, Iff.rfl⟩
  have hret := ret_eq_zero_iff hr.entry hcall hs
  have hreply : e.reply env t.conn.calls r.operands =
      replyBytes (env.op t.conn.calls e.handler.op) e.handler.reply := if_pos hcall
  obtain ⟨hgo, hclose⟩ := recRound_at env hr hrun hc
  refine ⟨hret, ?_⟩
  rw [← hret]
  constructor
  · rintro ⟨hstatus, -⟩
    by_contra hne
    simp [(hclose hne).1] at hstatus
  · intro h0
    obtain ⟨hstatus, hc'⟩ := hgo h0
    exact ⟨hstatus, hreply ▸ hc'.out⟩

/-- The entry of `rk_network_dns_get`. -/
def dnsGet : FunMap := ⟨"rk_network_dns_get", serRkNetworkDnsGet⟩

/-- The operations, on a device with the given `resolv.conf`. -/
def Env.withResolv (resolv : Option (List UInt8)) : Env where
  junk _ _ := 0
  op _ op := if op = "rk_network_dns_get" then dnsResult resolv [] [] else ⟨0, [], []⟩

/-- A thread about to serve a request for the name servers. -/
def dnsThread : RecThread where
  conn := Conn.accepted [.data (dnsGet.request []).encode] []
  len := ⟨4, fun _ => 0, 0⟩
  status := Status.running

/-- `"nameserver 8.8.8.8\\n"`. -/
def oneNameserver : List UInt8 := cString "nameserver 8.8.8.8" ++ [newline]

theorem dnsGet_request : (dnsGet.request []).For dnsGet :=
  FunMap.request_for (by decide +kernel) (by simp) .nil

set_option maxRecDepth 20000 in
/-- **With one name server** the reply is sent, and the connection closed. -/
theorem connection_lost :
    (recRound (Env.withResolv (some oneNameserver)) dnsThread).status = Status.closed ∧
    (recRound (Env.withResolv (some oneNameserver)) dnsThread).conn.out =
      replyBytes ⟨1, [], [cString "8.8.8.8", []]⟩ serRkNetworkDnsGet.reply := by
  decide +kernel

/-- Without `resolv.conf` the connection is kept. -/
theorem connection_kept_iff_noResolv :
    (recRound (Env.withResolv none) dnsThread).status = Status.running :=
  ((connection_kept_iff (Env.withResolv none) none dnsThread (dnsGet.request []) dnsGet []
    dnsGet_request rfl (by decide +kernel)
    (fun e he => by simp [dnsThread, Conn.accepted] at he) rfl
    ⟨[], [], by decide +kernel⟩).2.mpr fun _ content h => by cases h).1

end RkIpc.Server
