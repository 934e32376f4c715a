import Mathlib.Data.Fintype.Basic
import RkIpc.Resource.Workers
import RkIpc.Transition.Run

/-!
# Connecting to a network

`RK_wifi_connect`, `RK_wifi_connect_with_ssid` and `RK_wifi_connect_with_bssid` set a network up and
start a thread that waits for the connection, and disables or removes the network if there is none.
The thread finds the id of the network in the variable `connecting_id`, which the next attempt
overwrites.

What the application is told is left out, and `wifi_wrong_key` with it. The arguments are not null.

## Main definitions

* `Connect`, `ConnectEvent`, `Connect.step`: the variables with the threads, and what can happen
  next
* `Settles`: one `RK_wifi_connect` at a time, and each check settles the network of its attempt
* `ConnectEvent.Orderly`: nobody else is between the test of the lock and its setting, and
  `connecting_id` stays until the check has read it

## Main results

* `settles_of_orderly`: orderly runs settle their own networks
* `removes_other`: a second attempt makes the first check remove the network of the second
-/

namespace RkIpc.Network

open Resource Transition

/-- The function by which an attempt is made. -/
inductive Entry
  | connect
  | withSsid
  | withBssid
deriving DecidableEq, Repr

/-- Where a client thread stands. -/
inductive ClientPc
  /-- in none of the functions, with what the last one returned -/
  | idle (ret : Option ℤ)
  /-- `wifi_connect_lock` was not set, and is set next -/
  | lock
  /-- looking for the network, or adding it -/
  | search (f : Entry)
  /-- about to set `connecting_id` -/
  | write (f : Entry) (id : ℤ)
  /-- the network is set up, selected and enabled -/
  | setUp (f : Entry) (id : ℤ)
  /-- about to start the check -/
  | spawn (f : Entry) (id : ℤ)
  /-- `fail:` -/
  | fail (f : Entry)
  /-- about to clear `wifi_connect_lock` -/
  | unlock (ret : ℤ)
deriving DecidableEq, Repr

/-- In the body of `RK_wifi_connect`, until the lock is given back. -/
def ClientPc.inConnect : ClientPc → Bool
  | search .connect | write .connect _ | setUp .connect _ | spawn .connect _ | fail .connect => true
  | unlock _ => true
  | _ => false

/-- The function returns; `RK_wifi_connect` gives the lock back before. -/
def Entry.finish (f : Entry) (ret : ℤ) : ClientPc :=
  match f with
  | .connect => .unlock ret
  | .withSsid | .withBssid => .idle (some ret)

/-- The network of an attempt that has set `connecting_id`, and has not started its check. -/
def ClientPc.written : ClientPc → Option ℤ
  | setUp _ id | spawn _ id => some id
  | _ => none

/-- The network to which `connecting_id` is set next. -/
def ClientPc.writes : ClientPc → Option ℤ
  | write _ id => some id
  | _ => none

/-- Where a thread `wifi_connect_state_check` stands; `own` is the network of the attempt that has
started it, and `id` the one it has read. -/
inductive CheckPc
  /-- about to read `connecting_id` -/
  | start (own : ℤ)
  /-- `check_wifi_isconnected` -/
  | wait (own id : ℤ)
  /-- `wifi_connectfail_process` -/
  | fail (own id : ℤ)
  /-- about to clear `wifi_is_exist` -/
  | clear
  | ended
deriving DecidableEq, Repr

/-- The network of the attempt, when `connecting_id` is still to be read. -/
def CheckPc.unread : CheckPc → Option ℤ
  | start own => some own
  | _ => none

/-- What becomes of a network without connection. -/
inductive Settled
  | disabled (id : ℤ)
  | removed (id : ℤ)
deriving DecidableEq, Repr

/-- The network. -/
def Settled.id : Settled → ℤ
  | disabled id | removed id => id

/-- **The variables of the connection**: `wifi_connect_lock`, `connecting_id`, `wifi_is_exist`, the
client threads and the checks, and the networks without connection, each with the network of the
attempt that has started the check. -/
structure Connect (ι : Type) where
  lock : Bool
  connectingId : ℤ
  isExist : Bool
  clients : ι → ClientPc
  checks : Workers CheckPc
  settled : List (ℤ × Settled)

/-- What can happen next. `id` is the network found or added, and then whether the commands succeed;
`ok` is whether there is a connection. -/
inductive ConnectEvent (ι : Type)
  | call (f : Entry) (i : ι)
  | client (i : ι) (id : Option ℤ)
  | check (k : ℕ) (ok : Bool)

namespace Connect

variable {ι : Type} [DecidableEq ι]

/-- The variables at the start of the program. -/
def start : Connect ι where
  lock := false
  connectingId := -1
  isExist := false
  clients := fun _ => .idle none
  checks := Workers.unborn .ended
  settled := []

/-- Client `i` goes on. -/
def goOn (s : Connect ι) (i : ι) (c : ClientPc) : Connect ι :=
  { s with clients := Function.update s.clients i c }

/-- The next step of client `i`. -/
def clientStep (s : Connect ι) (i : ι) (id : Option ℤ) : Option (Connect ι) :=
  match s.clients i with
  | .idle _ => none
  | .lock => some { s.goOn i (.search .connect) with lock := true }
  | .search f =>
    match id with
    | some id => some (s.goOn i (.write f id))
    | none => some (s.goOn i (.fail f))
  | .write f id => some { s.goOn i (.setUp f id) with connectingId := id }
  | .setUp f own => some (s.goOn i (if id.isSome then .spawn f own else .fail f))
  | .spawn f own => some { s.goOn i (f.finish 0) with checks := s.checks.spawn (.start own) }
  | .fail f =>
    some { s.goOn i (f.finish (-1)) with isExist := if f = .withSsid then false else s.isExist }
  | .unlock ret => some { s.goOn i (.idle (some ret)) with lock := false }

/-- The next step of check `k`, **`wifi_connect_state_check`**. -/
def checkStep (s : Connect ι) (k : ℕ) (ok : Bool) : Option (Connect ι) :=
  match s.checks.place k with
  | .start own => some { s with checks := s.checks.move k (.wait own s.connectingId) }
  | .wait own id =>
    some { s with checks := s.checks.move k (if ok then .clear else .fail own id) }
  | .fail own id =>
    some { s with
      checks := s.checks.move k .clear
      settled := (own, if s.isExist then .disabled id else .removed id) :: s.settled }
  | .clear => some { s with checks := s.checks.move k .ended, isExist := false }
  | .ended => none

/-- The variables after an event; `none` when it cannot happen. -/
def step (s : Connect ι) : ConnectEvent ι → Option (Connect ι)
  | .call f i =>
    match s.clients i with
    | .idle _ =>
      match f with
      | .connect => some (s.goOn i (if s.lock then .idle (some (-1)) else .lock))
      | .withSsid => some { s.goOn i (.search .withSsid) with isExist := true }
      | .withBssid => some (s.goOn i (.search .withBssid))
    | _ => none
  | .client i id => s.clientStep i id
  | .check k ok => if k < s.checks.created then s.checkStep k ok else none

end Connect

variable {ι : Type}

/-- **Each attempt settles its own network**: the bodies of `RK_wifi_connect` exclude one another,
and a call meanwhile returns -1; and the network that is disabled or removed is that of the
attempt. -/
structure Settles [DecidableEq ι] (s : Connect ι) : Prop where
  alone : ∀ i j, (s.clients i).inConnect = true → (s.clients j).inConnect = true → i = j
  refused : ∀ i j r, (s.clients j).inConnect = true → s.clients i = .idle r →
    s.step (.call .connect i) = some (s.goOn i (.idle (some (-1))))
  own : ∀ e ∈ s.settled, e.2.id = e.1

/-- Every attempt whose check has not read `connecting_id` is one with the network `id`. -/
def Connect.Needs (s : Connect ι) (id : ℤ) : Prop :=
  (∀ j, ∀ other ∈ (s.clients j).written, other = id) ∧
    s.checks.All fun _ p => ∀ other ∈ p.unread, other = id

/-- **Orderly**: a client finds the lock free only while no other one is about to set it; and
`connecting_id` is not set to another network while a check that needs it has not read it. -/
def ConnectEvent.Orderly (s : Connect ι) : ConnectEvent ι → Prop
  | .call f _ => f = .connect → s.lock = false → ∀ j, s.clients j ≠ .lock
  | .client i _ => ∀ id ∈ (s.clients i).writes, s.Needs id
  | .check _ _ => True

instance [Fintype ι] (s : Connect ι) (e : ConnectEvent ι) : Decidable (e.Orderly s) :=
  match e with
  | .call f _ =>
    inferInstanceAs (Decidable (f = .connect → s.lock = false → ∀ j, s.clients j ≠ .lock))
  | .client i _ => inferInstanceAs (Decidable (∀ id ∈ (s.clients i).writes,
      (∀ j, ∀ other ∈ (s.clients j).written, other = id) ∧
        s.checks.All fun _ p => ∀ other ∈ p.unread, other = id))
  | .check _ _ => .isTrue trivial

namespace Connect

/-- **The invariant**: one client at most has the lock or is about to set it, and what a check has
read, or is going to read, is the network of its attempt. -/
structure Inv (s : Connect ι) : Prop where
  locked : ∀ i, (s.clients i).inConnect = true → s.lock = true
  single : ∀ i j, (s.clients i = .lock ∨ (s.clients i).inConnect = true) →
    (s.clients j = .lock ∨ (s.clients j).inConnect = true) → i = j
  written : ∀ i, ∀ id ∈ (s.clients i).written, id = s.connectingId
  unread : s.checks.All fun _ p => ∀ own ∈ p.unread, own = s.connectingId
  read : s.checks.All fun _ p => ∀ own id, p = .wait own id ∨ p = .fail own id → id = own
  own : ∀ e ∈ s.settled, e.2.id = e.1

variable {s t : Connect ι} {i : ι} {k : ℕ}

theorem inv_start : (start : Connect ι).Inv where
  locked _ h := by cases h
  single _ _ h := by rcases h with h | h <;> cases h
  written _ _ h := by cases h
  unread := Workers.all_unborn
  read := Workers.all_unborn
  own := by simp [start]

variable [DecidableEq ι]

theorem Inv.settles (hs : s.Inv) : Settles s where
  alone i j hi hj := hs.single i j (Or.inr hi) (Or.inr hj)
  refused i j r hj hi := by
    simp only [step, hi, hs.locked j hj, if_true]
  own := hs.own

@[simp] theorem clients_goOn_self (s : Connect ι) (i : ι) (c : ClientPc) :
    (s.goOn i c).clients i = c := Function.update_self ..

theorem clients_goOn_of_ne (s : Connect ι) {i j : ι} (h : j ≠ i) (c : ClientPc) :
    (s.goOn i c).clients j = s.clients j := Function.update_of_ne h ..

/-- A client goes on, and the lock and `connecting_id` fit where it goes. -/
theorem Inv.goOn {c : ClientPc} (hs : s.Inv) (lock : Bool) (connectingId : ℤ)
    (hlocked : c.inConnect = true → lock = true)
    (hothers : lock = false → ∀ j, j ≠ i → (s.clients j).inConnect = false)
    (hsingle : (c = .lock ∨ c.inConnect = true) →
      ∀ j, j ≠ i → s.clients j ≠ .lock ∧ (s.clients j).inConnect = false)
    (hwritten : ∀ id ∈ c.written, id = connectingId)
    (hkeeps : ∀ j, ∀ id ∈ (s.clients j).written, id = connectingId)
    (hunread : s.checks.All fun _ p => ∀ own ∈ p.unread, own = connectingId) :
    ({ s.goOn i c with lock := lock, connectingId := connectingId } : Connect ι).Inv := by
  refine ⟨fun j hj => ?_, fun j l hj hl => ?_, fun j id hid => ?_, hunread, hs.read, hs.own⟩
  · change ((s.goOn i c).clients j).inConnect = true at hj
    change lock = true
    rcases eq_or_ne j i with rfl | hne
    · rw [clients_goOn_self] at hj
      exact hlocked hj
    · rw [clients_goOn_of_ne s hne] at hj
      by_contra hfree
      rw [hothers (Bool.eq_false_of_not_eq_true hfree) j hne] at hj
      cases hj
  · change (s.goOn i c).clients j = .lock ∨ ((s.goOn i c).clients j).inConnect = true at hj
    change (s.goOn i c).clients l = .lock ∨ ((s.goOn i c).clients l).inConnect = true at hl
    -- the client that goes on is alone where it goes
    have hnone : ∀ j, j ≠ i → (c = .lock ∨ c.inConnect = true) →
        ¬ (s.clients j = .lock ∨ (s.clients j).inConnect = true) := by
      rintro j hne hc (h | h)
      · exact (hsingle hc j hne).1 h
      · rw [(hsingle hc j hne).2] at h
        cases h
    rcases eq_or_ne j i with rfl | hji
    · rcases eq_or_ne l j with rfl | hlj
      · rfl
      · rw [clients_goOn_self] at hj
        rw [clients_goOn_of_ne s hlj] at hl
        exact absurd hl (hnone l hlj hj)
    · rw [clients_goOn_of_ne s hji] at hj
      rcases eq_or_ne l i with rfl | hli
      · rw [clients_goOn_self] at hl
        exact absurd hj (hnone j hji hl)
      · rw [clients_goOn_of_ne s hli] at hl
        exact hs.single j l hj hl
  · change id ∈ ((s.goOn i c).clients j).written at hid
    rcases eq_or_ne j i with rfl | hne
    · rw [clients_goOn_self] at hid
      exact hwritten id hid
    · rw [clients_goOn_of_ne s hne] at hid
      exact hkeeps j id hid

omit [DecidableEq ι] in
/-- Nobody is inside while the lock is free. -/
theorem Inv.outside (hs : s.Inv) (hfree : s.lock = false) (j : ι) :
    (s.clients j).inConnect = false := by
  by_contra h
  rw [hs.locked j (Bool.eq_true_of_not_eq_false h)] at hfree
  cases hfree

omit [DecidableEq ι] in
/-- Nobody else has the lock or is about to set it. -/
theorem Inv.alone (hs : s.Inv) (hi : s.clients i = .lock ∨ (s.clients i).inConnect = true) {j : ι}
    (hne : j ≠ i) : s.clients j ≠ .lock ∧ (s.clients j).inConnect = false := by
  refine ⟨fun h => hne (hs.single j i (Or.inl h) hi), ?_⟩
  by_contra h
  exact hne (hs.single j i (Or.inr (Bool.eq_true_of_not_eq_false h)) hi)

/-- A client goes on, and neither takes the lock nor leaves it. -/
theorem Inv.move {c : ClientPc} (hs : s.Inv)
    (hsame : c.inConnect = true → (s.clients i).inConnect = true) (hlock : c ≠ .lock)
    (hwritten : ∀ id ∈ c.written, id = s.connectingId) : (s.goOn i c).Inv := by
  apply hs.goOn s.lock s.connectingId (fun h => hs.locked i (hsame h))
    (fun hfree j _ => hs.outside hfree j) ?_ hwritten hs.written hs.unread
  intro hc j hne
  exact hs.alone (Or.inr (hsame (hc.resolve_left hlock))) hne

omit [DecidableEq ι] in
theorem Inv.setExist (hs : s.Inv) (isExist : Bool) :
    ({ s with isExist := isExist } : Connect ι).Inv :=
  ⟨hs.locked, hs.single, hs.written, hs.unread, hs.read, hs.own⟩

theorem inConnect_finish {f : Entry} {ret : ℤ} {c : ClientPc}
    (hc : f = .connect → c.inConnect = true) (h : (f.finish ret).inConnect = true) :
    c.inConnect = true := by
  cases f with
  | connect => exact hc rfl
  | withSsid | withBssid => cases h

/-- An attempt ends. -/
theorem Inv.finish {f : Entry} (hs : s.Inv) (hc : f = .connect → (s.clients i).inConnect = true)
    (ret : ℤ) : (s.goOn i (f.finish ret)).Inv := by
  apply hs.move (inConnect_finish hc)
  · cases f <;> nofun
  · cases f <;> nofun

/-- One step of a client. -/
theorem Inv.clientStep {id : Option ℤ} (hs : s.Inv)
    (hwrite : ∀ id ∈ (s.clients i).writes, s.Needs id)
    (ht : s.clientStep i id = some t) : t.Inv := by
  unfold Connect.clientStep at ht
  cases hc : s.clients i with
  | idle r =>
    simp only [hc] at ht
    cases ht
  | lock =>
    simp only [hc] at ht
    obtain rfl := Option.some.inj ht
    exact hs.goOn true s.connectingId (fun _ => rfl) nofun (fun _ j hne => hs.alone (Or.inl hc) hne)
      nofun hs.written hs.unread
  | search f =>
    cases id with
    | some id =>
      simp only [hc] at ht
      obtain rfl := Option.some.inj ht
      refine hs.move (fun h => ?_) nofun nofun
      rw [hc]
      cases f <;> exact h
    | none =>
      simp only [hc] at ht
      obtain rfl := Option.some.inj ht
      refine hs.move (fun h => ?_) nofun nofun
      rw [hc]
      cases f <;> exact h
  | write f id =>
    simp only [hc] at ht
    obtain rfl := Option.some.inj ht
    obtain ⟨hwritten, hunread⟩ := hwrite id (by rw [hc]; rfl)
    -- what is still to be read is this network
    refine hs.goOn s.lock id ?_ (fun hfree j _ => hs.outside hfree j) ?_
      (fun other ho => (Option.some.inj ho).symm) hwritten hunread
    · intro h
      apply hs.locked i
      rw [hc]
      cases f <;> exact h
    · intro h j hne
      apply hs.alone (Or.inr ?_) hne
      rw [hc]
      rcases h with h | h
      · cases h
      · cases f <;> exact h
  | setUp f own =>
    have hown := hs.written i own (by rw [hc]; rfl)
    simp only [hc] at ht
    obtain rfl := Option.some.inj ht
    split_ifs
    · refine hs.move (fun h => ?_) nofun fun other ho => (Option.some.inj ho).symm.trans hown
      rw [hc]
      cases f <;> exact h
    · refine hs.move (fun h => ?_) nofun nofun
      rw [hc]
      cases f <;> exact h
  | spawn f own =>
    have hown := hs.written i own (by rw [hc]; rfl)
    simp only [hc] at ht
    obtain rfl := Option.some.inj ht
    have hend : (s.goOn i (f.finish 0)).Inv := by
      apply hs.finish
      rintro rfl
      rw [hc]
      rfl
    -- the check is going to read the network of the attempt
    refine ⟨hend.locked, hend.single, hend.written, hend.unread.spawn fun other ho => ?_,
      hend.read.spawn (by simp), hend.own⟩
    obtain rfl := Option.some.inj ho
    exact hown
  | fail f =>
    simp only [hc] at ht
    obtain rfl := Option.some.inj ht
    have hend : (s.goOn i (f.finish (-1))).Inv := by
      apply hs.finish
      rintro rfl
      rw [hc]
      rfl
    exact hend.setExist _
  | unlock ret =>
    simp only [hc] at ht
    obtain rfl := Option.some.inj ht
    have hi : (s.clients i).inConnect = true := by rw [hc]; rfl
    refine hs.goOn false s.connectingId nofun (fun _ j hne => (hs.alone (Or.inr hi) hne).2) ?_ nofun
      hs.written hs.unread
    rintro (h | h) <;> cases h

omit [DecidableEq ι] in
/-- One step of a check. -/
theorem Inv.checkStep {ok : Bool} (hs : s.Inv) (hk : k < s.checks.created)
    (ht : s.checkStep k ok = some t) : t.Inv := by
  have hunread := hs.unread k hk
  have hread := hs.read k hk
  unfold Connect.checkStep at ht
  cases hp : s.checks.place k with
  | start own =>
    simp only [hp] at ht
    obtain rfl := Option.some.inj ht
    refine ⟨hs.locked, hs.single, hs.written, hs.unread.move nofun, hs.read.move ?_, hs.own⟩
    rintro own' id (h | h)
    · obtain ⟨rfl, rfl⟩ := CheckPc.wait.inj h
      exact (hunread own (by rw [hp]; rfl)).symm
    · cases h
  | wait own id =>
    simp only [hp] at ht
    obtain rfl := Option.some.inj ht
    cases ok with
    | true =>
      exact ⟨hs.locked, hs.single, hs.written, hs.unread.move nofun, hs.read.move (by simp),
        hs.own⟩
    | false =>
      refine ⟨hs.locked, hs.single, hs.written, hs.unread.move nofun, hs.read.move ?_, hs.own⟩
      rintro own' id' (h | h)
      · cases h
      · obtain ⟨rfl, rfl⟩ := CheckPc.fail.inj h
        exact hread own id (Or.inl hp)
  | fail own id =>
    simp only [hp] at ht
    obtain rfl := Option.some.inj ht
    refine ⟨hs.locked, hs.single, hs.written, hs.unread.move nofun, hs.read.move (by simp),
      List.forall_mem_cons.mpr ⟨?_, hs.own⟩⟩
    have hid := hread own id (Or.inr hp)
    split
    · exact hid
    · exact hid
  | clear =>
    simp only [hp] at ht
    obtain rfl := Option.some.inj ht
    exact ⟨hs.locked, hs.single, hs.written, hs.unread.move nofun, hs.read.move (by simp),
      hs.own⟩
  | ended =>
    simp only [hp] at ht
    cases ht

/-- **Every orderly step keeps the invariant.** -/
theorem Inv.step {e : ConnectEvent ι} (hs : s.Inv) (he : e.Orderly s) (ht : s.step e = some t) :
    t.Inv := by
  cases e with
  | call f i =>
    simp only [Connect.step] at ht
    split at ht
    · cases f with
      | connect =>
        obtain rfl := Option.some.inj ht
        split_ifs with hlock
        · exact hs.move nofun nofun nofun
        · have hfree := Bool.eq_false_of_not_eq_true hlock
          have hnone : ∀ j, (s.clients j).inConnect = false := by
            intro j
            by_contra h
            exact hlock (hs.locked j (Bool.eq_true_of_not_eq_false h))
          exact hs.goOn s.lock s.connectingId nofun (fun _ j _ => hnone j)
            (fun _ j _ => ⟨he rfl hfree j, hnone j⟩) nofun hs.written hs.unread
      | withSsid =>
        obtain rfl := Option.some.inj ht
        have hnext : (s.goOn i (.search .withSsid)).Inv := hs.move nofun nofun nofun
        exact hnext.setExist true
      | withBssid =>
        obtain rfl := Option.some.inj ht
        exact hs.move nofun nofun nofun
    · cases ht
  | client i id => exact hs.clientStep he ht
  | check k ok =>
    simp only [Connect.step] at ht
    split_ifs at ht with hk
    exact hs.checkStep hk ht

end Connect

/-- **Each attempt settles its own network**, in every state of every orderly run. -/
theorem settles_of_orderly [DecidableEq ι] {t : Connect ι} {es : List (ConnectEvent ι)}
    (hrun : Run (fun s e u => e.Orderly s ∧ s.step e = some u) Connect.start es t) : Settles t :=
  (hrun.invariant (I := Connect.Inv) (fun _ _ _ hs h => hs.step h.1 h.2)
    Connect.inv_start).settles

/-- Two clients whose networks are added, and get no connection. The second one is refused while the
first has the lock, and makes its attempt when the first check has read `connecting_id`. -/
def twoClients : List (ConnectEvent Bool) :=
  .call .connect false :: List.replicate 2 (.client false (some 3)) ++ .call .connect true ::
    List.replicate 4 (.client false (some 3)) ++ .check 0 false :: .call .withBssid true ::
    List.replicate 4 (.client true (some 5)) ++ .check 1 false ::
    List.replicate 2 (.check 0 false) ++ List.replicate 2 (.check 1 false)

theorem settles_of_orderly_twoClients :
    ∃ t, Run (fun s (e : ConnectEvent Bool) u => e.Orderly s ∧ s.step e = some u) Connect.start
        twoClients t ∧
      t.settled = [(5, .removed 5), (3, .removed 3)] ∧ Settles t := by
  obtain ⟨t, ht, hsettled⟩ : ∃ t, twoClients.foldlM
      (fun s e => if e.Orderly s then s.step e else none) Connect.start = some t ∧
      t.settled = [(5, .removed 5), (3, .removed 3)] := ⟨_, rfl, rfl⟩
  have hrun := Run.of_foldlM_guard ht
  exact ⟨t, hrun, hsettled, settles_of_orderly hrun⟩

/-- A second attempt before the check of the first has read `connecting_id`. -/
def twoAttempts : List (ConnectEvent Bool) :=
  .call .connect false :: List.replicate 6 (.client false (some 3)) ++
    .call .withBssid true :: List.replicate 2 (.client true (some 5)) ++
    List.replicate 3 (.check 0 false)

/-- **The first check removes the network of the second attempt.** -/
theorem removes_other :
    ∃ t, Run (fun s (e : ConnectEvent Bool) u => s.step e = some u) Connect.start twoAttempts t ∧
      t.settled = [(3, .removed 5)] ∧ ¬ Settles t := by
  obtain ⟨t, ht, hsettled⟩ : ∃ t, twoAttempts.foldlM Connect.step Connect.start = some t ∧
      t.settled = [(3, .removed 5)] := ⟨_, rfl, rfl⟩
  refine ⟨t, Run.of_foldlM ht, hsettled, fun h => ?_⟩
  have hid := h.own (3, .removed 5) (by rw [hsettled]; exact List.mem_singleton.mpr rfl)
  exact absurd hid (by decide)

end RkIpc.Network
