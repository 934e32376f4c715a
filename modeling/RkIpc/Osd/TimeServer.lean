import RkIpc.Osd.Osd
import RkIpc.Resource.Workers
import RkIpc.Transition.Run

/-!
# The thread for the date and the time

`rk_osd_init` starts a thread `osd_time_server` for every enabled entry of the type, and creates the
signal this thread waits on afterwards; `rk_osd_deinit` stops and joins the thread through the one
thread id, if there is a signal. The thread does not take `g_osd_mutex`, so that its steps are
interleaved with those of the two functions.

`pthread_create` succeeds. The mutex is that of `mutex_free_iff`: an init that fails to create the
signal keeps it, and no call after it begins.

## Main definitions

* `timeEntries`: the entries for which a thread is started
* `TimeServer`, `TimeEvent`, `TimeServer.step`: the variables with the threads, and what can happen
  next
* `OneTimeServer`: one thread at most, waiting on a signal that exists, and none after a deinit
* `TimeEvent.Orderly`: a thread is created after all others have ended, and does not come to its
  wait before its signal has been created

## Main results

* `oneTimeServer_of_orderly`: orderly runs keep to one thread, which is stopped by a deinit
* `waits_without_signal`: a thread that is faster than `rk_osd_init` waits without a signal
-/

namespace RkIpc.Osd

open Param Resource Transition

/-- The entries for which `rk_osd_init` starts a thread, in their order. -/
def timeEntries (q : Params) : List ℤ := slots.filter fun id => TimeEnabled q id

/-- They are the ones that `rk_osd_init` shows by a time server. -/
theorem mem_timeEntries_iff (e : Env) (q : Params) (s : Screen) (id : ℤ) (data : OsdData) :
    id ∈ timeEntries q ↔ id ∈ slots ∧ (initEntry e q s id data).2 = some .time := by
  rw [timeEntries, List.mem_filter, decide_eq_true_eq, initEntry_time_iff]

/-- Where a thread `osd_time_server` stands. -/
inductive TimePlace
  /-- up to the creation of its region -/
  | start
  /-- about to test `g_osd_server_run_` -/
  | head
  /-- about to read `g_osd_signal` -/
  | read
  /-- in `rk_signal_wait` -/
  | wait (signal : Option ℕ)
  | ended
deriving DecidableEq, Repr

/-- Where the thread that calls `rk_osd_init` and `rk_osd_deinit` stands. -/
inductive TimeCaller
  /-- in neither function, and whether the last one was `rk_osd_deinit` -/
  | idle (stopped : Bool)
  /-- in `rk_osd_init`, with the entries for which a thread is still to be started -/
  | entry (ids : List ℤ)
  /-- about to create the thread -/
  | create (ids : List ℤ)
  /-- about to destroy the signal of an earlier thread -/
  | dropSignal (ids : List ℤ)
  /-- about to create the signal -/
  | newSignal (ids : List ℤ)
  /-- `rk_osd_init` has returned with `g_osd_mutex` -/
  | locked
  /-- in `rk_osd_deinit`, about to test `g_osd_signal` -/
  | testSignal
  /-- in `pthread_join` -/
  | join
  /-- about to destroy the signal -/
  | dropOld
  /-- about to clear `g_osd_signal` -/
  | clearOld
  /-- destroying the regions -/
  | regions
deriving DecidableEq, Repr

/-- A thread is created next. -/
def TimeCaller.creating : TimeCaller → Bool
  | .create _ => true
  | _ => false

/-- A thread has been created, and its signal has not. -/
def TimeCaller.early : TimeCaller → Bool
  | .dropSignal _ | .newSignal _ | .locked => true
  | _ => false

/-- **The variables of the time server**: `g_osd_server_run_`, `g_osd_signal`, the signals created
so far and those destroyed, `osd_time_thread_id_`, and the threads. -/
structure TimeServer where
  run : Bool
  signal : Option ℕ
  signals : ℕ
  destroyed : List ℕ
  tid : Option ℕ
  threads : Workers TimePlace
  caller : TimeCaller

/-- What can happen next. `ok` is whether `rk_signal_create` succeeds, if it is called. -/
inductive TimeEvent
  | init (p : Store)
  | deinit
  | caller (ok : Bool)
  | thread (k : ℕ)

namespace TimeServer

/-- The variables before the first call. -/
def start : TimeServer where
  run := true
  signal := none
  signals := 0
  destroyed := []
  tid := none
  threads := Workers.unborn .start
  caller := .idle false

/-- Thread `k` goes on. -/
def goOn (s : TimeServer) (k : ℕ) (p : TimePlace) : TimeServer :=
  { s with threads := s.threads.move k p }

/-- One step of thread `k`, `osd_time_server`. -/
def threadStep (s : TimeServer) (k : ℕ) : Option TimeServer :=
  match s.threads.place k with
  | .start => some (s.goOn k .head)
  | .head => some (s.goOn k (if s.run then .read else .ended))
  | .read => some (s.goOn k (.wait s.signal))
  | .wait _ => some (s.goOn k .head)
  | .ended => none

/-- `rk_signal_destroy(g_osd_signal)`, which does nothing without a signal. -/
def destroySignal (s : TimeServer) : TimeServer :=
  { s with destroyed := s.signal.toList ++ s.destroyed }

/-- The next step of **`rk_osd_init`** or **`rk_osd_deinit`**. -/
def callerStep (s : TimeServer) (ok : Bool) : Option TimeServer :=
  match s.caller with
  | .idle _ | .locked => none
  | .entry [] => some { s with caller := .idle false }
  | .entry (_ :: ids) => some { s with run := true, caller := .create ids }
  | .create ids =>
    some { s with
      tid := some s.threads.created
      threads := s.threads.spawn .start
      caller := .dropSignal ids }
  | .dropSignal ids => some { s.destroySignal with caller := .newSignal ids }
  | .newSignal ids =>
    if ok then
      some { s with signal := some s.signals, signals := s.signals + 1, caller := .entry ids }
    -- returned without giving `g_osd_mutex` back
    else some { s with signal := none, caller := .locked }
  | .testSignal => some { s with caller := if s.signal.isSome then .join else .regions }
  | .join =>
    if ∀ k ∈ s.tid, s.threads.place k = .ended then some { s with caller := .dropOld } else none
  | .dropOld => some { s.destroySignal with caller := .clearOld }
  | .clearOld => some { s with signal := none, caller := .regions }
  | .regions => some { s with caller := .idle true }

/-- The variables after an event; `none` when it cannot happen. -/
def step (s : TimeServer) : TimeEvent → Option TimeServer
  | .init p =>
    match s.caller with
    | .idle _ => some { s with caller := .entry (timeEntries (params p)) }
    | _ => none
  | .deinit =>
    match s.caller with
    | .idle _ => some { s with run := false, caller := .testSignal }
    | _ => none
  | .caller ok => s.callerStep ok
  | .thread k => if k < s.threads.created then s.threadStep k else none

/-- `g_osd_signal` is a signal that exists. -/
def Live (s : TimeServer) : Prop := ∃ g, s.signal = some g ∧ g ∉ s.destroyed

end TimeServer

/-- **One time server**: no two threads run, a thread that waits does so on a signal that exists,
and after `rk_osd_deinit` has returned no thread runs. -/
structure OneTimeServer (s : TimeServer) : Prop where
  one : ∀ j k, j < s.threads.created → k < s.threads.created →
    s.threads.place j ≠ .ended → s.threads.place k ≠ .ended → j = k
  wait : s.threads.All fun _ p => ∀ o, p = .wait o → ∃ g, o = some g ∧ g ∉ s.destroyed
  ended : s.caller = .idle true → s.threads.Over .ended

/-- **Orderly**: a thread is created when all earlier ones have ended, and comes to its wait when
its signal has been created. -/
def TimeEvent.Orderly (s : TimeServer) : TimeEvent → Prop
  | .caller _ => s.caller.creating = true → s.threads.Over .ended
  | .thread k => s.threads.place k = .read → s.caller.early = false
  | .init _ | .deinit => True

instance (s : TimeServer) (e : TimeEvent) : Decidable (e.Orderly s) :=
  match e with
  | .caller _ => inferInstanceAs (Decidable (s.caller.creating = true → s.threads.Over .ended))
  | .thread k =>
    inferInstanceAs (Decidable (s.threads.place k = .read → s.caller.early = false))
  | .init _ | .deinit => .isTrue trivial

namespace TimeServer

/-- What holds of the threads while the caller stands at `c`. -/
def Allowed (s : TimeServer) : TimeCaller → Prop
  | .idle stopped => (s.threads.Over .ended ∨ s.Live) ∧ (stopped = true → s.threads.Over .ended)
  | .entry _ | .create _ | .testSignal | .join => s.threads.Over .ended ∨ s.Live
  -- the thread has not come to its wait
  | .dropSignal _ | .newSignal _ | .locked => s.threads.All fun _ p => ∀ o, p ≠ .wait o
  | .dropOld | .clearOld | .regions => s.threads.Over .ended

/-- **The invariant**: there is one thread at most, the one whose id is kept, it waits on signals
that exist, and signals are destroyed after they have been created. -/
structure Inv (s : TimeServer) : Prop where
  sole : s.threads.Sole .ended s.tid
  wait : s.threads.All fun _ p => ∀ o, p = .wait o → ∃ g, o = some g ∧ g ∉ s.destroyed
  created : ∀ g, s.signal = some g ∨ g ∈ s.destroyed → g < s.signals
  allowed : s.Allowed s.caller

variable {s t : TimeServer} {k : ℕ} {ok : Bool}

theorem inv_start : start.Inv where
  sole := Workers.all_unborn
  wait := Workers.all_unborn
  created := by simp [start]
  allowed := ⟨Or.inl Workers.all_unborn, nofun⟩

theorem Inv.oneTimeServer (hs : s.Inv) : OneTimeServer s where
  one _ _ hj hk hjne hkne := hs.sole.unique hj hk hjne hkne
  wait := hs.wait
  ended hidle := by
    have hallowed := hs.allowed
    rw [hidle] at hallowed
    exact hallowed.2 rfl

/-- A thread that runs finds a signal that exists, unless it is early. -/
theorem Inv.live (hs : s.Inv) (hk : k < s.threads.created) (hne : s.threads.place k ≠ .ended)
    (hearly : s.caller.early = false) : s.Live := by
  have hallowed := hs.allowed
  -- it is there, so the threads are not over
  have hnot : ¬ s.threads.Over .ended := fun h => hne (h k hk)
  cases hc : s.caller with
  | idle stopped =>
    rw [hc] at hallowed
    exact hallowed.1.resolve_left hnot
  | entry | create | testSignal | join =>
    rw [hc] at hallowed
    exact Or.resolve_left hallowed hnot
  | dropSignal | newSignal | locked =>
    rw [hc] at hearly
    cases hearly
  | dropOld | clearOld | regions =>
    rw [hc] at hallowed
    exact absurd hallowed hnot

/-- A thread that has not ended goes on; it comes to a wait only if it is not early, and on a
signal that exists. -/
theorem Inv.goOn {p : TimePlace} (hs : s.Inv) (hk : k < s.threads.created)
    (hne : s.threads.place k ≠ .ended)
    (hwait : ∀ o, p = .wait o → s.caller.early = false ∧ ∃ g, o = some g ∧ g ∉ s.destroyed) :
    (s.goOn k p).Inv := by
  refine ⟨hs.sole.move hk hne, hs.wait.move fun o ho => (hwait o ho).2, hs.created, ?_⟩
  have hallowed := hs.allowed
  have hnot : ¬ s.threads.Over .ended := fun h => hne (h k hk)
  change (s.goOn k p).Allowed s.caller
  cases hc : s.caller with
  | idle stopped =>
    rw [hc] at hallowed
    exact ⟨Or.inr (hallowed.1.resolve_left hnot), fun h => absurd (hallowed.2 h) hnot⟩
  | entry | create | testSignal | join =>
    rw [hc] at hallowed
    exact Or.inr (Or.resolve_left hallowed hnot)
  | dropSignal | newSignal | locked =>
    rw [hc] at hallowed
    have hnone : s.threads.All fun _ p => ∀ o, p ≠ .wait o := hallowed
    refine hnone.move fun o ho => ?_
    have hearly := (hwait o ho).1
    rw [hc] at hearly
    cases hearly
  | dropOld | clearOld | regions =>
    rw [hc] at hallowed
    exact absurd hallowed hnot

/-- One step of a thread. -/
theorem Inv.threadStep (hs : s.Inv) (hk : k < s.threads.created)
    (hread : s.threads.place k = .read → s.caller.early = false)
    (ht : s.threadStep k = some t) : t.Inv := by
  unfold TimeServer.threadStep at ht
  cases hp : s.threads.place k with
  | start =>
    simp only [hp] at ht
    obtain rfl := Option.some.inj ht
    exact hs.goOn hk (by simp [hp]) (by simp)
  | head =>
    simp only [hp] at ht
    obtain rfl := Option.some.inj ht
    refine hs.goOn hk (by simp [hp]) fun o ho => ?_
    split at ho <;> cases ho
  | read =>
    simp only [hp] at ht
    obtain rfl := Option.some.inj ht
    refine hs.goOn hk (by simp [hp]) fun o ho => ?_
    obtain rfl := TimePlace.wait.inj ho
    exact ⟨hread hp, hs.live hk (by simp [hp]) (hread hp)⟩
  | wait o =>
    simp only [hp] at ht
    obtain rfl := Option.some.inj ht
    exact hs.goOn hk (by simp [hp]) (by simp)
  | ended =>
    simp only [hp] at ht
    cases ht

/-- The caller goes on, and the threads and the signals stay as they are. -/
theorem Inv.setCaller {c : TimeCaller} (hs : s.Inv) (run : Bool) (hc : s.Allowed c) :
    ({ s with run := run, caller := c } : TimeServer).Inv :=
  ⟨hs.sole, hs.wait, hs.created, hc⟩

/-- `rk_signal_destroy` while no thread waits. -/
theorem Inv.destroySignal {c : TimeCaller} (hs : s.Inv)
    (hnone : s.threads.All fun _ p => ∀ o, p ≠ .wait o)
    (hc : s.destroySignal.Allowed c) : ({ s.destroySignal with caller := c } : TimeServer).Inv := by
  refine ⟨hs.sole, hnone.imp fun k p hp o ho => absurd ho (hp o), fun g hg => hs.created g ?_, hc⟩
  rcases hg with hg | hg
  · exact Or.inl hg
  · rcases List.mem_append.mp hg with hg | hg
    · exact Or.inl (Option.mem_toList.mp hg)
    · exact Or.inr hg

/-- A step of `rk_osd_init` or `rk_osd_deinit`. -/
theorem Inv.callerStep (hs : s.Inv)
    (hcreate : s.caller.creating = true → s.threads.Over .ended)
    (ht : s.callerStep ok = some t) : t.Inv := by
  have hallowed := hs.allowed
  unfold TimeServer.callerStep at ht
  cases hc : s.caller with
  | idle stopped =>
    simp only [hc] at ht
    cases ht
  | locked =>
    simp only [hc] at ht
    cases ht
  | entry ids =>
    rw [hc] at hallowed
    cases ids with
    | nil =>
      simp only [hc] at ht
      obtain rfl := Option.some.inj ht
      exact hs.setCaller s.run ⟨hallowed, nofun⟩
    | cons id ids =>
      simp only [hc] at ht
      obtain rfl := Option.some.inj ht
      exact hs.setCaller true hallowed
  | create ids =>
    -- all earlier threads have ended, and the new one is at its start
    have hover := hcreate (by rw [hc]; rfl)
    simp only [hc] at ht
    obtain rfl := Option.some.inj ht
    have hnone : s.threads.All fun _ p => ∀ o, p ≠ .wait o := hover.all fun _ => by simp
    exact ⟨hover.spawn, hs.wait.spawn (by simp), hs.created, hnone.spawn (by simp)⟩
  | dropSignal ids =>
    rw [hc] at hallowed
    simp only [hc] at ht
    obtain rfl := Option.some.inj ht
    exact hs.destroySignal hallowed hallowed
  | newSignal ids =>
    rw [hc] at hallowed
    simp only [hc] at ht
    split_ifs at ht
    · obtain rfl := Option.some.inj ht
      -- the signal is new, so it has not been destroyed
      have hnew : s.signals ∉ s.destroyed := fun h => Nat.lt_irrefl _ (hs.created _ (Or.inr h))
      refine ⟨hs.sole, hs.wait, fun g hg => ?_, Or.inr ⟨s.signals, rfl, hnew⟩⟩
      rcases hg with hg | hg
      · rw [← Option.some.inj hg]
        exact Nat.lt_succ_self _
      · exact Nat.lt_succ_of_lt (hs.created g (Or.inr hg))
    · obtain rfl := Option.some.inj ht
      refine ⟨hs.sole, hs.wait, fun g hg => hs.created g (Or.inr ?_), hallowed⟩
      exact hg.resolve_left (by simp)
  | testSignal =>
    rw [hc] at hallowed
    simp only [hc] at ht
    obtain rfl := Option.some.inj ht
    apply hs.setCaller s.run
    cases hsignal : s.signal with
    | some g => exact hallowed
    | none =>
      -- without a signal no thread is left
      refine Or.resolve_right hallowed ?_
      rintro ⟨g, hg, -⟩
      rw [hsignal] at hg
      cases hg
  | join =>
    simp only [hc] at ht
    split_ifs at ht with hjoin
    obtain rfl := Option.some.inj ht
    exact hs.setCaller s.run (hs.sole.over hjoin)
  | dropOld =>
    rw [hc] at hallowed
    simp only [hc] at ht
    obtain rfl := Option.some.inj ht
    have hover : s.threads.Over .ended := hallowed
    exact hs.destroySignal (hover.all fun _ => by simp) hover
  | clearOld =>
    rw [hc] at hallowed
    simp only [hc] at ht
    obtain rfl := Option.some.inj ht
    refine ⟨hs.sole, hs.wait, fun g hg => hs.created g (Or.inr ?_), hallowed⟩
    exact hg.resolve_left (by simp)
  | regions =>
    rw [hc] at hallowed
    simp only [hc] at ht
    obtain rfl := Option.some.inj ht
    exact hs.setCaller s.run ⟨Or.inl hallowed, fun _ => hallowed⟩

/-- **Every orderly step keeps the invariant.** -/
theorem Inv.step {e : TimeEvent} (hs : s.Inv) (he : e.Orderly s) (ht : s.step e = some t) :
    t.Inv := by
  have hallowed := hs.allowed
  cases e with
  | init p =>
    simp only [TimeServer.step] at ht
    split at ht
    · next stopped hc =>
      obtain rfl := Option.some.inj ht
      rw [hc] at hallowed
      exact hs.setCaller s.run hallowed.1
    · cases ht
  | deinit =>
    simp only [TimeServer.step] at ht
    split at ht
    · next stopped hc =>
      obtain rfl := Option.some.inj ht
      rw [hc] at hallowed
      exact hs.setCaller false hallowed.1
    · cases ht
  | caller ok => exact hs.callerStep he ht
  | thread k =>
    simp only [TimeServer.step] at ht
    split_ifs at ht with hk
    exact hs.threadStep hk he ht

end TimeServer

/-- **One time server**, in every state of every orderly run. -/
theorem oneTimeServer_of_orderly {t : TimeServer} {es : List TimeEvent}
    (hrun : Run (fun s e u => e.Orderly s ∧ s.step e = some u) TimeServer.start es t) :
    OneTimeServer t :=
  (hrun.invariant (I := TimeServer.Inv) (fun _ _ _ hs h => hs.step h.1 h.2)
    TimeServer.inv_start).oneTimeServer

/-- The display with one entry, for the date and the time. -/
theorem timeEntries_oneEntry : timeEntries (params (oneEntry "dateTime")) = [0] := by
  decide +kernel

/-- `rk_osd_init` on this display. -/
theorem step_init_oneEntry : TimeServer.start.step (.init (oneEntry "dateTime")) =
    some { TimeServer.start with caller := .entry [0] } := by
  simp only [TimeServer.step, TimeServer.start, timeEntries_oneEntry]

/-- `rk_osd_init` creates the signal before the thread has come to its wait, and `rk_osd_deinit`
joins it. -/
theorem oneTimeServer_of_orderly_once :
    ∃ es t, Run (fun s e u => e.Orderly s ∧ s.step e = some u) TimeServer.start
        (.init (oneEntry "dateTime") :: es) t ∧
      t.caller = .idle true ∧ t.threads.created = 1 ∧ OneTimeServer t := by
  have hinit : Run (fun s e u => e.Orderly s ∧ s.step e = some u) TimeServer.start
      [TimeEvent.init (oneEntry "dateTime")] { TimeServer.start with caller := .entry [0] } :=
    Run.single ⟨trivial, step_init_oneEntry⟩
  obtain ⟨t, hrest, hstopped, hcreated⟩ : ∃ t,
      List.foldlM (fun s (e : TimeEvent) => if e.Orderly s then s.step e else none)
        { TimeServer.start with caller := .entry [0] }
        [.caller true, .caller true, .thread 0, .caller true, .caller true, .thread 0, .thread 0,
          .thread 0, .caller true, .deinit, .thread 0, .caller true, .caller true, .caller true,
          .caller true, .caller true] = some t ∧
      t.caller = .idle true ∧ t.threads.created = 1 := ⟨_, rfl, rfl, rfl⟩
  have hrun := hinit.append (Run.of_foldlM_guard hrest)
  exact ⟨_, t, hrun, hstopped, hcreated, oneTimeServer_of_orderly hrun⟩

/-- **A thread that is faster than `rk_osd_init`** waits before its signal has been created. -/
theorem waits_without_signal :
    ∃ es t, Run (fun s e u => s.step e = some u) TimeServer.start
        (.init (oneEntry "dateTime") :: es) t ∧
      t.threads.place 0 = .wait none ∧ ¬ OneTimeServer t := by
  obtain ⟨t, ht, hcreated, hplace⟩ : ∃ t,
      List.foldlM TimeServer.step { TimeServer.start with caller := .entry [0] }
        [.caller true, .caller true, .thread 0, .thread 0, .thread 0] = some t ∧
      0 < t.threads.created ∧ t.threads.place 0 = .wait none :=
    ⟨_, rfl, by decide, rfl⟩
  refine ⟨_, t, (Run.single step_init_oneEntry).append (Run.of_foldlM ht), hplace, fun h => ?_⟩
  obtain ⟨g, hg, -⟩ := h.wait 0 hcreated none hplace
  cases hg

end RkIpc.Osd
