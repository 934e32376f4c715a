import Mathlib.Logic.Function.Basic
import RkIpc.Resource.Slot
import RkIpc.Storage.Device
import RkIpc.Transition.Run

/-!
# The scan threads of a handle

`rkipc_storage_auto_delete_init` and `rkipc_storage_dev_add` create a scan thread,
`rkipc_storage_dev_remove` and `rkipc_storage_auto_delete_deinit` join it through the one thread id
in the handle. A scan thread allocates the folders, creates a monitor thread, and joins it and
frees the folders on its way out. `rkipc_storage_dev_add` does not look at the thread id it
overwrites.

`pthread_create` succeeds for the scan thread. Waiting for `g_file_scan_signal` may end at any
time.

## Main definitions

* `HotPlug`, `HotPlugEvent`, `HotPlug.step`: the handle with its threads, and what can happen next
* `OneScanner`: one scanner and one monitor at most, each scanner joined before its id is
  overwritten, and working on the folders it allocated
* `InTurn`: no scanner is created while the handle still has the id of another, and the scan
  thread's `rk_signal_create` succeeds

## Main results

* `oneScanner_of_inTurn`: runs in turn keep to one scanner
* `twoScanners_of_add`: an add after a successful init does not
-/

namespace RkIpc.Storage

open Resource Transition

/-- Where a scan thread stands. -/
inductive ScannerPc
  /-- about to allocate the folders, unless the card is gone -/
  | start
  /-- creating and reading the folders -/
  | folders
  /-- about to test `mount_status` -/
  | checkMount
  /-- about to set it to `DISK_MOUNTED` -/
  | setMounted
  /-- `rkipc_storage_get_disk_size` -/
  | diskSize
  /-- `pthread_create(&fileMonitorTid, ..)` -/
  | createMonitor
  /-- `rk_signal_create` -/
  | createSignal
  | loop
  /-- `file_scan_out:` -/
  | out
  | returned
deriving DecidableEq, Repr

/-- A scan thread: whether it works on folders it has allocated, and whether its monitor thread is
running. -/
structure Scanner where
  pc : ScannerPc
  hasFolder : Bool
  monitor : Bool
deriving DecidableEq, Repr

/-- The thread that handles messages. -/
inductive HandlerPc
  | idle
  /-- in `pthread_join`; the handle is freed afterwards if it is being closed -/
  | joining (closing : Bool)
  | freed
deriving DecidableEq, Repr

/-- A handle with its threads: `file_scan_tid` and the threads joined, and `dev_sta.folder` by the
scan thread that allocated it. -/
structure HotPlug where
  sta : DevSta
  tid : Slot
  folder : Option ℕ
  scanners : ℕ → Scanner
  handler : HandlerPc

/-- What can happen next. `ok` is the outcome of the call the scan thread is at. -/
inductive HotPlugEvent
  | init (mounts : Mounts)
  | add (dev : String) (mounts : Mounts)
  | remove (dev : String)
  | deinit
  | joined
  | scanner (k : ℕ) (ok : Bool)
  /-- the monitor thread sees `IN_UNMOUNT` -/
  | unmount (k : ℕ)
  /-- the monitor thread returns -/
  | monitorOut (k : ℕ)

namespace HotPlug

/-- The handle after `memset(.., 0, ..)`. -/
def start : HotPlug where
  sta := ⟨"", .unmounted⟩
  tid := Slot.empty
  folder := none
  scanners := fun _ => ⟨.start, false, false⟩
  handler := .idle

/-- `pthread_create(&pHandle->dev_sta.file_scan_tid, ..)`. -/
def create (s : HotPlug) : HotPlug :=
  { s with
    tid := s.tid.acquire
    scanners := Function.update s.scanners s.tid.created ⟨.start, false, false⟩ }

/-- Scan thread `k` goes on. -/
def setScanner (s : HotPlug) (k : ℕ) (c : Scanner) : HotPlug :=
  { s with scanners := Function.update s.scanners k c }

/-- `mount_status` is set. -/
def setStatus (s : HotPlug) (status : MountStatus) : HotPlug :=
  { s with sta := { s.sta with mountStatus := status } }

/-- One step of scan thread `k`. -/
def scannerStep (s : HotPlug) (k : ℕ) (ok : Bool) : Option HotPlug :=
  let c := s.scanners k
  match c.pc with
  | .start =>
    if s.sta.mountStatus = .unmounted then some (s.setScanner k { c with pc := .checkMount })
    else if ok then
      some { s.setScanner k { c with pc := .folders, hasFolder := true } with folder := some k }
    -- `malloc` failed: the thread returns at once
    else some { s.setScanner k { c with pc := .returned } with folder := none }
  | .folders => some (s.setScanner k { c with pc := if ok then .checkMount else .out })
  | .checkMount =>
    if s.sta.mountStatus = .unmounted then some (s.setScanner k { c with pc := .out })
    else some (s.setScanner k { c with pc := .setMounted })
  | .setMounted => some ((s.setStatus .mounted).setScanner k { c with pc := .diskSize })
  | .diskSize =>
    if s.sta.mountStatus = .unmounted ∨ ok then
      some (s.setScanner k { c with pc := .createMonitor })
    -- `GetDiskSize` failed: the thread returns without freeing the folders
    else some (s.setScanner k { c with pc := .returned })
  | .createMonitor =>
    if ok then some (s.setScanner k { c with pc := .createSignal, monitor := true })
    else some (s.setScanner k { c with pc := .out })
  -- a failure returns without joining the monitor thread
  | .createSignal => some (s.setScanner k { c with pc := if ok then .loop else .returned })
  | .loop =>
    if s.sta.mountStatus = .mounted ∧ ok then some s
    else some (s.setScanner k { c with pc := .out })
  | .out =>
    -- `pthread_join(fileMonitorTid, NULL)`, then the folders in the handle are freed
    if c.monitor then none
    else some { s.setScanner k { c with pc := .returned, hasFolder := false } with folder := none }
  | .returned => none

/-- `pthread_join` returns once the scan thread has; without a thread id there is nothing to wait
for. A handle that is being closed is freed, and its thread id with it. -/
def joinStep (s : HotPlug) : Option HotPlug :=
  match s.handler with
  | .joining closing =>
    if ∃ k ∈ s.tid.held, (s.scanners k).pc ≠ .returned then none
    else some { s with tid := s.tid.release, handler := if closing then .freed else .idle }
  | _ => none

/-- The handle after an event; `none` when it cannot happen. -/
def step (attr : DevAttr) (s : HotPlug) : HotPlugEvent → Option HotPlug
  | .init mounts =>
    if s.handler ≠ .idle then none
    else
      let (sta, ok) := autoDeleteInit attr s.sta mounts
      some (if ok then { s with sta := sta }.create else { s with sta := sta })
  | .add dev mounts =>
    if s.handler ≠ .idle then none
    else
      let (sta, ok) := devAdd attr s.sta dev mounts
      some (if ok then { s with sta := sta }.create else { s with sta := sta })
  | .remove dev =>
    if s.handler ≠ .idle then none
    else
      let (sta, ok) := devRemove s.sta dev
      some (if ok then { s with sta := sta, handler := .joining false } else s)
  | .deinit =>
    if s.handler ≠ .idle then none
    else some { s.setStatus .unmounted with handler := .joining true }
  | .joined => s.joinStep
  | .scanner k ok => if k < s.tid.created then s.scannerStep k ok else none
  | .unmount k => if (s.scanners k).monitor then some (s.setStatus .unmounted) else none
  | .monitorOut k =>
    if (s.scanners k).monitor then
      some (s.setScanner k { s.scanners k with monitor := false })
    else none

/-- Scan thread `k` has been created and has not returned. -/
def Running (s : HotPlug) (k : ℕ) : Prop := k < s.tid.created ∧ (s.scanners k).pc ≠ .returned

end HotPlug

/-- **One scanner**: at most one scan thread and one monitor thread run; a scan thread whose id the
handle does not have has been joined; and the folders a scan thread works on are the ones it
allocated. -/
structure OneScanner (s : HotPlug) : Prop where
  scanner : ∀ j k, s.Running j → s.Running k → j = k
  monitor : ∀ j k, (s.scanners j).monitor = true → (s.scanners k).monitor = true → j = k
  joined : ∀ k < s.tid.created, s.tid.held = some k ∨ k ∈ s.tid.released
  folder : ∀ k, s.Running k → (s.scanners k).hasFolder = true → s.folder = some k

/-- **In turn**: a scan thread is created only while the handle has no thread id, and in the scan
thread `rk_signal_create` succeeds. -/
def InTurn (attr : DevAttr) (s : HotPlug) : HotPlugEvent → Prop
  | .init mounts => (autoDeleteInit attr s.sta mounts).2 = true → s.tid.held = none
  | .add dev mounts => (devAdd attr s.sta dev mounts).2 = true → s.tid.held = none
  | .scanner k ok => (s.scanners k).pc = .createSignal → ok = true
  | _ => True

namespace HotPlug

/-- **The invariant**: the thread id is handled cleanly, a joined scan thread has returned, a
monitor thread runs only between its creation and its join, and a scan thread that works on
folders works on the ones in the handle. -/
structure Inv (s : HotPlug) : Prop where
  clean : s.tid.Clean
  joined : ∀ k ∈ s.tid.released, (s.scanners k).pc = .returned
  monitor : ∀ k, (s.scanners k).monitor = true →
    k < s.tid.created ∧ (s.scanners k).pc ∈ [.createSignal, .loop, .out]
  folder : ∀ k, s.Running k → (s.scanners k).hasFolder = true → s.folder = some k

variable {attr : DevAttr} {s t : HotPlug} {k : ℕ}

theorem inv_start : start.Inv where
  clean := Slot.clean_empty
  joined := by simp [start, Slot.empty]
  monitor := by simp [start]
  folder := by simp [start]

/-- A running scan thread is the one whose id the handle has. -/
theorem Inv.held_of_running (hs : s.Inv) (hk : s.Running k) : s.tid.held = some k := by
  -- a scan thread whose id is not held has been joined, and has returned
  by_contra hne
  exact hk.2 (hs.joined k (hs.clean.released_of_ne hk.1 hne))

theorem Inv.oneScanner (hs : s.Inv) : OneScanner s := by
  have hscanner : ∀ j k, s.Running j → s.Running k → j = k := fun j k hj hk =>
    Option.some.inj ((hs.held_of_running hj).symm.trans (hs.held_of_running hk))
  -- a monitor thread runs only under a running scan thread
  have hrunning : ∀ j, (s.scanners j).monitor = true → s.Running j := by
    intro j hj
    obtain ⟨hlt, hpc⟩ := hs.monitor j hj
    refine ⟨hlt, fun hret => ?_⟩
    rw [hret] at hpc
    simp at hpc
  refine ⟨hscanner, fun j k hj hk => hscanner j k (hrunning j hj) (hrunning k hk), ?_, hs.folder⟩
  intro k hk
  rcases eq_or_ne s.tid.held (some k) with hheld | hheld
  · exact Or.inl hheld
  · exact Or.inr (hs.clean.released_of_ne hk hheld)

/-- The device may change at any time. -/
theorem Inv.setSta (hs : s.Inv) (sta : DevSta) (handler : HandlerPc) :
    ({ s with sta := sta, handler := handler } : HotPlug).Inv :=
  ⟨hs.clean, hs.joined, hs.monitor, hs.folder⟩

/-- A step of the one scan thread that runs. -/
theorem Inv.update {c : Scanner} (hs : s.Inv) (hk : s.Running k) (sta : DevSta)
    (folder : Option ℕ)
    (hmonitor : c.monitor = true → c.pc ∈ [ScannerPc.createSignal, .loop, .out])
    (hfolder : c.pc ≠ .returned → c.hasFolder = true → folder = some k) :
    ({ s with sta := sta, scanners := Function.update s.scanners k c, folder := folder } :
      HotPlug).Inv := by
  refine ⟨hs.clean, fun j hj => ?_, fun j hj => ?_, fun j hj hjf => ?_⟩
  -- a scan thread that has been joined takes no step
  · have hne : j ≠ k := fun he => hk.2 (hs.joined k (he ▸ hj))
    simpa [hne] using hs.joined j hj
  · rcases eq_or_ne j k with rfl | hne
    · simp only [Function.update_self] at hj ⊢
      exact ⟨hk.1, hmonitor hj⟩
    · simp only [Function.update_of_ne hne] at hj ⊢
      exact hs.monitor j hj
  · obtain ⟨hlt, hpc⟩ := hj
    rcases eq_or_ne j k with rfl | hne
    · simp only [Function.update_self] at hpc hjf
      exact hfolder hpc hjf
    · -- no other scan thread runs
      simp only [Function.update_of_ne hne] at hpc
      exact absurd (hs.oneScanner.scanner j k ⟨hlt, hpc⟩ hk) hne

/-- A scan thread is created while the handle has no thread id. -/
theorem Inv.create (hs : s.Inv) (hheld : s.tid.held = none) : s.create.Inv := by
  -- the scan threads before it stand where they stood, and it has nothing yet
  have hold : ∀ j < s.tid.created, (s.create.scanners j) = s.scanners j := fun j hj =>
    Function.update_of_ne (Nat.ne_of_lt hj) ..
  have hnew : s.create.scanners s.tid.created = ⟨.start, false, false⟩ :=
    Function.update_self ..
  refine ⟨hs.clean.acquire hheld, fun j hj => ?_, fun j hj => ?_, fun j hj hjf => ?_⟩
  · rw [hold j ((hs.clean.mem_released j).mp hj).1]
    exact hs.joined j hj
  · rcases eq_or_ne j s.tid.created with rfl | hne
    · rw [hnew] at hj
      cases hj
    · have heq : s.create.scanners j = s.scanners j := Function.update_of_ne hne ..
      rw [heq] at hj ⊢
      obtain ⟨hlt, hpc⟩ := hs.monitor j hj
      exact ⟨Nat.lt_succ_of_lt hlt, hpc⟩
  -- the ones before it, and the new one
  · rcases Nat.lt_succ_iff_lt_or_eq.mp hj.1 with hlt | rfl
    · refine hs.folder j ⟨hlt, ?_⟩ ?_
      · rw [← hold j hlt]
        exact hj.2
      · rw [← hold j hlt]
        exact hjf
    · rw [hnew] at hjf
      cases hjf

/-- A running scan thread goes elsewhere. Its monitor thread runs only between its creation and its
join. -/
theorem Inv.goOn (hs : s.Inv) (hk : s.Running k) (sta : DevSta) (pc : ScannerPc)
    (hmonitor : (s.scanners k).pc ∉ [ScannerPc.createSignal, .loop, .out] ∨
      pc ∈ [ScannerPc.createSignal, .loop, .out]) :
    ({ s with
      sta := sta
      scanners := Function.update s.scanners k { s.scanners k with pc := pc } } : HotPlug).Inv := by
  refine hs.update hk _ _ (fun h => ?_) fun _ => hs.folder k hk
  rcases hmonitor with hpc | hpc
  · exact absurd (hs.monitor k h).2 hpc
  · exact hpc

/-- A step of a scan thread, when its `rk_signal_create` succeeds. -/
theorem Inv.scannerStep {ok : Bool} (hs : s.Inv) (hlt : k < s.tid.created)
    (hok : (s.scanners k).pc = .createSignal → ok = true)
    (ht : s.scannerStep k ok = some t) : t.Inv := by
  have hne : (s.scanners k).pc ≠ .returned := by
    intro hpc
    simp [HotPlug.scannerStep, hpc] at ht
  have hk : s.Running k := ⟨hlt, hne⟩
  unfold HotPlug.scannerStep at ht
  cases hpc : (s.scanners k).pc with
  | start =>
    have hnone : (s.scanners k).monitor = false := by
      by_contra h
      simpa [hpc] using (hs.monitor k (by simpa using h)).2
    simp only [hpc] at ht
    split_ifs at ht
    · obtain rfl := Option.some.inj ht
      exact hs.goOn hk _ _ (Or.inl (by simp [hpc]))
    -- the folders are its own, or there are none
    · obtain rfl := Option.some.inj ht
      exact hs.update hk _ _ (by simp [hnone]) fun _ _ => rfl
    · obtain rfl := Option.some.inj ht
      exact hs.update hk _ _ (by simp [hnone]) fun h _ => absurd rfl h
  | folders =>
    simp only [hpc] at ht
    obtain rfl := Option.some.inj ht
    exact hs.goOn hk _ _ (Or.inl (by simp [hpc]))
  | checkMount =>
    simp only [hpc] at ht
    split_ifs at ht
    · obtain rfl := Option.some.inj ht
      exact hs.goOn hk _ _ (Or.inl (by simp [hpc]))
    · obtain rfl := Option.some.inj ht
      exact hs.goOn hk _ _ (Or.inl (by simp [hpc]))
  | setMounted =>
    simp only [hpc] at ht
    obtain rfl := Option.some.inj ht
    exact hs.goOn hk _ _ (Or.inl (by simp [hpc]))
  | diskSize =>
    simp only [hpc] at ht
    split_ifs at ht
    · obtain rfl := Option.some.inj ht
      exact hs.goOn hk _ _ (Or.inl (by simp [hpc]))
    · obtain rfl := Option.some.inj ht
      exact hs.goOn hk _ _ (Or.inl (by simp [hpc]))
  | createMonitor =>
    simp only [hpc] at ht
    split_ifs at ht
    · obtain rfl := Option.some.inj ht
      exact hs.update hk _ _ (by simp) fun _ => hs.folder k hk
    · obtain rfl := Option.some.inj ht
      exact hs.goOn hk _ _ (Or.inr (by simp))
  | createSignal =>
    obtain rfl := hok hpc
    simp only [hpc, if_true] at ht
    obtain rfl := Option.some.inj ht
    exact hs.goOn hk _ _ (Or.inr (by simp))
  | loop =>
    simp only [hpc] at ht
    split_ifs at ht
    · obtain rfl := Option.some.inj ht
      exact hs
    · obtain rfl := Option.some.inj ht
      exact hs.goOn hk _ _ (Or.inr (by simp))
  -- its monitor thread has been joined, so nothing of it runs any more
  | out =>
    simp only [hpc] at ht
    split_ifs at ht with hrun
    obtain rfl := Option.some.inj ht
    exact hs.update hk _ _ (by simp [hrun]) fun h _ => absurd rfl h
  | returned => exact absurd hpc hne

/-- `pthread_join` has returned: so has the scan thread. -/
theorem Inv.joinStep (hs : s.Inv) (ht : s.joinStep = some t) : t.Inv := by
  unfold HotPlug.joinStep at ht
  split at ht
  · by_cases hwait : ∃ k ∈ s.tid.held, (s.scanners k).pc ≠ .returned
    · rw [if_pos hwait] at ht
      cases ht
    · rw [if_neg hwait] at ht
      obtain rfl := Option.some.inj ht
      refine ⟨hs.clean.release, fun j hj => ?_, fun j hj => ?_, fun j hj => hs.folder j ⟨?_, hj.2⟩⟩
      -- the thread joined just now has returned, and so have those joined before
      · rcases eq_or_ne s.tid.held (some j) with hheld | hheld
        · by_contra hpc
          exact hwait ⟨j, hheld, hpc⟩
        · refine hs.joined j (hs.clean.released_of_ne ?_ hheld)
          simpa using ((hs.clean.release).mem_released j).mp hj |>.1
      · simpa using hs.monitor j hj
      · simpa using hj.1
  · cases ht

/-- **Every step in turn keeps the invariant.** -/
theorem Inv.step {e : HotPlugEvent} (hs : s.Inv) (he : InTurn attr s e)
    (ht : s.step attr e = some t) : t.Inv := by
  cases e with
  | init mounts =>
    simp only [HotPlug.step] at ht
    split_ifs at ht with hidle hok
    · obtain rfl := Option.some.inj ht
      exact (hs.setSta _ s.handler).create (he hok)
    · obtain rfl := Option.some.inj ht
      exact hs.setSta _ _
  | add dev mounts =>
    simp only [HotPlug.step] at ht
    split_ifs at ht with hidle hok
    · obtain rfl := Option.some.inj ht
      exact (hs.setSta _ s.handler).create (he hok)
    · obtain rfl := Option.some.inj ht
      exact hs.setSta _ _
  | remove dev =>
    simp only [HotPlug.step] at ht
    split_ifs at ht with hidle hok
    · obtain rfl := Option.some.inj ht
      exact hs.setSta _ _
    · obtain rfl := Option.some.inj ht
      exact hs
  | deinit =>
    simp only [HotPlug.step] at ht
    split_ifs at ht
    obtain rfl := Option.some.inj ht
    exact hs.setSta _ _
  | joined => exact hs.joinStep ht
  | scanner k ok =>
    simp only [HotPlug.step] at ht
    split_ifs at ht with hlt
    exact hs.scannerStep hlt he ht
  | unmount k =>
    simp only [HotPlug.step] at ht
    split_ifs at ht
    obtain rfl := Option.some.inj ht
    exact hs.setSta _ s.handler
  | monitorOut k =>
    simp only [HotPlug.step] at ht
    split_ifs at ht with hrun
    obtain rfl := Option.some.inj ht
    obtain ⟨hlt, hpc⟩ := hs.monitor k hrun
    -- its scan thread still runs: it joins the monitor thread before it returns
    have hne : (s.scanners k).pc ≠ .returned := fun h => by simp [h] at hpc
    exact hs.update ⟨hlt, hne⟩ _ _ (by simp) fun _ => hs.folder k ⟨hlt, hne⟩

end HotPlug

/-- **One scanner per handle**, in every state of every run in which scan threads are created in
turn. -/
theorem oneScanner_of_inTurn {attr : DevAttr} {t : HotPlug} {es : List HotPlugEvent}
    (hrun : Run (fun s e u => InTurn attr s e ∧ s.step attr e = some u) HotPlug.start es t) :
    OneScanner t :=
  (hrun.invariant (I := HotPlug.Inv) (fun _ _ _ hs h => hs.step h.1 h.2)
    HotPlug.inv_start).oneScanner

theorem oneScanner_of_inTurn_replug :
    ∃ t, Run (fun s e u => InTurn cardAttr s e ∧ s.step cardAttr e = some u) HotPlug.start
        [.init cardMounted, .remove "/dev/mmcblk1p1", .scanner 0 true, .scanner 0 true,
          .scanner 0 true, .joined, .add "/dev/mmcblk1p1" cardMounted] t ∧
      t.Running 1 ∧ OneScanner t := by
  have hrun : ∃ t, Run (fun s e u => InTurn cardAttr s e ∧ s.step cardAttr e = some u)
      HotPlug.start [.init cardMounted, .remove "/dev/mmcblk1p1", .scanner 0 true,
        .scanner 0 true, .scanner 0 true, .joined, .add "/dev/mmcblk1p1" cardMounted] t ∧
      t.Running 1 :=
    ⟨_, .snoc (.snoc (.snoc (.snoc (.snoc (.snoc (.snoc .nil ⟨fun _ => rfl, rfl⟩)
      ⟨trivial, rfl⟩) ⟨nofun, rfl⟩) ⟨nofun, rfl⟩) ⟨nofun, rfl⟩) ⟨trivial, rfl⟩)
      ⟨fun _ => rfl, rfl⟩, by decide, by decide⟩
  obtain ⟨t, hrun, hnew⟩ := hrun
  exact ⟨t, hrun, hnew, oneScanner_of_inTurn hrun⟩

/-- A successful init, the scan thread up to its loop, and an add with its scan thread. -/
def initThenAdd : List HotPlugEvent :=
  .init cardMounted :: List.replicate 7 (.scanner 0 true) ++
    .add "/dev/mmcblk1p1" cardMounted :: List.replicate 6 (.scanner 1 true)

/-- **An add after a successful init makes a second scanner**: the id of the first is overwritten
before it has been joined, both run with their monitors, and the second replaces the folders the
first works on. -/
theorem twoScanners_of_add :
    ∃ t, Run (fun s e u => s.step cardAttr e = some u) HotPlug.start initThenAdd t ∧
      (t.Running 0 ∧ t.Running 1) ∧
      ((t.scanners 0).monitor = true ∧ (t.scanners 1).monitor = true) ∧
      (t.tid.held ≠ some 0 ∧ 0 ∉ t.tid.released) ∧
      ((t.scanners 0).hasFolder = true ∧ t.folder = some 1) ∧ ¬ OneScanner t := by
  obtain ⟨t, ht, h0, h1, hmonitors, hjoined, hfolder⟩ : ∃ t,
      initThenAdd.foldlM (HotPlug.step cardAttr) HotPlug.start = some t ∧
      t.Running 0 ∧ t.Running 1 ∧
      ((t.scanners 0).monitor = true ∧ (t.scanners 1).monitor = true) ∧
      (t.tid.held ≠ some 0 ∧ 0 ∉ t.tid.released) ∧
      ((t.scanners 0).hasFolder = true ∧ t.folder = some 1) :=
    ⟨_, rfl, ⟨by decide, by decide⟩, ⟨by decide, by decide⟩, ⟨rfl, rfl⟩, ⟨by decide, by decide⟩,
      rfl, rfl⟩
  exact ⟨t, Run.of_foldlM ht, ⟨h0, h1⟩, hmonitors, hjoined, hfolder, fun h =>
    absurd (h.scanner 0 1 h0 h1) (by decide)⟩

end RkIpc.Storage
