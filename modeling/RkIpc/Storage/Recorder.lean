import Mathlib.Data.Fintype.Fin
import RkIpc.Resource.Slot
import RkIpc.Transition.Run

/-!
# Record threads

Each stream has a record thread, started by `rk_storage_muxer_init_by_id` together with its signal
and joined by `rk_storage_muxer_deinit_by_id`. The latter returns at once while
`storage.N:enable` is zero, whatever the parameter was when the thread was started. The two are
called from `rk_storage_init`, `rk_storage_deinit` and the handling of `MSG_DEV_ADD` and
`MSG_DEV_REMOVE`.

These operations follow one another. `pthread_create` succeeds, and a record thread that is joined
returns: its flag has been cleared and its signal given.

## Main definitions

* `Stream`, `Recorder`: the signal and the threads of a stream, the flags and parameters
* `muxerInitById`, `muxerDeinitById`, `devAdded`, `devRemoved`, `rkStorageInit`,
  `rkStorageDeinit`: the operations
* `StillEnabled`: a stream with a record signal is enabled when the module is closed

## Main results

* `recordThreads_stopped`: under that condition no record thread outlives the module
* `recordThread_outlives`: a stream disabled while it records is never stopped
-/

namespace RkIpc.Storage

open Resource Transition

/-- A stream, one of `STORAGE_NUM`. -/
abbrev StreamId := Fin 3

/-- `rk_storage_muxer_group[id]`: its signals, the record threads and those of them joined, and
the threads that have not returned. -/
structure Stream where
  signal : Slot
  thread : Slot
  running : ℕ → Bool

/-- The parameters `storage.N:enable`, the two flags of each stream, the group, and whether
`g_sd_phandle` is set. -/
structure Recorder where
  enable : StreamId → ℤ
  recordFlag : StreamId → ℤ
  storageRecordFlag : StreamId → ℤ
  streams : StreamId → Stream
  handle : Bool

namespace Stream

/-- `rk_signal_destroy` of the old signal, if there is one. -/
def destroySignal (c : Stream) : Stream := { c with signal := c.signal.release }

/-- `rk_signal_create` and `pthread_create`. -/
def startThread (c : Stream) : Stream where
  signal := c.signal.acquire
  thread := c.thread.acquire
  running := Function.update c.running c.thread.created true

/-- The signal is given, the thread joined, and the signal destroyed. -/
def stopThread (c : Stream) : Stream where
  signal := c.signal.release
  thread := c.thread.release
  running := match c.thread.held with
    | none => c.running
    | some k => Function.update c.running k false

end Stream

namespace Recorder

/-- Stream `id` changes. -/
def setStream (s : Recorder) (id : StreamId) (c : Stream) : Recorder :=
  { s with streams := Function.update s.streams id c }

/-- `record_flag[id]` is set. -/
def setRecordFlag (s : Recorder) (id : StreamId) (value : ℤ) : Recorder :=
  { s with recordFlag := Function.update s.recordFlag id value }

/-- `g_storage_record_flag[id]` is set. -/
def setStorageRecordFlag (s : Recorder) (id : StreamId) (value : ℤ) : Recorder :=
  { s with storageRecordFlag := Function.update s.storageRecordFlag id value }

/-- `rk_storage_muxer_deinit_by_id`. -/
def muxerDeinitById (s : Recorder) (id : StreamId) : Recorder :=
  -- the parameter as it is now, not as it was when the thread was started
  if s.enable id = 0 then s
  else
    let s := s.setStorageRecordFlag id 0
    if (s.streams id).signal.held = none then s
    else s.setStream id (s.streams id).stopThread

/-- `rk_storage_muxer_init_by_id`, by whether the record path is there and whether
`rk_signal_create` succeeds. -/
def muxerInitById (s : Recorder) (id : StreamId) (dirOk signalOk : Bool) : Recorder :=
  if !dirOk then s
  -- the record path is made before the parameter is looked at
  else if s.enable id = 0 then s
  else
    let s := s.setStream id (s.streams id).destroySignal
    if !signalOk then s
    else (s.setStorageRecordFlag id 1).setStream id (s.streams id).startThread

/-- Outcomes of the calls `rk_storage_muxer_init_by_id` makes for each stream. -/
structure MuxerCalls where
  dirOk : StreamId → Bool
  signalOk : StreamId → Bool

/-- `rkipc_storage_msg_rec_cb` after a successful `rkipc_storage_dev_add`, for one stream. -/
def devAddedById (calls : MuxerCalls) (s : Recorder) (id : StreamId) : Recorder :=
  if s.enable id = 1 then
    ((s.setRecordFlag id 1).muxerDeinitById id).muxerInitById id (calls.dirOk id)
      (calls.signalOk id)
  -- any other value leaves the stream as it is
  else if s.enable id = 0 then (s.setRecordFlag id 0).muxerDeinitById id
  else s

/-- `rkipc_storage_msg_rec_cb` after `rkipc_storage_dev_remove`, for one stream. -/
def devRemovedById (s : Recorder) (id : StreamId) : Recorder :=
  (s.setRecordFlag id 0).muxerDeinitById id

/-- The streams that follow the device: `i < STORAGE_NUM - 1`. -/
def deviceStreams : List StreamId := [0, 1]

/-- All streams: `i < STORAGE_NUM`. -/
def allStreams : List StreamId := [0, 1, 2]

theorem mem_allStreams : ∀ id, id ∈ allStreams := by decide

/-- `MSG_DEV_ADD` once the device has been added. -/
def devAdded (s : Recorder) (calls : MuxerCalls) : Recorder :=
  deviceStreams.foldl (devAddedById calls) s

/-- `MSG_DEV_REMOVE`. -/
def devRemoved (s : Recorder) : Recorder := deviceStreams.foldl devRemovedById s

/-- The flags `rkipc_storage_set_dev_attr` sets, by whether it finds the device mounted. -/
def setDevAttr (s : Recorder) (mounted : Bool) : Recorder :=
  deviceStreams.foldl (fun s id =>
    s.setRecordFlag id (if mounted = false ∨ s.enable id = 0 then 0 else 1)) s

/-- `rk_storage_init`: `attrOk` and `managerOk` are the outcomes of `rkipc_storage_set_dev_attr`
and of `rkipc_storage_manager_init` when there is no handle yet. -/
def rkStorageInit (s : Recorder) (mounted attrOk managerOk : Bool) (calls : MuxerCalls) :
    Recorder :=
  let s := s.setDevAttr mounted
  if !attrOk || s.handle || !managerOk then s
  else allStreams.foldl (fun s id => s.muxerInitById id (calls.dirOk id) (calls.signalOk id))
    { s with handle := true }

/-- `rk_storage_deinit`. -/
def rkStorageDeinit (s : Recorder) : Recorder :=
  { allStreams.foldl muxerDeinitById s with handle := false }

/-- Before `rk_storage_init`. -/
def start : Recorder where
  enable := fun _ => 0
  recordFlag := fun id => if id = 0 then -1 else 0
  storageRecordFlag := fun _ => 0
  streams := fun _ => ⟨Slot.empty, Slot.empty, fun _ => false⟩
  handle := false

end Recorder

/-- What can happen next. -/
inductive RecorderEvent
  | setEnable (id : StreamId) (value : ℤ)
  | init (mounted attrOk managerOk : Bool) (calls : Recorder.MuxerCalls)
  | deinit
  /-- `MSG_DEV_ADD` whose `rkipc_storage_dev_add` returns `0` -/
  | devAdded (calls : Recorder.MuxerCalls)
  | devRemoved
  /-- the loop of record thread `k` ends -/
  | recordOut (id : StreamId) (k : ℕ)

namespace Recorder

/-- The state after an event; `none` when it cannot happen. -/
def step (s : Recorder) : RecorderEvent → Option Recorder
  | .setEnable id value => some { s with enable := Function.update s.enable id value }
  | .init mounted attrOk managerOk calls => some (s.rkStorageInit mounted attrOk managerOk calls)
  | .deinit => some s.rkStorageDeinit
  | .devAdded calls => if s.handle then some (s.devAdded calls) else none
  | .devRemoved => if s.handle then some s.devRemoved else none
  | .recordOut id k =>
    if s.storageRecordFlag id = 0 ∨ s.recordFlag id ≠ 1 then
      some (s.setStream id
        { s.streams id with running := Function.update (s.streams id).running k false })
    else none

end Recorder

/-! ## Threads and signals are kept in pairs -/

/-- **A tidy stream**: it has a signal exactly while it has a thread to join, neither was ever
overwritten, and no other thread runs. -/
structure Stream.Tidy (c : Stream) : Prop where
  signal : c.signal.Clean
  thread : c.thread.Clean
  held : c.signal.held = none ↔ c.thread.held = none
  running : ∀ k, c.running k = true → c.thread.held = some k

namespace Stream

variable {c : Stream}

theorem Tidy.stopThread (hc : c.Tidy) : c.stopThread.Tidy where
  signal := hc.signal.release
  thread := hc.thread.release
  held := by simp [Stream.stopThread]
  running := by
    intro k hk
    -- the thread that ran is the one that has been joined
    unfold Stream.stopThread at hk
    cases hheld : c.thread.held with
    | none =>
      simp only [hheld] at hk
      rw [hc.running k hk] at hheld
      cases hheld
    | some j =>
      simp only [hheld] at hk
      rcases eq_or_ne k j with rfl | hne
      · simp at hk
      · rw [Function.update_of_ne hne] at hk
        rw [hc.running k hk] at hheld
        exact absurd (Option.some.inj hheld) hne

theorem Tidy.startThread (hc : c.Tidy) (hnone : c.signal.held = none) : c.startThread.Tidy where
  signal := hc.signal.acquire hnone
  thread := hc.thread.acquire (hc.held.mp hnone)
  held := by simp [Stream.startThread, Slot.acquire]
  running := by
    intro k hk
    unfold Stream.startThread at hk
    -- the new thread is the one held, and no other ran: there was nothing to join
    rcases eq_or_ne k c.thread.created with rfl | hne
    · rfl
    · simp only [Function.update_of_ne hne] at hk
      have h := hc.running k hk
      rw [hc.held.mp hnone] at h
      cases h

theorem destroySignal_of_none (hnone : c.signal.held = none) : c.destroySignal = c := by
  unfold destroySignal Slot.release
  rw [hnone]

/-- A thread that has returned of itself still has to be joined. -/
theorem Tidy.returned (hc : c.Tidy) (k : ℕ) :
    ({ c with running := Function.update c.running k false } : Stream).Tidy where
  signal := hc.signal
  thread := hc.thread
  held := hc.held
  running := by
    intro j hj
    rcases eq_or_ne j k with rfl | hne
    · simp at hj
    · simp only [Function.update_of_ne hne] at hj
      exact hc.running j hj

end Stream

namespace Recorder

variable {s t : Recorder} {id : StreamId}

/-! ### What each operation does to a stream -/

theorem enable_muxerDeinitById (s : Recorder) (id : StreamId) :
    (s.muxerDeinitById id).enable = s.enable := by
  simp only [muxerDeinitById]
  split_ifs <;> rfl

theorem handle_muxerDeinitById (s : Recorder) (id : StreamId) :
    (s.muxerDeinitById id).handle = s.handle := by
  simp only [muxerDeinitById]
  split_ifs <;> rfl

theorem handle_muxerInitById (s : Recorder) (id : StreamId) (dirOk signalOk : Bool) :
    (s.muxerInitById id dirOk signalOk).handle = s.handle := by
  simp only [muxerInitById]
  split_ifs <;> rfl

/-- The streams after the deinitialisation of one: it is stopped if it is enabled. -/
theorem streams_muxerDeinitById (s : Recorder) (id : StreamId) :
    (s.muxerDeinitById id).streams = Function.update s.streams id
      (if s.enable id = 0 ∨ (s.streams id).signal.held = none then s.streams id
        else (s.streams id).stopThread) := by
  simp only [muxerDeinitById]
  split_ifs <;> simp_all [setStorageRecordFlag, setStream]

/-- The streams after the initialisation of one that has no signal. -/
theorem streams_muxerInitById {dirOk signalOk : Bool} (hnone : (s.streams id).signal.held = none) :
    (s.muxerInitById id dirOk signalOk).streams = Function.update s.streams id
      (if dirOk = false ∨ s.enable id = 0 ∨ signalOk = false then s.streams id
        else (s.streams id).startThread) := by
  simp only [muxerInitById, Stream.destroySignal_of_none hnone]
  -- there is no old signal to destroy, so only the start changes the stream
  split_ifs <;> simp_all [setStorageRecordFlag, setStream]

/-- Every stream is tidy. -/
def Tidy (s : Recorder) : Prop := ∀ id, (s.streams id).Tidy

/-- A stream that is replaced by a tidy one. -/
theorem Tidy.update (hs : s.Tidy) {c : Stream} (hc : c.Tidy)
    (ht : t.streams = Function.update s.streams id c) : t.Tidy := by
  intro j
  rw [ht]
  -- the stream replaced, and the others
  rcases eq_or_ne j id with rfl | hne
  · rwa [Function.update_self]
  · rw [Function.update_of_ne hne]
    exact hs j

theorem Tidy.muxerDeinitById (hs : s.Tidy) (id : StreamId) : (s.muxerDeinitById id).Tidy := by
  refine hs.update ?_ (streams_muxerDeinitById s id)
  split_ifs
  · exact hs id
  · exact (hs id).stopThread

theorem Tidy.muxerInitById (hs : s.Tidy) (hnone : (s.streams id).signal.held = none)
    (dirOk signalOk : Bool) : (s.muxerInitById id dirOk signalOk).Tidy := by
  -- without a signal there is no thread either, so nothing is overwritten
  refine hs.update ?_ (streams_muxerInitById hnone)
  split_ifs
  · exact hs id
  · exact (hs id).startThread hnone

/-- An enabled stream has no signal after its deinitialisation. -/
theorem held_muxerDeinitById (hid : s.enable id ≠ 0) :
    ((s.muxerDeinitById id).streams id).signal.held = none := by
  rw [streams_muxerDeinitById, Function.update_self]
  split_ifs with h
  -- it had no signal to begin with
  · exact h.resolve_left hid
  · simp [Stream.stopThread]

/-- A stream without a signal still has none after a deinitialisation. -/
theorem held_muxerDeinitById_of_none {j : StreamId} (hj : (s.streams j).signal.held = none) :
    ((s.muxerDeinitById id).streams j).signal.held = none := by
  rw [streams_muxerDeinitById]
  rcases eq_or_ne j id with rfl | hne
  · simp [hj]
  · rwa [Function.update_of_ne hne]

/-! ### The operations over several streams -/

/-- An operation on one stream that keeps the streams tidy keeps them so on several. -/
theorem Tidy.foldl {f : Recorder → StreamId → Recorder}
    (hf : ∀ s id, Tidy s → (f s id).Tidy) (hs : s.Tidy) (ids : List StreamId) :
    (ids.foldl f s).Tidy := by
  induction ids generalizing s with
  | nil => exact hs
  | cons id ids ih => exact ih (hf s id hs)

theorem Tidy.devAddedById (calls : MuxerCalls) (hs : s.Tidy) (id : StreamId) :
    (s.devAddedById calls id).Tidy := by
  unfold Recorder.devAddedById
  have hflag : ∀ value, (s.setRecordFlag id value).Tidy := fun _ => hs
  split_ifs with h1 h0
  · -- it is enabled, so it is stopped before it is started
    refine ((hflag 1).muxerDeinitById id).muxerInitById (held_muxerDeinitById ?_) _ _
    rw [show (s.setRecordFlag id 1).enable = s.enable from rfl, h1]
    exact one_ne_zero
  · exact (hflag 0).muxerDeinitById id
  · exact hs

theorem handle_setDevAttr (s : Recorder) (mounted : Bool) :
    (s.setDevAttr mounted).handle = s.handle := rfl

/-- What an operation on one stream leaves alone, it leaves alone on several. -/
theorem foldl_unchanged {β : Type*} (g : Recorder → β) {f : Recorder → StreamId → Recorder}
    (hf : ∀ s id, g (f s id) = g s) (s : Recorder) (ids : List StreamId) :
    g (ids.foldl f s) = g s := by
  induction ids generalizing s with
  | nil => rfl
  | cons id ids ih => exact (ih (f s id)).trans (hf s id)

theorem handle_devAdded (s : Recorder) (calls : MuxerCalls) :
    (s.devAdded calls).handle = s.handle := by
  apply foldl_unchanged Recorder.handle
  intro s id
  unfold devAddedById
  split_ifs
  · rw [handle_muxerInitById, handle_muxerDeinitById]
    rfl
  · rw [handle_muxerDeinitById]
    rfl
  · rfl

theorem handle_devRemoved (s : Recorder) : s.devRemoved.handle = s.handle :=
  foldl_unchanged Recorder.handle
    (fun s id => handle_muxerDeinitById (s.setRecordFlag id 0) id) s _

/-- Streams without signals are initialised in turn. -/
theorem Tidy.foldl_init (dirOk signalOk : StreamId → Bool) {ids : List StreamId} :
    ∀ {s : Recorder}, s.Tidy → ids.Nodup → (∀ id ∈ ids, (s.streams id).signal.held = none) →
      (ids.foldl (fun s id => s.muxerInitById id (dirOk id) (signalOk id)) s).Tidy := by
  induction ids with
  | nil => exact fun hs _ _ => hs
  | cons id ids ih =>
    intro s hs hnd hnone
    obtain ⟨hid, hnd⟩ := List.nodup_cons.mp hnd
    have hnone' := hnone id (List.mem_cons_self ..)
    apply ih (hs.muxerInitById hnone' _ _) hnd
    -- the streams that follow still have no signal
    intro j hj
    have hne : j ≠ id := fun he => hid (he ▸ hj)
    rw [streams_muxerInitById hnone', Function.update_of_ne hne]
    exact hnone j (List.mem_cons_of_mem _ hj)

/-- Streams that are enabled while they have a signal are all stopped. -/
theorem held_foldl_deinit {ids : List StreamId} :
    ∀ {s : Recorder}, (∀ id, (s.streams id).signal.held ≠ none → s.enable id ≠ 0) →
      (∀ id ∈ ids, ((ids.foldl muxerDeinitById s).streams id).signal.held = none) ∧
      ∀ id, (s.streams id).signal.held = none →
        ((ids.foldl muxerDeinitById s).streams id).signal.held = none := by
  induction ids with
  | nil => exact fun _ => ⟨nofun, fun _ h => h⟩
  | cons id ids ih =>
    intro s henable
    obtain ⟨hall, hkeep⟩ := ih (s := s.muxerDeinitById id) fun j hj => by
      rw [enable_muxerDeinitById]
      exact henable j fun hnone => hj (held_muxerDeinitById_of_none hnone)
    -- the stream is stopped now, and the later ones do not start it again
    have hid : ((s.muxerDeinitById id).streams id).signal.held = none := by
      rcases eq_or_ne ((s.streams id).signal.held) none with hnone | hnone
      · exact held_muxerDeinitById_of_none hnone
      · exact held_muxerDeinitById (henable id hnone)
    refine ⟨fun j hj => ?_, fun j hj => hkeep j (held_muxerDeinitById_of_none hj)⟩
    rcases List.mem_cons.mp hj with rfl | hj
    · exact hkeep j hid
    · exact hall j hj

/-! ### Runs -/

/-- **The invariant**: the streams are tidy, and without a handle no stream has a signal. -/
structure Inv (s : Recorder) : Prop where
  tidy : s.Tidy
  closed : s.handle = false → ∀ id, (s.streams id).signal.held = none

theorem inv_start : start.Inv where
  tidy := fun _ => ⟨Slot.clean_empty, Slot.clean_empty, Iff.rfl, nofun⟩
  closed := fun _ _ => rfl

theorem Inv.rkStorageInit (hs : s.Inv) (mounted attrOk managerOk : Bool) (calls : MuxerCalls) :
    (s.rkStorageInit mounted attrOk managerOk calls).Inv := by
  unfold Recorder.rkStorageInit
  simp only
  split_ifs with h
  · exact ⟨hs.tidy, hs.closed⟩
  -- there was no handle, so no stream has a signal that could be overwritten
  · have hclosed : s.handle = false := by
      simp only [handle_setDevAttr, Bool.not_eq_true, Bool.or_eq_false_iff] at h
      exact h.1.2
    have htidy : ({ s.setDevAttr mounted with handle := true } : Recorder).Tidy := hs.tidy
    refine ⟨Tidy.foldl_init calls.dirOk calls.signalOk htidy (by decide : allStreams.Nodup)
      fun id _ => hs.closed hclosed id, fun hfalse => ?_⟩
    rw [foldl_unchanged Recorder.handle fun s id => handle_muxerInitById s id _ _] at hfalse
    cases hfalse

theorem Inv.rkStorageDeinit (hs : s.Inv)
    (henable : ∀ id, (s.streams id).signal.held ≠ none → s.enable id ≠ 0) :
    s.rkStorageDeinit.Inv where
  tidy := hs.tidy.foldl (fun _ id h => h.muxerDeinitById id) allStreams
  closed := fun _ id => (held_foldl_deinit henable).1 id (mem_allStreams id)

end Recorder

/-- **Still enabled**: when the module is closed, a stream that has a record signal is enabled. -/
def StillEnabled (s : Recorder) : RecorderEvent → Prop
  | .deinit => ∀ id, (s.streams id).signal.held ≠ none → s.enable id ≠ 0
  | _ => True

instance (s : Recorder) : (e : RecorderEvent) → Decidable (StillEnabled s e)
  | .deinit =>
    inferInstanceAs (Decidable (∀ id, (s.streams id).signal.held ≠ none → s.enable id ≠ 0))
  | .setEnable .. | .init .. | .devAdded .. | .devRemoved | .recordOut .. => isTrue trivial

/-- **Every step that meets the condition keeps the invariant.** -/
theorem Recorder.Inv.step {s t : Recorder} {e : RecorderEvent} (hs : s.Inv)
    (he : StillEnabled s e) (ht : s.step e = some t) : t.Inv := by
  cases e with
  | setEnable id value =>
    obtain rfl := Option.some.inj ht
    exact ⟨hs.tidy, hs.closed⟩
  | init mounted attrOk managerOk calls =>
    obtain rfl := Option.some.inj ht
    exact hs.rkStorageInit mounted attrOk managerOk calls
  | deinit =>
    obtain rfl := Option.some.inj ht
    exact hs.rkStorageDeinit he
  | devAdded calls =>
    simp only [Recorder.step] at ht
    split_ifs at ht with hopen
    obtain rfl := Option.some.inj ht
    refine ⟨hs.tidy.foldl (fun _ id h => h.devAddedById calls id) _, fun hfalse => ?_⟩
    rw [Recorder.handle_devAdded, hopen] at hfalse
    cases hfalse
  | devRemoved =>
    simp only [Recorder.step] at ht
    split_ifs at ht with hopen
    obtain rfl := Option.some.inj ht
    refine ⟨hs.tidy.foldl (fun s id h => Recorder.Tidy.muxerDeinitById (s := s.setRecordFlag id 0)
      h id) _, fun hfalse => ?_⟩
    rw [Recorder.handle_devRemoved, hopen] at hfalse
    cases hfalse
  | recordOut id k =>
    simp only [Recorder.step] at ht
    split_ifs at ht
    obtain rfl := Option.some.inj ht
    refine ⟨hs.tidy.update ((hs.tidy id).returned k) rfl, fun hfalse j => ?_⟩
    show (Function.update s.streams id _ j).signal.held = none
    rcases eq_or_ne j id with rfl | hne
    · rw [Function.update_self]
      exact hs.closed hfalse j
    · rw [Function.update_of_ne hne]
      exact hs.closed hfalse j

/-- **No record thread outlives the module**: in every run in which the streams that have a record
signal are enabled whenever the module is closed, only the last record thread of a stream was
ever not joined; and once the module is closed no record thread runs, and every record signal
has been destroyed exactly once. -/
theorem recordThreads_stopped {t : Recorder} {es : List RecorderEvent}
    (hrun : Run (fun s e u => StillEnabled s e ∧ s.step e = some u) Recorder.start es t) :
    (∀ id, ∀ k < (t.streams id).thread.created,
      (t.streams id).thread.held = some k ∨ k ∈ (t.streams id).thread.released) ∧
    (t.handle = false → ∀ id, (∀ k, (t.streams id).running k = false) ∧
      (t.streams id).signal.held = none ∧
      ∀ k < (t.streams id).signal.created, (t.streams id).signal.released.count k = 1) := by
  have ht : t.Inv := hrun.invariant (fun _ _ _ hs h => hs.step h.1 h.2) Recorder.inv_start
  refine ⟨fun id k hk => ?_, fun hclosed id => ?_⟩
  · rcases eq_or_ne ((t.streams id).thread.held) (some k) with hheld | hheld
    · exact Or.inl hheld
    · exact Or.inr ((ht.tidy id).thread.released_of_ne hk hheld)
  · have hnone := ht.closed hclosed id
    refine ⟨fun k => ?_, hnone, fun k hk => (ht.tidy id).signal.count_released hnone hk⟩
    by_contra hrunning
    -- a thread that ran would be held, and then the signal would be too
    have hheld := (ht.tidy id).running k (by simpa using hrunning)
    rw [(ht.tidy id).held.mp hnone] at hheld
    cases hheld

/-- The record paths are there, and signals are created. -/
def Recorder.MuxerCalls.succeed : Recorder.MuxerCalls := ⟨fun _ => true, fun _ => true⟩

theorem recordThreads_stopped_replug :
    ∃ t, Run (fun s e u => StillEnabled s e ∧ s.step e = some u) Recorder.start
        [.setEnable 0 1, .init true true true .succeed, .devRemoved, .devAdded .succeed,
          .deinit] t ∧
      (t.streams 0).thread.created = 2 ∧
      ∀ id, (∀ k, (t.streams id).running k = false) ∧ (t.streams id).signal.held = none ∧
        ∀ k < (t.streams id).signal.created, (t.streams id).signal.released.count k = 1 := by
  have hrun : ∃ t, Run (fun s e u => StillEnabled s e ∧ s.step e = some u) Recorder.start
      [.setEnable 0 1, .init true true true .succeed, .devRemoved, .devAdded .succeed, .deinit] t ∧
      (t.streams 0).thread.created = 2 ∧ t.handle = false :=
    ⟨_, .snoc (.snoc (.snoc (.snoc (.snoc .nil ⟨trivial, rfl⟩) ⟨trivial, rfl⟩) ⟨trivial, rfl⟩)
      ⟨trivial, rfl⟩) ⟨by decide, rfl⟩, rfl, rfl⟩
  obtain ⟨t, hrun, hcreated, hclosed⟩ := hrun
  exact ⟨t, hrun, hcreated, (recordThreads_stopped hrun).2 hclosed⟩

/-- **A stream disabled while it records is never stopped**: its thread runs on, and its signal is
not destroyed. -/
theorem recordThread_outlives :
    ∃ t, Run (fun s e u => s.step e = some u) Recorder.start
        [.setEnable 0 1, .init true true true .succeed, .setEnable 0 0, .deinit] t ∧
      t.handle = false ∧ (t.streams 0).running 0 = true ∧
      0 < (t.streams 0).signal.created ∧ (t.streams 0).signal.released.count 0 = 0 := by
  obtain ⟨t, ht, h⟩ : ∃ t, [RecorderEvent.setEnable 0 1, .init true true true .succeed,
      .setEnable 0 0, .deinit].foldlM Recorder.step Recorder.start = some t ∧
      t.handle = false ∧ (t.streams 0).running 0 = true ∧
      0 < (t.streams 0).signal.created ∧ (t.streams 0).signal.released.count 0 = 0 :=
    ⟨_, rfl, rfl, rfl, by decide, by decide⟩
  exact ⟨t, Run.of_foldlM ht, h⟩

end RkIpc.Storage
