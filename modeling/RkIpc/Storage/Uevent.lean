import RkIpc.Storage.Device
import RkIpc.Storage.Recorder

/-!
# A device is removed

A removal reaches the recorder in two stages. The listener finds it in a netlink message, clears
`g_storage_record_flag` of every stream and queues `MSG_DEV_REMOVE`; the message thread calls
`rkipc_storage_dev_remove`, which compares the device, and then stops the streams whatever the
comparison said, for it returns `0` either way.

A message is given by its characters and ends in a null.

## Main definitions

* `strSearch`, `getPara`, `receive`: how the listener reads a message
* `StorageState`, `eventListener`, `msgRecCb`: the two stages
* `RecordingState`: the flags, the record threads that run, and the mount status

## Main results

* `recordingState_removed_iff`: the removal of another device leaves the recording state alone
  exactly when recording had already stopped
* `recordingState_removed_other`: it stops a recording to the card
-/

namespace RkIpc.Storage

open Resource Transition

/-! ## The listener -/

/-- The null that ends a C string. -/
def nul : Char := Char.ofNat 0

/-- `strstr`: the C string from the first place at which it goes on like `pat`. -/
def strstr (pat : List Char) : List Char → Option (List Char)
  | [] => none
  | c :: cs =>
    if pat.isPrefixOf (c :: cs) then some (c :: cs)
    -- the string ends here; what follows belongs to the next one
    else if c = nul then none
    else strstr pat cs

/-- The loop of `rkipc_storage_str_search`: search the strings after each null. -/
def strSearchLoop (pat : List Char) : List Char → Option (List Char)
  | [] => none
  | c :: cs => if c = nul then (strstr pat cs).or (strSearchLoop pat cs) else strSearchLoop pat cs

/-- `rkipc_storage_str_search`. -/
def strSearch (buf : List Char) (str : String) : Option (List Char) :=
  (strstr str.toList buf).or (strSearchLoop str.toList buf)

/-- `rkipc_storage_get_para`: what follows the name and one more character. -/
def getPara (buf : List Char) (str : String) : Option (List Char) :=
  (strSearch buf str).map fun p => p.drop (str.length + 1)

/-- The C string at `p`. -/
def cString (p : List Char) : String := String.ofList (p.takeWhile (· ≠ nul))

/-- A message of the handle, with the device it names. -/
inductive DevMsg
  | add (dev : String)
  | remove (dev : String)
  | changed (dev : String)
deriving DecidableEq, Repr

/-- What the listener makes of the message received: the message it queues, if any. The outer
`none` is `strlen` of a missing `DEVNAME`. -/
def receive (buf : List Char) : Option (Option DevMsg) :=
  -- `MAX_TYPE_NMSG_LEN` and `bufLen`
  if buf.length < 32 ∨ 2000 < buf.length then some none
  else if strstr "libudev".toList buf ≠ some buf then some none
  else if strSearch buf "DEVTYPE=partition" = none ∧ strSearch buf "DEVTYPE=disk" = none then
    some none
  else
    let dev := (getPara buf "DEVNAME").map cString
    if strSearch buf "ACTION=add" ≠ none then dev.map fun d => some (.add d)
    else if strSearch buf "ACTION=remove" ≠ none then dev.map fun d => some (.remove d)
    else if strSearch buf "ACTION=change" ≠ none then dev.map fun d => some (.changed d)
    else some none

/-- The device and the recorder. -/
structure StorageState where
  sta : DevSta
  recorder : Recorder

/-- `rkipc_storage_event_listener_thread` on one message: the state, and the message it queues. -/
def eventListener (s : StorageState) (buf : List Char) :
    Option (StorageState × Option DevMsg) := do
  match ← receive buf with
  | some (.remove dev) =>
    -- every stream, before any device has been compared
    let recorder := Recorder.allStreams.foldl (fun r id => r.setStorageRecordFlag id 0) s.recorder
    some ({ s with recorder := recorder }, some (.remove dev))
  | msg => some (s, msg)

/-- `rkipc_storage_msg_rec_cb`. -/
def msgRecCb (attr : DevAttr) (mounts : Mounts) (calls : Recorder.MuxerCalls) (s : StorageState) :
    DevMsg → StorageState
  | .add dev =>
    let (sta, ok) := devAdd attr s.sta dev mounts
    if ok then ⟨sta, s.recorder.devAdded calls⟩ else { s with sta := sta }
  -- the answer of `rkipc_storage_dev_remove` is `0`, also for another device
  | .remove dev => ⟨(devRemove s.sta dev).1, s.recorder.devRemoved⟩
  | .changed _ => s

/-- A message is received, and what it makes the listener queue is handled. -/
def handleUevent (attr : DevAttr) (mounts : Mounts) (calls : Recorder.MuxerCalls)
    (s : StorageState) (buf : List Char) : Option StorageState := do
  let (s, msg) ← eventListener s buf
  match msg with
  | none => some s
  | some msg => some (msgRecCb attr mounts calls s msg)

/-! ## The recording state -/

/-- **The recording state**: the two flags of every stream, the record threads that run, and the
mount status. -/
@[ext]
structure RecordingState where
  recordFlag : StreamId → ℤ
  storageRecordFlag : StreamId → ℤ
  running : StreamId → ℕ → Bool
  mountStatus : MountStatus

/-- The recording state of the device and the recorder. -/
def StorageState.recording (s : StorageState) : RecordingState where
  recordFlag := s.recorder.recordFlag
  storageRecordFlag := s.recorder.storageRecordFlag
  running := fun id => (s.recorder.streams id).running
  mountStatus := s.sta.mountStatus

/-- **Recording has stopped**: the flags are down, except the one of the stream that does not follow
the device, and no thread runs that the removal would join. -/
structure Stopped (r : Recorder) : Prop where
  storageRecordFlag : ∀ id, r.storageRecordFlag id = 0
  recordFlag : ∀ id ∈ Recorder.deviceStreams, r.recordFlag id = 0
  running : ∀ id ∈ Recorder.deviceStreams, r.enable id ≠ 0 →
    (r.streams id).signal.held ≠ none → ∀ k ∈ (r.streams id).thread.held,
      (r.streams id).running k = false

/-! ## What a removal does to the recorder -/

namespace Recorder

variable (r : Recorder)

/-- The listener clears the flag of every stream, and changes nothing else. -/
theorem foldl_setStorageRecordFlag :
    allStreams.foldl (fun r id => r.setStorageRecordFlag id 0) r =
      { r with storageRecordFlag := fun _ => 0 } := by
  have h : (Function.update (Function.update (Function.update r.storageRecordFlag 0 0) 1 0) 2 0 :
      StreamId → ℤ) = fun _ => 0 := by
    funext id
    match id with
    | 0 => rfl
    | 1 => rfl
    | 2 => rfl
  rw [← h]
  rfl

theorem recordFlag_muxerDeinitById (id : StreamId) :
    (r.muxerDeinitById id).recordFlag = r.recordFlag := by
  simp only [muxerDeinitById]
  split_ifs <;> rfl

theorem storageRecordFlag_muxerDeinitById {id : StreamId} (h : ∀ j, r.storageRecordFlag j = 0) :
    ∀ j, (r.muxerDeinitById id).storageRecordFlag j = 0 := by
  intro j
  have hset : (r.setStorageRecordFlag id 0).storageRecordFlag j = 0 := by
    rcases eq_or_ne j id with rfl | hne
    · exact Function.update_self ..
    · exact (Function.update_of_ne hne ..).trans (h j)
  simp only [muxerDeinitById]
  split_ifs
  · exact h j
  · exact hset
  · exact hset

/-- The threads that run after the deinitialisation of a stream: all but the one joined. -/
theorem running_muxerDeinitById_eq_iff (id : StreamId) :
    ((r.muxerDeinitById id).streams id).running = (r.streams id).running ↔
      (r.enable id ≠ 0 → (r.streams id).signal.held ≠ none → ∀ k ∈ (r.streams id).thread.held,
        (r.streams id).running k = false) := by
  rw [streams_muxerDeinitById, Function.update_self]
  split_ifs with h
  -- nothing is joined
  · simp only [true_iff]
    exact fun he hs => absurd h (not_or.mpr ⟨he, hs⟩)
  -- the thread held is joined: it did not run before either
  · obtain ⟨he, hs⟩ := not_or.mp h
    simp only [Stream.stopThread, ne_eq, he, hs, not_false_eq_true, true_imp_iff]
    cases (r.streams id).thread.held with
    | none => simp
    | some k =>
      simp only [Function.update_eq_self_iff, Option.mem_def, Option.some.injEq, forall_eq']
      exact eq_comm

/-- A removal clears the flag of each stream it goes through. -/
theorem recordFlag_foldl_devRemovedById (ids : List StreamId) (j : StreamId) :
    (ids.foldl devRemovedById r).recordFlag j = if j ∈ ids then 0 else r.recordFlag j := by
  induction ids generalizing r with
  | nil => rfl
  | cons id ids ih =>
    have hone : (r.devRemovedById id).recordFlag = Function.update r.recordFlag id 0 :=
      recordFlag_muxerDeinitById (r.setRecordFlag id 0) id
    rw [List.foldl_cons, ih, hone]
    rcases eq_or_ne j id with rfl | hne
    · simp
    · simp [hne]

/-- Flags that are down stay down. -/
theorem storageRecordFlag_foldl_devRemovedById (ids : List StreamId)
    (h : ∀ j, r.storageRecordFlag j = 0) :
    ∀ j, (ids.foldl devRemovedById r).storageRecordFlag j = 0 := by
  induction ids generalizing r with
  | nil => exact h
  | cons id ids ih =>
    exact ih _ (storageRecordFlag_muxerDeinitById (r.setRecordFlag id 0) h)

/-- A removal deinitialises each stream it goes through, and leaves the others. -/
theorem streams_foldl_devRemovedById {ids : List StreamId} (hnd : ids.Nodup) (j : StreamId) :
    (ids.foldl devRemovedById r).streams j =
      if j ∈ ids then (r.muxerDeinitById j).streams j else r.streams j := by
  induction ids generalizing r with
  | nil => rfl
  | cons id ids ih =>
    obtain ⟨hid, hnd⟩ := List.nodup_cons.mp hnd
    have hone : (r.devRemovedById id).streams =
        Function.update r.streams id ((r.muxerDeinitById id).streams id) := by
      rw [streams_muxerDeinitById, Function.update_self]
      exact streams_muxerDeinitById (r.setRecordFlag id 0) id
    rw [List.foldl_cons, ih _ hnd]
    rcases eq_or_ne j id with rfl | hne
    · -- the streams that follow are others
      rw [if_neg hid, if_pos (List.mem_cons_self ..), hone, Function.update_self]
    · have hmem : j ∈ id :: ids ↔ j ∈ ids := by simp [hne]
      have hj : (r.devRemovedById id).streams j = r.streams j := by
        rw [hone, Function.update_of_ne hne]
      have henable : (r.devRemovedById id).enable = r.enable :=
        enable_muxerDeinitById (r.setRecordFlag id 0) id
      -- what happens to `j` depends on its own parameter and signal only
      rw [streams_muxerDeinitById, streams_muxerDeinitById, Function.update_self,
        Function.update_self, henable, hj, if_congr hmem rfl rfl]

end Recorder

/-- The removal of another device goes on to the recorder all the same. -/
theorem handleUevent_remove_other (attr : DevAttr) (mounts : Mounts) (calls : Recorder.MuxerCalls)
    {s : StorageState} {buf : List Char} {dev : String}
    (hmsg : receive buf = some (some (.remove dev))) (hother : s.sta.devPath ≠ dev) :
    handleUevent attr mounts calls s buf =
      some ⟨s.sta,
        ({ s.recorder with storageRecordFlag := fun _ => 0 } : Recorder).devRemoved⟩ := by
  simp [handleUevent, eventListener, hmsg, Recorder.foldl_setStorageRecordFlag, msgRecCb,
    devRemove, hother]

/-- **The removal of another device** leaves the recording state alone if and only if recording had
already stopped. -/
theorem recordingState_removed_iff (attr : DevAttr) (mounts : Mounts)
    (calls : Recorder.MuxerCalls) {s : StorageState} {buf : List Char} {dev : String}
    (hmsg : receive buf = some (some (.remove dev))) (hother : s.sta.devPath ≠ dev) :
    (∃ t, handleUevent attr mounts calls s buf = some t ∧ t.recording = s.recording) ↔
      Stopped s.recorder := by
  rw [handleUevent_remove_other attr mounts calls hmsg hother]
  set r : Recorder := { s.recorder with storageRecordFlag := fun _ => 0 } with hr
  have hflag : ∀ id, r.devRemoved.recordFlag id =
      if id ∈ Recorder.deviceStreams then 0 else s.recorder.recordFlag id :=
    r.recordFlag_foldl_devRemovedById Recorder.deviceStreams
  have hstorage : ∀ id, r.devRemoved.storageRecordFlag id = 0 :=
    r.storageRecordFlag_foldl_devRemovedById _ fun _ => rfl
  have hstreams : ∀ id, r.devRemoved.streams id =
      if id ∈ Recorder.deviceStreams then (r.muxerDeinitById id).streams id else r.streams id :=
    r.streams_foldl_devRemovedById (by decide : Recorder.deviceStreams.Nodup)
  -- the streams that follow the device lose the thread joined, if it ran
  have hrunning : ∀ id ∈ Recorder.deviceStreams,
      ((r.devRemoved.streams id).running = (s.recorder.streams id).running ↔
        (s.recorder.enable id ≠ 0 → (s.recorder.streams id).signal.held ≠ none →
          ∀ k ∈ (s.recorder.streams id).thread.held,
            (s.recorder.streams id).running k = false)) := by
    intro id hid
    rw [hstreams, if_pos hid]
    exact r.running_muxerDeinitById_eq_iff id
  constructor
  · rintro ⟨t, ht, heq⟩
    obtain rfl := Option.some.inj ht
    -- what is unchanged was as the removal leaves it
    obtain ⟨h1, h2, h3, -⟩ := RecordingState.ext_iff.mp heq
    refine ⟨fun id => ?_, fun id hid => ?_, fun id hid => ?_⟩
    · exact (congrFun h2 id).symm.trans (hstorage id)
    · have h : r.devRemoved.recordFlag id = s.recorder.recordFlag id := congrFun h1 id
      rwa [hflag, if_pos hid, eq_comm] at h
    · exact (hrunning id hid).mp (congrFun h3 id)
  · intro h
    refine ⟨_, rfl, RecordingState.ext ?_ ?_ ?_ rfl⟩
    · funext id
      show r.devRemoved.recordFlag id = s.recorder.recordFlag id
      rw [hflag]
      split_ifs with hid
      · exact (h.recordFlag id hid).symm
      · rfl
    · funext id
      exact (hstorage id).trans (h.storageRecordFlag id).symm
    · funext id
      show (r.devRemoved.streams id).running = (s.recorder.streams id).running
      by_cases hid : id ∈ Recorder.deviceStreams
      · exact (hrunning id hid).mpr (h.running id hid)
      · rw [hstreams, if_neg hid]

/-- A message about a block device other than the card: its header, and its properties. -/
def ueventOf (action dev : String) : List Char :=
  "libudev".toList ++ List.replicate 33 nul ++ ("ACTION=" ++ action).toList ++ [nul] ++
    "SUBSYSTEM=block".toList ++ [nul] ++ ("DEVNAME=" ++ dev).toList ++ [nul] ++
    "DEVTYPE=partition".toList ++ [nul]

theorem receive_ueventOf_remove :
    receive (ueventOf "remove" "/dev/sda1") = some (some (.remove "/dev/sda1")) := by
  decide

/-- The card is mounted. -/
def cardSta : DevSta := ⟨"/dev/mmcblk1p1", .mounted⟩

/-- A recorder that has not been started. -/
def idleRecorder : Recorder := { Recorder.start with recordFlag := fun _ => 0 }

theorem recordingState_removed_iff_idle :
    (∃ t, handleUevent cardAttr cardMounted .succeed ⟨cardSta, idleRecorder⟩
        (ueventOf "remove" "/dev/sda1") = some t ∧
      t.recording = (⟨cardSta, idleRecorder⟩ : StorageState).recording) ↔ Stopped idleRecorder :=
  recordingState_removed_iff cardAttr cardMounted .succeed receive_ueventOf_remove
    (by decide : cardSta.devPath ≠ "/dev/sda1")

/-- **The removal of another device stops a recording to the card**: after `rk_storage_init` with
the main stream enabled, a message about `/dev/sda1` clears both of its flags and ends its record
thread. -/
theorem recordingState_removed_other :
    ∃ r, Run (fun s e u => s.step e = some u) Recorder.start
        [.setEnable 0 1, .init true true true .succeed] r ∧
      receive (ueventOf "remove" "/dev/sda1") = some (some (.remove "/dev/sda1")) ∧
      cardSta.devPath ≠ "/dev/sda1" ∧
      ∃ t, handleUevent cardAttr cardMounted .succeed ⟨cardSta, r⟩
          (ueventOf "remove" "/dev/sda1") = some t ∧
        (r.recordFlag 0 = 1 ∧ t.recording.recordFlag 0 = 0) ∧
        (r.storageRecordFlag 0 = 1 ∧ t.recording.storageRecordFlag 0 = 0) ∧
        ((r.streams 0).running 0 = true ∧ t.recording.running 0 0 = false) ∧
        t.recording ≠ (⟨cardSta, r⟩ : StorageState).recording := by
  have hother : cardSta.devPath ≠ "/dev/sda1" := by decide
  refine ⟨_, Run.of_foldlM rfl, receive_ueventOf_remove, hother, _,
    handleUevent_remove_other cardAttr cardMounted .succeed receive_ueventOf_remove hother,
    ⟨rfl, rfl⟩, ⟨rfl, rfl⟩, ⟨rfl, rfl⟩, fun heq => ?_⟩
  have hflag : (0 : ℤ) = 1 := congrFun (congrArg RecordingState.recordFlag heq) 0
  exact zero_ne_one hflag

end RkIpc.Storage
