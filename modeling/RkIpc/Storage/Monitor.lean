import RkIpc.Mirror.Feed
import RkIpc.Storage.FileListSpec
import RkIpc.Transition.Run

/-!
# The monitor thread and the clean-up of one folder

`rkipc_storage_file_monitor_thread` reads the inotify events of a folder and brings its list up to
date; an event is still in the buffer while it is handled, and `lstat` answers for the directory
as it is then. Meanwhile the scan thread deletes old files, first from the list and then from the
directory. It reads `file_list_last->filename` twice and without the mutex, for the path that
`remove` gets and for the name that is taken off the list. The two threads and the changes of the
directory are interleaved in any order.

What is renamed into the folder may be a directory, which the monitor lists as well: unlike
`rkipc_storage_read_file_list` it does not ask for the kind. `remove` fails only on what is gone.

## Main definitions

* `WatchState`, `Action`, `WatchState.step`: the folder, its directory, the events and the threads
* `WatchState.Safe`: the steps that keep the list with the directory
* `WatchState.Inv`: the list tracks the directory

## Main results

* `Inv.step`: every safe step keeps the invariant
* `Inv.monitorStep`, `Inv.listDel`: neither thread is ever stuck
* `names_eq_dir_of_quiescent`: when no event is left the list names the files of the directory
* `list_misses_file`: the path is read, a file is listed, the name is read
-/

namespace RkIpc.Storage

open LinkedList Catalogue Mirror Transition

/-- The events a folder is watched for. -/
inductive Mask
  | create
  | closeWrite
  | movedTo
  | delete
  | movedFrom
deriving DecidableEq, Repr

/-- `struct inotify_event` of the watched folder. -/
structure InotifyEvent where
  mask : Mask
  name : String
deriving DecidableEq, Repr

/-- Where the monitor thread stands in the event it is handling. -/
inductive MonitorPc
  /-- at the top of the loop -/
  | start
  /-- `lstat` has succeeded; `rkipc_storage_file_list_check` is next -/
  | stated (statbuf : StatBuf)
  /-- the check has answered `0`; `rkipc_storage_file_list_add` is next -/
  | checked (statbuf : StatBuf)
  /-- the file closed is empty; `remove` is next -/
  | emptyFile

/-- Where the scan thread stands in the deletion of a file. -/
inductive ScanPc
  | idle
  /-- `file_list_last` was not null; the path is next -/
  | found
  /-- `file` ends in the name of what was the last file; the name is copied next -/
  | printed (file : String)
  /-- the name of what is the last file now has been copied as well -/
  | picked (file filename : String)
  /-- `filename` is off the list; `remove(file)` is next -/
  | deleted (file filename : String)

/-- What a name of the directory stands for: what `lstat` says, and whether the file is regular. -/
structure DirEntry where
  statbuf : StatBuf
  isReg : Bool
deriving DecidableEq, Repr

/-- A watched folder with its directory, its unread events and the two threads. -/
structure WatchState where
  folder : StrFolder
  dir : String → Option DirEntry
  queue : List InotifyEvent
  monitor : MonitorPc
  scan : ScanPc

namespace WatchState

/-! ## The steps -/

/-- A file leaves the directory: the event follows. -/
def leave (s : WatchState) (name : String) (mask : Mask) : WatchState :=
  { s with dir := Function.update s.dir name none, queue := s.queue ++ [⟨mask, name⟩] }

/-- A file is there under this name: the events follow. -/
def arrive (s : WatchState) (name : String) (entry : DirEntry) (masks : List Mask) : WatchState :=
  { s with
    dir := Function.update s.dir name (some entry)
    queue := s.queue ++ masks.map fun mask => ⟨mask, name⟩ }

/-- What is there under this name, if anything, is of the kind: only then can a file of the kind
take its place. -/
def Admits (s : WatchState) (name : String) (isReg : Bool) : Prop :=
  ∀ old ∈ s.dir name, old.isReg = isReg

instance (s : WatchState) (name : String) (isReg : Bool) : Decidable (s.Admits name isReg) :=
  inferInstanceAs (Decidable (∀ old ∈ s.dir name, old.isReg = isReg))

/-- `remove`: nothing happens to a file that is gone. -/
def remove (s : WatchState) (name : String) : WatchState :=
  if (s.dir name).isSome then s.leave name .delete else s

/-- The event has been handled: `nread` moves on to the next. -/
def next (s : WatchState) : WatchState := { s with queue := s.queue.tail, monitor := .start }

/-- The tests of `event->mask`; `lstat` answers for the directory as it is now. -/
def dispatch (s : WatchState) (event : InotifyEvent) : Option WatchState :=
  match event.mask with
  -- `IN_CREATE` is watched, but no test of the mask asks for it
  | .create => some s.next
  | .movedTo =>
    match s.dir event.name with
    -- "lstat failed": the file is gone again
    | none => some s.next
    -- whatever it is: `S_ISREG` is not asked
    | some entry => some { s with monitor := .stated entry.statbuf }
  | .delete | .movedFrom => do
    let folder ← fileListDel s.folder event.name
    some { s with folder := folder }.next
  | .closeWrite =>
    match s.dir event.name with
    | none => some s.next
    | some entry =>
      -- an empty file is removed instead of listed
      if entry.statbuf.stSize = 0 then some { s with monitor := .emptyFile }
      else some { s with monitor := .stated entry.statbuf }

/-- One step of the monitor thread on an event, from where it stands. -/
def handle (s : WatchState) (event : InotifyEvent) : MonitorPc → Option WatchState
  | .start => s.dispatch event
  | .stated statbuf => do
    let r ← fileListCheck s.folder event.name
    if r = 0 then some { s with monitor := .checked statbuf } else some s.next
  | .checked statbuf => do
    let folder ← fileListAdd s.folder event.name statbuf
    some { s with folder := folder }.next
  | .emptyFile => some (s.remove event.name).next

/-- One step of the monitor thread: it handles the first event in the buffer. -/
def monitorStep (s : WatchState) : Option WatchState :=
  match s.queue with
  | [] => none
  | event :: _ => s.handle event s.monitor

/-- `file_list_last->filename`, as it is now; there is nothing to read when the pointer is null. -/
def lastName (s : WatchState) : Option String := do
  let last ← s.folder.fileListLast
  let n ← s.folder.heap.load last
  some n.val.filename

/-- The scan thread's `rkipc_storage_file_list_del`. -/
def listDel (s : WatchState) (file filename : String) : Option WatchState := do
  let folder ← fileListDel s.folder filename
  some { s with folder := folder, scan := .deleted file filename }

/-- One step of the scan thread in the deletion of a file, from where it stands. The mutex is held
in `rkipc_storage_file_list_del` only. -/
def scanStep (s : WatchState) : ScanPc → Option WatchState
  | .idle => if s.folder.fileListLast.isSome then some { s with scan := .found } else some s
  | .found => do
    let name ← s.lastName
    some { s with scan := .printed name }
  | .printed file => do
    let name ← s.lastName
    some { s with scan := .picked file name }
  | .picked file filename => s.listDel file filename
  | .deleted file _ => some { s.remove file with scan := .idle }

end WatchState

/-- What can happen next: a change of the directory, or a step of a thread. -/
inductive Action
  /-- a non-empty file is written and closed, new or in the place of an old one -/
  | write (name : String) (statbuf : StatBuf)
  /-- a file or a directory is renamed into the folder -/
  | moveIn (name : String) (entry : DirEntry)
  | moveOut (name : String)
  | delete (name : String)
  | monitor
  | scan

/-- The state after an action; `none` when it cannot be taken. -/
def WatchState.step (s : WatchState) : Action → Option WatchState
  | .write name statbuf =>
    -- the changes of the directory are those of non-empty files
    if statbuf.stSize = 0 ∨ ¬ s.Admits name true then none
    else if (s.dir name).isSome then some (s.arrive name ⟨statbuf, true⟩ [.closeWrite])
    else some (s.arrive name ⟨statbuf, true⟩ [.create, .closeWrite])
  | .moveIn name entry =>
    if s.Admits name entry.isReg then some (s.arrive name entry [.movedTo]) else none
  | .moveOut name => if (s.dir name).isSome then some (s.leave name .movedFrom) else none
  | .delete name => if (s.dir name).isSome then some (s.leave name .delete) else none
  | .monitor => s.monitorStep
  | .scan => s.scanStep s.scan

/-- The name of the first reading of `file_list_last->filename`, when the second is next. -/
def ScanPc.awaited : ScanPc → Option String
  | .printed file => some file
  | _ => none

/-- **The steps that keep the list with the directory**: what is renamed into the folder is a
regular file, and the second reading of `file_list_last->filename` finds the file of the first. -/
def WatchState.Safe (s : WatchState) : Action → Prop
  | .moveIn _ entry => entry.isReg = true
  | .scan => ∀ file ∈ s.scan.awaited, s.lastName = some file
  | _ => True

instance (s : WatchState) : ∀ a, Decidable (s.Safe a)
  | .moveIn _ entry => inferInstanceAs (Decidable (entry.isReg = true))
  | .scan => inferInstanceAs (Decidable (∀ file ∈ s.scan.awaited, s.lastName = some file))
  | .write _ _ | .moveOut _ | .delete _ | .monitor => inferInstanceAs (Decidable True)

/-! ## The list tracks the directory -/

/-- What an event reports: `true` for a file that has arrived. -/
def Mask.change : Mask → Option Bool
  | .create => none
  | .closeWrite | .movedTo => some true
  | .delete | .movedFrom => some false

/-- The change an event reports. -/
def InotifyEvent.change (e : InotifyEvent) : Option (String × Bool) :=
  e.mask.change.map fun b => (e.name, b)

/-- The name off the list whose file is still to be removed. -/
def ScanPc.withheld : ScanPc → Option String
  | .deleted _ filename => some filename
  | _ => none

/-- The path and the name that the scan thread has in hand are those of one file. -/
def ScanPc.Paired : ScanPc → Prop
  | .picked file filename | .deleted file filename => file = filename
  | _ => True

namespace WatchState

/-- The changes reported and not yet read. -/
def changes (s : WatchState) : List (String × Bool) := s.queue.filterMap InotifyEvent.change

/-- The names of the regular files in the directory. -/
def files (s : WatchState) : Set String := {f | ∃ entry ∈ s.dir f, entry.isReg = true}

/-- **The invariant**: the folder lists a catalogue whose names track the directory; within an
event the monitor is handling an arrival, and what it is about to add is not listed. -/
structure Inv (s : WatchState) (c : FileCatalogue) : Prop where
  lists : s.folder.Lists c
  tracks : Tracks s.changes s.files {f | f ∈ c.names} s.scan.withheld
  arrival : s.monitor = .start ∨
    ∃ e q, s.queue = e :: q ∧ e.change = some (e.name, true)
  unlisted : ∀ st, s.monitor = .checked st → ∀ e ∈ s.queue.head?, e.name ∉ c.names
  paired : s.scan.Paired

/-! ### The directory changes -/

section Directory

variable {s : WatchState} {c : FileCatalogue}

theorem files_arrive (s : WatchState) (name : String) {entry : DirEntry} (masks : List Mask)
    (hreg : entry.isReg = true) : (s.arrive name entry masks).files = insert name s.files := by
  ext f
  rcases eq_or_ne f name with rfl | hne
  · simp [files, arrive, hreg]
  · simp [files, arrive, hne]

theorem files_leave (s : WatchState) (name : String) (mask : Mask) :
    (s.leave name mask).files = s.files \ {name} := by
  ext f
  rcases eq_or_ne f name with rfl | hne
  · simp [files, leave]
  · simp [files, leave, hne]

theorem changes_arrive (s : WatchState) (name : String) (entry : DirEntry) {masks : List Mask}
    (hm : masks.filterMap Mask.change = [true]) :
    (s.arrive name entry masks).changes = s.changes ++ [(name, true)] := by
  simp only [changes, arrive, List.filterMap_append, List.filterMap_map]
  congr 1
  have h : InotifyEvent.change ∘ (fun mask => (⟨mask, name⟩ : InotifyEvent)) =
      fun mask => (Mask.change mask).map fun b => (name, b) := rfl
  rw [h, ← List.map_filterMap, hm, List.map_singleton]

theorem changes_leave (s : WatchState) (name : String) {mask : Mask}
    (hm : mask.change = some false) :
    (s.leave name mask).changes = s.changes ++ [(name, false)] := by
  simp [changes, leave, List.filterMap_append, InotifyEvent.change, hm]

/-- The event being handled stays at the head of the queue. -/
theorem arrival_append {m : MonitorPc} {q q' : List InotifyEvent}
    (h : m = .start ∨ ∃ e r, q = e :: r ∧ e.change = some (e.name, true)) :
    m = .start ∨ ∃ e r, q ++ q' = e :: r ∧ e.change = some (e.name, true) := by
  rcases h with h | ⟨e, r, rfl, he⟩
  · exact Or.inl h
  · exact Or.inr ⟨e, r ++ q', rfl, he⟩

theorem unlisted_append {m : MonitorPc} {q q' : List InotifyEvent}
    (ha : m = .start ∨ ∃ e r, q = e :: r ∧ e.change = some (e.name, true))
    (h : ∀ st, m = .checked st → ∀ e ∈ q.head?, e.name ∉ c.names) :
    ∀ st, m = .checked st → ∀ e ∈ (q ++ q').head?, e.name ∉ c.names := by
  intro st hst
  -- the event being handled is there, and stays at the head
  rcases ha with rfl | ⟨e, r, rfl, -⟩
  · cases hst
  · exact h st hst

theorem Inv.arrive (hs : s.Inv c) (name : String) {entry : DirEntry} {masks : List Mask}
    (hreg : entry.isReg = true) (hm : masks.filterMap Mask.change = [true]) :
    (s.arrive name entry masks).Inv c where
  lists := hs.lists
  tracks := by
    rw [changes_arrive s name entry hm, files_arrive s name masks hreg]
    exact hs.tracks.arrive name
  arrival := arrival_append hs.arrival
  unlisted := unlisted_append hs.arrival hs.unlisted
  paired := hs.paired

theorem Inv.leave (hs : s.Inv c) (name : String) {mask : Mask}
    (hm : mask.change = some false) : (s.leave name mask).Inv c where
  lists := hs.lists
  tracks := by
    rw [changes_leave s name hm, files_leave]
    exact hs.tracks.leave name
  arrival := arrival_append hs.arrival
  unlisted := unlisted_append hs.arrival hs.unlisted
  paired := hs.paired

theorem Inv.remove (hs : s.Inv c) (name : String) : (s.remove name).Inv c := by
  unfold WatchState.remove
  split_ifs
  · exact hs.leave name rfl
  · exact hs

theorem notMem_files_remove (s : WatchState) (name : String) : name ∉ (s.remove name).files := by
  unfold WatchState.remove
  split_ifs with h
  · rw [files_leave]
    exact fun hmem => hmem.2 rfl
  · rintro ⟨entry, hentry, -⟩
    exact h (Option.isSome_of_mem hentry)

/-- The scan thread's place is its own. -/
@[simp] theorem scan_remove (s : WatchState) (name : String) : (s.remove name).scan = s.scan := by
  unfold WatchState.remove
  split_ifs <;> rfl

end Directory

/-! ### The monitor thread -/

section Monitor

variable {s : WatchState} {c : FileCatalogue}

/-- The head of the queue has been handled: the rest is tracked by the names now listed. -/
theorem Inv.next {d : FileCatalogue} {folder : StrFolder} (hs : s.Inv c) (hd : folder.Lists d)
    (ht : Tracks s.next.changes s.files {f | f ∈ d.names} s.scan.withheld) :
    ({ s with folder := folder }.next).Inv d where
  lists := hd
  tracks := ht
  arrival := Or.inl rfl
  unlisted := fun _ hst => nomatch hst
  paired := hs.paired

theorem changes_of_queue {e : InotifyEvent} {q : List InotifyEvent} (hq : s.queue = e :: q) :
    s.changes = e.change.toList ++ s.next.changes := by
  rw [changes, changes, WatchState.next, hq, List.tail_cons, List.filterMap_cons]
  cases e.change <;> rfl

theorem Inv.tracks_head {e : InotifyEvent} {q : List InotifyEvent} {b : Bool} (hs : s.Inv c)
    (hq : s.queue = e :: q) (he : e.change = some (e.name, b)) :
    Tracks ((e.name, b) :: s.next.changes) s.files {f | f ∈ c.names} s.scan.withheld := by
  have h := hs.tracks
  rw [changes_of_queue hq, he] at h
  exact h

/-- An arrival whose file is gone again is passed over. -/
theorem Inv.next_of_gone {e : InotifyEvent} {q : List InotifyEvent} (hs : s.Inv c)
    (hq : s.queue = e :: q) (he : e.change = some (e.name, true))
    (hgone : e.name ∉ s.files) : s.next.Inv c :=
  hs.next hs.lists ((hs.tracks_head hq he).skip hgone)

/-- An arrival of a name on the list is passed over. -/
theorem Inv.next_of_listed {e : InotifyEvent} {q : List InotifyEvent} (hs : s.Inv c)
    (hq : s.queue = e :: q) (he : e.change = some (e.name, true)) (hn : e.name ∈ c.names) :
    s.next.Inv c := by
  have h := (hs.tracks_head hq he).list
  rw [Set.insert_eq_of_mem (show e.name ∈ {f | f ∈ c.names} from hn)] at h
  exact hs.next hs.lists h

/-- A departure takes the name off the list. -/
theorem Inv.next_of_departure {e : InotifyEvent} {q : List InotifyEvent} (hs : s.Inv c)
    (hq : s.queue = e :: q) (he : e.change = some (e.name, false)) :
    ∃ folder, fileListDel s.folder e.name = some folder ∧
      ({ s with folder := folder }.next).Inv (c.erase e.name) := by
  obtain ⟨folder, hdel, hfolder⟩ := fileListDel_spec hs.lists e.name
  refine ⟨folder, hdel, hs.next hfolder ?_⟩
  have h := (hs.tracks_head hq he).unlist
  have hset : {f | f ∈ (c.erase e.name).names} = {f | f ∈ c.names} \ {e.name} := by
    ext f
    simp [and_comm]
  rwa [hset]

/-- What is added was not on the list, so it is put in its place. -/
theorem Inv.next_of_added {e : InotifyEvent} {q : List InotifyEvent} (hs : s.Inv c)
    (hq : s.queue = e :: q) (he : e.change = some (e.name, true)) (hn : e.name ∉ c.names)
    (st : StatBuf) :
    ∃ folder, fileListAdd s.folder e.name st = some folder ∧
      ({ s with folder := folder }.next).Inv (c.insertNew (newFile e.name st)) := by
  obtain ⟨folder, hadd, hfolder⟩ := fileListAdd_spec hs.lists hn st
  refine ⟨folder, hadd, hs.next hfolder ?_⟩
  have hset : {f | f ∈ (c.insertNew (newFile e.name st)).names} =
      insert e.name {f | f ∈ c.names} := by
    ext f
    simp [mem_names_insertNew, newFile]
  rw [hset]
  exact (hs.tracks_head hq he).list

/-- `lstat` has succeeded on an arrival. -/
theorem Inv.within {e : InotifyEvent} {q : List InotifyEvent} {m : MonitorPc} (hs : s.Inv c)
    (hq : s.queue = e :: q) (he : e.change = some (e.name, true))
    (hm : ∀ st, m = .checked st → e.name ∉ c.names) : ({ s with monitor := m }).Inv c := by
  refine ⟨hs.lists, hs.tracks, Or.inr ⟨e, q, hq, he⟩, fun st hst e' he' => ?_, hs.paired⟩
  rw [hq] at he'
  obtain rfl := Option.some.inj he'
  exact hm st hst

/-- An event is dispatched: every case goes on. -/
theorem Inv.dispatch {e : InotifyEvent} {q : List InotifyEvent} (hs : s.Inv c)
    (hq : s.queue = e :: q) : ∃ t d, s.dispatch e = some t ∧ t.Inv d := by
  obtain ⟨mask, name⟩ := e
  cases mask with
  | create =>
    -- a creation says nothing that the list could follow
    refine ⟨s.next, c, rfl, hs.next hs.lists ?_⟩
    have h := hs.tracks
    rw [changes_of_queue hq] at h
    exact h
  | delete =>
    obtain ⟨folder, hdel, hinv⟩ := hs.next_of_departure hq rfl
    exact ⟨_, _, by simp [WatchState.dispatch, hdel], hinv⟩
  | movedFrom =>
    obtain ⟨folder, hdel, hinv⟩ := hs.next_of_departure hq rfl
    exact ⟨_, _, by simp [WatchState.dispatch, hdel], hinv⟩
  | movedTo =>
    cases hdir : s.dir name with
    | none =>
      exact ⟨s.next, c, by simp [WatchState.dispatch, hdir],
        hs.next_of_gone hq rfl (by simp [files, hdir])⟩
    | some entry =>
      exact ⟨_, c, by simp only [WatchState.dispatch, hdir],
        hs.within (m := .stated entry.statbuf) hq rfl (by simp)⟩
  | closeWrite =>
    cases hdir : s.dir name with
    | none =>
      exact ⟨s.next, c, by simp [WatchState.dispatch, hdir],
        hs.next_of_gone hq rfl (by simp [files, hdir])⟩
    | some entry =>
      rcases eq_or_ne entry.statbuf.stSize 0 with hsize | hsize
      · exact ⟨_, c, by simp only [WatchState.dispatch, hdir, if_pos hsize],
          hs.within (m := .emptyFile) hq rfl (by simp)⟩
      · exact ⟨_, c, by simp only [WatchState.dispatch, hdir, if_neg hsize],
          hs.within (m := .stated entry.statbuf) hq rfl (by simp)⟩

/-- The monitor thread is never stuck on an event, and keeps the invariant. -/
theorem Inv.monitorStep (hs : s.Inv c) (hne : s.queue ≠ []) :
    ∃ t d, s.monitorStep = some t ∧ t.Inv d := by
  obtain ⟨e, q, hq⟩ := List.exists_cons_of_ne_nil hne
  -- past the dispatch the event is an arrival
  have harrival : s.monitor ≠ .start → e.change = some (e.name, true) := by
    intro hm
    rcases hs.arrival with h | ⟨e', q', hq', he'⟩
    · exact absurd h hm
    · obtain ⟨rfl, -⟩ := List.cons.inj (hq.symm.trans hq')
      exact he'
  simp only [WatchState.monitorStep, hq]
  cases hm : s.monitor with
  | start => exact hs.dispatch hq
  | stated st =>
    have he := harrival (by simp [hm])
    -- the check finds the name, or clears the way for the addition
    by_cases hn : e.name ∈ c.names
    · exact ⟨s.next, c, by simp [handle, fileListCheck_spec hs.lists, hn],
        hs.next_of_listed hq he hn⟩
    · exact ⟨{ s with monitor := .checked st }, c,
        by simp [handle, fileListCheck_spec hs.lists, hn], hs.within hq he fun _ _ => hn⟩
  | checked st =>
    -- the scan thread may have taken names off since the check, but added none
    have hn : e.name ∉ c.names := hs.unlisted st hm e (by simp [hq])
    obtain ⟨folder, hadd, hinv⟩ := hs.next_of_added hq (harrival (by simp [hm])) hn st
    exact ⟨_, _, by simp [handle, hadd], hinv⟩
  | emptyFile =>
    -- the file is gone afterwards, whether or not `remove` found it
    obtain ⟨q', hq'⟩ : ∃ q', (s.remove e.name).queue = e :: q' := by
      unfold WatchState.remove
      split_ifs
      · exact ⟨q ++ [⟨.delete, e.name⟩], by simp [WatchState.leave, hq]⟩
      · exact ⟨q, hq⟩
    have hgone := notMem_files_remove s e.name
    exact ⟨_, c, rfl, (hs.remove e.name).next_of_gone hq' (harrival (by simp [hm])) hgone⟩

end Monitor

/-! ### The clean-up -/

section CleanUp

variable {s : WatchState} {c : FileCatalogue}

/-- The scan thread moves on while it withholds nothing. -/
theorem Inv.scanning {pc : ScanPc} (hs : s.Inv c) (hscan : s.scan.withheld = none)
    (hpc : pc.withheld = none) (hpaired : pc.Paired) : ({ s with scan := pc }).Inv c where
  lists := hs.lists
  tracks := by
    rw [hpc, ← hscan]
    exact hs.tracks
  arrival := hs.arrival
  unlisted := hs.unlisted
  paired := hpaired

/-- The scan thread takes a name off the list before it removes the file. -/
theorem Inv.listDel {file filename : String} (hs : s.Inv c)
    (hscan : s.scan = .picked file filename) :
    ∃ t, s.listDel file filename = some t ∧ t.Inv (c.erase filename) := by
  obtain ⟨folder, hdel, hfolder⟩ := fileListDel_spec hs.lists filename
  have hpaired := hs.paired
  rw [hscan] at hpaired
  refine ⟨{ s with folder := folder, scan := .deleted file filename },
    by simp [WatchState.listDel, hdel], hfolder, ?_, hs.arrival, ?_, hpaired⟩
  · have h := hs.tracks
    rw [hscan] at h
    have hset : {f | f ∈ (c.erase filename).names} = {f | f ∈ c.names} \ {filename} := by
      ext f
      simp [and_comm]
    rw [hset]
    exact h.withhold filename
  -- what was not listed is not listed now
  · exact fun st hst e he hn => hs.unlisted st hst e he (mem_names_erase.mp hn).2

/-- The file goes whose name is off the list. -/
theorem Inv.removeFile {file filename : String} (hs : s.Inv c)
    (hscan : s.scan = .deleted file filename) :
    ({ s.remove file with scan := .idle } : WatchState).Inv c := by
  have h := hs.remove file
  have hpaired := hs.paired
  have htracks := h.tracks
  rw [hscan] at hpaired
  rw [scan_remove, hscan] at htracks
  -- the name withheld is that of the path, which is gone from the directory as well
  obtain rfl : file = filename := hpaired
  exact ⟨h.lists, htracks.release (notMem_files_remove s file), h.arrival, h.unlisted, trivial⟩

/-- The scan thread keeps the invariant if its two readings agree. -/
theorem Inv.scanStep {t : WatchState} (hs : s.Inv c)
    (hsafe : ∀ file ∈ s.scan.awaited, s.lastName = some file)
    (ht : s.scanStep s.scan = some t) : ∃ d, t.Inv d := by
  cases hscan : s.scan with
  | idle =>
    rw [hscan, WatchState.scanStep] at ht
    have hwithheld : s.scan.withheld = none := by rw [hscan]; rfl
    split_ifs at ht
    · obtain rfl := Option.some.inj ht
      exact ⟨c, hs.scanning hwithheld rfl trivial⟩
    · obtain rfl := Option.some.inj ht
      exact ⟨c, hs⟩
  | found =>
    rw [hscan] at ht
    have hwithheld : s.scan.withheld = none := by rw [hscan]; rfl
    obtain ⟨name, -, ht⟩ := Option.bind_eq_some_iff.mp ht
    obtain rfl := Option.some.inj ht
    exact ⟨c, hs.scanning hwithheld rfl trivial⟩
  | printed file =>
    rw [hscan] at ht
    have hwithheld : s.scan.withheld = none := by rw [hscan]; rfl
    obtain ⟨name, hname, ht⟩ := Option.bind_eq_some_iff.mp ht
    obtain rfl := Option.some.inj ht
    -- the second reading is that of the first
    have hfile : s.lastName = some file := hsafe file (by rw [hscan]; rfl)
    obtain rfl := Option.some.inj (hfile.symm.trans hname)
    exact ⟨c, hs.scanning hwithheld rfl rfl⟩
  | picked file filename =>
    rw [hscan] at ht
    obtain ⟨t', ht', hinv⟩ := hs.listDel hscan
    obtain rfl := Option.some.inj (ht.symm.trans ht')
    exact ⟨_, hinv⟩
  | deleted file filename =>
    rw [hscan] at ht
    obtain rfl := Option.some.inj ht
    exact ⟨c, hs.removeFile hscan⟩

end CleanUp

/-! ### Every step -/

/-- **Every safe step keeps the invariant.** -/
theorem Inv.step {s t : WatchState} {a : Action} (hs : ∃ c, s.Inv c) (hsafe : s.Safe a)
    (ht : s.step a = some t) : ∃ c, t.Inv c := by
  obtain ⟨c, hs⟩ := hs
  cases a with
  | write name st =>
    simp only [WatchState.step] at ht
    split_ifs at ht
    · obtain rfl := Option.some.inj ht
      exact ⟨c, hs.arrive name rfl rfl⟩
    · obtain rfl := Option.some.inj ht
      exact ⟨c, hs.arrive name rfl rfl⟩
  | moveIn name entry =>
    simp only [WatchState.step] at ht
    split_ifs at ht
    obtain rfl := Option.some.inj ht
    exact ⟨c, hs.arrive name hsafe rfl⟩
  | moveOut name =>
    simp only [WatchState.step] at ht
    split_ifs at ht
    obtain rfl := Option.some.inj ht
    exact ⟨c, hs.leave name rfl⟩
  | delete name =>
    simp only [WatchState.step] at ht
    split_ifs at ht
    obtain rfl := Option.some.inj ht
    exact ⟨c, hs.leave name rfl⟩
  | monitor =>
    have hq : s.queue ≠ [] := by
      intro hq
      simp [WatchState.step, WatchState.monitorStep, hq] at ht
    obtain ⟨t', d, ht', hinv⟩ := hs.monitorStep hq
    obtain rfl := Option.some.inj (ht.symm.trans ht')
    exact ⟨d, hinv⟩
  | scan => exact hs.scanStep hsafe ht

/-- The list names exactly the regular files of the directory. -/
def Agrees (s : WatchState) : Prop :=
  ∃ c : FileCatalogue, s.folder.Lists c ∧ ∀ f, f ∈ c.names ↔ f ∈ s.files

/-- Every event has been read, and no clean-up is between the list and the directory. -/
structure Quiescent (s : WatchState) : Prop where
  queue : s.queue = []
  scan : s.scan.withheld = none

end WatchState

/-- **The list and the directory agree at quiescence** while the steps are safe: from a state in
which they agree, with the monitor at rest and nothing queued that the directory contradicts (so
an empty queue will do), every run that has read all its events and is not between the two
deletions of a clean-up ends in such a state. -/
theorem names_eq_dir_of_quiescent {s t : WatchState} {as : List Action} (hs : s.Agrees)
    (hmonitor : s.monitor = .start) (hpaired : s.scan.Paired)
    (hqueue : ∀ f b, lastChange s.changes f = some b → (f ∈ s.files ↔ b = true))
    (hrun : Run (fun s a t => s.Safe a ∧ s.step a = some t) s as t) (ht : t.Quiescent) :
    t.Agrees := by
  obtain ⟨c, hlists, hnames⟩ := hs
  -- agreement at the start is the invariant: nothing pending contradicts the directory
  have hinv : s.Inv c := by
    refine ⟨hlists, ⟨fun {f b} hb => hqueue f b hb, fun {f} _ _ => hnames f,
      fun {f} _ hf => (hnames f).mp hf⟩, Or.inl hmonitor, by simp [hmonitor], hpaired⟩
  obtain ⟨d, hd⟩ := hrun.invariant (I := fun s => ∃ c, s.Inv c)
    (fun _ _ _ hs h => WatchState.Inv.step hs h.1 h.2) ⟨c, hinv⟩
  have htracks := hd.tracks
  -- between two clean-ups nothing is withheld, and without events nothing is pending
  rw [ht.scan, show t.changes = [] by simp [WatchState.changes, ht.queue]] at htracks
  exact ⟨d, hd.lists, fun f => Set.ext_iff.mp htracks.eq_of_nil f⟩

/-- An empty folder whose watch has just been registered. -/
def freshWatch : WatchState where
  folder := StrFolder.empty
  dir := fun _ => none
  queue := []
  monitor := .start
  scan := .idle

theorem agrees_freshWatch : freshWatch.Agrees :=
  ⟨_, empty_lists, by simp [freshWatch, WatchState.files, names]⟩

/-- Two files are written and listed, one is cleaned up, and its event is read. -/
def writeAndCleanUp : List Action :=
  [.write "1000.mp4" ⟨400, 1, 10⟩, .monitor, .monitor, .monitor, .monitor,
    .write "1001.mp4" ⟨400, 1, 11⟩, .monitor, .monitor, .monitor, .monitor,
    .scan, .scan, .scan, .scan, .scan, .monitor]

theorem names_eq_dir_of_quiescent_freshWatch :
    ∃ t, Run (fun s a t => s.Safe a ∧ WatchState.step s a = some t) freshWatch writeAndCleanUp t ∧
      t.Quiescent ∧ t.Agrees := by
  obtain ⟨t, hrun, hqueue, hscan⟩ : ∃ t,
      writeAndCleanUp.foldlM
        (fun s a => if WatchState.Safe s a then WatchState.step s a else none) freshWatch = some t ∧
      t.queue = [] ∧ t.scan.withheld = none := ⟨_, rfl, rfl, rfl⟩
  have hrun := Run.of_foldlM_guard hrun
  have ht : t.Quiescent := ⟨hqueue, hscan⟩
  exact ⟨t, hrun, ht, names_eq_dir_of_quiescent agrees_freshWatch rfl trivial
    (by simp [freshWatch, WatchState.changes]) hrun ht⟩

/-- The scan thread has read the path of `2.mp4`; an older file is renamed in and listed behind it,
and its name is the one that is read next. -/
def listedBetween : List Action :=
  [.write "2.mp4" ⟨400, 1, 2⟩, .monitor, .monitor, .monitor, .monitor,
    .scan, .scan, .moveIn "1.mp4" ⟨⟨400, 1, 1⟩, true⟩, .monitor, .monitor, .monitor,
    .scan, .scan, .scan, .monitor]

/-- A directory is renamed into the folder. -/
def directoryMovedIn : List Action :=
  [.moveIn "backup" ⟨⟨4096, 8, 1⟩, false⟩, .monitor, .monitor, .monitor]

/-- **The list misses a file**: `1.mp4` was taken off the list for `2.mp4`, which was removed. And
**it has a name too many**: that of a directory. -/
theorem list_misses_file : freshWatch.Agrees ∧
    (∃ t, Run (fun s a t => WatchState.step s a = some t) freshWatch listedBetween t ∧
      t.Quiescent ∧ ¬ t.Agrees) ∧
    ∃ t, Run (fun s a t => WatchState.step s a = some t) freshWatch directoryMovedIn t ∧
      t.Quiescent ∧ ¬ t.Agrees := by
  refine ⟨agrees_freshWatch, ?_, ?_⟩
  · obtain ⟨t, hrun, hqueue, hscan, hfirst, hdir⟩ : ∃ t,
        listedBetween.foldlM WatchState.step freshWatch = some t ∧ t.queue = [] ∧
        t.scan.withheld = none ∧ t.folder.fileListFirst = none ∧
        t.dir "1.mp4" = some ⟨⟨400, 1, 1⟩, true⟩ := ⟨_, rfl, rfl, rfl, rfl, rfl⟩
    refine ⟨t, Run.of_foldlM hrun, ⟨hqueue, hscan⟩, ?_⟩
    rintro ⟨c, hlists, hnames⟩
    -- nothing is listed, and the file is there
    have hnil : c.entries = [] :=
      hlists.last_eq_none.mp (hlists.last_eq_none_iff.mpr hfirst)
    have hmem : "1.mp4" ∈ c.names := (hnames _).mpr ⟨_, hdir, rfl⟩
    rw [names, hnil] at hmem
    exact List.not_mem_nil hmem
  · obtain ⟨t, hrun, hqueue, hscan, hcheck, hdir⟩ : ∃ t,
        directoryMovedIn.foldlM WatchState.step freshWatch = some t ∧ t.queue = [] ∧
        t.scan.withheld = none ∧ fileListCheck t.folder "backup" = some 1 ∧
        t.dir "backup" = some ⟨⟨4096, 8, 1⟩, false⟩ := ⟨_, rfl, rfl, rfl, rfl, rfl⟩
    refine ⟨t, Run.of_foldlM hrun, ⟨hqueue, hscan⟩, ?_⟩
    rintro ⟨c, hlists, hnames⟩
    -- the directory is listed
    have hmem : "backup" ∈ c.names := by
      by_contra hn
      rw [fileListCheck_spec hlists, if_neg hn] at hcheck
      cases hcheck
    obtain ⟨entry, hentry, hreg⟩ := (hnames _).mp hmem
    obtain rfl := Option.some.inj (hdir.symm.trans hentry)
    cases hreg

end RkIpc.Storage
