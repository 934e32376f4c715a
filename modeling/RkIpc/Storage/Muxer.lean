import Mathlib.Data.Int.Notation
import RkIpc.Mutex.Sections

/-!
# The muxer of a stream

The record thread of a stream, `rk_storage_record_start` and `rk_storage_record_stop`, and the
writers of frames all work on the muxer under `g_rkmuxer_mutex`, and agree on whether it is open
by the flag `g_record_run_`. `rkmuxer_init` succeeds.

## Main definitions

* `Command`, `Command.exec`: the statements of the critical sections, and the `rkmuxer` calls made
* `Caller`, `Caller.program`: the threads
* `isOpen`: whether the calls so far leave the muxer open

## Main results

* `frames_reach_open_muxer`: every frame is written to an open muxer, no open muxer is initialised
  again, and outside the critical sections the flag tells whether the muxer is open
-/

namespace RkIpc.Storage

open Mutex Transition

/-- A call into `rkmuxer`. -/
inductive MuxCall
  | init (id : ℕ)
  | deinit (id : ℕ)
  | writeVideoFrame (id : ℕ)
  | writeAudioFrame (id : ℕ)
deriving DecidableEq, Repr

/-- What the sections share: `rk_storage_muxer_group[id].g_record_run_`, and the calls made. -/
structure MuxerState where
  recordRun : ℕ → ℤ
  calls : List MuxCall

/-- A statement of a critical section. -/
inductive Command
  | setRecordRun (id : ℕ) (value : ℤ)
  | muxerDeinit (id : ℕ)
  | muxerInit (id : ℕ)
  /-- `if (g_record_run_) rkmuxer_write_video_frame(..)` -/
  | writeVideo (id : ℕ)
  /-- `if (g_record_run_) rkmuxer_write_audio_frame(..)` -/
  | writeAudio (id : ℕ)

/-- One more call. -/
def MuxerState.call (s : MuxerState) (c : MuxCall) : MuxerState :=
  { s with calls := s.calls ++ [c] }

/-- A statement is executed. -/
def Command.exec : Command → MuxerState → MuxerState
  | .setRecordRun id value, s => { s with recordRun := Function.update s.recordRun id value }
  | .muxerDeinit id, s => s.call (.deinit id)
  | .muxerInit id, s => s.call (.init id)
  | .writeVideo id, s => if s.recordRun id ≠ 0 then s.call (.writeVideoFrame id) else s
  | .writeAudio id, s => if s.recordRun id ≠ 0 then s.call (.writeAudioFrame id) else s

/-- The section that starts a file: the record thread's, and that of `rk_storage_record_start`. -/
def openSection (id : ℕ) : List Command :=
  [.setRecordRun id 0, .muxerDeinit id, .muxerInit id, .setRecordRun id 1]

/-- The section that ends the last file. -/
def closeSection (id : ℕ) : List Command := [.setRecordRun id 0, .muxerDeinit id]

/-- A thread, by the function it runs. `rk_storage_record` is given with the number of rounds its
loop makes before a flag is cleared. -/
inductive Caller
  | record (id rounds : ℕ)
  | recordStart
  | recordStop
  | writeVideoFrame (id : ℕ)
  | writeAudioFrame (id : ℕ)

/-- The critical sections of a thread, in order. -/
def Caller.program : Caller → List (List Command)
  | .record id rounds => List.replicate rounds (openSection id) ++ [closeSection id]
  | .recordStart => [openSection 0]
  | .recordStop => [closeSection 0]
  | .writeVideoFrame id => [[.writeVideo id]]
  | .writeAudioFrame id => [[.writeAudio id]]

/-- Threads that share the muxers. -/
abbrev MuxerThreads := Threads ℕ MuxerState Command

/-- The threads before any of them has run: the group is zero, and nothing has been called. -/
def MuxerThreads.start (callers : ℕ → Caller) : MuxerThreads where
  programs := fun i => (callers i).program
  shared := ⟨fun _ => 0, []⟩
  owner := none

/-! ## The calls for one stream -/

/-- Whether muxer `id` is open after a call. -/
def MuxCall.opens (id : ℕ) (wasOpen : Bool) : MuxCall → Bool
  | .init j => if j = id then true else wasOpen
  | .deinit j => if j = id then false else wasOpen
  | _ => wasOpen

/-- Whether muxer `id` is open after the calls: initialised and not closed since. -/
def isOpen (calls : List MuxCall) (id : ℕ) : Bool := calls.foldl (MuxCall.opens id) false

@[simp] theorem isOpen_concat (calls : List MuxCall) (c : MuxCall) (id : ℕ) :
    isOpen (calls ++ [c]) id = c.opens id (isOpen calls id) := by
  simp [isOpen, List.foldl_append]

/-- What the muxers allow: frames while open, an initialisation while closed. -/
def MuxCall.Allowed (before : List MuxCall) : MuxCall → Prop
  | .init id => isOpen before id = false
  | .deinit _ => True
  | .writeVideoFrame id | .writeAudioFrame id => isOpen before id = true

/-- Every call was allowed when it was made. -/
def Orderly (calls : List MuxCall) : Prop :=
  ∀ before c after, calls = before ++ c :: after → c.Allowed before

theorem orderly_nil : Orderly [] := by
  intro before c after h
  simp at h

theorem orderly_concat {calls : List MuxCall} {c : MuxCall} :
    Orderly (calls ++ [c]) ↔ Orderly calls ∧ c.Allowed calls := by
  constructor
  · intro h
    refine ⟨fun before d after hd => h before d (after ++ [c]) (by simp [hd]), ?_⟩
    exact h calls c [] rfl
  · rintro ⟨h, hc⟩ before d after hd
    -- the call looked at is the last one, or one of those before
    rcases List.eq_nil_or_concat after with rfl | ⟨after, e, rfl⟩
    · obtain ⟨rfl, he⟩ := List.append_inj' hd rfl
      obtain rfl := List.singleton_inj.mp he
      exact hc
    · have hd' : calls ++ [c] = (before ++ d :: after) ++ [e] := by simpa using hd
      exact h before d after (List.append_inj' hd' rfl).1

/-- Calls that were orderly in the end were so all along. -/
theorem Orderly.of_prefix {calls more : List MuxCall} (h : Orderly (calls ++ more)) :
    Orderly calls :=
  fun before c after hc => h before c (after ++ more) (by simp [hc])

/-! ## The sections -/

/-- **What the mutex protects**: the calls were orderly, and the flag of each stream is one while
its muxer is open and zero while it is closed. -/
structure MuxerState.Inv (s : MuxerState) : Prop where
  orderly : Orderly s.calls
  recordRun : ∀ id, s.recordRun id = if isOpen s.calls id then 1 else 0

theorem finish_openSection (id : ℕ) (s : MuxerState) :
    finish Command.exec (openSection id) s =
      ⟨Function.update (Function.update s.recordRun id 0) id 1,
        s.calls ++ [.deinit id] ++ [.init id]⟩ := rfl

theorem finish_closeSection (id : ℕ) (s : MuxerState) :
    finish Command.exec (closeSection id) s =
      ⟨Function.update s.recordRun id 0, s.calls ++ [.deinit id]⟩ := rfl

/-- The section closes the muxer before it opens it again. -/
theorem MuxerState.Inv.openSection {s : MuxerState} (hs : s.Inv) (id : ℕ) :
    (finish Command.exec (openSection id) s).Inv := by
  rw [finish_openSection]
  constructor
  -- closing is always allowed, and then the muxer is closed
  · refine orderly_concat.mpr ⟨orderly_concat.mpr ⟨hs.orderly, trivial⟩, ?_⟩
    simp only [MuxCall.Allowed, isOpen_concat, MuxCall.opens, if_true]
  · intro j
    simp only [isOpen_concat, MuxCall.opens]
    -- the stream of the section, and the others
    rcases eq_or_ne j id with rfl | hne
    · simp
    · simpa [hne, hne.symm] using hs.recordRun j

theorem MuxerState.Inv.closeSection {s : MuxerState} (hs : s.Inv) (id : ℕ) :
    (finish Command.exec (closeSection id) s).Inv := by
  rw [finish_closeSection]
  constructor
  · exact orderly_concat.mpr ⟨hs.orderly, trivial⟩
  · intro j
    simp only [isOpen_concat, MuxCall.opens]
    rcases eq_or_ne j id with rfl | hne
    · simp
    · simpa [hne, hne.symm] using hs.recordRun j

/-- A frame is written only while the flag is set, and then the muxer is open. -/
theorem MuxerState.Inv.write {s : MuxerState} (hs : s.Inv) {id : ℕ} {c : MuxCall}
    (hallowed : isOpen s.calls id = true → c.Allowed s.calls)
    (hopens : ∀ j o, c.opens j o = o) :
    (if s.recordRun id ≠ 0 then s.call c else s).Inv := by
  split_ifs with hrun
  · have hopen : isOpen s.calls id = true := by
      by_contra hclosed
      exact hrun (by rw [hs.recordRun id, if_neg hclosed])
    exact ⟨orderly_concat.mpr ⟨hs.orderly, hallowed hopen⟩, fun j => by
      simp [MuxerState.call, hopens, hs.recordRun j]⟩
  · exact hs

/-- Every section of every thread restores what the mutex protects. -/
theorem Caller.restores (caller : Caller) {cs : List Command} (hcs : cs ∈ caller.program)
    {s : MuxerState} (hs : s.Inv) : (finish Command.exec cs s).Inv := by
  cases caller with
  | record id rounds =>
    rcases List.mem_append.mp hcs with h | h
    · rw [List.eq_of_mem_replicate h]
      exact hs.openSection id
    · rw [List.mem_singleton.mp h]
      exact hs.closeSection id
  | recordStart =>
    rw [List.mem_singleton.mp hcs]
    exact hs.openSection 0
  | recordStop =>
    rw [List.mem_singleton.mp hcs]
    exact hs.closeSection 0
  | writeVideoFrame id =>
    rw [List.mem_singleton.mp hcs]
    exact hs.write (fun h => h) fun _ _ => rfl
  | writeAudioFrame id =>
    rw [List.mem_singleton.mp hcs]
    exact hs.write (fun h => h) fun _ _ => rfl

/-- A section only adds calls. -/
theorem calls_prefix_finish (cs : List Command) (s : MuxerState) :
    ∃ more, (finish Command.exec cs s).calls = s.calls ++ more := by
  induction cs generalizing s with
  | nil => exact ⟨[], by simp⟩
  | cons c cs ih =>
    obtain ⟨more, hmore⟩ := ih (c.exec s)
    -- one statement makes at most one call
    have hone : ∃ l, (c.exec s).calls = s.calls ++ l := by
      cases c with
      | setRecordRun id value => exact ⟨[], by simp [Command.exec]⟩
      | muxerDeinit id => exact ⟨_, rfl⟩
      | muxerInit id => exact ⟨_, rfl⟩
      | writeVideo id =>
        rcases eq_or_ne (s.recordRun id) 0 with h | h
        · exact ⟨[], by simp [Command.exec, h]⟩
        · exact ⟨[.writeVideoFrame id], by simp [Command.exec, h, MuxerState.call]⟩
      | writeAudio id =>
        rcases eq_or_ne (s.recordRun id) 0 with h | h
        · exact ⟨[], by simp [Command.exec, h]⟩
        · exact ⟨[.writeAudioFrame id], by simp [Command.exec, h, MuxerState.call]⟩
    obtain ⟨l, hl⟩ := hone
    exact ⟨l ++ more, by rw [finish_cons, hmore, hl, List.append_assoc]⟩

/-- **Frames only reach an open muxer**: whatever the threads are and however their statements are
interleaved under the mutex, every frame was written while the muxer of its stream was open, no
open muxer was initialised, and while the mutex is free the flag is one exactly when the muxer is
open. -/
theorem frames_reach_open_muxer {callers : ℕ → Caller} {t : MuxerThreads} {is : List ℕ}
    (hrun : Run (Threads.Step Command.exec) (MuxerThreads.start callers) is t) :
    (∀ before after id, t.shared.calls = before ++ .writeVideoFrame id :: after →
        isOpen before id = true) ∧
      (∀ before after id, t.shared.calls = before ++ .writeAudioFrame id :: after →
        isOpen before id = true) ∧
      (∀ before after id, t.shared.calls = before ++ .init id :: after →
        isOpen before id = false) ∧
      (t.owner = none → ∀ id, t.shared.recordRun id = 1 ↔ isOpen t.shared.calls id = true) := by
  have hinv : (t.outlook Command.exec).Inv := Threads.outlook_invariant hrun
    (fun i _ hcs _ hx => (callers i).restores hcs hx) ⟨orderly_nil, fun _ => rfl⟩
  -- inside a section the calls so far are the first of those it will have made
  have horderly : Orderly t.shared.calls := by
    cases hown : t.owner with
    | none =>
      rw [Threads.outlook_of_free hown] at hinv
      exact hinv.orderly
    | some p =>
      obtain ⟨more, hmore⟩ := calls_prefix_finish p.2 t.shared
      have h := hinv.orderly
      rw [Threads.outlook, hown, hmore] at h
      exact h.of_prefix
  refine ⟨fun before after id h => horderly before _ after h,
    fun before after id h => horderly before _ after h,
    fun before after id h => horderly before _ after h, fun hfree id => ?_⟩
  rw [Threads.outlook_of_free hfree] at hinv
  rw [hinv.recordRun id]
  split_ifs with h <;> simp [h]

/-- A record thread and a writer of frames for the main stream, and calls that stop it. -/
def recordAndWrite : ℕ → Caller
  | 0 => .record 0 1
  | 1 => .writeVideoFrame 0
  | _ => .recordStop

theorem frames_reach_open_muxer_recordAndWrite :
    ∃ t, Run (Threads.Step Command.exec) (MuxerThreads.start recordAndWrite)
        [0, 0, 0, 0, 0, 0, 1, 1, 1] t ∧ t.owner = none ∧
      t.shared.calls = [.deinit 0, .init 0, .writeVideoFrame 0] ∧
      (∀ id, t.shared.recordRun id = 1 ↔ isOpen t.shared.calls id = true) := by
  have hrun : ∃ t, Run (Threads.Step Command.exec) (MuxerThreads.start recordAndWrite)
      [0, 0, 0, 0, 0, 0, 1, 1, 1] t ∧ t.owner = none ∧
      t.shared.calls = [.deinit 0, .init 0, .writeVideoFrame 0] := by
    refine ⟨_, .snoc (.snoc (.snoc (.snoc (.snoc (.snoc (.snoc (.snoc (.snoc .nil
      (.lock rfl rfl)) (.run rfl)) (.run rfl)) (.run rfl)) (.run rfl)) (.unlock rfl))
      (.lock rfl rfl)) (.run rfl)) (.unlock rfl), rfl, rfl⟩
  obtain ⟨t, hrun, hfree, hcalls⟩ := hrun
  exact ⟨t, hrun, hfree, hcalls, (frames_reach_open_muxer hrun).2.2.2 hfree⟩

end RkIpc.Storage
