import Mathlib.Data.Set.Insert
import RkIpc.Mutex.Serial
import RkIpc.Transition.Orderly
import RkIpc.Video.Encoder

/-!
# The RTSP server

`rkipc_rtsp_init` creates a demo with up to three sessions, `rkipc_rtsp_deinit` deletes what the
global handles hold, and the threads of the encoders and of the sound transmit frames in between,
each call in one critical section of `g_rtsp_mutex`. The RTSP library is not here: a demo or a
session that it creates is a new one, or there is none, and with a demo its sessions go.

## Main definitions

* `Setup`, `streamSetup`: what a session is set to
* `Rtsp`, `RtspCall`: the global handles, and the calls of the library
* `RtspAtom`, `Request.atoms`: the statements of the critical sections
* `aliveAfter`, `Valid`: what is alive after calls, and calls on handles that are alive
* `Rtsp.NoLeak`: everything alive is held

## Main results

* `video_mem_rkipcRtspInit_iff`: a session is told the codec of its stream
* `Rtsp.Sound.request`, `Rtsp.NoLeak.request`: what each function keeps
* `rtsp_calls_valid`: however the threads alternate, no call is on a handle that is gone
* `nothing_left_iff`: when everything has been deleted in the end
-/

namespace RkIpc.Stream

open Text Param Mutex Transition

/-! ## The library -/

/-- A session, and the demo it is in. -/
structure Session where
  demo : ℕ
  number : ℕ
deriving DecidableEq, Repr

/-- A handle of the library. -/
inductive Handle
  | demo (number : ℕ)
  | session (s : Session)
deriving DecidableEq, Repr

/-- Handles are numbered as they are created. -/
def Handle.number : Handle → ℕ
  | .demo n => n
  | .session s => s.number

/-- The demo of a handle. -/
def Handle.inDemo : Handle → ℕ
  | .demo n => n
  | .session s => s.demo

/-- A frame. -/
structure Frame where
  buffer : List UInt8
  presentTime : Int64
deriving DecidableEq, Repr

/-- What a session is set to in one call. -/
inductive Setting
  | video (codec : Video.Codec)
  | videoTs
  | audio
  | audioTs
  | audioSampleRate (rate : ℤ)
  | audioChannels (channels : ℤ)
deriving DecidableEq, Repr

/-- A call of the library, with what it returned. -/
inductive RtspCall
  | createDemo (demo : Option ℕ)
  | newSession (demo : Option ℕ) (url : Str) (session : Option Session)
  | set (session : Option Session) (what : Setting)
  | txVideo (session : Session) (f : Frame)
  | txAudio (session : Session) (f : Frame)
  | doEvent (demo : ℕ)
  | delSession (session : Session)
  | delDemo (demo : ℕ)
deriving DecidableEq, Repr

/-- What is alive after a call: a demo that is deleted takes its sessions with it. -/
def RtspCall.apply (s : Set Handle) : RtspCall → Set Handle
  | .createDemo (some d) => insert (.demo d) s
  | .newSession _ _ (some h) => insert (.session h) s
  | .delSession h => {x ∈ s | x ≠ .session h}
  | .delDemo d => {x ∈ s | x.inDemo ≠ d}
  | _ => s

/-- **What is alive** after calls. -/
def aliveAfter (calls : List RtspCall) : Set Handle := calls.foldl RtspCall.apply ∅

/-- The handles that a call is given; a null pointer is none. -/
def RtspCall.handles : RtspCall → List Handle
  | .createDemo _ => []
  | .newSession d _ _ => d.toList.map .demo
  | .set h _ => h.toList.map .session
  | .txVideo h _ | .txAudio h _ | .delSession h => [.session h]
  | .doEvent d | .delDemo d => [.demo d]

/-- **No call is on a handle that is gone.** -/
def Valid (calls : List RtspCall) : Prop :=
  InOrder (fun s c => ∀ h ∈ c.handles, h ∈ s) RtspCall.apply ∅ calls

theorem aliveAfter_concat (calls : List RtspCall) (c : RtspCall) :
    aliveAfter (calls ++ [c]) = c.apply (aliveAfter calls) := by
  rw [aliveAfter, List.foldl_append]
  rfl

theorem valid_concat_iff {calls : List RtspCall} {c : RtspCall} :
    Valid (calls ++ [c]) ↔ Valid calls ∧ ∀ h ∈ c.handles, h ∈ aliveAfter calls :=
  inOrder_concat_iff

/-- Calls that are valid with more of them are valid. -/
theorem Valid.of_append {calls more : List RtspCall} (h : Valid (calls ++ more)) : Valid calls :=
  (inOrder_append_iff.mp h).1

/-! ## The functions -/

/-- What a session is set to: the codec, and the sample rate and the channels of the sound. -/
structure Setup where
  codec : Option Video.Codec
  audio : Option (ℤ × ℤ)
deriving DecidableEq, Repr

/-- The parameters that `rkipc_rtsp_init` reads for a session. -/
def streamSetup (p : Store) (k : Fin 3) : Option Setup := do
  let dataType ← Video.tmpOutputDataType p (Int32.ofNat k)
  let enable ← rkParamGetInt p (lit "audio.0:enable") 0
  if enable ≠ 0 then
    let rate ← rkParamGetInt p (lit "audio.0:sample_rate") 16000
    let channels ← rkParamGetInt p (lit "audio.0:channels") 2
    some ⟨Video.codecOf dataType, some (rate, channels)⟩
  else
    some ⟨Video.codecOf dataType, none⟩

/-- **The global handles**: `g_rtsplive` and `g_rtsp_session_0` to `g_rtsp_session_2`; how many
handles have been created, and the calls of the library. -/
structure Rtsp where
  live : Option ℕ
  session : Fin 3 → Option Session
  created : ℕ
  calls : List RtspCall

/-- Nothing has been created. -/
def Rtsp.start : Rtsp := ⟨none, fun _ => none, 0, []⟩

/-- One more call. -/
def Rtsp.call (s : Rtsp) (c : RtspCall) : Rtsp := { s with calls := s.calls ++ [c] }

@[simp] theorem Rtsp.calls_call (s : Rtsp) (c : RtspCall) : (s.call c).calls = s.calls ++ [c] := rfl

@[simp] theorem Rtsp.live_call (s : Rtsp) (c : RtspCall) : (s.call c).live = s.live := rfl

@[simp] theorem Rtsp.session_call (s : Rtsp) (c : RtspCall) : (s.call c).session = s.session := rfl

/-- A statement of a critical section; `ok` is whether the library returns a handle. -/
inductive RtspAtom
  | createDemo (ok : Bool)
  | newSession (k : Fin 3) (url : Str) (ok : Bool)
  | set (k : Fin 3) (what : Setting)
  | delSession (k : Fin 3)
  | delDemo
  | txVideo (k : Fin 3) (id : ℤ) (f : Frame)
  | txAudio (k : Fin 3) (f : Frame)
  | doEvent

/-- The handle of a new session: there is none without a demo. -/
def Rtsp.newHandle (s : Rtsp) (ok : Bool) : Option Session :=
  if ok then s.live.map fun d => ⟨d, s.created⟩ else none

/-- A statement is executed. A writer has returned before the others if there is no demo. -/
def RtspAtom.exec : RtspAtom → Rtsp → Rtsp
  | .createDemo true, s =>
    { s with live := some s.created, created := s.created + 1 }.call (.createDemo (some s.created))
  | .createDemo false, s => { s with live := none }.call (.createDemo none)
  | .newSession k url ok, s =>
    { s with
      session := Function.update s.session k (s.newHandle ok)
      created := s.created + 1 }.call (.newSession s.live url (s.newHandle ok))
  | .set k what, s => s.call (.set (s.session k) what)
  | .delSession k, s =>
    match s.session k with
    | none => s
    | some h => { s with session := Function.update s.session k none }.call (.delSession h)
  | .delDemo, s =>
    match s.live with
    | none => s
    | some d => { s with live := none }.call (.delDemo d)
  | .txVideo k id f, s =>
    match s.live, s.session k with
    | some _, some h => if id = k then s.call (.txVideo h f) else s
    | _, _ => s
  | .txAudio k f, s =>
    match s.live, s.session k with
    | some _, some h => s.call (.txAudio h f)
    | _, _ => s
  | .doEvent, s =>
    match s.live with
    | none => s
    | some d => s.call (.doEvent d)

/-- One session of `rkipc_rtsp_init`. -/
def openSession (k : Fin 3) (url : Str) (setup : Setup) (ok : Bool) : List RtspAtom :=
  [.newSession k url ok] ++
    (match setup.codec with
    | some codec => [.set k (.video codec)]
    | none => []) ++
    [.set k .videoTs] ++
    (match setup.audio with
    | some (rate, channels) =>
      [.set k .audio, .set k .audioTs, .set k (.audioSampleRate rate),
        .set k (.audioChannels channels)]
    | none => [])

/-- `rkipc_rtsp_init`; `setup` is what `streamSetup` reads. -/
def rkipcRtspInit (url : Fin 3 → Option Str) (setup : Fin 3 → Setup) (demo : Bool)
    (session : Fin 3 → Bool) : List RtspAtom :=
  .createDemo demo :: (List.finRange 3).flatMap fun k =>
    match url k with
    | none => []
    | some url => openSession k url (setup k) (session k)

/-- `rkipc_rtsp_deinit`. -/
def rkipcRtspDeinit : List RtspAtom := (List.finRange 3).map .delSession ++ [.delDemo]

/-- `rkipc_rtsp_write_video_frame`. -/
def rkipcRtspWriteVideoFrame (id : ℤ) (f : Frame) : List RtspAtom :=
  (List.finRange 3).map (fun k => .txVideo k id f) ++ [.doEvent]

/-- `rkipc_rtsp_write_audio_frame`. -/
def rkipcRtspWriteAudioFrame (f : Frame) : List RtspAtom :=
  (List.finRange 3).map (fun k => .txAudio k f) ++ [.doEvent]

section

variable {p : Store} {url : Fin 3 → Option Str} {setup : Fin 3 → Setup} {demo : Bool}
  {session : Fin 3 → Bool} {k : Fin 3}

/-- The statements that open a session set no other one. -/
theorem eq_of_set_mem_openSession {j : Fin 3} {u : Str} {x : Setup} {ok : Bool} {what : Setting}
    (h : .set k what ∈ openSession j u x ok) : k = j := by
  rcases x with ⟨_ | codec, _ | ⟨rate, channels⟩⟩ <;>
    · simp only [openSession, List.mem_append, List.mem_cons, RtspAtom.set.injEq, reduceCtorEq,
        List.not_mem_nil] at h
      tauto

/-- What a session is set to is set to it when it is opened. -/
theorem set_mem_rkipcRtspInit_iff {what : Setting} :
    .set k what ∈ rkipcRtspInit url setup demo session ↔
      ∃ u, url k = some u ∧ .set k what ∈ openSession k u (setup k) (session k) := by
  rw [rkipcRtspInit, List.mem_cons, List.mem_flatMap]
  constructor
  · rintro (h | ⟨j, -, h⟩)
    · cases h
    · cases hurl : url j with
      | none => simp [hurl] at h
      | some u =>
        rw [hurl] at h
        obtain rfl := eq_of_set_mem_openSession h
        exact ⟨u, hurl, h⟩
  · rintro ⟨u, hurl, h⟩
    refine .inr ⟨k, List.mem_finRange k, ?_⟩
    rw [hurl]
    exact h

/-- One of the statements that open a session names a codec, and only if there is one. -/
theorem video_mem_openSession_iff {u : Str} {x : Setup} {ok : Bool} {codec : Video.Codec} :
    .set k (.video codec) ∈ openSession k u x ok ↔ x.codec = some codec := by
  rcases x with ⟨_ | codec', _ | ⟨rate, channels⟩⟩ <;> simp [openSession, eq_comm]

theorem exists_of_streamSetup {x : Setup} (h : streamSetup p k = some x) :
    ∃ dataType, Video.tmpOutputDataType p (Int32.ofNat k) = some dataType ∧
      x.codec = Video.codecOf dataType := by
  simp only [streamSetup, Option.bind_eq_bind, Option.bind_eq_some_iff] at h
  obtain ⟨dataType, hdata, enable, -, h⟩ := h
  refine ⟨dataType, hdata, ?_⟩
  split at h
  · simp only [Option.bind_eq_some_iff, Option.some.injEq] at h
    obtain ⟨rate, -, channels, -, rfl⟩ := h
    rfl
  · cases h
    rfl

/-- **A session is told the codec of its stream**, which the parameters have for the encoder. -/
theorem video_mem_rkipcRtspInit_iff (hsetup : ∀ k, streamSetup p k = some (setup k))
    {codec : Video.Codec} :
    .set k (.video codec) ∈ rkipcRtspInit url setup demo session ↔
      (url k).isSome ∧ ∃ dataType, Video.tmpOutputDataType p (Int32.ofNat k) = some dataType ∧
        Video.codecOf dataType = some codec := by
  obtain ⟨dataType, hdata, hcodec⟩ := exists_of_streamSetup (hsetup k)
  rw [set_mem_rkipcRtspInit_iff, Option.isSome_iff_exists, ← exists_and_right]
  refine exists_congr fun u => and_congr_right fun _ => ?_
  rw [video_mem_openSession_iff, hcodec, hdata]
  simp only [Option.some.injEq, exists_eq_left']

end

/-- A call of one of the four. -/
inductive Request
  | init (url : Fin 3 → Option Str) (setup : Fin 3 → Setup) (demo : Bool) (session : Fin 3 → Bool)
  | deinit
  | writeVideoFrame (id : ℤ) (f : Frame)
  | writeAudioFrame (f : Frame)

/-- Its critical section. -/
def Request.atoms : Request → List RtspAtom
  | .init url setup demo session => rkipcRtspInit url setup demo session
  | .deinit => rkipcRtspDeinit
  | .writeVideoFrame id f => rkipcRtspWriteVideoFrame id f
  | .writeAudioFrame f => rkipcRtspWriteAudioFrame f

/-- A call as a whole. -/
def Request.exec (r : Request) (s : Rtsp) : Rtsp := finish RtspAtom.exec r.atoms s

/-- Threads that make these calls, before the first step. -/
def calling {ι : Type*} (requests : ι → List Request) : Threads ι Rtsp RtspAtom where
  programs i := (requests i).map Request.atoms
  shared := .start
  owner := none

/-! ## Handles that are held -/

/-- A handle is held in a global. -/
def Rtsp.Holds (s : Rtsp) : Handle → Prop
  | .demo d => s.live = some d
  | .session h => ∃ k, s.session k = some h

/-- What is alive. -/
def Rtsp.alive (s : Rtsp) : Set Handle := aliveAfter s.calls

/-- **The handles that are held are alive**, no two of them are the same, and no call was on a
handle that was gone. -/
structure Rtsp.Sound (s : Rtsp) : Prop where
  valid : Valid s.calls
  alive_of_holds : ∀ h, s.Holds h → h ∈ s.alive
  inj : ∀ j k h, s.session j = some h → s.session k = some h → j = k
  number_lt : ∀ h ∈ s.alive, h.number < s.created
  demo_alive : ∀ h ∈ s.alive, .demo h.inDemo ∈ s.alive

/-- **Everything alive is held.** -/
def Rtsp.NoLeak (s : Rtsp) : Prop := ∀ h ∈ s.alive, s.Holds h

theorem Rtsp.sound_start : Rtsp.start.Sound where
  valid := inOrder_nil
  alive_of_holds := by
    rintro (_ | _) h
    · cases h
    · obtain ⟨_, h⟩ := h
      cases h
  inj := by
    intro j k h hj
    cases hj
  number_lt := fun h hh => hh.elim
  demo_alive := fun h hh => hh.elim

theorem Rtsp.noLeak_start : Rtsp.start.NoLeak := fun _ hh => hh.elim

section

variable {s : Rtsp} {h : Handle} {c : RtspCall}

@[simp] theorem Rtsp.alive_call : (s.call c).alive = c.apply s.alive := aliveAfter_concat ..

/-- A call that creates and deletes nothing, on handles that are held. -/
theorem Rtsp.Sound.call (hs : s.Sound) (hc : ∀ x, c.apply x = x)
    (hheld : ∀ h ∈ c.handles, s.Holds h) : (s.call c).Sound := by
  have halive : (s.call c).alive = s.alive := by rw [Rtsp.alive_call, hc]
  refine ⟨valid_concat_iff.mpr ⟨hs.valid, fun h hh => hs.alive_of_holds h (hheld h hh)⟩,
    fun h hh => ?_, hs.inj, fun h hh => ?_, fun h hh => ?_⟩
  · rw [halive]
    refine hs.alive_of_holds h ?_
    cases h <;> exact hh
  · rw [halive] at hh
    exact hs.number_lt h hh
  · rw [halive] at hh ⊢
    exact hs.demo_alive h hh

theorem Rtsp.Sound.createDemo (hs : s.Sound) (ok : Bool) :
    (RtspAtom.exec (.createDemo ok) s).Sound := by
  cases ok with
  | false =>
    have halive : (RtspAtom.exec (.createDemo false) s).alive = s.alive := Rtsp.alive_call
    refine ⟨valid_concat_iff.mpr ⟨hs.valid, nofun⟩, ?_, hs.inj, ?_, ?_⟩
    · rw [halive]
      rintro (d | h) hh
      · cases hh
      · exact hs.alive_of_holds (.session h) hh
    · rw [halive]
      exact hs.number_lt
    · rw [halive]
      exact hs.demo_alive
  | true =>
    have halive : (RtspAtom.exec (.createDemo true) s).alive =
        insert (.demo s.created) s.alive := Rtsp.alive_call
    refine ⟨valid_concat_iff.mpr ⟨hs.valid, nofun⟩, fun h hh => ?_, hs.inj, fun h hh => ?_,
      fun h hh => ?_⟩
    · rw [halive]
      cases h with
      | demo d =>
        obtain rfl := Option.some.inj hh
        exact Set.mem_insert _ _
      | session h => exact Set.mem_insert_of_mem _ (hs.alive_of_holds (.session h) hh)
    · rw [halive] at hh
      rcases Set.mem_insert_iff.mp hh with rfl | hh
      · exact Nat.lt_succ_self _
      · exact Nat.lt_succ_of_lt (hs.number_lt h hh)
    · rw [halive] at hh ⊢
      rcases Set.mem_insert_iff.mp hh with rfl | hh
      · exact Set.mem_insert _ _
      · exact Set.mem_insert_of_mem _ (hs.demo_alive h hh)

/-- What is alive after a session was created, or not. -/
theorem Rtsp.mem_alive_newSession {k : Fin 3} {url : Str} {ok : Bool} :
    h ∈ (RtspAtom.exec (.newSession k url ok) s).alive ↔
      (∃ x, s.newHandle ok = some x ∧ h = .session x) ∨ h ∈ s.alive := by
  rw [RtspAtom.exec, Rtsp.alive_call]
  cases s.newHandle ok with
  | none => simp [RtspCall.apply, Rtsp.alive]
  | some x => simp [RtspCall.apply, Rtsp.alive]

/-- A new session is in the demo that is held. -/
theorem Rtsp.newHandle_eq_some {ok : Bool} {x : Session} (hx : s.newHandle ok = some x) :
    s.live = some x.demo ∧ x.number = s.created := by
  unfold Rtsp.newHandle at hx
  split at hx
  · obtain ⟨d, hd, rfl⟩ := Option.map_eq_some_iff.mp hx
    exact ⟨hd, rfl⟩
  · cases hx

theorem Rtsp.Sound.newSession (hs : s.Sound) (k : Fin 3) (url : Str) (ok : Bool) :
    (RtspAtom.exec (.newSession k url ok) s).Sound := by
  -- a new session is none of those that are held
  have hnew : ∀ j x, s.session j = some x → s.newHandle ok ≠ some x := fun j x hj hx =>
    absurd (hs.number_lt _ (hs.alive_of_holds (.session x) ⟨j, hj⟩))
      (by rw [Handle.number, (newHandle_eq_some hx).2]; exact lt_irrefl _)
  refine ⟨valid_concat_iff.mpr ⟨hs.valid, fun h hh => ?_⟩, fun h hh => ?_, fun i j h hi hj => ?_,
    fun h hh => ?_, fun h hh => ?_⟩
  · obtain ⟨d, hd, rfl⟩ := List.mem_map.mp hh
    exact hs.alive_of_holds (.demo d) (Option.mem_toList.mp hd)
  · rw [mem_alive_newSession]
    cases h with
    | demo d => exact Or.inr (hs.alive_of_holds (.demo d) hh)
    | session h =>
      obtain ⟨j, hj⟩ := hh
      change Function.update s.session k (s.newHandle ok) j = some h at hj
      rcases eq_or_ne j k with rfl | hne
      · rw [Function.update_self] at hj
        exact Or.inl ⟨h, hj, rfl⟩
      · rw [Function.update_of_ne hne] at hj
        exact Or.inr (hs.alive_of_holds (.session h) ⟨j, hj⟩)
  · change Function.update s.session k (s.newHandle ok) i = some h at hi
    change Function.update s.session k (s.newHandle ok) j = some h at hj
    rw [Function.update_apply] at hi hj
    split at hi <;> split at hj
    · exact ‹i = k›.trans ‹j = k›.symm
    · exact absurd hi (hnew j h hj)
    · exact absurd hj (hnew i h hi)
    · exact hs.inj i j h hi hj
  · rw [mem_alive_newSession] at hh
    rcases hh with ⟨x, hx, rfl⟩ | hh
    · exact Nat.lt_succ_of_le (newHandle_eq_some hx).2.le
    · exact Nat.lt_succ_of_lt (hs.number_lt h hh)
  · rw [mem_alive_newSession] at hh ⊢
    rcases hh with ⟨x, hx, rfl⟩ | hh
    · exact Or.inr (hs.alive_of_holds (.demo x.demo) (newHandle_eq_some hx).1)
    · exact Or.inr (hs.demo_alive h hh)

theorem RtspAtom.session_delSession (k j : Fin 3) :
    (RtspAtom.exec (.delSession k) s).session j = if j = k then none else s.session j := by
  rw [RtspAtom.exec]
  cases hk : s.session k with
  | none =>
    change s.session j = _
    split
    · next hj => rw [hj, hk]
    · rfl
  | some x => exact Function.update_apply ..

theorem Rtsp.Sound.delSession (hs : s.Sound) (k : Fin 3) :
    (RtspAtom.exec (.delSession k) s).Sound := by
  cases hk : s.session k with
  | none =>
    rw [RtspAtom.exec, hk]
    exact hs
  | some x =>
    have hexec : RtspAtom.exec (.delSession k) s =
        { s with session := Function.update s.session k none }.call (.delSession x) := by
      rw [RtspAtom.exec, hk]
    have halive : ∀ h, h ∈ (RtspAtom.exec (.delSession k) s).alive ↔
        h ∈ s.alive ∧ h ≠ .session x := by
      intro h
      rw [hexec, Rtsp.alive_call]
      rfl
    have hsession := RtspAtom.session_delSession (s := s) k
    refine ⟨?_, fun h hh => ?_, fun i j h hi hj => ?_, fun h hh => ?_, fun h hh => ?_⟩
    · rw [hexec]
      refine valid_concat_iff.mpr ⟨hs.valid, fun h hh => ?_⟩
      obtain rfl := List.mem_singleton.mp hh
      exact hs.alive_of_holds (.session x) ⟨k, hk⟩
    · rw [halive]
      cases h with
      | demo d =>
        rw [hexec] at hh
        exact ⟨hs.alive_of_holds (.demo d) hh, nofun⟩
      | session h =>
        obtain ⟨j, hj⟩ := hh
        rw [hsession] at hj
        split at hj
        · cases hj
        · next hne =>
          -- the others are different sessions
          refine ⟨hs.alive_of_holds (.session h) ⟨j, hj⟩, fun hx => hne ?_⟩
          exact hs.inj j k x (Handle.session.inj hx ▸ hj) hk
    · rw [hsession] at hi hj
      split at hi
      · cases hi
      split at hj
      · cases hj
      exact hs.inj i j h hi hj
    · rw [hexec]
      exact hs.number_lt h ((halive h).mp hh).1
    · rw [halive] at hh ⊢
      exact ⟨hs.demo_alive h hh.1, nofun⟩

/-- A demo may be deleted when no session is held. -/
theorem Rtsp.Sound.delDemo (hs : s.Sound) (hnone : ∀ k, s.session k = none) :
    (RtspAtom.exec .delDemo s).Sound := by
  cases hd : s.live with
  | none =>
    rw [RtspAtom.exec, hd]
    exact hs
  | some d =>
    have hexec : RtspAtom.exec .delDemo s = { s with live := none }.call (.delDemo d) := by
      rw [RtspAtom.exec, hd]
    have halive : ∀ h, h ∈ (RtspAtom.exec .delDemo s).alive ↔ h ∈ s.alive ∧ h.inDemo ≠ d := by
      intro h
      rw [hexec, Rtsp.alive_call]
      rfl
    refine ⟨?_, fun h hh => ?_, fun i j h hi => ?_, fun h hh => ?_, fun h hh => ?_⟩
    · rw [hexec]
      refine valid_concat_iff.mpr ⟨hs.valid, fun h hh => ?_⟩
      obtain rfl := List.mem_singleton.mp hh
      exact hs.alive_of_holds (.demo d) hd
    · rw [hexec] at hh
      cases h with
      | demo d' => cases hh
      | session h =>
        obtain ⟨j, hj⟩ := hh
        exact absurd hj (by rw [Rtsp.session_call, hnone j]; nofun)
    · rw [hexec, Rtsp.session_call, hnone i] at hi
      cases hi
    · rw [hexec]
      exact hs.number_lt h ((halive h).mp hh).1
    · rw [halive] at hh ⊢
      exact ⟨hs.demo_alive h hh.1, hh.2⟩

/-- A statement that creates and deletes nothing. -/
def RtspAtom.Quiet : RtspAtom → Prop
  | .set _ _ | .txVideo _ _ _ | .txAudio _ _ | .doEvent => True
  | _ => False

/-- **A quiet statement** makes no call, or one on handles that are held. -/
theorem RtspAtom.Quiet.exec_cases {a : RtspAtom} (ha : a.Quiet) (s : Rtsp) :
    a.exec s = s ∨ ∃ c, a.exec s = s.call c ∧ (∀ x, c.apply x = x) ∧
      ∀ h ∈ c.handles, s.Holds h := by
  cases a with
  | set k what =>
    refine Or.inr ⟨_, rfl, fun _ => rfl, fun h hh => ?_⟩
    obtain ⟨x, hx, rfl⟩ := List.mem_map.mp hh
    exact ⟨k, Option.mem_toList.mp hx⟩
  | txVideo k id f =>
    rw [RtspAtom.exec]
    split
    · next x _ hx =>
      split
      · exact Or.inr ⟨_, rfl, fun _ => rfl, fun h hh => List.mem_singleton.mp hh ▸ ⟨k, hx⟩⟩
      · exact Or.inl rfl
    · exact Or.inl rfl
  | txAudio k f =>
    rw [RtspAtom.exec]
    split
    · next x _ hx =>
      exact Or.inr ⟨_, rfl, fun _ => rfl, fun h hh => List.mem_singleton.mp hh ▸ ⟨k, hx⟩⟩
    · exact Or.inl rfl
  | doEvent =>
    rw [RtspAtom.exec]
    split
    · exact Or.inl rfl
    · next d hd =>
      exact Or.inr ⟨_, rfl, fun _ => rfl, fun h hh => List.mem_singleton.mp hh ▸ hd⟩
  | _ => exact ha.elim

/-- **A statement keeps the handles sound**; the demo is deleted when no session is held. -/
theorem Rtsp.Sound.exec (hs : s.Sound) {a : RtspAtom}
    (hdemo : a = .delDemo → ∀ k, s.session k = none) : (a.exec s).Sound := by
  have hquiet : a.Quiet → (a.exec s).Sound := by
    intro ha
    rcases ha.exec_cases s with h | ⟨c, h, hc, hheld⟩
    · rwa [h]
    · rw [h]
      exact hs.call hc hheld
  cases a with
  | createDemo ok => exact hs.createDemo ok
  | newSession k url ok => exact hs.newSession k url ok
  | delSession k => exact hs.delSession k
  | delDemo => exact hs.delDemo (hdemo rfl)
  | _ => exact hquiet trivial

/-! ## Critical sections -/

theorem Rtsp.Sound.finish {cs : List RtspAtom} (hcs : .delDemo ∉ cs) (hs : s.Sound) :
    (finish RtspAtom.exec cs s).Sound := by
  induction cs generalizing s with
  | nil => exact hs
  | cons a cs ih =>
    obtain ⟨ha, hcs⟩ := not_or.mp (List.mem_cons.not.mp hcs)
    exact ih hcs (hs.exec fun h => absurd h.symm ha)

theorem delDemo_notMem_openSession (k : Fin 3) (url : Str) (setup : Setup) (ok : Bool) :
    .delDemo ∉ openSession k url setup ok := by
  unfold openSession
  cases setup.codec <;> cases setup.audio <;> simp

theorem delDemo_notMem_rkipcRtspInit (url : Fin 3 → Option Str) (setup : Fin 3 → Setup)
    (demo : Bool) (session : Fin 3 → Bool) : .delDemo ∉ rkipcRtspInit url setup demo session := by
  intro h
  rcases List.mem_cons.mp h with h | h
  · cases h
  · obtain ⟨k, -, hk⟩ := List.mem_flatMap.mp h
    cases hurl : url k with
    | none => simp [hurl] at hk
    | some u =>
      rw [hurl] at hk
      exact delDemo_notMem_openSession _ _ _ _ hk

/-- After the sessions have been deleted none is held. -/
theorem session_delSessions (s : Rtsp) (k : Fin 3) :
    (Mutex.finish RtspAtom.exec [.delSession 0, .delSession 1, .delSession 2] s).session k =
      none := by
  simp only [finish_cons, finish_nil, RtspAtom.session_delSession]
  split_ifs with h₂ h₁ h₀
  · rfl
  · rfl
  · rfl
  · exact absurd k.isLt (by omega)

theorem rkipcRtspDeinit_eq (s : Rtsp) : Mutex.finish RtspAtom.exec rkipcRtspDeinit s =
    RtspAtom.exec .delDemo
      (Mutex.finish RtspAtom.exec [.delSession 0, .delSession 1, .delSession 2] s) := rfl

/-- **Each of the functions keeps the handles sound.** -/
theorem Rtsp.Sound.request (hs : s.Sound) (r : Request) : (r.exec s).Sound := by
  cases r with
  | init url setup demo session =>
    exact hs.finish (delDemo_notMem_rkipcRtspInit url setup demo session)
  | deinit =>
    rw [Request.exec, Request.atoms, rkipcRtspDeinit_eq]
    exact Sound.delDemo (hs.finish (by simp)) (session_delSessions s)
  | writeVideoFrame id f => exact hs.finish (by simp [Request.atoms, rkipcRtspWriteVideoFrame])
  | writeAudioFrame f => exact hs.finish (by simp [Request.atoms, rkipcRtspWriteAudioFrame])

/-! ## Threads that alternate -/

/-- The calls only become more. -/
theorem RtspAtom.calls_exec (a : RtspAtom) (s : Rtsp) :
    ∃ more, (a.exec s).calls = s.calls ++ more := by
  have hsame : ∃ more, s.calls = s.calls ++ more := ⟨[], (List.append_nil _).symm⟩
  have hquiet : a.Quiet → ∃ more, (a.exec s).calls = s.calls ++ more := by
    intro ha
    rcases ha.exec_cases s with h | ⟨c, h, -⟩
    · rwa [h]
    · exact ⟨[c], by rw [h, Rtsp.calls_call]⟩
  cases a with
  | createDemo ok => cases ok <;> exact ⟨_, rfl⟩
  | newSession k url ok => exact ⟨_, rfl⟩
  | delSession k =>
    rw [RtspAtom.exec]
    split
    · exact hsame
    · exact ⟨_, rfl⟩
  | delDemo =>
    rw [RtspAtom.exec]
    split
    · exact hsame
    · exact ⟨_, rfl⟩
  | _ => exact hquiet trivial

theorem calls_finish (cs : List RtspAtom) (s : Rtsp) :
    ∃ more, (Mutex.finish RtspAtom.exec cs s).calls = s.calls ++ more := by
  induction cs generalizing s with
  | nil => exact ⟨[], (List.append_nil _).symm⟩
  | cons a cs ih =>
    obtain ⟨first, hfirst⟩ := a.calls_exec s
    obtain ⟨more, hmore⟩ := ih (a.exec s)
    exact ⟨first ++ more, by rw [finish_cons, hmore, hfirst, List.append_assoc]⟩

variable {ι : Type*} [DecidableEq ι] {requests : ι → List Request} {is : List ι}
  {t : Threads ι Rtsp RtspAtom}

/-- Every section of a run is one of the four functions. -/
theorem exists_request {order : List (ι × List RtspAtom)}
    (h : Threads.Serial RtspAtom.exec (calling requests) t order) {p : ι × List RtspAtom}
    (hp : p ∈ order) : ∃ r ∈ requests p.1, r.atoms = p.2 := List.mem_map.mp (h.mem_programs hp)

theorem sound_serially {order : List (ι × List RtspAtom)}
    (h : Threads.Serial RtspAtom.exec (calling requests) t order) :
    (serially RtspAtom.exec order .start).Sound := by
  refine serially_invariant (fun p hp x hx => ?_) Rtsp.sound_start
  obtain ⟨r, -, hr⟩ := exists_request h hp
  rw [← hr]
  exact hx.request r

/-- **However the threads alternate**, and at every moment, no call of the library is on a handle
that is gone. -/
theorem rtsp_calls_valid (hrun : Run (Threads.Step RtspAtom.exec) (calling requests) is t) :
    Valid t.shared.calls := by
  obtain ⟨order, horder⟩ := Threads.exists_serial hrun
  have hsound : (t.outlook RtspAtom.exec).Sound := horder.outlook ▸ sound_serially horder
  -- the calls so far are the first ones of those that the section comes to
  cases howner : t.owner with
  | none =>
    rw [Threads.outlook_of_free howner] at hsound
    exact hsound.valid
  | some p =>
    rw [Threads.outlook, howner] at hsound
    obtain ⟨more, hmore⟩ := calls_finish p.2 t.shared
    exact Valid.of_append (hmore ▸ hsound.valid)

/-- One thread opens and closes a server with one session, and another one writes a frame. -/
def openAndWrite : Bool → List Request
  | true => [.init (fun k => if k.val = 0 then some (lit "/live/0") else none)
      (fun _ => ⟨none, none⟩) true (fun _ => true), .deinit]
  | false => [.writeVideoFrame 0 ⟨[1], 0⟩]

/-- In the middle of the frame. -/
theorem rtsp_calls_valid_frame : ∃ is t,
    Run (Threads.Step RtspAtom.exec) (calling openAndWrite) is t ∧
      t.shared.calls.length = 4 ∧ Valid t.shared.calls := by
  have hopen : Run (Threads.Step RtspAtom.exec) (calling openAndWrite) _ _ :=
    ((((Run.nil.snoc (a := true) (.lock rfl rfl)).snoc (a := true) (.run rfl)).snoc (a := true)
      (.run rfl)).snoc (a := true) (.run rfl)).snoc (a := true) (.unlock rfl)
  have hrun := (hopen.snoc (a := false) (.lock rfl rfl)).snoc (a := false) (.run rfl)
  exact ⟨_, _, hrun, rfl, rtsp_calls_valid hrun⟩

/-! ## What is left -/

/-- A demo is alive that is not held. -/
def Rtsp.Leaks (s : Rtsp) : Prop := ∃ d, .demo d ∈ s.alive ∧ s.live ≠ some d

/-- Whatever was alive, a new demo is another one. -/
theorem leaks_createDemo (hs : s.Sound) {d : ℕ} (halive : .demo d ∈ s.alive) (ok : Bool) :
    (RtspAtom.exec (.createDemo ok) s).Leaks := by
  cases ok with
  | false => exact ⟨d, by rwa [RtspAtom.exec, Rtsp.alive_call], nofun⟩
  | true =>
    refine ⟨d, ?_, fun hd => ?_⟩
    · rw [RtspAtom.exec, Rtsp.alive_call]
      exact Set.mem_insert_of_mem _ halive
    · obtain rfl := Option.some.inj hd
      exact absurd (hs.number_lt _ halive) (lt_irrefl _)

/-- **A demo that is not held** is not deleted any more. -/
theorem Rtsp.Leaks.exec (hs : s.Sound) (h : s.Leaks) (a : RtspAtom) : (a.exec s).Leaks := by
  have hquiet : a.Quiet → (a.exec s).Leaks := by
    intro ha
    obtain ⟨d, halive, hlive⟩ := h
    rcases ha.exec_cases s with h | ⟨c, h, hc, -⟩
    · rw [h]
      exact ⟨d, halive, hlive⟩
    · exact ⟨d, by rwa [h, Rtsp.alive_call, hc], by rwa [h]⟩
  obtain ⟨d, halive, hlive⟩ := h
  cases a with
  | createDemo ok => exact leaks_createDemo hs halive ok
  | newSession k url ok => exact ⟨d, Rtsp.mem_alive_newSession.mpr (Or.inr halive), hlive⟩
  | delSession k =>
    rw [RtspAtom.exec]
    split
    · exact ⟨d, halive, hlive⟩
    · exact ⟨d, by rw [Rtsp.alive_call]; exact ⟨halive, nofun⟩, hlive⟩
  | delDemo =>
    rw [RtspAtom.exec]
    split
    · exact ⟨d, halive, hlive⟩
    · next d' hd' =>
      refine ⟨d, ?_, nofun⟩
      rw [Rtsp.alive_call]
      exact ⟨halive, fun he => hlive (by rw [hd', ← he]; rfl)⟩
  | _ => exact hquiet trivial

theorem Rtsp.Leaks.finish (hs : s.Sound) (h : s.Leaks) {cs : List RtspAtom} (hcs : .delDemo ∉ cs) :
    (Mutex.finish RtspAtom.exec cs s).Leaks := by
  induction cs generalizing s with
  | nil => exact h
  | cons a cs ih =>
    obtain ⟨ha, hcs⟩ := not_or.mp (List.mem_cons.not.mp hcs)
    exact ih (hs.exec fun hd => absurd hd.symm ha) (h.exec hs a) hcs

theorem Rtsp.Leaks.request (hs : s.Sound) (h : s.Leaks) (r : Request) : (r.exec s).Leaks := by
  cases r with
  | init url setup demo session =>
    exact h.finish hs (delDemo_notMem_rkipcRtspInit url setup demo session)
  | deinit =>
    rw [Request.exec, Request.atoms, rkipcRtspDeinit_eq]
    exact Leaks.exec (hs.finish (by simp)) (h.finish hs (by simp)) .delDemo
  | writeVideoFrame id f => exact h.finish hs (by simp [Request.atoms, rkipcRtspWriteVideoFrame])
  | writeAudioFrame f => exact h.finish hs (by simp [Request.atoms, rkipcRtspWriteAudioFrame])

/-- **A demo is overwritten** by an initialisation while there is one. -/
theorem leaks_of_init (hs : s.Sound) {d : ℕ} (hlive : s.live = some d) {url : Fin 3 → Option Str}
    {setup : Fin 3 → Setup} {demo : Bool} {session : Fin 3 → Bool} :
    (Request.exec (.init url setup demo session) s).Leaks := by
  have hfirst := leaks_createDemo hs (hs.alive_of_holds (.demo d) hlive) demo
  refine hfirst.finish (hs.createDemo demo) fun hmem => ?_
  exact delDemo_notMem_rkipcRtspInit url setup demo session (List.mem_cons_of_mem _ hmem)

/-! ## Nothing is left -/

/-- Quiet statements leave what is held and what is alive. -/
theorem quiet_finish {cs : List RtspAtom} (hcs : ∀ a ∈ cs, a.Quiet) (s : Rtsp) :
    (Mutex.finish RtspAtom.exec cs s).live = s.live ∧
      (Mutex.finish RtspAtom.exec cs s).session = s.session ∧
      (Mutex.finish RtspAtom.exec cs s).alive = s.alive := by
  induction cs generalizing s with
  | nil => exact ⟨rfl, rfl, rfl⟩
  | cons a cs ih =>
    obtain ⟨ha, hcs⟩ := List.forall_mem_cons.mp hcs
    obtain ⟨hlive, hsession, halive⟩ := ih hcs (a.exec s)
    rw [finish_cons, hlive, hsession, halive]
    rcases ha.exec_cases s with h | ⟨c, h, hc, -⟩
    · rw [h]
      exact ⟨rfl, rfl, rfl⟩
    · rw [h, Rtsp.alive_call, hc]
      exact ⟨rfl, rfl, rfl⟩

theorem Rtsp.NoLeak.of_eq {s' : Rtsp} (h : s.NoLeak) (hlive : s'.live = s.live)
    (hsession : s'.session = s.session) (halive : s'.alive = s.alive) : s'.NoLeak := by
  intro x hx
  have hheld := h x (halive ▸ hx)
  cases x with
  | demo d => exact hlive.trans hheld
  | session x =>
    obtain ⟨k, hk⟩ := hheld
    exact ⟨k, by rw [hsession, hk]⟩

theorem Rtsp.NoLeak.quiet (h : s.NoLeak) {cs : List RtspAtom} (hcs : ∀ a ∈ cs, a.Quiet) :
    (Mutex.finish RtspAtom.exec cs s).NoLeak := by
  obtain ⟨hlive, hsession, halive⟩ := quiet_finish hcs s
  exact h.of_eq hlive hsession halive

/-- Without a demo nothing is alive that has not leaked. -/
theorem Rtsp.NoLeak.alive_eq (h : s.NoLeak) (hs : s.Sound) (hlive : s.live = none) :
    s.alive = ∅ := by
  refine Set.eq_empty_of_forall_notMem fun x hx => ?_
  have hdemo := h _ (hs.demo_alive x hx)
  rw [Rtsp.Holds, hlive] at hdemo
  cases hdemo

/-- A session may be created where none is held. -/
theorem Rtsp.NoLeak.newSession (h : s.NoLeak) {k : Fin 3} (hk : s.session k = none) (url : Str)
    (ok : Bool) : (RtspAtom.exec (.newSession k url ok) s).NoLeak := by
  intro x hx
  rw [Rtsp.mem_alive_newSession] at hx
  rcases hx with ⟨y, hy, rfl⟩ | hx
  · exact ⟨k, (Function.update_self ..).trans hy⟩
  · cases x with
    | demo d => exact h _ hx
    | session x =>
      obtain ⟨j, hj⟩ := h _ hx
      have hne : j ≠ k := by
        rintro rfl
        rw [hk] at hj
        cases hj
      exact ⟨j, (Function.update_of_ne hne ..).trans hj⟩

theorem openSession_eq (k : Fin 3) (url : Str) (setup : Setup) (ok : Bool) :
    ∃ sets, openSession k url setup ok = .newSession k url ok :: sets ∧
      ∀ a ∈ sets, RtspAtom.Quiet a := by
  refine ⟨_, rfl, ?_⟩
  cases setup.codec <;> cases setup.audio <;> simp [RtspAtom.Quiet]

/-- One session after the other, where none is held yet. -/
theorem Rtsp.NoLeak.openSessions (h : s.NoLeak) {ks : List (Fin 3)} (hks : ks.Nodup)
    (hnone : ∀ k ∈ ks, s.session k = none) (url : Fin 3 → Option Str) (setup : Fin 3 → Setup)
    (session : Fin 3 → Bool) :
    (Mutex.finish RtspAtom.exec (ks.flatMap fun k =>
      match url k with
      | none => []
      | some url => openSession k url (setup k) (session k)) s).NoLeak := by
  induction ks generalizing s with
  | nil => exact h
  | cons k ks ih =>
    obtain ⟨hk, hks⟩ := List.nodup_cons.mp hks
    obtain ⟨hnonek, hnone⟩ := List.forall_mem_cons.mp hnone
    rw [List.flatMap_cons, Mutex.finish, List.foldl_append]
    cases hurl : url k with
    | none => exact ih h hks hnone
    | some u =>
      obtain ⟨sets, hopen, hsets⟩ := openSession_eq k u (setup k) (session k)
      have hnew := h.newSession hnonek u (session k)
      refine ih ?_ hks fun j hj => ?_
      · simp only [hopen]
        exact hnew.quiet hsets
      · simp only [hopen]
        rw [List.foldl_cons]
        have hne : j ≠ k := fun he => hk (he ▸ hj)
        refine (congrFun (quiet_finish hsets _).2.1 j).trans ?_
        exact (Function.update_of_ne hne ..).trans (hnone j hj)

/-- An initialisation where there is no demo. -/
theorem Rtsp.NoLeak.init (h : s.NoLeak) (hs : s.Sound) (hlive : s.live = none)
    (url : Fin 3 → Option Str) (setup : Fin 3 → Setup) (demo : Bool) (session : Fin 3 → Bool) :
    (Request.exec (.init url setup demo session) s).NoLeak := by
  have halive : s.alive = ∅ := h.alive_eq hs hlive
  -- no session is held, since none is alive
  have hnone : ∀ k, s.session k = none := by
    intro k
    cases hk : s.session k with
    | none => rfl
    | some x => exact (halive ▸ hs.alive_of_holds (.session x) ⟨k, hk⟩ : _ ∈ (∅ : Set Handle)).elim
  have hdemo : (RtspAtom.exec (.createDemo demo) s).NoLeak := by
    intro x hx
    cases demo with
    | false =>
      rw [RtspAtom.exec, Rtsp.alive_call] at hx
      exact (halive ▸ hx : x ∈ (∅ : Set Handle)).elim
    | true =>
      rw [RtspAtom.exec, Rtsp.alive_call] at hx
      rcases Set.mem_insert_iff.mp hx with rfl | hx
      · rfl
      · exact (halive ▸ hx : x ∈ (∅ : Set Handle)).elim
  refine hdemo.openSessions (List.nodup_finRange 3) (fun k _ => ?_) url setup session
  cases demo <;> exact hnone k

theorem Rtsp.NoLeak.delSession (h : s.NoLeak) (k : Fin 3) :
    (RtspAtom.exec (.delSession k) s).NoLeak := by
  rw [RtspAtom.exec]
  split
  · exact h
  · next x hk =>
    intro y hy
    rw [Rtsp.alive_call] at hy
    obtain ⟨hy, hne⟩ := hy
    cases y with
    | demo d => exact h _ hy
    | session y =>
      obtain ⟨j, hj⟩ := h _ hy
      refine ⟨j, (Function.update_of_ne ?_ ..).trans hj⟩
      rintro rfl
      rw [hk] at hj
      exact hne (congrArg Handle.session (Option.some.inj hj).symm)

/-- The end of `rkipc_rtsp_deinit`. -/
theorem Rtsp.NoLeak.delDemo (h : s.NoLeak) (hnone : ∀ k, s.session k = none) :
    (RtspAtom.exec .delDemo s).NoLeak := by
  rw [RtspAtom.exec]
  split
  · exact h
  · next d hd =>
    intro y hy
    rw [Rtsp.alive_call] at hy
    obtain ⟨hy, hne⟩ := hy
    cases y with
    | demo d' => exact absurd (Option.some.inj ((h _ hy).symm.trans hd)) hne
    | session y =>
      obtain ⟨j, hj⟩ := h _ hy
      rw [hnone j] at hj
      cases hj

theorem quiet_rkipcRtspWriteVideoFrame (id : ℤ) (f : Frame) :
    ∀ a ∈ rkipcRtspWriteVideoFrame id f, a.Quiet := by
  intro a ha
  rcases List.mem_append.mp ha with ha | ha
  · obtain ⟨k, -, rfl⟩ := List.mem_map.mp ha
    trivial
  · rw [List.mem_singleton.mp ha]
    trivial

theorem quiet_rkipcRtspWriteAudioFrame (f : Frame) :
    ∀ a ∈ rkipcRtspWriteAudioFrame f, a.Quiet := by
  intro a ha
  rcases List.mem_append.mp ha with ha | ha
  · obtain ⟨k, -, rfl⟩ := List.mem_map.mp ha
    trivial
  · rw [List.mem_singleton.mp ha]
    trivial

/-- **A function leaves nothing behind**; `rkipc_rtsp_init` if there is no demo. -/
theorem Rtsp.NoLeak.request (h : s.NoLeak) (hs : s.Sound) {r : Request}
    (hinit : ∀ url setup demo session, r = .init url setup demo session → s.live = none) :
    (r.exec s).NoLeak := by
  cases r with
  | init url setup demo session => exact h.init hs (hinit _ _ _ _ rfl) url setup demo session
  | deinit =>
    rw [Request.exec, Request.atoms, rkipcRtspDeinit_eq]
    exact delDemo (((h.delSession 0).delSession 1).delSession 2) (session_delSessions s)
  | writeVideoFrame id f => exact h.quiet (quiet_rkipcRtspWriteVideoFrame id f)
  | writeAudioFrame f => exact h.quiet (quiet_rkipcRtspWriteAudioFrame f)

/-- A section that starts with `create_rtsp_demo`. -/
def Opens (cs : List RtspAtom) : Prop := ∃ demo, cs.head? = some (.createDemo demo)

theorem opens_atoms_iff (r : Request) :
    Opens r.atoms ↔ ∃ url setup demo session, r = .init url setup demo session := by
  cases r with
  | init url setup demo session => exact ⟨fun _ => ⟨_, _, _, _, rfl⟩, fun _ => ⟨demo, rfl⟩⟩
  | deinit =>
    refine iff_of_false (fun ⟨demo, h⟩ => ?_) (by simp)
    cases h
  | writeVideoFrame id f =>
    refine iff_of_false (fun ⟨demo, h⟩ => ?_) (by simp)
    cases h
  | writeAudioFrame f =>
    refine iff_of_false (fun ⟨demo, h⟩ => ?_) (by simp)
    cases h

variable {ι : Type*} {order : List (ι × List RtspAtom)}

/-- **The initialisations are in order**: there is no demo when one begins. -/
def InitsInOrder (order : List (ι × List RtspAtom)) : Prop :=
  InOrder (fun s p => Opens p.2 → s.live = none) (fun s p => finish RtspAtom.exec p.2 s) .start
    order

/-- The initialisations are in order and nothing leaks, or neither. -/
theorem noLeak_or_leaks (hreq : ∀ p ∈ order, ∃ r : Request, r.atoms = p.2) :
    (InitsInOrder order ∧ (serially RtspAtom.exec order .start).NoLeak) ∨
      (¬ InitsInOrder order ∧ (serially RtspAtom.exec order .start).Leaks) := by
  -- induction from the end of the order: the last section comes after the others
  induction order using List.reverseRecOn with
  | nil => exact Or.inl ⟨inOrder_nil, Rtsp.noLeak_start⟩
  | append_singleton order p ih =>
    obtain ⟨horder, hp⟩ := List.forall_mem_append.mp hreq
    obtain ⟨r, hr⟩ := hp p (List.mem_singleton_self p)
    have hsound : (serially RtspAtom.exec order .start).Sound := by
      refine serially_invariant (fun q hq x hx => ?_) Rtsp.sound_start
      obtain ⟨r, hr⟩ := horder q hq
      rw [← hr]
      exact hx.request r
    rw [serially_concat, ← hr, InitsInOrder, inOrder_concat_iff]
    rcases ih horder with ⟨hinits, hno⟩ | ⟨hinits, hleaks⟩
    · by_cases hlast : Opens p.2 → (serially RtspAtom.exec order .start).live = none
      · refine Or.inl ⟨⟨hinits, hlast⟩, hno.request hsound fun url setup demo session h => ?_⟩
        exact hlast (hr ▸ (opens_atoms_iff r).mpr ⟨url, setup, demo, session, h⟩)
      · refine Or.inr ⟨fun h => hlast h.2, ?_⟩
        obtain ⟨hopens, hlive⟩ := Classical.not_imp.mp hlast
        rw [← hr] at hopens
        obtain ⟨url, setup, demo, session, rfl⟩ := (opens_atoms_iff r).mp hopens
        obtain ⟨d, hd⟩ := Option.ne_none_iff_exists'.mp hlive
        exact leaks_of_init hsound hd
    · exact Or.inr ⟨fun h => hinits h.1, hleaks.request hsound r⟩

variable [DecidableEq ι] {requests : ι → List Request} {is : List ι} {t : Threads ι Rtsp RtspAtom}

/-- **What is left in the end**: however the threads alternate, once the mutex is free and there is
no demo, everything that was created has been deleted, if and only if each initialisation found no
demo. -/
theorem nothing_left_iff (hrun : Run (Threads.Step RtspAtom.exec) (calling requests) is t)
    (hfree : t.owner = none) (hlive : t.shared.live = none) :
    ∃ order, Threads.Serial RtspAtom.exec (calling requests) t order ∧
      (t.shared.alive = ∅ ↔ InitsInOrder order) := by
  obtain ⟨order, horder⟩ := Threads.exists_serial hrun
  have hshared : t.shared = serially RtspAtom.exec order .start := by
    rw [← Threads.outlook_of_free hfree, horder.outlook]
    rfl
  have hsound : t.shared.Sound := hshared ▸ sound_serially horder
  have hreq : ∀ p ∈ order, ∃ r : Request, r.atoms = p.2 := fun p hp =>
    (exists_request horder hp).imp fun _ h => h.2
  have hcases := noLeak_or_leaks hreq
  rw [← hshared] at hcases
  refine ⟨order, horder, ?_⟩
  rcases hcases with ⟨hinits, hno⟩ | ⟨hinits, d, hd, -⟩
  · exact iff_of_true (hno.alive_eq hsound hlive) hinits
  · exact iff_of_false (fun h => (h ▸ hd : _ ∈ (∅ : Set Handle)).elim) hinits

/-- The thread that opened the server has closed it. -/
theorem nothing_left_iff_close : ∃ is t order,
    Run (Threads.Step RtspAtom.exec) (calling openAndWrite) is t ∧
      Threads.Serial RtspAtom.exec (calling openAndWrite) t order ∧
      t.shared.calls.length = 5 ∧ (t.shared.alive = ∅ ↔ InitsInOrder order) := by
  have hopen : Run (Threads.Step RtspAtom.exec) (calling openAndWrite) _ _ :=
    ((((Run.nil.snoc (a := true) (.lock rfl rfl)).snoc (a := true) (.run rfl)).snoc (a := true)
      (.run rfl)).snoc (a := true) (.run rfl)).snoc (a := true) (.unlock rfl)
  have hrun := (((((hopen.snoc (a := true) (.lock rfl rfl)).snoc (a := true) (.run rfl)).snoc
    (a := true) (.run rfl)).snoc (a := true) (.run rfl)).snoc (a := true) (.run rfl)).snoc
      (a := true) (.unlock rfl)
  obtain ⟨order, horder, hleft⟩ := nothing_left_iff hrun rfl rfl
  exact ⟨_, _, order, hrun, horder, rfl, hleft⟩

end

end RkIpc.Stream
