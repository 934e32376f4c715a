import RkIpc.Transition.Crew
import RkIpc.Video.Pipeline

/-!
# The threads of the video

Between its creation and its end each thread of the video goes round a loop: it takes a stream or a
frame from its channel, passes it on, and gives it back, or it draws on the region of the NPU. The
threads and the thread that runs `rk_video_init` and `rk_video_deinit` alternate, call by call.

## Main definitions

* `Call`, `Round`: what a thread calls in a round of its loop
* `crew`: the program and its threads
* `RunTold`: what the statements tell of `g_nn_osd_run_`, and what it is
* `GivesBack`: calls that give back what they take, and pass on nothing else

## Main results

* `calls_held`: what is taken is given back, once, and is used in between only
* `channel_alive`: no thread calls a channel of its own that is gone
* `join_returns`: a thread that is joined comes to its end
* `program_ends`: wherever the threads stand, the program can come to its end
-/

namespace RkIpc.Video

open Text Transition

/-! ## Rounds -/

/-- A stream of an encoder: the frame, and `DataType`. -/
structure Packet where
  frame : Stream.Frame
  dataType : ℤ
deriving DecidableEq, Repr

/-- `H264E_NALU_IDRSLICE`, `H264E_NALU_ISLICE` and their counterparts for H.265. -/
structure NaluTypes where
  h264Idr : ℤ
  h264I : ℤ
  h265Idr : ℤ
  h265I : ℤ

/-- Whether a stream is a key frame: the union is compared as each of its types. -/
def NaluTypes.isKey (t : NaluTypes) (p : Packet) : Bool :=
  p.dataType = t.h264Idr || p.dataType = t.h264I || p.dataType = t.h265Idr || p.dataType = t.h265I

/-- A call of the graphics library. -/
inductive TdeCall
  | beginJob
  | quickResize
  | endJob
  | waitForDone
  | cancelJob
deriving DecidableEq, Repr

/-- A call of a thread, with what it returned. -/
inductive Call
  | getStream (r : Resource) (p : Option Packet)
  | releaseStream (r : Resource)
  | rtspVideo (id : ℤ) (f : Stream.Frame)
  | storageVideo (id : ℤ) (f : Stream.Frame) (key : Bool)
  | rtmpVideo (id : ℤ) (f : Stream.Frame) (key : Bool)
  | getFrame (r : Resource) (ok : Bool)
  | releaseFrame (r : Resource)
  | sendFrame (r : Resource)
  | getChnAttr (r : Resource)
  | setChnAttr (r : Resource)
  | startRecv (r : Resource)
  | stopRecv (r : Resource)
  | getResults (ok : Bool)
  | releaseResults
  | tde (c : TdeCall) (ok : Bool)
  /-- `rkipc_rockiva_write_nv12_frame_by_phy_addr` -/
  | rockiva
  /-- `rkipc_rknn_object_get` -/
  | objectGet (ok : Bool)
  | getCanvasInfo (ok : Bool)
  /-- `memset` of the canvas, and what is drawn on it -/
  | drawCanvas
  | updateCanvas
  /-- `fwrite` of the picture -/
  | saveFile (f : Stream.Frame)
deriving DecidableEq, Repr

/-- The channel or the region that a call is about. -/
def Call.resource : Call → Option Resource
  | .getStream r _ | .releaseStream r | .getFrame r _ | .releaseFrame r | .sendFrame r
  | .getChnAttr r | .setChnAttr r | .startRecv r | .stopRecv r => some r
  | .getResults _ | .releaseResults => some .ivs
  | .getCanvasInfo _ | .drawCanvas | .updateCanvas => some .nnRgn
  | _ => none

/-- A round of `rkipc_get_venc_0` and `rkipc_get_venc_1`. -/
def getVencRound (t : NaluTypes) (enableRtmp : Bool) (r : Resource) (id : ℤ) :
    Option Packet → List Call
  | none => [.getStream r none]
  | some p =>
    [.getStream r (some p), .rtspVideo id p.frame, .storageVideo id p.frame (t.isKey p)] ++
      (if enableRtmp then [.rtmpVideo id p.frame (t.isKey p)] else []) ++ [.releaseStream r]

/-- What the libraries answer in a round of `rkipc_get_vi_send_jpeg`. -/
structure ResizeAnswers where
  getFrame : Bool
  beginJob : Bool
  quickResize : Bool
  endJob : Bool
  waitForDone : Bool
deriving DecidableEq, Repr

/-- A round of `rkipc_get_vi_send_jpeg`; `asked` is `send_jpeg_cnt`. -/
def getViSendJpegRound (asked : Bool) (a : ResizeAnswers) : List Call :=
  if !asked then []
  else .getFrame .vi0 a.getFrame ::
    if !a.getFrame then []
    else .tde .beginJob a.beginJob ::
      if !a.beginJob then [.releaseFrame .vi0]
      else .tde .quickResize a.quickResize ::
        if !a.quickResize then [.tde .cancelJob true, .releaseFrame .vi0]
        else .tde .endJob a.endJob ::
          if !a.endJob then [.tde .cancelJob true, .releaseFrame .vi0]
          else [.tde .waitForDone a.waitForDone, .getChnAttr .jpegVenc, .setChnAttr .jpegVenc,
            .sendFrame .jpegVenc, .releaseFrame .vi0]

/-- A round of `rkipc_get_jpeg`; `asked` is `get_jpeg_cnt`, and `opened` whether there is a
file. -/
def getJpegRound (asked : Bool) (p : Option Packet) (opened : Bool) : List Call :=
  if !asked then []
  else .getStream .jpegVenc p ::
    (match p with
    | none => []
    | some p => (if opened then [.saveFile p.frame] else []) ++ [.releaseStream .jpegVenc]) ++
      [.stopRecv .jpegVenc]

/-- `rkipc_get_jpeg` before its loop: the first stream is dropped. -/
def dropFirst (p : Option Packet) : List Call :=
  .getStream .jpegVenc p :: if p.isSome then [.releaseStream .jpegVenc] else []

/-- A round of `rkipc_get_vi_2_send`. -/
def getVi2SendRound (ok : Bool) : List Call :=
  .getFrame .vi2 ok :: if ok then [.rockiva, .releaseFrame .vi2] else []

/-- A round of `rkipc_ivs_get_results`. -/
def ivsGetResultsRound (ok : Bool) : List Call :=
  .getResults ok :: if ok then [.releaseResults] else []

/-- A round of `rkipc_get_nn_update_osd`; `fits` is whether the canvas has the size of the video. -/
def getNnUpdateOsdRound (found ok fits : Bool) : List Call :=
  [.objectGet found, .getCanvasInfo ok] ++
    if !ok then []
    else if !fits then []
    else [.drawCanvas, .updateCanvas]

/-- A round of `rkipc_cycle_snapshot`: whether `rk_take_photo` takes one. -/
def cycleSnapshotRound (photo : Bool) : List Call := if photo then [.startRecv .jpegVenc] else []

/-- **The rounds of a thread.** -/
inductive Round (t : NaluTypes) (enableRtmp : Bool) : Worker → List Call → Prop
  | venc0 (p : Option Packet) : Round t enableRtmp .venc0 (getVencRound t enableRtmp .venc0 0 p)
  | venc1 (p : Option Packet) : Round t enableRtmp .venc1 (getVencRound t enableRtmp .venc1 1 p)
  | jpeg (asked : Bool) (p : Option Packet) (opened : Bool) :
      Round t enableRtmp .jpeg (getJpegRound asked p opened)
  | sendJpeg (asked : Bool) (a : ResizeAnswers) :
      Round t enableRtmp .sendJpeg (getViSendJpegRound asked a)
  | cycle (photo : Bool) : Round t enableRtmp .cycle (cycleSnapshotRound photo)
  | vi2 (ok : Bool) : Round t enableRtmp .vi2 (getVi2SendRound ok)
  | nnOsd (found ok fits : Bool) :
      Round t enableRtmp .nnOsd (getNnUpdateOsdRound found ok fits)
  | ivs (ok : Bool) : Round t enableRtmp .ivs (ivsGetResultsRound ok)

/-- What a thread calls before its loop, and whether it ends there. -/
inductive Start : Worker → List Call → Bool → Prop
  | jpeg (p : Option Packet) : Start .jpeg (dropFirst p) false
  /-- `rkipc_get_vi_send_jpeg` gets no memory. -/
  | sendJpeg : Start .sendJpeg [] true
  | other {w : Worker} : w ≠ .jpeg → Start w [] false

/-- `enable_rtmp`, `g_nn_osd_run_`, and the RTSP server. -/
structure Plant where
  enableRtmp : Bool
  nnRun : Bool
  rtsp : Stream.Rtsp

/-- **The program and its threads.** -/
def crew (t : NaluTypes) : Crew Board Plant Command Worker Call where
  exec := Board.exec
  feed
    | x, .setRtmp value => { x with enableRtmp := value }
    | x, .clearNnRun => { x with nnRun := false }
    | x, .rtsp r => { x with rtsp := r.exec x.rtsp }
    | x, _ => x
  enter
    -- the first statement of `rkipc_get_nn_update_osd`
    | x, .nnOsd => { x with nnRun := true }
    | x, _ => x
  make
    | x, _, .rtspVideo id f => { x with rtsp := (Stream.Request.writeVideoFrame id f).exec x.rtsp }
    | x, _, _ => x
  spawns
    | .spawn w => some w
    | _ => none
  joins
    | .join w => some w
    | _ => none
  finds
    | x, .findNnRun value => x.nnRun = value
    | _, _ => True
  goesOn
    | _, x, .nnOsd => x.nnRun
    | b, _, w => b.goesOn w
  Start _ := Start
  Round x w cs last := last = false ∧ Round t x.enableRtmp w cs

/-- What there is, the statements that are left, and where the threads stand. -/
abbrev Machine := Crew.State Board Plant Command Worker Call

/-- Before the first statement. -/
def initial (program : List Command) : Machine :=
  Crew.State.start Board.off ⟨false, false, .start⟩ program

/-! ## What the statements tell -/

/-- **What the statements tell of `g_nn_osd_run_`** is what it is; where they tell nothing, it is
whether the thread has begun that sets it. -/
structure RunTold (s : Machine) : Prop where
  told : ∀ value, s.control.nnRun = some value → s.data.nnRun = value ∧ s.place .nnOsd ≠ .born
  untold : s.control.nnRun = none → (s.data.nnRun = true ↔ s.place .nnOsd ≠ .born)

section

variable {t : NaluTypes} {s u : Machine}

/-- What has nothing to do with the variable or with the thread. -/
theorem RunTold.congr (h : RunTold s) (hcontrol : u.control.nnRun = s.control.nnRun)
    (hdata : u.data.nnRun = s.data.nnRun)
    (hplace : u.place .nnOsd = .born ↔ s.place .nnOsd = .born) :
    RunTold u := by
  refine ⟨fun value hvalue => ?_, fun hnone => ?_⟩
  · rw [hdata, Ne, hplace]
    exact h.told value (hcontrol ▸ hvalue)
  · rw [hdata, Ne, hplace]
    exact h.untold (hcontrol ▸ hnone)

/-- A statement in order that finds what it takes the variable to be. -/
theorem RunTold.execute (h : RunTold s) {c : Command} {rest : List Command}
    (hc : s.control.Allows c) (hfinds : (crew t).finds s.data c) :
    RunTold (s.execute (crew t) c rest) := by
  cases c with
  | findNnRun value =>
    refine ⟨fun value' hvalue => ?_, fun hnone => ?_⟩
    · obtain rfl := Option.some.inj hvalue
      refine ⟨hfinds, ?_⟩
      cases htold : s.control.nnRun with
      | some value' => exact (h.told value' htold).2
      | none =>
        -- the variable is found set, so the thread has begun
        have hvalue : value = true := by
          rw [Board.Allows, htold] at hc
          exact hc
        exact (h.untold htold).mp (hfinds.trans hvalue)
    · cases hnone
  | clearNnRun =>
    refine ⟨fun value hvalue => ?_, fun hnone => ?_⟩
    · obtain rfl := Option.some.inj hvalue
      exact ⟨rfl, (h.told true hc).2⟩
    · cases hnone
  | spawn w =>
    by_cases hw : w = .nnOsd
    · subst hw
      have hcleared := (h.told false (hc.2.2 rfl)).1
      refine ⟨fun value hvalue => ?_, fun _ => iff_of_false ?_ fun hne => hne rfl⟩
      · cases hvalue
      · exact Bool.eq_false_iff.mp hcleared
    · refine h.congr (if_neg hw) rfl ?_
      have hjoins : (crew t).joins (.spawn w) ≠ some .nnOsd := fun he => by cases he
      rw [Crew.place_execute_of_not (fun he => hw (Option.some.inj he)) hjoins]
  | join w =>
    by_cases hw : w = .nnOsd
    · subst hw
      have hplace : (s.execute (crew t) (.join .nnOsd) rest).place .nnOsd = .absent := rfl
      have htold : s.control.nnRun = some false := by
        simpa [Board.goesOn] using hc.2
      refine ⟨fun value hvalue => ⟨(h.told value hvalue).1, by simp [hplace]⟩, fun hnone => ?_⟩
      exact absurd (htold.symm.trans hnone) (by decide)
    · refine h.congr rfl rfl ?_
      have hspawns : (crew t).spawns (.join w) ≠ some .nnOsd := fun he => by cases he
      rw [Crew.place_execute_of_not hspawns fun he => hw (Option.some.inj he)]
  | _ => exact h.congr rfl rfl Iff.rfl

/-- Every step keeps what the statements tell. -/
theorem RunTold.step (h : RunTold s)
    (hallows : ∀ c rest, s.program = c :: rest → s.control.Allows c) {i : Option Worker}
    (hstep : (crew t).Step s i u) : RunTold u := by
  have hgo : ∀ w p, s.place w ≠ .born → p ≠ .born → RunTold (s.goTo w p) := by
    intro w p hs hp
    refine h.congr rfl rfl ?_
    rcases eq_or_ne .nnOsd w with rfl | hne
    · rw [Crew.place_goTo_self]
      exact iff_of_false hp hs
    · rw [Crew.place_goTo_of_ne hne]
  cases hstep with
  | main hprogram _ hfinds => exact h.execute (hallows _ _ hprogram) hfinds
  | @start w cs last hborn _ =>
    by_cases hw : w = .nnOsd
    · subst hw
      refine ⟨fun value hvalue => absurd hborn (h.told value hvalue).2, fun _ => ?_⟩
      rw [Crew.place_enter_self]
      exact iff_of_true rfl (by simp)
    · refine h.congr rfl ?_ ?_
      · cases w with
        | nnOsd => exact absurd rfl hw
        | _ => rfl
      · rw [Crew.place_enter_of_ne (Ne.symm hw)]
  | round hhead _ _ => exact hgo _ _ (by simp [hhead]) (by simp)
  | @call w c cs last hbusy =>
    refine h.congr rfl ?_ ?_
    · change ((crew t).make s.data w c).nnRun = s.data.nnRun
      cases c <;> rfl
    · rcases eq_or_ne .nnOsd w with rfl | hne
      · rw [Crew.place_make_self]
        exact iff_of_false (by simp) (by simp [hbusy])
      · rw [Crew.place_make_of_ne hne]
  | back hbusy => exact hgo _ _ (by simp [hbusy]) (by simp)
  | finish hbusy => exact hgo _ _ (by simp [hbusy]) (by simp)
  | leave hhead _ => exact hgo _ _ (by simp [hhead]) (by simp)

theorem lawful_crew (t : NaluTypes) : (crew t).Lawful Board.Allows Board.on RunTold where
  follows x c w := by
    cases c with
    | spawn v => simp [crew, Board.exec, Function.update_apply, eq_comm]
    | join v => simp [crew, Board.exec, Function.update_apply, eq_comm]
    | _ => rfl
  off_of_spawn {x c w} h hc := by
    cases c with
    | spawn v =>
      obtain rfl := Option.some.inj hc
      exact h.1
    | _ => cases hc
  on_of_join {x c w} h hc := by
    cases c with
    | join v =>
      obtain rfl := Option.some.inj hc
      exact h.1
    | _ => cases hc
  invariant h _ hallows hstep := h.step hallows hstep
  ends_of_join {s c rest w} h _ hallows hc := by
    cases c with
    | join v =>
      obtain rfl := Option.some.inj hc
      have hends : s.control.goesOn v = false := hallows.2
      cases v with
      | nnOsd =>
        have htold : s.control.nnRun = some false := by simpa [Board.goesOn] using hends
        exact (h.told false htold).1
      | _ => exact hends
    | _ => cases hc

theorem runTold_initial (program : List Command) : RunTold (initial program) :=
  ⟨fun _ hvalue => ⟨Option.some.inj hvalue, nofun⟩, nofun⟩

/-- A program in order. -/
theorem sound_initial {program : List Command}
    (horder : InOrder Board.Allows Board.exec .off program) :
    (crew t).Sound Board.Allows Board.on RunTold (initial program) :=
  Crew.sound_start horder (fun _ => rfl) (runTold_initial program)

/-- The thread that sets `g_nn_osd_run_` can begin before the variable is looked at. -/
theorem exists_run_finds (h : (crew t).Sound Board.Allows Board.on RunTold s) {c : Command}
    {rest : List Command} (hprogram : s.program = c :: rest) :
    ∃ js u, Run (crew t).Step s js u ∧ none ∉ js ∧ (crew t).finds u.data c := by
  cases c with
  | findNnRun value =>
    have hallows : value = s.control.nnRun.getD true := h.allowed hprogram
    cases htold : s.control.nnRun with
    | some value' =>
      rw [htold] at hallows
      exact ⟨[], s, .nil, by simp, (h.holds.told value' htold).1.trans hallows.symm⟩
    | none =>
      rw [htold] at hallows
      subst hallows
      by_cases hborn : s.place .nnOsd = .born
      · exact ⟨_, _, .single (.start (w := .nnOsd) hborn (.other nofun)), by simp, rfl⟩
      · exact ⟨[], s, .nil, by simp, (h.holds.untold htold).mpr hborn⟩
  | _ => exact ⟨[], s, .nil, by simp, trivial⟩

end

/-! ## What is taken -/

/-- What a thread has taken from a channel. -/
inductive Taken
  | stream (r : Resource) (p : Packet)
  | frame (r : Resource)
  | results

/-- The hands of a thread: what it has taken and not given back, and whether a job of the graphics
library has begun that has neither ended nor been cancelled. -/
structure Hand where
  item : Option Taken
  job : Bool

/-- Empty hands. -/
def Hand.empty : Hand := ⟨none, false⟩

/-- A call is made. -/
def Hand.exec (h : Hand) : Call → Hand
  | .getStream r (some p) => { h with item := some (.stream r p) }
  | .getFrame r true => { h with item := some (.frame r) }
  | .getResults true => { h with item := some .results }
  | .releaseStream _ | .releaseFrame _ | .releaseResults => { h with item := none }
  | .tde .beginJob ok => { h with job := ok }
  | .tde .endJob ok => { h with job := !ok }
  | .tde .cancelJob _ => { h with job := false }
  | _ => h

/-- **A call is in order**: nothing is taken by a full hand, what is passed on is what has been
taken, what is given back is what has been taken, and not while a job works on it. -/
def Hand.Allows (h : Hand) : Call → Prop
  | .getStream _ _ | .getFrame _ _ | .getResults _ => h.item = none
  | .releaseStream r => ∃ p, h.item = some (.stream r p)
  | .releaseFrame r => h.item = some (.frame r) ∧ h.job = false
  | .releaseResults => h.item = some .results
  | .rtspVideo _ f | .storageVideo _ f _ | .rtmpVideo _ f _ | .saveFile f =>
    ∃ r p, h.item = some (.stream r p) ∧ p.frame = f
  | .rockiva => ∃ r, h.item = some (.frame r)
  | .tde .beginJob _ => (∃ r, h.item = some (.frame r)) ∧ h.job = false
  | .tde .quickResize _ | .tde .endJob _ | .tde .cancelJob _ => h.job = true
  | .tde .waitForDone _ => h.job = false
  | _ => True

/-- **Calls that give back** what they take. -/
def GivesBack (cs : List Call) : Prop :=
  InOrder Hand.Allows Hand.exec .empty cs ∧ cs.foldl Hand.exec .empty = .empty

theorem givesBack_nil : GivesBack [] := ⟨inOrder_nil, rfl⟩

theorem GivesBack.append {cs cs' : List Call} (h : GivesBack cs) (h' : GivesBack cs') :
    GivesBack (cs ++ cs') := by
  refine ⟨inOrder_append_iff.mpr ⟨h.1, ?_⟩, ?_⟩
  · rw [h.2]
    exact h'.1
  · rw [List.foldl_append, h.2, h'.2]

theorem givesBack_getVencRound (t : NaluTypes) (enableRtmp : Bool) (r : Resource) (id : ℤ)
    (p : Option Packet) : GivesBack (getVencRound t enableRtmp r id p) := by
  cases p with
  | none => exact ⟨⟨rfl, inOrder_nil⟩, rfl⟩
  | some p =>
    cases enableRtmp with
    | false => exact ⟨⟨rfl, ⟨r, p, rfl, rfl⟩, ⟨r, p, rfl, rfl⟩, ⟨p, rfl⟩, trivial⟩, rfl⟩
    | true =>
      exact ⟨⟨rfl, ⟨r, p, rfl, rfl⟩, ⟨r, p, rfl, rfl⟩, ⟨r, p, rfl, rfl⟩, ⟨p, rfl⟩, trivial⟩, rfl⟩

theorem givesBack_getJpegRound (asked : Bool) (p : Option Packet) (opened : Bool) :
    GivesBack (getJpegRound asked p opened) := by
  cases asked with
  | false => exact givesBack_nil
  | true =>
    cases p with
    | none => exact ⟨⟨rfl, trivial, trivial⟩, rfl⟩
    | some p =>
      cases opened with
      | false => exact ⟨⟨rfl, ⟨p, rfl⟩, trivial, trivial⟩, rfl⟩
      | true => exact ⟨⟨rfl, ⟨_, p, rfl, rfl⟩, ⟨p, rfl⟩, trivial, trivial⟩, rfl⟩

theorem givesBack_getViSendJpegRound (asked : Bool) (a : ResizeAnswers) :
    GivesBack (getViSendJpegRound asked a) := by
  rcases a with ⟨_ | _, _ | _, _ | _, _ | _, waitForDone⟩ <;> cases asked <;>
    simp [GivesBack, getViSendJpegRound, inOrder_cons_iff, Hand.Allows, Hand.exec, Hand.empty]

theorem givesBack_dropFirst (p : Option Packet) : GivesBack (dropFirst p) := by
  cases p with
  | none => exact ⟨⟨rfl, trivial⟩, rfl⟩
  | some p => exact ⟨⟨rfl, ⟨p, rfl⟩, trivial⟩, rfl⟩

/-- **Every round gives back** what it takes. -/
theorem Round.givesBack {t : NaluTypes} {enableRtmp : Bool} {w : Worker} {cs : List Call}
    (h : Round t enableRtmp w cs) : GivesBack cs := by
  cases h with
  | venc0 p => exact givesBack_getVencRound ..
  | venc1 p => exact givesBack_getVencRound ..
  | jpeg asked p opened => exact givesBack_getJpegRound ..
  | sendJpeg asked a => exact givesBack_getViSendJpegRound ..
  | cycle photo =>
    cases photo with
    | false => exact givesBack_nil
    | true => exact ⟨⟨trivial, trivial⟩, rfl⟩
  | vi2 ok =>
    cases ok with
    | false => exact ⟨⟨rfl, trivial⟩, rfl⟩
    | true => exact ⟨⟨rfl, ⟨_, rfl⟩, ⟨rfl, rfl⟩, trivial⟩, rfl⟩
  | nnOsd found ok fits =>
    cases ok <;> cases fits <;>
      simp [GivesBack, getNnUpdateOsdRound, inOrder_cons_iff, Hand.Allows, Hand.exec]
  | ivs ok =>
    cases ok with
    | false => exact ⟨⟨rfl, trivial⟩, rfl⟩
    | true => exact ⟨⟨rfl, rfl, trivial⟩, rfl⟩

theorem Start.givesBack {w : Worker} {cs : List Call} {last : Bool} (h : Start w cs last) :
    GivesBack cs := by
  cases h with
  | jpeg p => exact givesBack_dropFirst p
  | sendJpeg => exact givesBack_nil
  | other _ => exact givesBack_nil

/-- One encoder, and the display of the NPU. -/
def oneDisplay : VideoAnswers :=
  { allEnabled with
    enableIvs := false
    enableJpeg := false
    enableVenc1 := false
    enableRtsp := false
    enableRtmp := false }

theorem complete_oneDisplay : Period.Complete ⟨oneDisplay, []⟩ ⟨0, false⟩ := by
  have h := complete_allEnabled [] ⟨0, false⟩
  exact ⟨h.dev, h.pipe0, nofun, nofun, fun _ => ⟨rfl, rfl⟩, nofun, h.nn, nofun, fun _ => rfl⟩

/-- The statements of a period. -/
def displayCommands : List Command := commands [⟨oneDisplay, []⟩] ⟨0, false⟩

theorem complete_display :
    InOrder (fun c p => Period.Complete p c) after ⟨0, false⟩ [⟨oneDisplay, []⟩] :=
  ⟨complete_oneDisplay, trivial⟩

theorem inOrder_displayCommands : InOrder Board.Allows Board.exec .off displayCommands :=
  (inOrder_commands rfl complete_display).1

/-- A thread is about to give back a stream, another one draws, and the program is about to join
this one. -/
theorem exists_run_displayCommands (t : NaluTypes) (p : Packet) : ∃ is s,
    Run (crew t).Step (initial displayCommands) is s ∧
      (s.place .venc0 = .busy [.releaseStream .venc0] false ∧
        s.place .nnOsd = .busy [.updateCanvas] false ∧
          ∃ rest, s.program = .join .nnOsd :: rest) := by
  -- `rk_video_init`
  iterate 10 refine Run.exists_cons (.main rfl nofun trivial) ?_
  -- a round of each of the threads, but for its last call
  refine Run.exists_cons (.start (w := .venc0) rfl (.other nofun)) ?_
  refine Run.exists_cons (.back (w := .venc0) rfl) ?_
  refine Run.exists_cons (.round (w := .venc0) rfl rfl ⟨rfl, .venc0 (some p)⟩) ?_
  iterate 3 refine Run.exists_cons (.call (w := .venc0) rfl) ?_
  refine Run.exists_cons (.start (w := .nnOsd) rfl (.other nofun)) ?_
  refine Run.exists_cons (.back (w := .nnOsd) rfl) ?_
  refine Run.exists_cons (.round (w := .nnOsd) rfl rfl ⟨rfl, .nnOsd true true true⟩) ?_
  iterate 3 refine Run.exists_cons (.call (w := .nnOsd) rfl) ?_
  -- `rk_video_deinit` up to the first thread
  refine Run.exists_cons (.main rfl nofun trivial) ?_
  refine Run.exists_cons (.main rfl nofun rfl) ?_
  refine Run.exists_cons (.main rfl nofun trivial) ?_
  exact ⟨[], _, .nil, rfl, rfl, _, rfl⟩

section

variable {t : NaluTypes} {s u : Machine} {w : Worker} {program : List Command}
  {is : List (Option Worker)}

/-- What holds of no call, and with the calls of one round more, holds of the calls of a thread. -/
theorem callsOf_induction {P : List Call → Prop}
    (horder : InOrder Board.Allows Board.exec .off program)
    (hrun : Run (crew t).Step (initial program) is s) (hnil : P [])
    (hstart : ∀ {cs cs' last}, P cs → Start w cs' last → P (cs ++ cs'))
    (hround : ∀ {enableRtmp cs cs'}, P cs → Round t enableRtmp w cs' → P (cs ++ cs')) :
    P (s.callsOf w) :=
  Crew.calls_induction (lawful_crew t) (sound_initial horder) hrun hnil hstart
    fun h hcs => hround h hcs.2

/-- **A thread gives back what it takes**, and passes on nothing else: its calls are in order, and
between two rounds its hands are empty. -/
theorem calls_held (horder : InOrder Board.Allows Board.exec .off program)
    (hrun : Run (crew t).Step (initial program) is s) (w : Worker) :
    InOrder Hand.Allows Hand.exec .empty (Mutex.ofThread w s.calls) ∧
      ((s.place w).pending = [] → (Mutex.ofThread w s.calls).foldl Hand.exec .empty = .empty) := by
  have hall : GivesBack (s.callsOf w) := callsOf_induction horder hrun givesBack_nil
    (fun h hcs => h.append hcs.givesBack) fun h hcs => h.append hcs.givesBack
  refine ⟨(inOrder_append_iff.mp hall.1).1, fun hplace => ?_⟩
  rw [← Crew.callsOf_eq hplace]
  exact hall.2

/-- In the middle of a round. -/
theorem calls_held_display : ∃ is s,
    Run (crew ⟨5, 1, 19, 1⟩).Step (initial displayCommands) is s ∧
      s.place .venc0 = .busy [.releaseStream .venc0] false ∧
        InOrder Hand.Allows Hand.exec .empty (Mutex.ofThread .venc0 s.calls) := by
  obtain ⟨is, s, hrun, hplace, -⟩ :=
    exists_run_displayCommands ⟨5, 1, 19, 1⟩ ⟨⟨[0, 0, 0, 1], 40000⟩, 5⟩
  exact ⟨is, s, hrun, hplace, (calls_held inOrder_displayCommands hrun .venc0).1⟩

/-! ## Channels -/

/-- Every thread has its channel. -/
def Board.Fed (b : Board) : Prop := ∀ w r, b.on w = true → w.needs = some r → b.alive r = true

/-- A statement that is in order leaves the threads their channels. -/
theorem Board.Fed.exec {b : Board} {c : Command} (h : b.Fed) (hc : b.Allows c) :
    (b.exec c).Fed := by
  intro w r hon hneeds
  cases c with
  | create r' =>
    simp only [Board.exec, Function.update_apply]
    split
    · rfl
    · exact h w r hon hneeds
  | destroy r' =>
    simp only [Board.exec, Function.update_apply]
    split
    · next he =>
      -- a channel that a thread works on is not destroyed
      have hoff := hc.2 w (mem_users_iff.mpr (he ▸ hneeds))
      exact absurd (hon.symm.trans hoff) (by decide)
    · exact h w r hon hneeds
  | spawn w' =>
    simp only [Board.exec, Function.update_apply] at hon ⊢
    split at hon
    · next he => exact hc.2.1 r (he ▸ hneeds)
    · exact h w r hon hneeds
  | join w' =>
    simp only [Board.exec, Function.update_apply] at hon ⊢
    split at hon
    · cases hon
    · exact h w r hon hneeds
  | _ => exact h w r hon hneeds

/-! ## What a thread calls -/

/-- A channel that a thread calls: its own, the captured pictures for the JPEG encoder, and this
encoder for the cyclic snapshot. -/
def Worker.Knows (w : Worker) (r : Resource) : Prop :=
  w.needs = some r ∨ w = .sendJpeg ∧ r = .vi0 ∨ w = .cycle ∧ r = .jpegVenc

theorem resource_getViSendJpegRound (asked : Bool) (a : ResizeAnswers) :
    ∀ c ∈ getViSendJpegRound asked a, ∀ r, c.resource = some r → r = .vi0 ∨ r = .jpegVenc := by
  rcases a with ⟨_ | _, _ | _, _ | _, _ | _, waitForDone⟩ <;> cases asked <;>
    simp [getViSendJpegRound, Call.resource]

theorem Round.knows {enableRtmp : Bool} {cs : List Call} (h : Round t enableRtmp w cs) :
    ∀ c ∈ cs, ∀ r, c.resource = some r → w.Knows r := by
  intro c hc r hr
  cases h with
  | venc0 p =>
    refine .inl ?_
    cases p <;> cases enableRtmp <;> grind [getVencRound, Worker.needs, Call.resource]
  | venc1 p =>
    refine .inl ?_
    cases p <;> cases enableRtmp <;> grind [getVencRound, Worker.needs, Call.resource]
  | jpeg asked p opened =>
    refine .inl ?_
    cases p <;> grind [getJpegRound, Worker.needs, Call.resource]
  | sendJpeg asked a =>
    rcases resource_getViSendJpegRound asked a c hc r hr with rfl | rfl
    · exact .inr (.inl ⟨rfl, rfl⟩)
    · exact .inl rfl
  | cycle photo =>
    refine .inr (.inr ⟨rfl, ?_⟩)
    grind [cycleSnapshotRound, Call.resource]
  | vi2 ok =>
    refine .inl ?_
    grind [getVi2SendRound, Worker.needs, Call.resource]
  | nnOsd found ok fits =>
    refine .inl ?_
    grind [getNnUpdateOsdRound, Worker.needs, Call.resource]
  | ivs ok =>
    refine .inl ?_
    grind [ivsGetResultsRound, Worker.needs, Call.resource]

theorem Start.knows {cs : List Call} {last : Bool} (h : Start w cs last) :
    ∀ c ∈ cs, ∀ r, c.resource = some r → w.Knows r := by
  intro c hc r hr
  cases h with
  | jpeg p =>
    refine .inl ?_
    cases p <;> grind [dropFirst, Worker.needs, Call.resource]
  | sendJpeg => cases hc
  | other _ => cases hc

/-- **No thread calls a channel that is gone**, except that pictures may still be captured for the
JPEG encoder, and that the cyclic snapshot may ask an encoder that is not there. -/
theorem channel_alive (horder : InOrder Board.Allows Board.exec .off program)
    (hrun : Run (crew t).Step (initial program) is s) {c : Call} {cs : List Call} {last : Bool}
    {r : Resource} (hplace : s.place w = .busy (c :: cs) last) (hr : c.resource = some r) :
    s.control.alive r = true ∨ w = .sendJpeg ∧ r = .vi0 ∨ w = .cycle ∧ r = .jpegVenc := by
  have hstart : (crew t).Sound Board.Allows Board.on RunTold (initial program) :=
    sound_initial horder
  have hfed : s.control.Fed := hstart.control_invariant (lawful_crew t) hrun
    (fun x c hx hc => hx.exec hc) fun _ _ hon => by cases hon
  have hknows : ∀ c ∈ s.callsOf w, ∀ r, c.resource = some r → w.Knows r :=
    callsOf_induction (P := fun cs => ∀ c ∈ cs, ∀ r, c.resource = some r → w.Knows r)
      horder hrun (fun c hc => by cases hc)
      (fun h hcs c hc => (List.mem_append.mp hc).elim (h c) (hcs.knows c))
      fun h hcs c hc => (List.mem_append.mp hc).elim (h c) (hcs.knows c)
  have hpending : c ∈ s.callsOf w := by
    rw [Crew.State.callsOf, hplace]
    exact List.mem_append_right _ List.mem_cons_self
  refine (hknows c hpending r hr).imp_left fun hneeds => ?_
  have hsound := hstart.run (lawful_crew t) hrun
  exact hfed w r (hsound.tells.on_of_place (by simp [hplace])) hneeds

/-- The region that is drawn on is there. -/
theorem channel_alive_display : ∃ is s,
    Run (crew ⟨5, 1, 19, 1⟩).Step (initial displayCommands) is s ∧
      (s.control.alive .nnRgn = true ∨ Worker.nnOsd = .sendJpeg ∧ Resource.nnRgn = .vi0 ∨
        Worker.nnOsd = .cycle ∧ Resource.nnRgn = .jpegVenc) := by
  obtain ⟨is, s, hrun, -, hplace, -⟩ :=
    exists_run_displayCommands ⟨5, 1, 19, 1⟩ ⟨⟨[0, 0, 0, 1], 40000⟩, 5⟩
  exact ⟨is, s, hrun, channel_alive inOrder_displayCommands hrun hplace rfl⟩

/-! ## The end of a thread -/

theorem Round.length_le {enableRtmp : Bool} {cs : List Call} (h : Round t enableRtmp w cs) :
    cs.length ≤ 9 := by
  cases h with
  | venc0 p => cases p <;> cases enableRtmp <;> simp [getVencRound]
  | venc1 p => cases p <;> cases enableRtmp <;> simp [getVencRound]
  | jpeg asked p opened =>
    cases p <;> cases asked <;> cases opened <;> simp [getJpegRound]
  | sendJpeg asked a =>
    rcases a with ⟨_ | _, _ | _, _ | _, _ | _, waitForDone⟩ <;> cases asked <;>
      simp [getViSendJpegRound]
  | cycle photo => cases photo <;> simp [cycleSnapshotRound]
  | vi2 ok => cases ok <;> simp [getVi2SendRound]
  | nnOsd found ok fits => cases ok <;> cases fits <;> simp [getNnUpdateOsdRound]
  | ivs ok => cases ok <;> simp [ivsGetResultsRound]

theorem Start.length_le {cs : List Call} {last : Bool} (h : Start w cs last) :
    cs.length ≤ 9 := by
  cases h with
  | jpeg p => cases p <;> simp [dropFirst]
  | sendJpeg => simp
  | other _ => simp

theorem bounded_crew (t : NaluTypes) : (crew t).Bounded 9 := by
  rintro d w cs last (h | ⟨-, h⟩)
  · exact Start.length_le h
  · exact h.length_le

theorem exists_start (w : Worker) : ∃ cs last, Start w cs last := by
  by_cases hw : w = .jpeg
  · exact ⟨_, _, hw ▸ Start.jpeg none⟩
  · exact ⟨_, _, .other hw⟩

/-- **`pthread_join` returns**: while the program waits for a thread, the thread makes twelve steps
at most, and unless it has come to its end it can make one more. -/
theorem join_returns (horder : InOrder Board.Allows Board.exec .off program)
    (hrun : Run (crew t).Step (initial program) is s) {rest : List Command}
    (hjoin : s.program = .join w :: rest) {js : List (Option Worker)}
    (hrun' : Run (crew t).Step s js u) (hwaits : none ∉ js) :
    js.count (some w) ≤ 12 ∧ (u.place w ≠ .ended → ∃ v, (crew t).Step u (some w) v) := by
  have hs := (sound_initial horder).run (lawful_crew t) hrun
  refine ⟨hs.count_le (bounded_crew t) (lawful_crew t)
    (Crew.left_le_of_run (bounded_crew t) hrun) hjoin rfl hrun' hwaits, fun hplace => ?_⟩
  -- the program still waits for the thread, so it is there, and its loop goes round no more
  have hu := hs.run (lawful_crew t) hrun'
  obtain ⟨hon, hends⟩ :=
    hu.ends (lawful_crew t) ((Crew.frame_run hrun' hwaits).2.trans hjoin) rfl
  exact Crew.exists_step (fun _ w => exists_start w) hends ((hu.tells w).mp hon) hplace

/-- The program waits for the thread that draws. -/
theorem join_returns_display : ∃ is s rest,
    Run (crew ⟨5, 1, 19, 1⟩).Step (initial displayCommands) is s ∧
      s.program = .join .nnOsd :: rest ∧ ∃ v, (crew ⟨5, 1, 19, 1⟩).Step s (some .nnOsd) v := by
  obtain ⟨is, s, hrun, -, hplace, rest, hprogram⟩ :=
    exists_run_displayCommands ⟨5, 1, 19, 1⟩ ⟨⟨[0, 0, 0, 1], 40000⟩, 5⟩
  exact ⟨is, s, rest, hrun, hprogram,
    (join_returns inOrder_displayCommands hrun hprogram .nil (by simp)).2 (by simp [hplace])⟩

/-- **Restarts come to their end**: wherever the threads stand, the rest of the program can be
executed, and nothing is left then. -/
theorem program_ends {ps : List Period} {c : Snapshot} (hflag : c.flag = false)
    (h : InOrder (fun c p => p.Complete c) after c ps)
    (hrun : Run (crew t).Step (initial (commands ps c)) is s) :
    ∃ js u, Run (crew t).Step s js u ∧ u.program = [] ∧ u.control = .off ∧
      ∀ w, u.place w = .absent := by
  obtain ⟨horder, hoff⟩ := inOrder_commands hflag h
  have hs := (sound_initial horder).run (lawful_crew t) hrun
  have hjoins : ∀ {d c w}, (crew t).joins c = some w → (crew t).finds d c := by
    intro d c w hc
    cases c with
    | findNnRun value => cases hc
    | _ => trivial
  obtain ⟨js, u, hrun', hend, hcontrol⟩ :=
    hs.exists_run (bounded_crew t) (fun _ w => exists_start w) (lawful_crew t)
      (fun h hprogram => exists_run_finds h hprogram) hjoins
  have hcontrol' : u.control = .off := by
    rw [hcontrol, Crew.foldl_control hrun]
    exact hoff
  refine ⟨js, u, hrun', hend, hcontrol', fun w => ?_⟩
  exact (hs.run (lawful_crew t) hrun').tells.absent_of_off (by rw [hcontrol']; rfl)

/-- From where two threads are in the middle of a round. -/
theorem program_ends_display : ∃ is s js u,
    Run (crew ⟨5, 1, 19, 1⟩).Step (initial displayCommands) is s ∧
      s.place .nnOsd = .busy [.updateCanvas] false ∧ Run (crew ⟨5, 1, 19, 1⟩).Step s js u ∧
        u.program = [] ∧ u.control = .off ∧ ∀ w, u.place w = .absent := by
  obtain ⟨is, s, hrun, -, hplace, -⟩ :=
    exists_run_displayCommands ⟨5, 1, 19, 1⟩ ⟨⟨[0, 0, 0, 1], 40000⟩, 5⟩
  obtain ⟨js, u, h⟩ := program_ends rfl complete_display hrun
  exact ⟨is, s, js, u, hrun, hplace, h⟩

end

end RkIpc.Video
