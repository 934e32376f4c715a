import Mathlib.Data.Fintype.Pi
import RkIpc.Stream.Rtsp
import RkIpc.Transition.Orderly

/-!
# The video pipeline

`rk_video_init` creates the channels of the capture, of the encoders and of the motion detection,
the region that the NPU draws on, and the threads that work on them; `rk_video_deinit` joins the
threads and destroys the channels. In between clients switch the cyclic snapshot on and off. The
functions go on when a call of the library fails, some of them in the middle, and `rk_video_deinit`
does not ask how far they came. Only the thread that draws is joined where a variable is found set,
which it sets itself in its first statement.

## Main definitions

* `Resource`, `Worker`, `Command`: what is created and destroyed, the threads, and the statements
* `rkVideoInit`, `rkVideoDeinit`, `rkVideoSetEnableCycleSnapshot`: the functions
* `Board`, `Board.Allows`: what there is, and where a statement is in order
* `Period`, `commands`: the video from one initialisation to the next
* `Period.Complete`: everything that is enabled comes about

## Main results

* `returns_iff`, `periods_return_iff`: when periods are in order and leave nothing
-/

namespace RkIpc.Video

open Text Transition

/-! ## Statements -/

/-- What the functions create and destroy: the capture device, its channels, the channels of the
encoders and of the motion detection, the region `DRAW_NN_OSD_ID`, and the muxers for RTMP. -/
inductive Resource
  | dev
  | vi0
  | vi1
  | vi2
  | venc0
  | venc1
  | jpegVenc
  | ivs
  | nnRgn
  | rtmp0
  | rtmp1
deriving DecidableEq, Repr

instance : Fintype Resource where
  elems := {.dev, .vi0, .vi1, .vi2, .venc0, .venc1, .jpegVenc, .ivs, .nnRgn, .rtmp0, .rtmp1}
  complete r := by cases r <;> decide

/-- The threads: `rkipc_get_venc_0`, `rkipc_get_venc_1`, `rkipc_get_jpeg`,
`rkipc_get_vi_send_jpeg`, `rkipc_cycle_snapshot`, `rkipc_get_vi_2_send`,
`rkipc_get_nn_update_osd` and `rkipc_ivs_get_results`. -/
inductive Worker
  | venc0
  | venc1
  | jpeg
  | sendJpeg
  | cycle
  | vi2
  | nnOsd
  | ivs
deriving DecidableEq, Repr

instance : Fintype Worker where
  elems := {.venc0, .venc1, .jpeg, .sendJpeg, .cycle, .vi2, .nnOsd, .ivs}
  complete w := by cases w <;> decide

/-- A statement that takes effect. -/
inductive Command
  /-- `g_video_run_ = value;` -/
  | setRun (value : Bool)
  /-- `cycle_snapshot_flag = value;` -/
  | setCycle (value : Bool)
  /-- `if (g_nn_osd_run_)` finds `value`. -/
  | findNnRun (value : Bool)
  /-- `g_nn_osd_run_ = 0;` -/
  | clearNnRun
  | create (r : Resource)
  | destroy (r : Resource)
  /-- `pthread_create` -/
  | spawn (w : Worker)
  /-- `pthread_join` -/
  | join (w : Worker)
  /-- `rkipc_rtsp_init` or `rkipc_rtsp_deinit` -/
  | rtsp (r : Stream.Request)
  /-- `enable_rtmp = value;` -/
  | setRtmp (value : Bool)

/-- What the library answers in `rkipc_vi_dev_init`; a success is `true`. -/
structure DevAnswers where
  notConfig : Bool
  setDevAttr : Bool
  isEnable : Bool
  enableDev : Bool
deriving DecidableEq, Repr

/-- What the library answers in the initialisation of a pipe, and whether the parameters say what
it encodes. -/
structure PipeAnswers where
  setChnAttr : Bool
  enableChn : Bool
  params : Bool
  createChn : Bool
deriving DecidableEq, Repr

/-- The parameters of `rkipc_ivs_init`, and what the library answers. -/
structure IvsAnswers where
  smear : ℤ
  weightp : ℤ
  md : ℤ
  od : ℤ
  createChn : Bool
  getMdAttr : Bool
  setMdAttr : Bool
deriving DecidableEq, Repr

/-- What the library answers in `rkipc_osd_draw_nn_init`, and whether `rkipc_osd_draw_nn_deinit`
finds `g_nn_osd_run_` set. -/
structure RegionAnswers where
  create : Bool
  setAttr : Bool
  attachToChn : Bool
  begun : Bool
deriving DecidableEq, Repr

/-- What `rk_video_init` reads, what the library answers, and what `rk_video_deinit` finds. -/
structure VideoAnswers where
  enableIvs : Bool
  enableJpeg : Bool
  enableVenc0 : Bool
  enableVenc1 : Bool
  enableRtsp : Bool
  enableRtmp : Bool
  enableNpu : Bool
  dev : DevAnswers
  setup : Fin 3 → Stream.Setup
  demo : Bool
  session : Fin 3 → Bool
  muxer0 : Bool
  muxer1 : Bool
  pipe0 : PipeAnswers
  pipe1 : PipeAnswers
  createJpeg : Bool
  setChnAttr2 : Bool
  enableChn2 : Bool
  ivs : IvsAnswers
  region : RegionAnswers

/-- `rkipc_vi_dev_init`. -/
def rkipcViDevInit (a : DevAnswers) : List Command :=
  if a.notConfig && !a.setDevAttr then []
  else if a.isEnable then []
  else if a.enableDev then [.create .dev] else []

/-- `rkipc_vi_dev_deinit`. -/
def rkipcViDevDeinit : List Command := [.destroy .dev]

/-- `rkipc_pipe_0_init`. -/
def rkipcPipe0Init (a : PipeAnswers) : List Command :=
  if !a.setChnAttr then []
  else if !a.enableChn then []
  else .create .vi0 ::
    if !a.params then []
    else if !a.createChn then []
    else [.create .venc0, .spawn .venc0]

/-- `rkipc_pipe_0_deinit`. -/
def rkipcPipe0Deinit : List Command := [.destroy .venc0, .destroy .vi0]

/-- `rkipc_pipe_1_init`: the channel is enabled even if its attributes are not set. -/
def rkipcPipe1Init (a : PipeAnswers) : List Command :=
  (if a.enableChn then [.create .vi1] else []) ++
    if !a.setChnAttr || !a.enableChn then []
    else if !a.params then []
    else if !a.createChn then []
    else [.create .venc1, .spawn .venc1]

/-- `rkipc_pipe_1_deinit`. -/
def rkipcPipe1Deinit : List Command := [.destroy .venc1, .destroy .vi1]

/-- `rkipc_ivs_init`. -/
def rkipcIvsInit (a : IvsAnswers) : List Command :=
  if a.smear = 0 ∧ a.weightp = 0 ∧ a.md = 0 ∧ a.od = 0 then []
  else if !a.createChn then []
  else .create .ivs ::
    if !a.getMdAttr then []
    else if !a.setMdAttr then []
    else if a.md = 1 ∨ a.od = 1 then [.spawn .ivs] else []

/-- `rkipc_ivs_deinit`. -/
def rkipcIvsDeinit : List Command := [.join .ivs, .destroy .ivs]

/-- `rkipc_osd_draw_nn_init`: a region that is not attached stays behind. -/
def rkipcOsdDrawNnInit (a : RegionAnswers) : List Command :=
  -- `RK_MPI_RGN_Destroy` of the region that has not been created
  if !a.create then [.destroy .nnRgn]
  else .create .nnRgn ::
    if !a.setAttr then []
    else if !a.attachToChn then []
    else [.spawn .nnOsd]

/-- `rkipc_osd_draw_nn_deinit`. -/
def rkipcOsdDrawNnDeinit (begun : Bool) : List Command :=
  .findNnRun begun :: (if begun then [.clearNnRun, .join .nnOsd] else []) ++ [.destroy .nnRgn]

/-- `rkipc_pipe_2_init`. -/
def rkipcPipe2Init (a : VideoAnswers) : List Command :=
  if !a.setChnAttr2 then []
  else if !a.enableChn2 then []
  else .create .vi2 :: (if a.enableIvs then rkipcIvsInit a.ivs else []) ++
    if a.enableNpu then .spawn .vi2 :: rkipcOsdDrawNnInit a.region else []

/-- `rkipc_pipe_2_deinit`. -/
def rkipcPipe2Deinit (a : VideoAnswers) : List Command :=
  (if a.enableNpu then rkipcOsdDrawNnDeinit a.region.begun ++ [.join .vi2] else []) ++
    (if a.enableIvs then rkipcIvsDeinit else []) ++ [.destroy .vi2]

/-- `rkipc_rtmp_init`: what `rkmuxer_init` returns is not looked at. -/
def rkipcRtmpInit (muxer0 muxer1 : Bool) : List Command :=
  (if muxer0 then [.create .rtmp0] else []) ++ if muxer1 then [.create .rtmp1] else []

/-- `rkipc_rtmp_deinit`. -/
def rkipcRtmpDeinit : List Command := [.destroy .rtmp0, .destroy .rtmp1]

/-- `video.jpeg:enable_cycle_snapshot` and `cycle_snapshot_flag`. -/
structure Snapshot where
  enable : ℤ
  flag : Bool
deriving DecidableEq, Repr

/-- `rkipc_pipe_jpeg_init`. -/
def rkipcPipeJpegInit (createChn : Bool) (c : Snapshot) : List Command × Snapshot :=
  if !createChn then ([], c)
  else if c.enable ≠ 0 then
    ([.create .jpegVenc, .spawn .jpeg, .spawn .sendJpeg, .setCycle true, .spawn .cycle],
      { c with flag := true })
  else ([.create .jpegVenc, .spawn .jpeg, .spawn .sendJpeg], c)

/-- `rkipc_pipe_jpeg_deinit`. -/
def rkipcPipeJpegDeinit (c : Snapshot) : List Command × Snapshot :=
  if c.enable ≠ 0 then
    ([.setCycle false, .join .cycle, .join .sendJpeg, .join .jpeg, .destroy .jpegVenc],
      { c with flag := false })
  else ([.join .sendJpeg, .join .jpeg, .destroy .jpegVenc], c)

/-- `rk_video_set_enable_cycle_snapshot`. -/
def rkVideoSetEnableCycleSnapshot (value : ℤ) (c : Snapshot) : List Command × Snapshot :=
  if value ≠ 0 ∧ c.flag = false then ([.setCycle true, .spawn .cycle], ⟨value, true⟩)
  else if value = 0 ∧ c.flag = true then ([.setCycle false, .join .cycle], ⟨value, false⟩)
  else ([], { c with enable := value })

/-- `RTSP_URL_0` and `RTSP_URL_1`. -/
def rtspUrl (k : Fin 3) : Option Str :=
  if k.val = 0 then some (lit "/live/0") else if k.val = 1 then some (lit "/live/1") else none

/-- `rk_video_init`. -/
def rkVideoInit (a : VideoAnswers) (c : Snapshot) : List Command × Snapshot :=
  let jpeg := if a.enableJpeg then rkipcPipeJpegInit a.createJpeg c else ([], c)
  ([.setRtmp a.enableRtmp] ++ [.setRun true] ++ rkipcViDevInit a.dev ++
    (if a.enableRtsp then [.rtsp (.init rtspUrl a.setup a.demo a.session)] else []) ++
    (if a.enableRtmp then rkipcRtmpInit a.muxer0 a.muxer1 else []) ++
    (if a.enableVenc0 then rkipcPipe0Init a.pipe0 else []) ++
    (if a.enableVenc1 then rkipcPipe1Init a.pipe1 else []) ++ jpeg.1 ++
    (if a.enableNpu || a.enableIvs then rkipcPipe2Init a else []), jpeg.2)

/-- `rk_video_deinit`. -/
def rkVideoDeinit (a : VideoAnswers) (c : Snapshot) : List Command × Snapshot :=
  let jpeg := if a.enableJpeg then rkipcPipeJpegDeinit c else ([], c)
  ([.setRun false] ++ (if a.enableNpu || a.enableIvs then rkipcPipe2Deinit a else []) ++
    (if a.enableVenc0 then .join .venc0 :: rkipcPipe0Deinit else []) ++
    (if a.enableVenc1 then .join .venc1 :: rkipcPipe1Deinit else []) ++ jpeg.1 ++
    rkipcViDevDeinit ++
    (if a.enableRtmp then rkipcRtmpDeinit else []) ++
    (if a.enableRtsp then [.rtsp .deinit] else []), jpeg.2)

/-- Switches of the cyclic snapshot, one after the other. -/
def setSnapshots : List ℤ → Snapshot → List Command × Snapshot
  | [], c => ([], c)
  | value :: values, c =>
    let first := rkVideoSetEnableCycleSnapshot value c
    let rest := setSnapshots values first.2
    (first.1 ++ rest.1, rest.2)

/-- **The video from one initialisation to the next**: what the functions find, and what clients
set `video.jpeg:enable_cycle_snapshot` to before `rk_video_deinit`. -/
structure Period where
  answers : VideoAnswers
  snapshots : List ℤ

/-- The statements of a period. -/
def Period.commands (p : Period) (c : Snapshot) : List Command × Snapshot :=
  let init := rkVideoInit p.answers c
  let set := setSnapshots p.snapshots init.2
  let deinit := rkVideoDeinit p.answers set.2
  (init.1 ++ set.1 ++ deinit.1, deinit.2)

/-- **The statements of periods**, as `rk_video_restart` strings them together. -/
def commands : List Period → Snapshot → List Command
  | [], _ => []
  | p :: ps, c => (p.commands c).1 ++ commands ps (p.commands c).2

/-! ## Order -/

/-- The channel or the region that a thread works on. -/
def Worker.needs : Worker → Option Resource
  | .venc0 => some .venc0
  | .venc1 => some .venc1
  | .jpeg | .sendJpeg => some .jpegVenc
  | .cycle => none
  | .vi2 => some .vi2
  | .nnOsd => some .nnRgn
  | .ivs => some .ivs

/-- The threads that work on a channel. -/
def Resource.users : Resource → List Worker
  | .venc0 => [.venc0]
  | .venc1 => [.venc1]
  | .jpegVenc => [.jpeg, .sendJpeg]
  | .vi2 => [.vi2]
  | .nnRgn => [.nnOsd]
  | .ivs => [.ivs]
  | _ => []

theorem mem_users_iff {r : Resource} {w : Worker} : w ∈ r.users ↔ w.needs = some r := by
  cases r <;> cases w <;> decide

/-- **What there is**: `g_video_run_`, `cycle_snapshot_flag`, what the statements tell of
`g_nn_osd_run_`, which is nothing after the thread has been created that sets it, what has been
created and not been destroyed, and the threads that have been created and not been joined. -/
structure Board where
  run : Bool
  cycle : Bool
  nnRun : Option Bool
  alive : Resource → Bool
  on : Worker → Bool

theorem Board.eq_iff {b b' : Board} : b = b' ↔
    b.run = b'.run ∧ b.cycle = b'.cycle ∧ b.nnRun = b'.nnRun ∧ (∀ r, b.alive r = b'.alive r) ∧
      ∀ w, b.on w = b'.on w := by
  constructor
  · rintro rfl
    exact ⟨rfl, rfl, rfl, fun _ => rfl, fun _ => rfl⟩
  · rintro ⟨hrun, hcycle, hnn, halive, hon⟩
    obtain ⟨run, cycle, nnRun, alive, on⟩ := b
    obtain ⟨run', cycle', nnRun', alive', on'⟩ := b'
    obtain rfl : run = run' := hrun
    obtain rfl : cycle = cycle' := hcycle
    obtain rfl : nnRun = nnRun' := hnn
    obtain rfl : alive = alive' := funext halive
    obtain rfl : on = on' := funext hon
    rfl

instance : DecidableEq Board := fun _ _ => decidable_of_iff _ Board.eq_iff.symm

/-- Nothing. -/
def Board.off : Board := ⟨false, false, some false, fun _ => false, fun _ => false⟩

/-- A statement is executed. -/
def Board.exec (b : Board) : Command → Board
  | .setRun value => { b with run := value }
  | .setCycle value => { b with cycle := value }
  | .findNnRun value => { b with nnRun := some value }
  | .clearNnRun => { b with nnRun := some false }
  | .create r => { b with alive := Function.update b.alive r true }
  | .destroy r => { b with alive := Function.update b.alive r false }
  | .spawn w =>
    { b with on := Function.update b.on w true, nnRun := if w = .nnOsd then none else b.nnRun }
  | .join w => { b with on := Function.update b.on w false }
  | .rtsp _ | .setRtmp _ => b

/-- Whether the loop of a thread may go on, as far as the statements tell. -/
def Board.goesOn (b : Board) : Worker → Bool
  | .cycle => b.run && b.cycle
  | .nnOsd => b.nnRun ≠ some false
  | _ => b.run

/-- **A statement is in order**: nothing is created twice, nothing is destroyed that is not there or
that a thread works on, no thread is created over another one or without its channel, and the
threads that are joined are there and come to an end. The thread that sets `g_nn_osd_run_` is
created where the variable is cleared, has set it where it is looked at, and it is cleared where it
has been found set. -/
def Board.Allows (b : Board) : Command → Prop
  | .create r => b.alive r = false
  | .destroy r => b.alive r = true ∧ ∀ w ∈ r.users, b.on w = false
  | .spawn w => b.on w = false ∧ (∀ r ∈ w.needs, b.alive r = true) ∧
      (w = .nnOsd → b.nnRun = some false)
  | .join w => b.on w = true ∧ b.goesOn w = false
  | .findNnRun value => value = b.nnRun.getD true
  | .clearNnRun => b.nnRun = some true
  | _ => True

instance (b : Board) : (c : Command) → Decidable (b.Allows c)
  | .create _ => inferInstanceAs (Decidable (_ = _))
  | .destroy _ => inferInstanceAs (Decidable (_ ∧ _))
  | .spawn _ => inferInstanceAs (Decidable (_ ∧ _))
  | .join _ => inferInstanceAs (Decidable (_ ∧ _))
  | .findNnRun _ => inferInstanceAs (Decidable (_ = _))
  | .clearNnRun => inferInstanceAs (Decidable (_ = _))
  | .setRun _ | .setCycle _ | .rtsp _ | .setRtmp _ => inferInstanceAs (Decidable True)

/-- **A period returns**: it is in order where there is nothing, and leaves nothing. -/
def Period.Returns (p : Period) (c : Snapshot) : Prop :=
  InOrder Board.Allows Board.exec .off (p.commands c).1 ∧
    (p.commands c).1.foldl Board.exec .off = .off

/-- The channel of a pipe and its thread come about. -/
def PipeAnswers.Complete (a : PipeAnswers) : Prop :=
  a.setChnAttr = true ∧ a.enableChn = true ∧ a.params = true ∧ a.createChn = true

instance (a : PipeAnswers) : Decidable a.Complete := inferInstanceAs (Decidable (_ ∧ _))

/-- The device is enabled. -/
def DevAnswers.Complete (a : DevAnswers) : Prop :=
  (a.notConfig = true → a.setDevAttr = true) ∧ a.isEnable = false ∧ a.enableDev = true

instance (a : DevAnswers) : Decidable a.Complete := inferInstanceAs (Decidable (_ ∧ _))

/-- The motion detection is created with its thread, which takes `md` or `od` to be 1. -/
def IvsAnswers.Complete (a : IvsAnswers) : Prop :=
  a.createChn = true ∧ a.getMdAttr = true ∧ a.setMdAttr = true ∧ (a.md = 1 ∨ a.od = 1)

/-- The region is created, and the thread that draws on it has begun when
`rkipc_osd_draw_nn_deinit` looks. Where the region is not attached there is no thread. -/
def RegionAnswers.Complete (a : RegionAnswers) : Prop :=
  a.create = true ∧ a.begun = (a.setAttr && a.attachToChn)

instance (a : RegionAnswers) : Decidable a.Complete := inferInstanceAs (Decidable (_ ∧ _))

/-- **Everything that is enabled comes about**, and without the JPEG encoder the cyclic snapshot is
switched off in the end. -/
structure Period.Complete (p : Period) (c : Snapshot) : Prop where
  dev : p.answers.dev.Complete
  pipe0 : p.answers.enableVenc0 = true → p.answers.pipe0.Complete
  pipe1 : p.answers.enableVenc1 = true → p.answers.pipe1.Complete
  jpeg : p.answers.enableJpeg = true → p.answers.createJpeg = true
  pipe2 : p.answers.enableNpu = true ∨ p.answers.enableIvs = true →
    p.answers.setChnAttr2 = true ∧ p.answers.enableChn2 = true
  ivs : p.answers.enableIvs = true → p.answers.ivs.Complete
  nn : p.answers.enableNpu = true → p.answers.region.Complete
  rtmp : p.answers.enableRtmp = true → p.answers.muxer0 = true ∧ p.answers.muxer1 = true
  snapshot : p.answers.enableJpeg = false → (setSnapshots p.snapshots c).2.flag = false

/-! ## Parts -/

/-- The parts of the pipeline. -/
inductive Part
  | dev
  | pipe0
  | pipe1
  | jpeg
  | pipe2
  | nn
  | rtmp
deriving DecidableEq, Repr

/-- The part of a resource. -/
def Resource.part : Resource → Part
  | .dev => .dev
  | .vi0 | .venc0 => .pipe0
  | .vi1 | .venc1 => .pipe1
  | .jpegVenc => .jpeg
  | .vi2 | .ivs => .pipe2
  | .nnRgn => .nn
  | .rtmp0 | .rtmp1 => .rtmp

/-- The part of a thread. -/
def Worker.part : Worker → Part
  | .venc0 => .pipe0
  | .venc1 => .pipe1
  | .jpeg | .sendJpeg | .cycle => .jpeg
  | .vi2 | .ivs => .pipe2
  | .nnOsd => .nn

/-- The part of a statement. -/
def Command.part : Command → Option Part
  | .create r | .destroy r => some r.part
  | .spawn w | .join w => some w.part
  | .setCycle _ => some .jpeg
  | .findNnRun _ | .clearNnRun => some .nn
  | .setRun _ | .rtsp _ | .setRtmp _ => none

/-- A statement that concerns all parts. -/
def Command.isSetRun : Command → Bool
  | .setRun _ => true
  | _ => false

/-- A statement that concerns a part. -/
def Command.concerns (q : Part) (c : Command) : Bool := c.part = some q || c.isSetRun

/-- What there is of a part. -/
def Board.part (q : Part) (b : Board) : Board where
  run := b.run
  cycle := if q = .jpeg then b.cycle else false
  nnRun := if q = .nn then b.nnRun else none
  alive r := if r.part = q then b.alive r else false
  on w := if w.part = q then b.on w else false

section Part

variable {b b' : Board} {q : Part} {c : Command}

theorem Board.part_eq_iff : b.part q = b'.part q ↔ b.run = b'.run ∧
    (q = .jpeg → b.cycle = b'.cycle) ∧ (q = .nn → b.nnRun = b'.nnRun) ∧
      (∀ r, r.part = q → b.alive r = b'.alive r) ∧ ∀ w, w.part = q → b.on w = b'.on w := by
  constructor
  · intro h
    have hrun : (b.part q).run = (b'.part q).run := by rw [h]
    refine ⟨hrun, fun hq => ?_, fun hq => ?_, fun r hr => ?_, fun w hw => ?_⟩
    · simpa [Board.part, hq] using congrArg Board.cycle h
    · simpa [Board.part, hq] using congrArg Board.nnRun h
    · simpa [Board.part, hr] using congrFun (congrArg Board.alive h) r
    · simpa [Board.part, hw] using congrFun (congrArg Board.on h) w
  · rintro ⟨hrun, hcycle, hnn, halive, hon⟩
    have hc : (if q = .jpeg then b.cycle else false) = if q = .jpeg then b'.cycle else false := by
      split
      · exact hcycle ‹_›
      · rfl
    have hn : (if q = .nn then b.nnRun else none) = if q = .nn then b'.nnRun else none := by
      split
      · exact hnn ‹_›
      · rfl
    have ha : (fun r : Resource => if r.part = q then b.alive r else false) =
        fun r => if r.part = q then b'.alive r else false := by
      funext r
      split
      · exact halive r ‹_›
      · rfl
    have ho : (fun w : Worker => if w.part = q then b.on w else false) =
        fun w => if w.part = q then b'.on w else false := by
      funext w
      split
      · exact hon w ‹_›
      · rfl
    rw [Board.part, Board.part, hrun, hc, hn, ha, ho]

/-- All parts make the whole. -/
theorem Board.eq_of_parts (h : ∀ q, b.part q = b'.part q) : b = b' := by
  have hparts := fun q => Board.part_eq_iff.mp (h q)
  exact Board.eq_iff.mpr ⟨(hparts .jpeg).1, (hparts .jpeg).2.1 rfl, (hparts .nn).2.2.1 rfl,
    fun r => (hparts r.part).2.2.2.1 r rfl, fun w => (hparts w.part).2.2.2.2 w rfl⟩

/-- A statement that does not concern a part leaves it. -/
theorem Board.part_exec_of_not (hc : c.concerns q = false) : (b.exec c).part q = b.part q := by
  rw [Command.concerns, Bool.or_eq_false_iff, decide_eq_false_iff_not] at hc
  obtain ⟨hpart, hrun⟩ := hc
  refine Board.part_eq_iff.mpr ?_
  cases c with
  | setRun value => cases hrun
  | setCycle value =>
    exact ⟨rfl, fun hq => absurd (hq ▸ rfl) hpart, fun _ => rfl, fun _ _ => rfl, fun _ _ => rfl⟩
  | findNnRun value =>
    exact ⟨rfl, fun _ => rfl, fun hq => absurd (hq ▸ rfl) hpart, fun _ _ => rfl, fun _ _ => rfl⟩
  | clearNnRun =>
    exact ⟨rfl, fun _ => rfl, fun hq => absurd (hq ▸ rfl) hpart, fun _ _ => rfl, fun _ _ => rfl⟩
  | create r =>
    refine ⟨rfl, fun _ => rfl, fun _ => rfl, fun r' hr' => Function.update_of_ne ?_ ..,
      fun _ _ => rfl⟩
    rintro rfl
    exact hpart (congrArg some hr')
  | destroy r =>
    refine ⟨rfl, fun _ => rfl, fun _ => rfl, fun r' hr' => Function.update_of_ne ?_ ..,
      fun _ _ => rfl⟩
    rintro rfl
    exact hpart (congrArg some hr')
  | spawn w =>
    refine ⟨rfl, fun _ => rfl, fun hq => if_neg ?_, fun _ _ => rfl,
      fun w' hw' => Function.update_of_ne ?_ ..⟩
    · rintro rfl
      exact hpart (congrArg some hq.symm)
    · rintro rfl
      exact hpart (congrArg some hw')
  | join w =>
    refine ⟨rfl, fun _ => rfl, fun _ => rfl, fun _ _ => rfl,
      fun w' hw' => Function.update_of_ne ?_ ..⟩
    rintro rfl
    exact hpart (congrArg some hw')
  | rtsp r => exact ⟨rfl, fun _ => rfl, fun _ => rfl, fun _ _ => rfl, fun _ _ => rfl⟩
  | setRtmp value => exact ⟨rfl, fun _ => rfl, fun _ => rfl, fun _ _ => rfl, fun _ _ => rfl⟩

/-- What a statement makes of a part depends on the part. -/
theorem Board.part_exec (h : b.part q = b'.part q) : (b.exec c).part q = (b'.exec c).part q := by
  obtain ⟨hrun, hcycle, hnn, halive, hon⟩ := Board.part_eq_iff.mp h
  refine Board.part_eq_iff.mpr ?_
  cases c with
  | setRun value => exact ⟨rfl, hcycle, hnn, halive, hon⟩
  | setCycle value => exact ⟨hrun, fun _ => rfl, hnn, halive, hon⟩
  | findNnRun value => exact ⟨hrun, hcycle, fun _ => rfl, halive, hon⟩
  | clearNnRun => exact ⟨hrun, hcycle, fun _ => rfl, halive, hon⟩
  | create r =>
    refine ⟨hrun, hcycle, hnn, fun r' hr' => ?_, hon⟩
    simp only [Board.exec, Function.update_apply, halive r' hr']
  | destroy r =>
    refine ⟨hrun, hcycle, hnn, fun r' hr' => ?_, hon⟩
    simp only [Board.exec, Function.update_apply, halive r' hr']
  | spawn w =>
    refine ⟨hrun, hcycle, fun hq => ?_, halive, fun w' hw' => ?_⟩
    · simp only [Board.exec, hnn hq]
    · simp only [Board.exec, Function.update_apply, hon w' hw']
  | join w =>
    refine ⟨hrun, hcycle, hnn, halive, fun w' hw' => ?_⟩
    simp only [Board.exec, Function.update_apply, hon w' hw']
  | rtsp r => exact ⟨hrun, hcycle, hnn, halive, hon⟩
  | setRtmp value => exact ⟨hrun, hcycle, hnn, halive, hon⟩

/-- The threads that work on a channel are of its part. -/
theorem part_of_needs {w : Worker} {r : Resource} (h : w.needs = some r) : w.part = r.part := by
  cases w <;> cases h <;> rfl

/-- Whether a statement is in order depends on its part. -/
theorem Board.allows_iff_of_part (h : b.part q = b'.part q) (hc : c.part = some q) :
    b.Allows c ↔ b'.Allows c := by
  obtain ⟨hrun, hcycle, hnn, halive, hon⟩ := Board.part_eq_iff.mp h
  cases c with
  | create r =>
    rw [Board.Allows, Board.Allows, halive r (Option.some.inj hc)]
  | destroy r =>
    have hr : r.part = q := Option.some.inj hc
    rw [Board.Allows, Board.Allows, halive r hr]
    refine and_congr_right fun _ => forall₂_congr fun w hw => ?_
    rw [hon w ((part_of_needs (mem_users_iff.mp hw)).trans hr)]
  | spawn w =>
    have hw : w.part = q := Option.some.inj hc
    rw [Board.Allows, Board.Allows, hon w hw]
    refine and_congr_right fun _ => and_congr (forall₂_congr fun r hr => ?_)
      (imp_congr_right fun hnnOsd => ?_)
    · rw [halive r ((part_of_needs hr).symm.trans hw)]
    · subst hnnOsd
      rw [hnn hw.symm]
  | join w =>
    have hw : w.part = q := Option.some.inj hc
    rw [Board.Allows, Board.Allows, hon w hw]
    refine and_congr_right fun _ => ?_
    cases w with
    | cycle => rw [Board.goesOn, Board.goesOn, hrun, hcycle hw.symm]
    | nnOsd => rw [Board.goesOn, Board.goesOn, hnn hw.symm]
    | _ => simp only [Board.goesOn, hrun]
  | findNnRun value =>
    rw [Board.Allows, Board.Allows, hnn (Option.some.inj hc).symm]
  | clearNnRun =>
    rw [Board.Allows, Board.Allows, hnn (Option.some.inj hc).symm]
  | _ => exact Iff.rfl

/-- A statement of this part is in order. -/
def Board.AllowsIn (q : Part) (b : Board) (c : Command) : Prop := c.part = some q → b.Allows c

instance (q : Part) (b : Board) (c : Command) : Decidable (b.AllowsIn q c) :=
  inferInstanceAs (Decidable (_ → _))

theorem Board.allows_iff_forall : b.Allows c ↔ ∀ q, b.AllowsIn q c := by
  refine ⟨fun h q _ => h, fun h => ?_⟩
  cases hc : c.part with
  | some q => exact h q hc
  | none =>
    cases c with
    | setRun value => trivial
    | rtsp r => trivial
    | setRtmp value => trivial
    | _ => cases hc

/-- **Statements are in order** if they are for each part. -/
theorem inOrder_iff_parts {cs : List Command} : InOrder Board.Allows Board.exec b cs ↔
    ∀ q, InOrder (Board.AllowsIn q) Board.exec b (cs.filter (Command.concerns q)) := by
  have hkeep : ∀ q (b : Board) c, Command.concerns q c = false →
      (b.exec c).part q = b.part q := fun _ _ _ h => Board.part_exec_of_not h
  have hexec : ∀ q (b b' : Board) c, b.part q = b'.part q →
      (b.exec c).part q = (b'.exec c).part q := fun _ _ _ _ h => Board.part_exec h
  have hallows : ∀ q (b b' : Board) c, b.part q = b'.part q →
      (b.AllowsIn q c ↔ b'.AllowsIn q c) := fun _ _ _ _ h =>
    imp_congr_right fun hc => Board.allows_iff_of_part h hc
  have hother : ∀ q (b : Board) c, Command.concerns q c = false → b.AllowsIn q c := by
    intro q b c h hc
    rw [Command.concerns, decide_eq_true hc] at h
    cases h
  have hfilter : ∀ q, InOrder (Board.AllowsIn q) Board.exec b (cs.filter (Command.concerns q)) ↔
      InOrder (Board.AllowsIn q) Board.exec b cs := fun q =>
    (inOrder_filter_iff (hkeep q) (hexec q) (hallows q) (hother q) rfl).symm
  simp only [hfilter, inOrder_iff_forall, Board.allows_iff_forall]
  constructor
  · intro h q pre a post he
    exact h pre a post he q
  · intro h pre a post he q
    exact h q pre a post he

/-- What is left of a part. -/
theorem Board.part_foldl {cs : List Command} : (cs.foldl Board.exec b).part q =
    ((cs.filter (Command.concerns q)).foldl Board.exec b).part q := by
  have hkeep : ∀ (b : Board) c, Command.concerns q c = false → (b.exec c).part q = b.part q :=
    fun _ _ h => Board.part_exec_of_not h
  have hexec : ∀ (b b' : Board) c, b.part q = b'.part q →
      (b.exec c).part q = (b'.exec c).part q := fun _ _ _ h => Board.part_exec h
  exact part_foldl_filter hkeep hexec rfl

end Part

/-! ## The parts of a period -/

/-- All statements are of one part. -/
def OfPart (q : Part) (cs : List Command) : Prop := ∀ c ∈ cs, c.part = some q

section OfPart

variable {q : Part} {cs : List Command}

theorem OfPart.filter_self (h : OfPart q cs) : cs.filter (Command.concerns q) = cs := by
  refine List.filter_eq_self.mpr fun c hc => ?_
  rw [Command.concerns, decide_eq_true (h c hc), Bool.true_or]

theorem OfPart.filter_of_ne {q' : Part} (h : OfPart q' cs) (hne : q' ≠ q) :
    cs.filter (Command.concerns q) = [] := by
  refine List.filter_eq_nil_iff.mpr fun c hc => ?_
  have hpart : c.part = some q' := h c hc
  have hne' : c.part ≠ some q := by
    rw [hpart]
    exact fun he => hne (Option.some.inj he)
  cases c with
  | setRun value => cases hpart
  | _ => simp [Command.concerns, Command.isSetRun, hne']

theorem ofPart_nil : OfPart q [] := fun c hc => by cases hc

theorem OfPart.ite {p : Prop} [Decidable p] {cs' : List Command} (h : OfPart q cs)
    (h' : OfPart q cs') : OfPart q (if p then cs else cs') := by
  split
  · exact h
  · exact h'

theorem OfPart.append {cs' : List Command} (h : OfPart q cs) (h' : OfPart q cs') :
    OfPart q (cs ++ cs') := fun c hc => (List.mem_append.mp hc).elim (h c) (h' c)

theorem OfPart.cons {c : Command} (hc : c.part = some q) (h : OfPart q cs) : OfPart q (c :: cs) :=
  List.forall_mem_cons.mpr ⟨hc, h⟩

end OfPart

theorem ofPart_viDevInit (a : DevAnswers) : OfPart .dev (rkipcViDevInit a) :=
  ofPart_nil.ite (ofPart_nil.ite ((ofPart_nil.cons rfl).ite ofPart_nil))

theorem ofPart_pipe0Init (a : PipeAnswers) : OfPart .pipe0 (rkipcPipe0Init a) :=
  ofPart_nil.ite (ofPart_nil.ite (OfPart.cons rfl
    (ofPart_nil.ite (ofPart_nil.ite ((ofPart_nil.cons rfl).cons rfl)))))

theorem ofPart_pipe1Init (a : PipeAnswers) : OfPart .pipe1 (rkipcPipe1Init a) :=
  ((ofPart_nil.cons rfl).ite ofPart_nil).append
    (ofPart_nil.ite (ofPart_nil.ite (ofPart_nil.ite ((ofPart_nil.cons rfl).cons rfl))))

theorem ofPart_ivsInit (a : IvsAnswers) : OfPart .pipe2 (rkipcIvsInit a) :=
  ofPart_nil.ite (ofPart_nil.ite (OfPart.cons rfl
    (ofPart_nil.ite (ofPart_nil.ite ((ofPart_nil.cons rfl).ite ofPart_nil)))))

/-- `rkipc_pipe_2_init` goes as far as to the threads. -/
def VideoAnswers.reached2 (a : VideoAnswers) : Bool := a.setChnAttr2 && a.enableChn2

/-- `rkipc_pipe_2_init` but for the region. -/
def pipe2Init (a : VideoAnswers) : List Command :=
  if a.reached2 then
    .create .vi2 :: (if a.enableIvs then rkipcIvsInit a.ivs else []) ++
      if a.enableNpu then [.spawn .vi2] else []
  else []

/-- `rkipc_pipe_2_deinit` but for the region. -/
def pipe2Deinit (a : VideoAnswers) : List Command :=
  (if a.enableNpu then [.join .vi2] else []) ++
    (if a.enableIvs then rkipcIvsDeinit else []) ++ [.destroy .vi2]

theorem rkipcPipe2Init_eq (a : VideoAnswers) : rkipcPipe2Init a = pipe2Init a ++
    if a.enableNpu && a.reached2 then rkipcOsdDrawNnInit a.region else [] := by
  unfold rkipcPipe2Init pipe2Init VideoAnswers.reached2
  cases a.setChnAttr2 <;> cases a.enableChn2 <;> cases a.enableNpu <;> simp

theorem rkipcPipe2Deinit_eq (a : VideoAnswers) : rkipcPipe2Deinit a =
    (if a.enableNpu then rkipcOsdDrawNnDeinit a.region.begun else []) ++ pipe2Deinit a := by
  unfold rkipcPipe2Deinit pipe2Deinit
  cases a.enableNpu <;> simp

theorem ofPart_pipe2Init (a : VideoAnswers) : OfPart .pipe2 (pipe2Init a) :=
  ((OfPart.cons rfl ((ofPart_ivsInit a.ivs).ite ofPart_nil)).append
    ((ofPart_nil.cons rfl).ite ofPart_nil)).ite ofPart_nil

theorem ofPart_pipe2Deinit (a : VideoAnswers) : OfPart .pipe2 (pipe2Deinit a) :=
  (((ofPart_nil.cons rfl).ite ofPart_nil).append
    (((ofPart_nil.cons rfl).cons rfl).ite ofPart_nil)).append (ofPart_nil.cons rfl)

theorem ofPart_osdDrawNnInit (a : RegionAnswers) : OfPart .nn (rkipcOsdDrawNnInit a) :=
  (ofPart_nil.cons rfl).ite (OfPart.cons rfl
    (ofPart_nil.ite (ofPart_nil.ite (ofPart_nil.cons rfl))))

theorem ofPart_osdDrawNnDeinit (begun : Bool) : OfPart .nn (rkipcOsdDrawNnDeinit begun) :=
  (OfPart.cons rfl (((ofPart_nil.cons rfl).cons rfl).ite ofPart_nil)).append (ofPart_nil.cons rfl)

theorem ofPart_rtmpInit (muxer0 muxer1 : Bool) : OfPart .rtmp (rkipcRtmpInit muxer0 muxer1) :=
  ((ofPart_nil.cons rfl).ite ofPart_nil).append ((ofPart_nil.cons rfl).ite ofPart_nil)

theorem ofPart_jpegInit (createChn : Bool) (c : Snapshot) :
    OfPart .jpeg (rkipcPipeJpegInit createChn c).1 := by
  unfold rkipcPipeJpegInit
  split_ifs
  · exact ofPart_nil
  · exact ((((ofPart_nil.cons rfl).cons rfl).cons rfl).cons rfl).cons rfl
  · exact ((ofPart_nil.cons rfl).cons rfl).cons rfl

theorem ofPart_jpegDeinit (c : Snapshot) : OfPart .jpeg (rkipcPipeJpegDeinit c).1 := by
  unfold rkipcPipeJpegDeinit
  split_ifs
  · exact ((((ofPart_nil.cons rfl).cons rfl).cons rfl).cons rfl).cons rfl
  · exact ((ofPart_nil.cons rfl).cons rfl).cons rfl

theorem ofPart_setSnapshots (values : List ℤ) (c : Snapshot) :
    OfPart .jpeg (setSnapshots values c).1 := by
  induction values generalizing c with
  | nil => exact ofPart_nil
  | cons value values ih =>
    refine OfPart.append ?_ (ih _)
    unfold rkVideoSetEnableCycleSnapshot
    split_ifs
    · exact (ofPart_nil.cons rfl).cons rfl
    · exact (ofPart_nil.cons rfl).cons rfl
    · exact ofPart_nil

/-- What `rk_video_init` does for a part. -/
def initOf (a : VideoAnswers) (c : Snapshot) : Part → List Command
  | .dev => rkipcViDevInit a.dev
  | .pipe0 => if a.enableVenc0 then rkipcPipe0Init a.pipe0 else []
  | .pipe1 => if a.enableVenc1 then rkipcPipe1Init a.pipe1 else []
  | .jpeg => (if a.enableJpeg then rkipcPipeJpegInit a.createJpeg c else ([], c)).1
  | .pipe2 => if a.enableNpu || a.enableIvs then pipe2Init a else []
  | .nn => if a.enableNpu && a.reached2 then rkipcOsdDrawNnInit a.region else []
  | .rtmp => if a.enableRtmp then rkipcRtmpInit a.muxer0 a.muxer1 else []

/-- What `rk_video_deinit` does for a part. -/
def deinitOf (a : VideoAnswers) (c : Snapshot) : Part → List Command
  | .dev => rkipcViDevDeinit
  | .pipe0 => if a.enableVenc0 then .join .venc0 :: rkipcPipe0Deinit else []
  | .pipe1 => if a.enableVenc1 then .join .venc1 :: rkipcPipe1Deinit else []
  | .jpeg => (if a.enableJpeg then rkipcPipeJpegDeinit c else ([], c)).1
  | .pipe2 => if a.enableNpu || a.enableIvs then pipe2Deinit a else []
  | .nn => if a.enableNpu then rkipcOsdDrawNnDeinit a.region.begun else []
  | .rtmp => if a.enableRtmp then rkipcRtmpDeinit else []

theorem ofPart_initOf (a : VideoAnswers) (c : Snapshot) (q : Part) : OfPart q (initOf a c q) := by
  cases q with
  | dev => exact ofPart_viDevInit a.dev
  | pipe0 => exact (ofPart_pipe0Init a.pipe0).ite ofPart_nil
  | pipe1 => exact (ofPart_pipe1Init a.pipe1).ite ofPart_nil
  | jpeg =>
    rw [initOf]
    split
    · exact ofPart_jpegInit a.createJpeg c
    · exact ofPart_nil
  | pipe2 => exact (ofPart_pipe2Init a).ite ofPart_nil
  | nn => exact (ofPart_osdDrawNnInit a.region).ite ofPart_nil
  | rtmp => exact (ofPart_rtmpInit a.muxer0 a.muxer1).ite ofPart_nil

theorem ofPart_deinitOf (a : VideoAnswers) (c : Snapshot) (q : Part) :
    OfPart q (deinitOf a c q) := by
  cases q with
  | dev => exact ofPart_nil.cons rfl
  | pipe0 => exact (((ofPart_nil.cons rfl).cons rfl).cons rfl).ite ofPart_nil
  | pipe1 => exact (((ofPart_nil.cons rfl).cons rfl).cons rfl).ite ofPart_nil
  | jpeg =>
    rw [deinitOf]
    split
    · exact ofPart_jpegDeinit c
    · exact ofPart_nil
  | pipe2 => exact (ofPart_pipe2Deinit a).ite ofPart_nil
  | nn => exact (ofPart_osdDrawNnDeinit a.region.begun).ite ofPart_nil
  | rtmp => exact ((ofPart_nil.cons rfl).cons rfl).ite ofPart_nil

theorem OfPart.filter {q q' : Part} {cs : List Command} (h : OfPart q' cs) :
    cs.filter (Command.concerns q) = if q' = q then cs else [] := by
  split
  · next hq => exact (hq ▸ h).filter_self
  · next hq => exact h.filter_of_ne hq

/-- The statements for RTSP concern no part. -/
theorem filter_rtsp (q : Part) (enable : Bool) (r : Stream.Request) :
    (if enable then [Command.rtsp r] else []).filter (Command.concerns q) = [] := by
  cases enable <;> rfl

theorem rkVideoInit_eq (a : VideoAnswers) (c : Snapshot) : (rkVideoInit a c).1 =
    [.setRtmp a.enableRtmp] ++ [.setRun true] ++ initOf a c .dev ++
      (if a.enableRtsp then [.rtsp (.init rtspUrl a.setup a.demo a.session)] else []) ++
      initOf a c .rtmp ++ initOf a c .pipe0 ++ initOf a c .pipe1 ++ initOf a c .jpeg ++
      initOf a c .pipe2 ++ initOf a c .nn := by
  have hpipe2 : (if a.enableNpu || a.enableIvs then rkipcPipe2Init a else []) =
      initOf a c .pipe2 ++ initOf a c .nn := by
    rw [rkipcPipe2Init_eq, initOf, initOf]
    cases a.enableNpu <;> cases a.enableIvs <;> simp
  rw [rkVideoInit, hpipe2, ← List.append_assoc]
  rfl

theorem rkVideoDeinit_eq (a : VideoAnswers) (c : Snapshot) : (rkVideoDeinit a c).1 =
    [.setRun false] ++ deinitOf a c .nn ++ deinitOf a c .pipe2 ++ deinitOf a c .pipe0 ++
      deinitOf a c .pipe1 ++ deinitOf a c .jpeg ++ deinitOf a c .dev ++ deinitOf a c .rtmp ++
      (if a.enableRtsp then [.rtsp .deinit] else []) := by
  have hpipe2 : (if a.enableNpu || a.enableIvs then rkipcPipe2Deinit a else []) =
      deinitOf a c .nn ++ deinitOf a c .pipe2 := by
    rw [rkipcPipe2Deinit_eq, deinitOf, deinitOf]
    cases a.enableNpu <;> cases a.enableIvs <;> simp
  rw [rkVideoDeinit, hpipe2, ← List.append_assoc]
  rfl

/-- What `rk_video_init` does for a part. -/
theorem filter_rkVideoInit (a : VideoAnswers) (c : Snapshot) (q : Part) :
    (rkVideoInit a c).1.filter (Command.concerns q) = .setRun true :: initOf a c q := by
  have hrun : [Command.setRun true].filter (Command.concerns q) = [.setRun true] := by
    cases q <;> rfl
  have hrtmp : [Command.setRtmp a.enableRtmp].filter (Command.concerns q) = [] := by
    cases q <;> rfl
  simp only [rkVideoInit_eq, List.filter_append, filter_rtsp, (ofPart_initOf a c _).filter, hrun,
    hrtmp]
  cases q <;> simp

/-- What `rk_video_deinit` does for a part. -/
theorem filter_rkVideoDeinit (a : VideoAnswers) (c : Snapshot) (q : Part) :
    (rkVideoDeinit a c).1.filter (Command.concerns q) = .setRun false :: deinitOf a c q := by
  have hrun : [Command.setRun false].filter (Command.concerns q) = [.setRun false] := by
    cases q <;> rfl
  simp only [rkVideoDeinit_eq, List.filter_append, filter_rtsp, (ofPart_deinitOf a c _).filter,
    hrun]
  cases q <;> simp

/-- The snapshot when the clients begin. -/
def Period.opened (p : Period) (c : Snapshot) : Snapshot := (rkVideoInit p.answers c).2

/-- The snapshot when `rk_video_deinit` begins. -/
def Period.closing (p : Period) (c : Snapshot) : Snapshot :=
  (setSnapshots p.snapshots (p.opened c)).2

/-- The statements of a period for a part. -/
def Period.commandsOf (p : Period) (c : Snapshot) (q : Part) : List Command :=
  .setRun true :: initOf p.answers c q ++
    (if q = .jpeg then (setSnapshots p.snapshots (p.opened c)).1 else []) ++
      .setRun false :: deinitOf p.answers (p.closing c) q

theorem filter_commands (p : Period) (c : Snapshot) (q : Part) :
    (p.commands c).1.filter (Command.concerns q) = p.commandsOf c q := by
  rw [Period.commands, Period.commandsOf]
  simp only [List.filter_append, filter_rkVideoInit, filter_rkVideoDeinit,
    (ofPart_setSnapshots p.snapshots _).filter, eq_comm (a := Part.jpeg)]
  rfl

/-- Statements for a part return. -/
def PartReturns (q : Part) (cs : List Command) : Prop :=
  InOrder (Board.AllowsIn q) Board.exec .off cs ∧
    (cs.foldl Board.exec .off).part q = Board.off.part q

instance (q : Part) (cs : List Command) : Decidable (PartReturns q cs) :=
  inferInstanceAs (Decidable (_ ∧ _))

/-- **A period returns** if every part does. -/
theorem returns_iff_parts {p : Period} {c : Snapshot} :
    p.Returns c ↔ ∀ q, PartReturns q (p.commandsOf c q) := by
  simp only [PartReturns, ← filter_commands, forall_and, ← inOrder_iff_parts,
    ← Board.part_foldl]
  exact and_congr_right fun _ => ⟨fun h q => by rw [h], fun h => Board.eq_of_parts h⟩

/-- What a period does for a part where clients do nothing. -/
def around (init deinit : List Command) : List Command :=
  .setRun true :: init ++ [] ++ .setRun false :: deinit

theorem dev_returns_iff (a : DevAnswers) :
    PartReturns .dev (around (rkipcViDevInit a) rkipcViDevDeinit) ↔ a.Complete := by
  rcases a with ⟨_ | _, _ | _, _ | _, _ | _⟩ <;> decide

theorem pipe0_returns_iff (enable : Bool) (a : PipeAnswers) :
    PartReturns .pipe0 (around (if enable then rkipcPipe0Init a else [])
      (if enable then .join .venc0 :: rkipcPipe0Deinit else [])) ↔
        (enable = true → a.Complete) := by
  rcases a with ⟨_ | _, _ | _, _ | _, _ | _⟩ <;> cases enable <;> decide

theorem pipe1_returns_iff (enable : Bool) (a : PipeAnswers) :
    PartReturns .pipe1 (around (if enable then rkipcPipe1Init a else [])
      (if enable then .join .venc1 :: rkipcPipe1Deinit else [])) ↔
        (enable = true → a.Complete) := by
  rcases a with ⟨_ | _, _ | _, _ | _, _ | _⟩ <;> cases enable <;> decide

theorem rtmp_returns_iff (enable muxer0 muxer1 : Bool) :
    PartReturns .rtmp (around (if enable then rkipcRtmpInit muxer0 muxer1 else [])
      (if enable then rkipcRtmpDeinit else [])) ↔
        (enable = true → muxer0 = true ∧ muxer1 = true) := by
  cases enable <;> cases muxer0 <;> cases muxer1 <;> decide

/-- The region: a thread that has not begun is not joined, and none is joined that is not there. -/
theorem nn_returns_iff (enable reached : Bool) (a : RegionAnswers) :
    PartReturns .nn (around (if enable && reached then rkipcOsdDrawNnInit a else [])
      (if enable then rkipcOsdDrawNnDeinit a.begun else [])) ↔
        (enable = true → reached = true ∧ a.Complete) := by
  cases enable with
  | false =>
    have hnone : PartReturns .nn (around [] []) := by decide
    exact iff_of_true hnone nofun
  | true =>
    cases reached with
    | false =>
      -- there is no region to destroy
      have hdestroy : ∀ begun, ¬ PartReturns .nn (around [] (rkipcOsdDrawNnDeinit begun)) := by
        decide
      exact iff_of_false (hdestroy a.begun) fun h => absurd (h rfl).1 (by decide)
    | true => rcases a with ⟨_ | _, _ | _, _ | _, _ | _⟩ <;> decide

/-- How far `rkipc_ivs_init` comes. -/
theorem rkipcIvsInit_eq (a : IvsAnswers) :
    rkipcIvsInit a = [.create .ivs, .spawn .ivs] ∧ a.Complete ∨
      (rkipcIvsInit a = [] ∨ rkipcIvsInit a = [.create .ivs]) ∧ ¬ a.Complete := by
  unfold rkipcIvsInit IvsAnswers.Complete
  rcases a with ⟨smear, weightp, md, od, _ | _, _ | _, _ | _⟩
  all_goals
    by_cases hnone : smear = 0 ∧ weightp = 0 ∧ md = 0 ∧ od = 0
    · obtain ⟨rfl, rfl, rfl, rfl⟩ := hnone
      simp
    · by_cases hone : md = 1 ∨ od = 1
      · simp [hnone, hone]
      · simp [hnone, hone]

theorem pipe2_returns_iff (npu ivs reached : Bool) {cs : List Command} {complete : Prop}
    (hcs : cs = [.create .ivs, .spawn .ivs] ∧ complete ∨
      (cs = [] ∨ cs = [.create .ivs]) ∧ ¬ complete) :
    PartReturns .pipe2 (around
      (if npu || ivs then
        if reached then
          .create .vi2 :: (if ivs then cs else []) ++ if npu then [.spawn .vi2] else []
        else []
      else [])
      (if npu || ivs then
        (if npu then [.join .vi2] else []) ++ (if ivs then rkipcIvsDeinit else []) ++
          [.destroy .vi2]
      else [])) ↔
      (npu = true ∨ ivs = true → reached = true) ∧ (ivs = true → complete) := by
  -- what `rkipc_ivs_init` has done decides only where it is called
  rcases hcs with ⟨rfl, hcomplete⟩ | ⟨rfl | rfl, hcomplete⟩ <;> simp only [hcomplete] <;>
  cases npu <;> cases ivs <;> cases reached <;> decide

/-! ## The cyclic snapshot -/

/-- The JPEG encoder with its threads, and the thread of the cyclic snapshot. -/
def jpegBoard (run up flag : Bool) : Board where
  run := run
  cycle := flag
  nnRun := some false
  alive r := r = .jpegVenc && up
  on
    | .jpeg | .sendJpeg => up
    | .cycle => flag
    | _ => false

section Snapshot

variable {c : Snapshot} {up : Bool}

/-- **A switch of the cyclic snapshot** creates the thread or joins it. -/
theorem setSnapshot_inOrder (value : ℤ) (c : Snapshot) (up : Bool) :
    InOrder (Board.AllowsIn .jpeg) Board.exec (jpegBoard true up c.flag)
        (rkVideoSetEnableCycleSnapshot value c).1 ∧
      (rkVideoSetEnableCycleSnapshot value c).1.foldl Board.exec (jpegBoard true up c.flag) =
        jpegBoard true up (rkVideoSetEnableCycleSnapshot value c).2.flag := by
  unfold rkVideoSetEnableCycleSnapshot
  split_ifs with hon hoff
  · rw [hon.2]
    dsimp only
    cases up <;> decide
  · rw [hoff.2]
    dsimp only
    cases up <;> decide
  · exact ⟨inOrder_nil, rfl⟩

/-- Switches one after the other. -/
theorem setSnapshots_inOrder (values : List ℤ) (c : Snapshot) (up : Bool) :
    InOrder (Board.AllowsIn .jpeg) Board.exec (jpegBoard true up c.flag)
        (setSnapshots values c).1 ∧
      (setSnapshots values c).1.foldl Board.exec (jpegBoard true up c.flag) =
        jpegBoard true up (setSnapshots values c).2.flag := by
  induction values generalizing c with
  | nil => exact ⟨inOrder_nil, rfl⟩
  | cons value values ih =>
    obtain ⟨hfirst, hstate⟩ := setSnapshot_inOrder value c up
    obtain ⟨hrest, hend⟩ := ih (rkVideoSetEnableCycleSnapshot value c).2
    refine ⟨inOrder_append_iff.mpr ⟨hfirst, hstate ▸ hrest⟩, ?_⟩
    rw [setSnapshots, List.foldl_append, hstate, hend]

/-- The flag says whether the snapshot is enabled. -/
def Snapshot.Agrees (c : Snapshot) : Prop := c.flag = decide (c.enable ≠ 0)

theorem Snapshot.Agrees.setSnapshots (h : c.Agrees) (values : List ℤ) :
    (setSnapshots values c).2.Agrees := by
  induction values generalizing c with
  | nil => exact h
  | cons value values ih =>
    refine ih ?_
    unfold rkVideoSetEnableCycleSnapshot
    split_ifs with hon hoff
    · simp [Agrees, hon.1]
    · simp [Agrees, hoff.1]
    · change c.flag = decide (value ≠ 0)
      cases hflag : c.flag with
      | true =>
        have hvalue : value ≠ 0 := fun hv => hoff ⟨hv, hflag⟩
        exact (decide_eq_true hvalue).symm
      | false =>
        have hvalue : ¬ value ≠ 0 := fun hv => hon ⟨hv, hflag⟩
        exact (decide_eq_false hvalue).symm

/-- The board when clients have switched the snapshot, without the JPEG encoder. -/
theorem foldl_setSnapshots (values : List ℤ) (hflag : c.flag = false) :
    InOrder (Board.AllowsIn .jpeg) Board.exec .off (.setRun true :: (setSnapshots values c).1) ∧
      (.setRun true :: (setSnapshots values c).1).foldl Board.exec .off =
        jpegBoard true false (setSnapshots values c).2.flag := by
  obtain ⟨hset, hstate⟩ := setSnapshots_inOrder values c false
  have hstart : Board.exec .off (.setRun true) = jpegBoard true false c.flag := by
    rw [hflag]
    decide
  exact ⟨⟨nofun, hstart ▸ hset⟩, by rw [List.foldl_cons, hstart, hstate]⟩

/-- The cyclic snapshot without the JPEG encoder. -/
theorem snapshot_returns_iff (values : List ℤ) (hflag : c.flag = false) :
    PartReturns .jpeg (.setRun true :: (setSnapshots values c).1 ++ [.setRun false]) ↔
      (setSnapshots values c).2.flag = false := by
  obtain ⟨horder, hstate⟩ := foldl_setSnapshots values hflag
  have hall : InOrder (Board.AllowsIn .jpeg) Board.exec .off
      (Command.setRun true :: (setSnapshots values c).1 ++ [.setRun false]) :=
    inOrder_concat_iff.mpr ⟨horder, fun hpart => by cases hpart⟩
  rw [PartReturns, and_iff_right hall, List.foldl_append, hstate]
  cases (setSnapshots values c).2.flag <;> decide

/-- The threads of the JPEG encoder are joined that were never created. -/
theorem not_inOrder_jpegDeinit (c : Snapshot) (flag : Bool) :
    ¬ InOrder (Board.AllowsIn .jpeg) Board.exec (jpegBoard true false flag)
      (.setRun false :: (rkipcPipeJpegDeinit c).1) := by
  unfold rkipcPipeJpegDeinit
  split_ifs <;> dsimp only <;> cases flag <;> decide

theorem agrees_jpegInit (hflag : c.flag = false) : (rkipcPipeJpegInit true c).2.Agrees := by
  unfold rkipcPipeJpegInit Snapshot.Agrees
  simp only [Bool.not_true, Bool.false_eq_true, if_false]
  split_ifs with henable
  · exact (decide_eq_true henable).symm
  · exact hflag.trans (decide_eq_false henable).symm

/-- The JPEG encoder with the cyclic snapshot. -/
theorem jpeg_returns (values : List ℤ) (hflag : c.flag = false) :
    PartReturns .jpeg (.setRun true :: (rkipcPipeJpegInit true c).1 ++
      (setSnapshots values (rkipcPipeJpegInit true c).2).1 ++ .setRun false ::
        (rkipcPipeJpegDeinit (setSnapshots values (rkipcPipeJpegInit true c).2).2).1) := by
  have hinit : InOrder (Board.AllowsIn .jpeg) Board.exec .off
        (.setRun true :: (rkipcPipeJpegInit true c).1) ∧
      (Command.setRun true :: (rkipcPipeJpegInit true c).1).foldl Board.exec .off =
        jpegBoard true true (rkipcPipeJpegInit true c).2.flag := by
    unfold rkipcPipeJpegInit
    simp only [Bool.not_true, Bool.false_eq_true, if_false]
    split_ifs with henable
    · dsimp only
      decide
    · rw [hflag]
      dsimp only
      decide
  obtain ⟨horder, hstart⟩ := hinit
  obtain ⟨hset, hstate⟩ := setSnapshots_inOrder values (rkipcPipeJpegInit true c).2 true
  have hagrees' := (agrees_jpegInit hflag).setSnapshots values
  generalize (setSnapshots values (rkipcPipeJpegInit true c).2) = r at hset hstate hagrees' ⊢
  have hdeinit : InOrder (Board.AllowsIn .jpeg) Board.exec (jpegBoard true true r.2.flag)
      (.setRun false :: (rkipcPipeJpegDeinit r.2).1) ∧
      ((Command.setRun false :: (rkipcPipeJpegDeinit r.2).1).foldl Board.exec
        (jpegBoard true true r.2.flag)).part .jpeg = Board.off.part .jpeg := by
    rw [hagrees']
    unfold rkipcPipeJpegDeinit
    split_ifs with henable
    · rw [decide_eq_true henable]
      dsimp only
      decide
    · rw [decide_eq_false henable]
      dsimp only
      decide
  refine ⟨?_, ?_⟩
  · refine inOrder_append_iff.mpr ⟨inOrder_append_iff.mpr ⟨horder, hstart ▸ hset⟩, ?_⟩
    rw [List.foldl_append, hstart, hstate]
    exact hdeinit.1
  · rw [List.foldl_append, List.foldl_append, hstart, hstate]
    exact hdeinit.2

end Snapshot

/-! ## Periods -/

theorem jpeg_returns_iff {p : Period} {c : Snapshot} (hflag : c.flag = false) :
    PartReturns .jpeg (p.commandsOf c .jpeg) ↔
      (p.answers.enableJpeg = true → p.answers.createJpeg = true) ∧
        (p.answers.enableJpeg = false → (setSnapshots p.snapshots c).2.flag = false) := by
  have hopened : p.opened c =
      (if p.answers.enableJpeg then rkipcPipeJpegInit p.answers.createJpeg c else ([], c)).2 := rfl
  rw [Period.commandsOf, initOf, deinitOf, if_pos rfl, Period.closing, hopened]
  cases hen : p.answers.enableJpeg with
  | false =>
    simp only [Bool.false_eq_true, if_false, false_imp_iff, true_and, true_imp_iff]
    exact snapshot_returns_iff p.snapshots hflag
  | true =>
    cases hcreate : p.answers.createJpeg with
    | true => exact iff_of_true (jpeg_returns p.snapshots hflag) ⟨fun _ => rfl, nofun⟩
    | false =>
      refine iff_of_false (fun h => ?_) fun h => absurd (h.1 rfl) (by decide)
      -- the initialisation has returned, and the other function goes on
      obtain ⟨-, hdeinit⟩ := inOrder_append_iff.mp h.1
      obtain ⟨-, hstate⟩ := foldl_setSnapshots p.snapshots hflag
      refine not_inOrder_jpegDeinit (setSnapshots p.snapshots c).2
        (setSnapshots p.snapshots c).2.flag ?_
      rw [← hstate]
      exact hdeinit

/-- **A period returns if and only if everything that is enabled comes about.** -/
theorem returns_iff {p : Period} {c : Snapshot} (hflag : c.flag = false) :
    p.Returns c ↔ p.Complete c := by
  rw [returns_iff_parts]
  have hpipe2 := pipe2_returns_iff p.answers.enableNpu p.answers.enableIvs p.answers.reached2
    (rkipcIvsInit_eq p.answers.ivs)
  have hreached : p.answers.reached2 = true ↔
      p.answers.setChnAttr2 = true ∧ p.answers.enableChn2 = true := Bool.and_eq_true_iff
  constructor
  · intro h
    obtain ⟨hjpeg, hsnapshot⟩ := (jpeg_returns_iff hflag).mp (h .jpeg)
    obtain ⟨hchn, hivs⟩ := hpipe2.mp (h .pipe2)
    exact ⟨(dev_returns_iff _).mp (h .dev), (pipe0_returns_iff _ _).mp (h .pipe0),
      (pipe1_returns_iff _ _).mp (h .pipe1), hjpeg, fun hen => hreached.mp (hchn hen), hivs,
      fun hen => ((nn_returns_iff _ _ _).mp (h .nn) hen).2,
      (rtmp_returns_iff _ _ _).mp (h .rtmp), hsnapshot⟩
  · intro h q
    cases q with
    | dev => exact (dev_returns_iff _).mpr h.dev
    | pipe0 => exact (pipe0_returns_iff _ _).mpr h.pipe0
    | pipe1 => exact (pipe1_returns_iff _ _).mpr h.pipe1
    | jpeg => exact (jpeg_returns_iff hflag).mpr ⟨h.jpeg, h.snapshot⟩
    | pipe2 => exact hpipe2.mpr ⟨fun hen => hreached.mpr (h.pipe2 hen), h.ivs⟩
    | nn =>
      exact (nn_returns_iff _ _ _).mpr fun hen => ⟨hreached.mpr (h.pipe2 (.inl hen)), h.nn hen⟩
    | rtmp => exact (rtmp_returns_iff _ _ _).mpr h.rtmp

/-- What a period makes of the snapshot. -/
def after (c : Snapshot) (p : Period) : Snapshot := (p.commands c).2

/-- After a period that is complete the cyclic snapshot has stopped. -/
theorem Period.Complete.flag_after {p : Period} {c : Snapshot} (h : p.Complete c)
    (hflag : c.flag = false) : (after c p).flag = false := by
  have hafter : after c p = (if p.answers.enableJpeg then rkipcPipeJpegDeinit (p.closing c)
      else ([], p.closing c)).2 := rfl
  have hopened : p.opened c =
      (if p.answers.enableJpeg then rkipcPipeJpegInit p.answers.createJpeg c else ([], c)).2 := rfl
  rw [hafter]
  cases hen : p.answers.enableJpeg with
  | false =>
    rw [hen] at hopened
    have hclosing := h.snapshot hen
    rw [Period.closing, hopened]
    exact hclosing
  | true =>
    rw [hen, h.jpeg hen] at hopened
    have hagrees : (p.closing c).Agrees := by
      rw [Period.closing, hopened]
      exact (agrees_jpegInit hflag).setSnapshots p.snapshots
    change (rkipcPipeJpegDeinit (p.closing c)).2.flag = false
    unfold rkipcPipeJpegDeinit
    split_ifs with henable
    · rfl
    · exact hagrees.trans (decide_eq_false henable)

/-- Everything is enabled, and comes about. -/
def allEnabled : VideoAnswers where
  enableIvs := true
  enableJpeg := true
  enableVenc0 := true
  enableVenc1 := true
  enableRtsp := true
  enableRtmp := true
  enableNpu := true
  dev := ⟨true, true, false, true⟩
  setup := fun _ => ⟨some .avc, none⟩
  demo := true
  session := fun _ => true
  muxer0 := true
  muxer1 := true
  pipe0 := ⟨true, true, true, true⟩
  pipe1 := ⟨true, true, true, true⟩
  createJpeg := true
  setChnAttr2 := true
  enableChn2 := true
  ivs := ⟨0, 0, 1, 1, true, true, true⟩
  region := ⟨true, true, true, true⟩

theorem complete_allEnabled (snapshots : List ℤ) (c : Snapshot) :
    Period.Complete ⟨allEnabled, snapshots⟩ c := by
  have hdev : allEnabled.dev.Complete := by decide
  have hpipe : allEnabled.pipe0.Complete := by decide
  exact ⟨hdev, fun _ => hpipe, fun _ => hpipe, fun _ => rfl, fun _ => ⟨rfl, rfl⟩,
    fun _ => ⟨rfl, rfl, rfl, Or.inl rfl⟩, fun _ => ⟨rfl, rfl⟩, fun _ => ⟨rfl, rfl⟩, nofun⟩

/-- **The statements of periods that are complete** are in order, and leave nothing. -/
theorem inOrder_commands {ps : List Period} {c : Snapshot} (hflag : c.flag = false)
    (h : InOrder (fun c p => p.Complete c) after c ps) :
    InOrder Board.Allows Board.exec .off (commands ps c) ∧
      (commands ps c).foldl Board.exec .off = .off := by
  induction ps generalizing c with
  | nil => exact ⟨inOrder_nil, rfl⟩
  | cons p ps ih =>
    obtain ⟨hp, hps⟩ := h
    obtain ⟨horder, hoff⟩ := (returns_iff hflag).mpr hp
    obtain ⟨horders, hoffs⟩ := ih (hp.flag_after hflag) hps
    rw [commands, inOrder_append_iff, List.foldl_append, hoff]
    exact ⟨⟨horder, horders⟩, hoffs⟩

end RkIpc.Video
