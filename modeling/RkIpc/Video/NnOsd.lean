import RkIpc.Resource.Slot
import RkIpc.Resource.Workers
import RkIpc.Transition.Run
import RkIpc.Video.Pipeline

/-!
# The thread that draws what the NPU has found

`rkipc_osd_draw_nn_init` creates a region and a thread that draws on its canvas,
`rkipc_osd_draw_nn_deinit` stops the thread and destroys the region. The run flag is set by the
thread itself, in its first statement, and `rkipc_osd_draw_nn_deinit` joins the thread only if it
finds the flag set.

`pthread_create` succeeds. Of the canvas it matters here which region it belongs to, not what is
drawn on it.

## Main definitions

* `NnOsd`, `NnEvent`, `NnOsd.step`: the variables with the threads, and what can happen next
* `NoneLeft`: no thread is left after a deinit, and the canvas drawn on is that of the region
* `NnEvent.Orderly`: the first statement of a thread is not overtaken by a deinit, and an init finds
  no thread
* `NnOsd.commands`: the statements of the video pipeline that an event stands for

## Main results

* `noneLeft_of_orderly`: orderly runs leave no thread
* `left_of_early_deinit`: a deinit before the first statement of the thread does
* `commands_inOrder`: in orderly runs the statements of the video pipeline are in order
-/

open Resource Transition

namespace RkIpc.Video

/-- Where a thread `rkipc_get_nn_update_osd` stands. -/
inductive NnPlace
  /-- about to set `g_nn_osd_run_` -/
  | start
  /-- about to test it -/
  | head
  /-- about to get the canvas -/
  | fetch
  /-- about to draw on the canvas of the region -/
  | draw (region : ℕ)
  | ended
deriving DecidableEq, Repr

/-- Where the thread that starts and stops pipe 2 stands. -/
inductive NnCaller
  /-- in neither function, and whether the last one was `rkipc_osd_draw_nn_deinit` -/
  | idle (stopped : Bool)
  /-- the region is attached, and the thread is created next -/
  | create
  /-- `g_nn_osd_run_` was set, and is cleared next -/
  | clear
  /-- in `pthread_join` -/
  | join
  /-- about to detach and to destroy the region -/
  | detach
deriving DecidableEq, Repr

/-- How the region is created. -/
inductive RegionOutcome
  | createFails
  /-- `RK_MPI_RGN_SetAttr` or `RK_MPI_RGN_AttachToChn` fails -/
  | attachFails
  | attached
deriving DecidableEq, Repr

/-- **The variables of the NPU display**: `g_nn_osd_run_`, `get_nn_update_osd_thread_id`, the
threads created, and the regions, one at a time under the handle `DRAW_NN_OSD_ID`. -/
structure NnOsd where
  run : Bool
  tid : Option ℕ
  threads : Workers NnPlace
  region : Slot
  caller : NnCaller

/-- What can happen next. `ok` is whether the canvas is there and has the size of the video. -/
inductive NnEvent
  | init (outcome : RegionOutcome)
  | created
  | deinit
  | cleared
  | joined
  | detached
  | thread (k : ℕ) (ok : Bool)
deriving DecidableEq, Repr

namespace NnOsd

/-- The variables before the first call. -/
def start : NnOsd where
  run := false
  tid := none
  threads := Workers.unborn .start
  region := Slot.empty
  caller := .idle false

/-- Thread `k` goes on. -/
def goOn (s : NnOsd) (k : ℕ) (p : NnPlace) : NnOsd := { s with threads := s.threads.move k p }

/-- One step of thread `k`, `rkipc_get_nn_update_osd`. -/
def threadStep (s : NnOsd) (k : ℕ) (ok : Bool) : Option NnOsd :=
  match s.threads.place k with
  | .start => some { s.goOn k .head with run := true }
  | .head => some (s.goOn k (if s.run then .fetch else .ended))
  | .fetch =>
    -- `RK_MPI_RGN_GetCanvasInfo` fails when there is no region
    match s.region.held, ok with
    | some g, true => some (s.goOn k (.draw g))
    | _, _ => some (s.goOn k .head)
  | .draw _ => some (s.goOn k .head)
  | .ended => none

/-- **`rkipc_osd_draw_nn_init`** up to the creation of the thread. -/
def initStep (s : NnOsd) : RegionOutcome → NnOsd
  | .createFails => { s with region := s.region.release, caller := .idle false }
  | .attachFails => { s with region := s.region.acquire, caller := .idle false }
  | .attached => { s with region := s.region.acquire, caller := .create }

/-- The variables after an event; `none` when it cannot happen. -/
def step (s : NnOsd) : NnEvent → Option NnOsd
  | .init outcome =>
    match s.caller with
    | .idle _ => some (s.initStep outcome)
    | _ => none
  | .created =>
    if s.caller = .create then
      some { s with
        tid := some s.threads.created
        threads := s.threads.spawn .start
        caller := .idle false }
    else none
  -- **`rkipc_osd_draw_nn_deinit`** in its steps
  | .deinit =>
    match s.caller with
    | .idle _ => some { s with caller := if s.run then .clear else .detach }
    | _ => none
  | .cleared => if s.caller = .clear then some { s with run := false, caller := .join } else none
  | .joined =>
    if s.caller = .join ∧ ∀ k ∈ s.tid, s.threads.place k = .ended then
      some { s with caller := .detach }
    else none
  | .detached =>
    if s.caller = .detach then
      some { s with region := s.region.release, caller := .idle true }
    else none
  | .thread k ok => if k < s.threads.created then s.threadStep k ok else none

end NnOsd

/-- **No thread is left** after `rkipc_osd_draw_nn_deinit` has returned, and a thread draws on the
canvas of the region that is there. -/
structure NoneLeft (s : NnOsd) : Prop where
  ended : s.caller = .idle true → s.threads.Over .ended
  canvas : s.threads.All fun _ p => ∀ g, p = .draw g → s.region.held = some g

/-- **Orderly**: `rkipc_osd_draw_nn_init` is called when all earlier threads have ended, and
`rkipc_osd_draw_nn_deinit` when no thread is before its first statement. -/
def NnEvent.Orderly (s : NnOsd) : NnEvent → Prop
  | .init _ => s.threads.Over .ended
  | .deinit => s.threads.All fun _ p => p ≠ .start
  | _ => True

instance (s : NnOsd) (e : NnEvent) : Decidable (e.Orderly s) :=
  match e with
  | .init _ => inferInstanceAs (Decidable (s.threads.Over .ended))
  | .deinit => inferInstanceAs (Decidable (s.threads.All fun _ p => p ≠ .start))
  | .created | .cleared | .joined | .detached | .thread _ _ => .isTrue trivial

namespace NnOsd

/-- What holds of the threads while the caller stands at `c`. -/
def Allowed (run : Bool) (threads : Workers NnPlace) : NnCaller → Prop
  -- a thread that has begun finds the flag set
  | .idle stopped => (threads.All fun _ p => p ≠ .ended → p ≠ .start → run = true) ∧
      (stopped = true → threads.Over .ended)
  | .create | .detach => threads.Over .ended
  | .clear | .join => threads.All fun _ p => p ≠ .start

/-- **The invariant**: there is one thread at most, the one whose id is kept, and it draws on the
region that is there. -/
structure Inv (s : NnOsd) : Prop where
  sole : s.threads.Sole .ended s.tid
  canvas : s.threads.All fun _ p => ∀ g, p = .draw g → s.region.held = some g
  allowed : Allowed s.run s.threads s.caller

variable {s t : NnOsd} {k : ℕ} {ok : Bool}

theorem inv_start : start.Inv :=
  ⟨Workers.all_unborn, Workers.all_unborn, Workers.all_unborn, nofun⟩

theorem Inv.noneLeft (hs : s.Inv) : NoneLeft s where
  ended hidle := by
    have hallowed := hs.allowed
    rw [hidle] at hallowed
    exact hallowed.2 rfl
  canvas := hs.canvas

/-- Without a thread that goes on, any region will do. -/
theorem canvas_of_over {threads : Workers NnPlace} {region : Option ℕ}
    (h : threads.Over .ended) :
    threads.All fun _ p => ∀ g, p = .draw g → region = some g := by
  refine h.all fun _ g hg => ?_
  cases hg

/-- When all threads have ended the caller may stand anywhere. -/
theorem allowed_of_over {run : Bool} {threads : Workers NnPlace} (c : NnCaller)
    (h : threads.Over .ended) : Allowed run threads c := by
  have hstart : threads.All fun _ p => p ≠ .start := h.all fun _ => by simp
  cases c with
  | idle stopped => exact ⟨h.all fun _ hne => absurd rfl hne, fun _ => h⟩
  | create => exact h
  | clear => exact hstart
  | join => exact hstart
  | detach => exact h

theorem inv_of_over (h : s.threads.Over .ended) : s.Inv :=
  ⟨h.sole, canvas_of_over h, allowed_of_over _ h⟩

/-- A thread that is past its first statement, and has not ended, goes on. -/
theorem Inv.goOn {p : NnPlace} (hs : s.Inv) (hk : k < s.threads.created)
    (hne : s.threads.place k ≠ .ended) (hcanvas : ∀ g, p = .draw g → s.region.held = some g)
    (hstart : p ≠ .start) (hrun : s.threads.place k = .start → s.run = true) :
    (s.goOn k p).Inv := by
  refine ⟨hs.sole.move hk hne, hs.canvas.move hcanvas, ?_⟩
  have hallowed := hs.allowed
  change Allowed s.run (s.threads.move k p) s.caller
  cases hc : s.caller with
  | idle stopped =>
    rw [hc] at hallowed
    refine ⟨hallowed.1.move fun _ _ => ?_, fun hstopped => ?_⟩
    · by_cases h : s.threads.place k = .start
      · exact hrun h
      · exact hallowed.1 k hk hne h
    · exact absurd (hallowed.2 hstopped k hk) hne
  | create =>
    rw [hc] at hallowed
    exact absurd (hallowed k hk) hne
  | clear | join =>
    rw [hc] at hallowed
    have hpast : s.threads.All fun _ p => p ≠ .start := hallowed
    exact hpast.move hstart
  | detach =>
    rw [hc] at hallowed
    exact absurd (hallowed k hk) hne

/-- The run flag is set by a thread in its first statement. -/
theorem Inv.setRun (hs : s.Inv) : ({ s with run := true } : NnOsd).Inv := by
  refine ⟨hs.sole, hs.canvas, ?_⟩
  have hallowed := hs.allowed
  change Allowed true s.threads s.caller
  cases hc : s.caller with
  | idle stopped =>
    rw [hc] at hallowed
    exact ⟨fun _ _ _ _ => rfl, hallowed.2⟩
  | create | clear | join | detach =>
    rw [hc] at hallowed
    exact hallowed

/-- One step of a thread. -/
theorem Inv.threadStep (hs : s.Inv) (hk : k < s.threads.created)
    (ht : s.threadStep k ok = some t) : t.Inv := by
  unfold NnOsd.threadStep at ht
  cases hp : s.threads.place k with
  | start =>
    simp only [hp] at ht
    obtain rfl := Option.some.inj ht
    exact hs.setRun.goOn hk (by simp [hp]) (by simp) (by simp) fun _ => rfl
  | head =>
    simp only [hp] at ht
    obtain rfl := Option.some.inj ht
    refine hs.goOn hk (by simp [hp]) ?_ ?_ (by simp [hp])
    · split <;> simp
    · split <;> simp
  | fetch =>
    simp only [hp] at ht
    split at ht
    · next g hheld =>
      obtain rfl := Option.some.inj ht
      refine hs.goOn hk (by simp [hp]) ?_ (by simp) (by simp [hp])
      intro g' hg'
      rw [hheld, NnPlace.draw.inj hg']
    · obtain rfl := Option.some.inj ht
      exact hs.goOn hk (by simp [hp]) (by simp) (by simp) (by simp [hp])
  | draw g =>
    simp only [hp] at ht
    obtain rfl := Option.some.inj ht
    exact hs.goOn hk (by simp [hp]) (by simp) (by simp) (by simp [hp])
  | ended =>
    simp only [hp] at ht
    cases ht

/-- **Every orderly step keeps the invariant.** -/
theorem Inv.step {e : NnEvent} (hs : s.Inv) (he : e.Orderly s) (ht : s.step e = some t) :
    t.Inv := by
  have hallowed := hs.allowed
  cases e with
  | init outcome =>
    simp only [NnOsd.step] at ht
    split at ht
    · obtain rfl := Option.some.inj ht
      -- no thread is there whose region could change
      have hover : (s.initStep outcome).threads.Over .ended := by
        cases outcome <;> exact he
      exact inv_of_over hover
    · cases ht
  | created =>
    simp only [NnOsd.step] at ht
    split_ifs at ht with hc
    obtain rfl := Option.some.inj ht
    rw [hc] at hallowed
    refine ⟨Workers.Over.spawn hallowed, (canvas_of_over hallowed).spawn (by simp), ?_, nofun⟩
    have hover : s.threads.Over .ended := hallowed
    exact Workers.All.spawn (hover.all fun _ hne => absurd rfl hne) fun _ h => absurd rfl h
  | deinit =>
    simp only [NnOsd.step] at ht
    split at ht
    · next stopped hc =>
      obtain rfl := Option.some.inj ht
      rw [hc] at hallowed
      refine ⟨hs.sole, hs.canvas, ?_⟩
      cases hrun : s.run with
      | true => exact he
      | false =>
        -- no thread is before its first statement, and none has found the flag set
        change s.threads.Over .ended
        intro k hk
        by_contra hne
        have h := hallowed.1 k hk hne (he k hk)
        rw [hrun] at h
        cases h
    · cases ht
  | cleared =>
    simp only [NnOsd.step] at ht
    split_ifs at ht with hc
    obtain rfl := Option.some.inj ht
    rw [hc] at hallowed
    exact ⟨hs.sole, hs.canvas, hallowed⟩
  | joined =>
    simp only [NnOsd.step] at ht
    split_ifs at ht with hc
    obtain rfl := Option.some.inj ht
    exact inv_of_over (s := { s with caller := .detach }) (hs.sole.over hc.2)
  | detached =>
    simp only [NnOsd.step] at ht
    split_ifs at ht with hc
    obtain rfl := Option.some.inj ht
    rw [hc] at hallowed
    exact inv_of_over (s := { s with region := s.region.release, caller := .idle true }) hallowed
  | thread k ok =>
    simp only [NnOsd.step] at ht
    split_ifs at ht with hk
    exact hs.threadStep hk ht

end NnOsd

/-- **No thread is left**, in every state of every orderly run. -/
theorem noneLeft_of_orderly {t : NnOsd} {es : List NnEvent}
    (hrun : Run (fun s e u => e.Orderly s ∧ s.step e = some u) NnOsd.start es t) : NoneLeft t :=
  (hrun.invariant (I := NnOsd.Inv) (fun _ _ _ hs h => hs.step h.1 h.2) NnOsd.inv_start).noneLeft

/-- A start, a frame that is drawn, and a stop. -/
def drawOnce : List NnEvent :=
  [.init .attached, .created, .thread 0 true, .thread 0 true, .thread 0 true, .deinit, .cleared,
    .thread 0 true, .thread 0 true, .joined, .detached]

theorem noneLeft_of_orderly_drawOnce :
    ∃ t, Run (fun s e u => e.Orderly s ∧ s.step e = some u) NnOsd.start drawOnce t ∧
      t.caller = .idle true ∧ NoneLeft t := by
  obtain ⟨t, ht, hstopped⟩ : ∃ t, drawOnce.foldlM
      (fun s e => if e.Orderly s then s.step e else none) NnOsd.start = some t ∧
      t.caller = .idle true := ⟨_, rfl, rfl⟩
  have hrun := Run.of_foldlM_guard ht
  exact ⟨t, hrun, hstopped, noneLeft_of_orderly hrun⟩

/-- **A deinit before the first statement of the thread** does not join it: it then sets the flag,
goes into its loop, and draws on the canvas of the region that is destroyed. -/
theorem left_of_early_deinit :
    ∃ t, Run (fun s e u => s.step e = some u) NnOsd.start
        [.init .attached, .created, .deinit, .thread 0 true, .thread 0 true, .thread 0 true,
          .detached] t ∧
      t.caller = .idle true ∧ t.threads.place 0 = .draw 0 ∧ 0 ∈ t.region.released ∧
      ¬ NoneLeft t := by
  obtain ⟨t, ht, hstopped, hcreated, hplace, hreleased⟩ : ∃ t,
      List.foldlM NnOsd.step NnOsd.start [.init .attached, .created, .deinit, .thread 0 true,
        .thread 0 true, .thread 0 true, .detached] = some t ∧
      t.caller = .idle true ∧ 0 < t.threads.created ∧ t.threads.place 0 = .draw 0 ∧
      0 ∈ t.region.released :=
    ⟨_, rfl, rfl, by decide, rfl, by decide⟩
  refine ⟨t, Run.of_foldlM ht, hstopped, hplace, hreleased, fun h => ?_⟩
  have hended := h.ended hstopped 0 hcreated
  rw [hplace] at hended
  cases hended

/-! ## The statements of the pipeline -/

/-- How `rkipc_osd_draw_nn_init` goes. -/
def RegionAnswers.outcome (a : RegionAnswers) : RegionOutcome :=
  if !a.create then .createFails else if a.setAttr && a.attachToChn then .attached else .attachFails

namespace NnOsd

/-- **The statements** of the video pipeline that an event stands for. -/
def commands (s : NnOsd) : NnEvent → List Command
  | .init .createFails => [.destroy .nnRgn]
  | .init _ => [.create .nnRgn]
  | .created => [.spawn .nnOsd]
  | .deinit => [.findNnRun s.run]
  | .cleared => [.clearNnRun]
  | .joined => [.join .nnOsd]
  | .detached => [.destroy .nnRgn]
  | .thread _ _ => []

theorem rkipcOsdDrawNnInit_eq (a : RegionAnswers) (s t : NnOsd) :
    rkipcOsdDrawNnInit a = s.commands (.init a.outcome) ++
      if a.outcome = .attached then t.commands .created else [] := by
  rcases a with ⟨_ | _, _ | _, _ | _, begun⟩ <;> rfl

theorem rkipcOsdDrawNnDeinit_eq (s t : NnOsd) :
    rkipcOsdDrawNnDeinit s.run = s.commands .deinit ++
      (if s.run then t.commands .cleared ++ t.commands .joined else []) ++
        t.commands .detached := by
  cases h : s.run <;> simp [rkipcOsdDrawNnDeinit, commands, h]

end NnOsd

/-- **Initialised and deinitialised in turn**: an init finds no region and gets one, a deinit finds
one. -/
def NnEvent.Paired (s : NnOsd) : NnEvent → Prop
  | .init outcome => outcome ≠ .createFails ∧ s.region.held = none
  | .deinit => s.region.held ≠ none
  | _ => True

namespace NnOsd

/-- No thread, as the board has it. -/
structure Quiet (s : NnOsd) (b : Board) : Prop where
  ended : s.threads.Over .ended
  run : s.run = false
  on : b.on .nnOsd = false
  nnRun : b.nnRun = some false

/-- A thread that may not have begun, as the board has it. -/
structure Drawing (s : NnOsd) (b : Board) : Prop where
  live : ¬ s.threads.Over .ended
  on : b.on .nnOsd = true
  nnRun : b.nnRun = none
  held : s.region.held ≠ none

/-- What the board has of the caller. -/
def CallerShown (s : NnOsd) (b : Board) : NnCaller → Prop
  | .idle _ => s.Quiet b ∨ s.Drawing b
  | .create | .detach => s.Quiet b ∧ s.region.held ≠ none
  | .clear => b.on .nnOsd = true ∧ b.nnRun = some true ∧ s.region.held ≠ none
  | .join => b.on .nnOsd = true ∧ b.nnRun = some false ∧ s.run = false ∧ s.region.held ≠ none

/-- **The board of the pipeline shows** the region and the caller. -/
structure Shown (s : NnOsd) (b : Board) : Prop where
  alive : b.alive .nnRgn = s.region.held.isSome
  caller : s.CallerShown b s.caller

section

variable {s t : NnOsd} {b : Board} {k : ℕ} {ok : Bool}

/-- **What a step of a thread leaves**; it comes to its end where the flag is cleared only. -/
theorem threadStep_frame (ht : s.threadStep k ok = some t) :
    t.caller = s.caller ∧ t.region = s.region ∧ t.threads.created = s.threads.created ∧
      s.threads.place k ≠ .ended ∧ (s.threads.place k ≠ .start → t.run = s.run) ∧
        (t.threads.place k = .ended → s.threads.place k ≠ .start ∧ s.run = false) := by
  unfold threadStep at ht
  cases hp : s.threads.place k with
  | start =>
    simp only [hp] at ht
    obtain rfl := Option.some.inj ht
    refine ⟨rfl, rfl, rfl, nofun, fun hne => absurd rfl hne, fun hend => ?_⟩
    rw [goOn, Resource.Workers.place_move_self] at hend
    cases hend
  | head =>
    simp only [hp] at ht
    obtain rfl := Option.some.inj ht
    refine ⟨rfl, rfl, rfl, nofun, fun _ => rfl, fun hend => ⟨nofun, ?_⟩⟩
    rw [goOn, Resource.Workers.place_move_self] at hend
    split at hend
    · cases hend
    · next hoff => exact Bool.eq_false_iff.mpr hoff
  | fetch =>
    simp only [hp] at ht
    split at ht
    · obtain rfl := Option.some.inj ht
      refine ⟨rfl, rfl, rfl, nofun, fun _ => rfl, fun hend => ?_⟩
      rw [goOn, Resource.Workers.place_move_self] at hend
      cases hend
    · obtain rfl := Option.some.inj ht
      refine ⟨rfl, rfl, rfl, nofun, fun _ => rfl, fun hend => ?_⟩
      rw [goOn, Resource.Workers.place_move_self] at hend
      cases hend
  | draw g =>
    simp only [hp] at ht
    obtain rfl := Option.some.inj ht
    refine ⟨rfl, rfl, rfl, nofun, fun _ => rfl, fun hend => ?_⟩
    rw [goOn, Resource.Workers.place_move_self] at hend
    cases hend
  | ended =>
    simp only [hp] at ht
    cases ht

/-- A step of a thread. -/
theorem Shown.threadStep (h : s.Shown b) (hs : s.Inv) (hk : k < s.threads.created)
    (ht : s.threadStep k ok = some t) : t.Shown b := by
  obtain ⟨hcaller, hregion, hcreated, hne, hrun, hended⟩ := threadStep_frame ht
  have hlive : ¬ s.threads.Over .ended := fun hover => hne (hover k hk)
  have hallowed := hs.allowed
  have hshown := h.caller
  refine ⟨by rw [hregion]; exact h.alive, ?_⟩
  rw [hcaller]
  cases hc : s.caller with
  | idle stopped =>
    rw [hc] at hallowed hshown
    rcases hshown with hquiet | hdrawing
    · exact absurd hquiet.ended hlive
    · refine .inr ⟨fun hover => ?_, hdrawing.on, hdrawing.nnRun, hregion ▸ hdrawing.held⟩
      -- a thread that has begun finds the flag set, and goes on
      obtain ⟨hstart, hoff⟩ := hended (hover k (hcreated ▸ hk))
      have hon := hallowed.1 k hk hne hstart
      exact absurd (hon.symm.trans hoff) (by decide)
  | create | detach =>
    rw [hc] at hshown
    exact absurd hshown.1.ended hlive
  | clear =>
    rw [hc] at hshown
    exact ⟨hshown.1, hshown.2.1, hregion ▸ hshown.2.2⟩
  | join =>
    rw [hc] at hallowed hshown
    have hstart : s.threads.place k ≠ .start := hallowed k hk
    exact ⟨hshown.1, hshown.2.1, (hrun hstart).trans hshown.2.2.1, hregion ▸ hshown.2.2.2⟩

/-- **An orderly step is in order on the board**, which shows what comes of it. -/
theorem Shown.step {e : NnEvent} (h : s.Shown b) (hs : s.Inv) (he : e.Orderly s)
    (hp : e.Paired s) (ht : s.step e = some t) :
    InOrder Board.Allows Board.exec b (s.commands e) ∧
      t.Shown ((s.commands e).foldl Board.exec b) := by
  have halive := h.alive
  have hshown := h.caller
  have hallowed := hs.allowed
  cases e with
  | init outcome =>
    simp only [NnOsd.step] at ht
    split at ht
    · next stopped hc =>
      obtain rfl := Option.some.inj ht
      rw [hc] at hshown
      obtain ⟨hcreate, hheld⟩ := hp
      have hquiet : s.Quiet b := hshown.resolve_right fun hdrawing => hdrawing.held hheld
      rw [hheld] at halive
      cases outcome with
      | createFails => exact absurd rfl hcreate
      | attachFails =>
        exact ⟨⟨halive, trivial⟩, rfl, .inl ⟨hquiet.ended, hquiet.run, hquiet.on, hquiet.nnRun⟩⟩
      | attached =>
        exact ⟨⟨halive, trivial⟩, rfl, ⟨hquiet.ended, hquiet.run, hquiet.on, hquiet.nnRun⟩, nofun⟩
    · cases ht
  | created =>
    simp only [NnOsd.step] at ht
    split_ifs at ht with hc
    obtain rfl := Option.some.inj ht
    rw [hc] at hshown
    obtain ⟨hquiet, hheld⟩ := hshown
    have hregion : b.alive .nnRgn = true := halive.trans (Option.isSome_iff_ne_none.mpr hheld)
    refine ⟨⟨⟨hquiet.on, fun r hr => ?_, fun _ => hquiet.nnRun⟩, trivial⟩, halive, .inr ?_⟩
    · obtain rfl := Option.some.inj hr
      exact hregion
    · refine ⟨fun hover => ?_, rfl, rfl, hheld⟩
      have hplace := hover s.threads.created (Nat.lt_succ_self _)
      rw [Resource.Workers.place_spawn_self] at hplace
      cases hplace
  | deinit =>
    simp only [NnOsd.step] at ht
    split at ht
    · next stopped hc =>
      obtain rfl := Option.some.inj ht
      rw [hc] at hshown hallowed
      rcases hshown with hquiet | hdrawing
      · refine ⟨⟨?_, trivial⟩, halive, ?_⟩
        · rw [Board.Allows, hquiet.nnRun, hquiet.run]
          rfl
        · rw [hquiet.run]
          exact ⟨⟨hquiet.ended, rfl, hquiet.on, congrArg some hquiet.run⟩, hp⟩
      · -- the thread has begun, and has set the flag
        have hrun : s.run = true := by
          by_contra hoff
          refine hdrawing.live fun k hk => ?_
          by_contra hne
          exact hoff (hallowed.1 k hk hne (he k hk))
        refine ⟨⟨?_, trivial⟩, halive, ?_⟩
        · rw [Board.Allows, hdrawing.nnRun, hrun]
          rfl
        · rw [hrun]
          exact ⟨hdrawing.on, congrArg some hrun, hp⟩
    · cases ht
  | cleared =>
    simp only [NnOsd.step] at ht
    split_ifs at ht with hc
    obtain rfl := Option.some.inj ht
    rw [hc] at hshown
    exact ⟨⟨hshown.2.1, trivial⟩, halive, hshown.1, rfl, rfl, hshown.2.2⟩
  | joined =>
    simp only [NnOsd.step] at ht
    split_ifs at ht with hc
    obtain rfl := Option.some.inj ht
    rw [hc.1] at hshown
    have hends : b.goesOn .nnOsd = false := by simp [Board.goesOn, hshown.2.1]
    exact ⟨⟨⟨hshown.1, hends⟩, trivial⟩, halive,
      ⟨hs.sole.over hc.2, hshown.2.2.1, rfl, hshown.2.1⟩, hshown.2.2.2⟩
  | detached =>
    simp only [NnOsd.step] at ht
    split_ifs at ht with hc
    obtain rfl := Option.some.inj ht
    rw [hc] at hshown
    obtain ⟨hquiet, hheld⟩ := hshown
    have hregion : b.alive .nnRgn = true := halive.trans (Option.isSome_iff_ne_none.mpr hheld)
    refine ⟨⟨⟨hregion, fun w hw => ?_⟩, trivial⟩, ?_, .inl
      ⟨hquiet.ended, hquiet.run, hquiet.on, hquiet.nnRun⟩⟩
    · obtain rfl := List.mem_singleton.mp hw
      exact hquiet.on
    · rw [Resource.Slot.held_release]
      rfl
  | thread k ok =>
    simp only [NnOsd.step] at ht
    split_ifs at ht with hk
    exact ⟨inOrder_nil, h.threadStep hs hk ht⟩

end

end NnOsd

/-- A step with what it makes of the board. -/
def NnEvent.StepOn (x : NnOsd × Board) (e : NnEvent) (y : NnOsd × Board) : Prop :=
  (e.Orderly x.1 ∧ e.Paired x.1 ∧ x.1.step e = some y.1) ∧
    y.2 = (x.1.commands e).foldl Board.exec x.2

/-- **Orderly runs execute statements of the pipeline in order**, whatever comes next. -/
theorem commands_inOrder {x y : NnOsd × Board} {es : List NnEvent} {e : NnEvent}
    (hrun : Run NnEvent.StepOn (NnOsd.start, .off) es x) (hstep : e.StepOn x y) :
    InOrder Board.Allows Board.exec x.2 (x.1.commands e) := by
  have hinv : x.1.Inv ∧ x.1.Shown x.2 := by
    refine hrun.invariant (I := fun x => x.1.Inv ∧ x.1.Shown x.2) (fun x e y hx h => ?_)
      ⟨NnOsd.inv_start, rfl, .inl ⟨Resource.Workers.all_unborn, rfl, rfl, rfl⟩⟩
    obtain ⟨⟨he, hp, ht⟩, hboard⟩ := h
    exact ⟨hx.1.step he ht, hboard ▸ (hx.2.step hx.1 he hp ht).2⟩
  obtain ⟨⟨he, hp, ht⟩, -⟩ := hstep
  exact (hinv.2.step hinv.1 he hp ht).1

end RkIpc.Video
