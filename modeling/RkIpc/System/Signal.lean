import Mathlib.Data.Fin.Basic
import RkIpc.Counter.Guarded
import RkIpc.Wire.Int32

/-!
# Signals

A signal of `common/common.c` is a semaphore with a largest value. `rk_signal_give` reads the value
of the semaphore and posts it afterwards if the value was below the largest one. Two calls that
both read before they post exceed it.

## Main definitions

* `RkSignal`, `rkSignalCreate`: a signal
* `Threads`, `Threads.Step`: threads in the middle of `rk_signal_give`, and what they do
* `Threads.Alone`: a give that does not begin in the middle of another one

## Main results

* `signal_within`: gives one after the other keep the signal within its largest value
* `signal_exceeded`: two at the same time do not
-/

namespace RkIpc.System

open Transition Wire

/-- `SEM_VALUE_MAX`. -/
def semValueMax : ℤ := 2147483647

/-- `rk_signal_t`. -/
structure RkSignal where
  sem : ℤ
  maxVal : ℤ
deriving DecidableEq, Repr

/-- **`rk_signal_create`**; `memory` is whether `malloc` finds memory. A value that is negative, and
so too large for `sem_init`, has no semaphore. -/
def rkSignalCreate (memory : Bool) (defval maxval : ℤ) : Option RkSignal :=
  if memory ∧ 0 ≤ defval ∧ defval ≤ semValueMax then some ⟨defval, maxval⟩ else none

/-- `sem_post`, which fails at the largest value a semaphore can have. -/
def RkSignal.semPost (s : RkSignal) : RkSignal :=
  if s.sem = semValueMax then s else { s with sem := s.sem + 1 }

/-- **Threads** that share a signal; `val` is the variable of those that have read the value in
`rk_signal_give` and have not returned yet. -/
structure Threads (ι : Type*) where
  signal : RkSignal
  val : ι → Option ℤ

/-- What a thread does: it begins `rk_signal_give` and reads the value, posts the semaphore or
returns without, and `rk_signal_wait` returns 0 or -1. -/
inductive Action where
  | getvalue
  | post
  | full
  | wait
  | waitFailed
deriving DecidableEq

/-- What it does to the semaphore. -/
def Action.guarded : Action → Counter.GuardedAction
  | .getvalue => .look
  | .post => .raise
  | .full => .leave
  | .wait => .lower
  | .waitFailed => .other

namespace Threads

variable {ι : Type*} [DecidableEq ι] {w u : Threads ι}

/-- No thread has begun. -/
def start (s : RkSignal) : Threads ι := ⟨s, fun _ => none⟩

/-- **A step of a thread.** -/
inductive Step (w : Threads ι) : ι × Action → Threads ι → Prop
  | getvalue {i : ι} :
      w.val i = none →
      Step w (i, .getvalue) { w with val := Function.update w.val i (some w.signal.sem) }
  | post {i : ι} {v : ℤ} :
      w.val i = some v → v < w.signal.maxVal →
      Step w (i, .post) ⟨w.signal.semPost, Function.update w.val i none⟩
  | full {i : ι} {v : ℤ} :
      w.val i = some v → w.signal.maxVal ≤ v →
      Step w (i, .full) { w with val := Function.update w.val i none }
  | wait {i : ι} :
      w.val i = none → 0 < w.signal.sem →
      Step w (i, .wait) { w with signal := { w.signal with sem := w.signal.sem - 1 } }
  | waitFailed {i : ι} : w.val i = none → Step w (i, .waitFailed) w

/-- **The value is not read in the middle of another give**: no other thread has found it below the
largest one and is still to post. -/
def Alone (w : Threads ι) : ι × Action → Prop
  | (i, .getvalue) => ∀ j, j ≠ i → ∀ v, w.val j = some v → w.signal.maxVal ≤ v
  | _ => True

/-- The semaphore with the values that were read. -/
def counter (w : Threads ι) : Counter ι := ⟨w.signal.sem, w.val⟩

theorem Step.maxVal_eq {a : ι × Action} (hstep : Step w a u) :
    u.signal.maxVal = w.signal.maxVal := by
  cases hstep with
  | post =>
    show w.signal.semPost.maxVal = w.signal.maxVal
    unfold RkSignal.semPost
    split <;> rfl
  | getvalue | full | wait | waitFailed => rfl

/-- **A step is one of the counter**, unless there is no room for a post. -/
theorem Step.guardedStep {a : ι × Action} (hstep : Step w a u)
    (hmax : w.signal.maxVal ≤ semValueMax) (hw : w.counter.Guarded w.signal.maxVal) :
    Counter.GuardedStep w.signal.maxVal w.counter (a.1, a.2.guarded) u.counter := by
  cases hstep with
  | getvalue hi => exact .look hi
  | @post i v hi hv =>
    have hcurrent : w.signal.sem ≤ v := hw.current i v hi hv
    have hpost : w.signal.semPost = { w.signal with sem := w.signal.sem + 1 } :=
      if_neg (by omega)
    rw [hpost]
    exact .raise hi hv
  | full hi hv => exact .leave hi hv
  | wait _ hpos => exact .lower hpos
  | waitFailed => exact .other _

omit [DecidableEq ι] in
theorem Alone.quiet {a : ι × Action} (h : w.Alone a) :
    w.counter.Quiet w.signal.maxVal (a.1, a.2.guarded) := by
  obtain ⟨i, a⟩ := a
  cases a with
  | getvalue =>
    rintro j hj ⟨v, hv, hval⟩
    exact absurd (h j hj v hval) (by omega)
  | post | full | wait | waitFailed => exact trivial

/-- **A run is one of the counter.** -/
theorem run_counter {as : List (ι × Action)} (hmax : w.signal.maxVal ≤ semValueMax)
    (hw : w.counter.Guarded w.signal.maxVal)
    (hrun : Run (fun w a u => w.Alone a ∧ Step w a u) w as u) :
    u.signal.maxVal = w.signal.maxVal ∧
      Run (fun s a t => s.Quiet w.signal.maxVal a ∧ Counter.GuardedStep w.signal.maxVal s a t)
        w.counter (as.map fun a => (a.1, a.2.guarded)) u.counter := by
  induction hrun with
  | nil => exact ⟨rfl, .nil⟩
  | snoc _ hstep ih =>
    obtain ⟨heq, hrun⟩ := ih
    obtain ⟨halone, hstep⟩ := hstep
    have hguarded := (Counter.guarded_value hrun hw).1
    rw [← heq] at hguarded
    have hquiet := halone.quiet
    have hcounter := hstep.guardedStep (heq.trans_le hmax) hguarded
    rw [heq] at hquiet hcounter
    rw [List.map_append]
    exact ⟨hstep.maxVal_eq.trans heq, .snoc hrun ⟨hquiet, hcounter⟩⟩

end Threads

/-- The posts, and the waits that returned 0. -/
def posts {ι : Type*} (as : List (ι × Action)) : ℤ := as.countP (·.2 = .post)

/-- The waits that returned 0. -/
def waits {ι : Type*} (as : List (ι × Action)) : ℤ := as.countP (·.2 = .wait)

theorem sum_change {ι : Type*} (as : List (ι × Action)) :
    ((as.map fun a => (a.1, a.2.guarded)).map fun a => a.2.change).sum = posts as - waits as := by
  induction as with
  | nil => rfl
  | cons a as ih =>
    rw [List.map_cons, List.map_cons, List.sum_cons, ih, posts, posts, waits, waits,
      List.countP_cons, List.countP_cons]
    cases a.2 <;> simp [Action.guarded, Counter.GuardedAction.change] <;> omega

/-- **Gives one after the other**: the signal does not exceed its largest value, and every give that
found it below has raised it by one. -/
theorem signal_within {ι : Type*} [DecidableEq ι] {memory : Bool} {d m : ℤ} {s : RkSignal}
    (hd : 0 ≤ d) (hdm : d ≤ m) (hm : InRange m) (hs : rkSignalCreate memory d m = some s)
    {as : List (ι × Action)} {w : Threads ι}
    (hrun : Run (fun w a u => Threads.Alone w a ∧ Threads.Step w a u) (Threads.start s) as w) :
    w.signal.sem ≤ m ∧ w.signal.sem = d + posts as - waits as := by
  have heq : s = ⟨d, m⟩ := by
    unfold rkSignalCreate at hs
    split at hs
    · exact (Option.some.inj hs).symm
    · cases hs
  subst heq
  have hmax : m ≤ semValueMax := Int.le_of_lt_add_one hm.2
  have hstart : (Threads.start (ι := ι) ⟨d, m⟩).counter.Guarded m :=
    .of_none hd hdm fun _ => rfl
  obtain ⟨-, hcounter⟩ := Threads.run_counter hmax hstart hrun
  obtain ⟨hguarded, hvalue⟩ := Counter.guarded_value hcounter hstart
  rw [sum_change] at hvalue
  exact ⟨hguarded.le, hvalue.trans (Int.add_sub_assoc d _ _).symm⟩

/-- A give, and a wait of another thread. -/
theorem signal_within_give : ∃ w : Threads (Fin 2), w.signal.sem ≤ 1 ∧
    w.signal.sem = 0 + posts [((0 : Fin 2), .getvalue), (0, .post), (1, .wait)] -
      waits [((0 : Fin 2), .getvalue), (0, .post), (1, .wait)] := by
  let w₁ : Threads (Fin 2) := ⟨⟨0, 1⟩, Function.update (fun _ => none) 0 (some 0)⟩
  let w₂ : Threads (Fin 2) := ⟨⟨1, 1⟩, Function.update w₁.val 0 none⟩
  have hget : Threads.Step (Threads.start ⟨0, 1⟩) (0, .getvalue) w₁ := .getvalue rfl
  have hpost : Threads.Step w₁ (0, .post) w₂ := .post (v := 0) rfl (by decide)
  have hwait : Threads.Step w₂ (1, .wait) ⟨⟨0, 1⟩, w₂.val⟩ := .wait rfl (by decide)
  have halone : Threads.Alone (Threads.start ⟨0, 1⟩) ((0 : Fin 2), .getvalue) :=
    fun _ _ _ h => by cases h
  refine ⟨_, signal_within le_rfl (by decide) ⟨by decide, by decide⟩
    (show rkSignalCreate true 0 1 = some ⟨0, 1⟩ from rfl)
    (.snoc (.snoc (.single ⟨halone, hget⟩) ⟨trivial, hpost⟩) ⟨trivial, hwait⟩)⟩

/-- **Two gives at the same time**: both read 0, and the value is 2 in the end. -/
theorem signal_exceeded : ∃ (s : RkSignal) (w : Threads (Fin 2)),
    rkSignalCreate true 0 1 = some s ∧
      Run Threads.Step (Threads.start s) [(0, .getvalue), (1, .getvalue), (0, .post), (1, .post)]
        w ∧
      ¬ w.signal.sem ≤ 1 := by
  let w₁ : Threads (Fin 2) := ⟨⟨0, 1⟩, Function.update (fun _ => none) 0 (some 0)⟩
  let w₂ : Threads (Fin 2) := ⟨⟨0, 1⟩, Function.update w₁.val 1 (some 0)⟩
  let w₃ : Threads (Fin 2) := ⟨⟨1, 1⟩, Function.update w₂.val 0 none⟩
  have hget : Threads.Step (Threads.start ⟨0, 1⟩) (0, .getvalue) w₁ := .getvalue rfl
  have hget' : Threads.Step w₁ (1, .getvalue) w₂ := .getvalue rfl
  have hpost : Threads.Step w₂ (0, .post) w₃ := .post (v := 0) rfl (by decide)
  have hpost' : Threads.Step w₃ (1, .post) ⟨⟨2, 1⟩, Function.update w₃.val 1 none⟩ :=
    .post (v := 0) rfl (by decide)
  exact ⟨⟨0, 1⟩, _, rfl, .snoc (.snoc (.snoc (.single hget) hget') hpost) hpost', by decide⟩

end RkIpc.System
