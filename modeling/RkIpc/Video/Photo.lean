import Mathlib.Data.Fintype.Basic
import Mathlib.Logic.Function.Basic
import RkIpc.Transition.Run

/-!
# Photos

`rk_take_photo` asks for a photo by increasing two counters, which the thread that sends the frame
and the thread that gets the photo decrease when they are done. It refuses if one of them is not
zero. `rk_video_set_enable_cycle_snapshot` with 0 sets both to zero. There is no mutex, and a
counter is read and written in two steps.

The joining of the cycle-snapshot thread and the end of the loops, when the video is stopped, are
left out.

## Main definitions

* `Side`: a counter with the thread that decreases it
* `Photo`, `PhotoEvent`, `Photo.step`: the two sides with the callers, and what can happen next
* `NeverStuck`: the counters are 0 or 1, and 0 when a photo is finished, so that the next request is
  accepted
* `PhotoEvent.Orderly`: callers are in turn, and a counter is not reset while its thread works

## Main results

* `neverStuck_of_orderly`: orderly runs are never stuck
* `two_requests`: two callers at the same time make both counters 2
-/

namespace RkIpc.Video

open Transition

/-- Where a thread that decreases a counter stands. -/
inductive WorkerPc
  /-- about to test the counter -/
  | head
  | work
  /-- about to read the counter -/
  | load
  /-- about to write it, one less than what was read -/
  | store (n : ℤ)
deriving DecidableEq, Repr

/-- Who has written a counter last. -/
inductive Writer
  | nobody
  | caller
  | worker
  | reset
deriving DecidableEq, Repr

/-- **A counter** with the thread that decreases it. -/
structure Side where
  cnt : ℤ
  last : Writer
  worker : WorkerPc
deriving DecidableEq, Repr

namespace Side

/-- The counter before the first request. -/
def start : Side := ⟨0, .nobody, .head⟩

/-- One step of the loop of the thread; `ok` is whether the work is done. -/
def workerStep (s : Side) (ok : Bool) : Side :=
  match s.worker with
  | .head => if s.cnt = 0 then s else { s with worker := .work }
  | .work => { s with worker := if ok then .load else .head }
  | .load => { s with worker := .store s.cnt }
  | .store n => ⟨n - 1, .worker, .head⟩

/-- The counter is written by a caller that has read `n`. -/
def increase (s : Side) (n : ℤ) : Side := { s with cnt := n + 1, last := .caller }

/-- The counter is set to zero. -/
def reset (s : Side) : Side := { s with cnt := 0, last := .reset }

/-- **The invariant of a counter**: it is 0 or 1, its thread works while it is 1, and it is 0 unless
it was written last by a caller. -/
structure Inv (s : Side) : Prop where
  range : s.cnt = 0 ∨ s.cnt = 1
  works : s.worker ≠ .head → s.cnt = 1
  read : ∀ n, s.worker = .store n → n = 1
  zero : s.last ≠ .caller → s.cnt = 0

variable {s : Side} {ok : Bool}

theorem inv_start : start.Inv := by
  constructor <;> simp [start]

/-- Nothing is done while the counter is zero. -/
theorem Inv.workerStep_of_zero (hs : s.Inv) (hcnt : s.cnt = 0) : s.workerStep ok = s := by
  have hhead : s.worker = .head := by
    by_contra hne
    have h := hs.works hne
    rw [hcnt] at h
    cases h
  rw [workerStep, hhead]
  exact if_pos hcnt

theorem Inv.workerStep (hs : s.Inv) (ok : Bool) : (s.workerStep ok).Inv := by
  unfold Side.workerStep
  cases hw : s.worker with
  | head =>
    dsimp only
    split_ifs with hcnt
    · exact hs
    · have hone := hs.range.resolve_left hcnt
      exact ⟨hs.range, fun _ => hone, fun _ hn => (by cases hn), hs.zero⟩
  | work =>
    have hone := hs.works (by rw [hw]; nofun)
    refine ⟨hs.range, fun _ => hone, fun n hn => ?_, hs.zero⟩
    cases ok <;> cases hn
  | load =>
    have hone := hs.works (by rw [hw]; nofun)
    refine ⟨hs.range, fun _ => hone, fun n hn => ?_, hs.zero⟩
    rw [← WorkerPc.store.inj hn, hone]
  | store n =>
    obtain rfl := hs.read n hw
    exact ⟨Or.inl rfl, fun h => absurd rfl h, fun _ hn => (by cases hn), fun _ => rfl⟩

/-- A request, by a caller that has read 0 in a counter that is still 0. -/
theorem Inv.increase (hs : s.Inv) (hcnt : s.cnt = 0) : (s.increase 0).Inv := by
  refine ⟨Or.inr rfl, fun _ => rfl, fun n hn => ?_, fun h => absurd rfl h⟩
  have h := hs.works (by rw [show s.worker = .store n from hn]; nofun)
  rw [hcnt] at h
  cases h

/-- A reset while the thread does not work. -/
theorem Inv.reset (hhead : s.worker = .head) : s.reset.Inv := by
  refine ⟨Or.inl rfl, fun h => absurd hhead h, fun n hn => ?_, fun _ => rfl⟩
  rw [show s.worker = .store n from hn] at hhead
  cases hhead

end Side

/-- Where a caller of `rk_take_photo` or `rk_video_set_enable_cycle_snapshot` stands. -/
inductive CallerPc
  /-- in neither function, with what the last `rk_take_photo` returned -/
  | idle (ret : Option ℤ)
  /-- `send_jpeg_cnt` was zero -/
  | testGet
  /-- `get_jpeg_cnt` was zero, too -/
  | testMount
  /-- `RK_MPI_VENC_StartRecvFrame` -/
  | startRecv
  | loadSend
  | storeSend (n : ℤ)
  | loadGet
  | storeGet (n : ℤ)
  /-- about to set `send_jpeg_cnt` to zero -/
  | resetSend
  /-- about to set `get_jpeg_cnt` to zero -/
  | resetGet
  /-- about to clear `cycle_snapshot_flag` -/
  | resetFlag
deriving DecidableEq, Repr

namespace CallerPc

/-- Between the first test of `rk_take_photo` and the writing of `send_jpeg_cnt`. -/
def beforeSend : CallerPc → Bool
  | testGet | testMount | startRecv | loadSend | storeSend _ => true
  | _ => false

/-- Between the second test of `rk_take_photo` and the writing of `get_jpeg_cnt`. -/
def beforeGet : CallerPc → Bool
  | testMount | startRecv | loadSend | storeSend _ | loadGet | storeGet _ => true
  | _ => false

/-- Between the first test of `rk_take_photo` and the writing of the second counter. -/
def inside (c : CallerPc) : Bool := c.beforeSend || c.beforeGet

end CallerPc

/-- **The variables of the photos**: `send_jpeg_cnt`, `get_jpeg_cnt`, `cycle_snapshot_flag`, and the
threads that call. -/
structure Photo (ι : Type) where
  send : Side
  get : Side
  flag : Bool
  callers : ι → CallerPc

/-- What can happen next. `ok` is whether the disk is mounted, or the frame has been sent. -/
inductive PhotoEvent (ι : Type)
  | takePhoto (i : ι)
  /-- `rk_video_set_enable_cycle_snapshot` with 0 -/
  | disable (i : ι)
  | caller (i : ι) (ok : Bool)
  /-- `cycle_snapshot_flag` is set elsewhere -/
  | setFlag (b : Bool)
  | sender (ok : Bool)
  | getter

namespace Photo

variable {ι : Type} [DecidableEq ι]

/-- The variables before the first request. -/
def start : Photo ι := ⟨.start, .start, false, fun _ => .idle none⟩

/-- Caller `i` goes on. -/
def goOn (s : Photo ι) (i : ι) (c : CallerPc) : Photo ι :=
  { s with callers := Function.update s.callers i c }

/-- The next step of caller `i`. -/
def callerStep (s : Photo ι) (i : ι) (ok : Bool) : Option (Photo ι) :=
  match s.callers i with
  | .idle _ => none
  | .testGet => some (s.goOn i (if s.get.cnt = 0 then .testMount else .idle (some (-1))))
  | .testMount => some (s.goOn i (if ok then .startRecv else .idle (some (-1))))
  | .startRecv => some (s.goOn i .loadSend)
  | .loadSend => some (s.goOn i (.storeSend s.send.cnt))
  | .storeSend n => some { s.goOn i .loadGet with send := s.send.increase n }
  | .loadGet => some (s.goOn i (.storeGet s.get.cnt))
  | .storeGet n => some { s.goOn i (.idle (some 0)) with get := s.get.increase n }
  | .resetSend => some { s.goOn i .resetGet with send := s.send.reset }
  | .resetGet => some { s.goOn i .resetFlag with get := s.get.reset }
  | .resetFlag => some { s.goOn i (.idle none) with flag := false }

/-- The variables after an event; `none` when it cannot happen. -/
def step (s : Photo ι) : PhotoEvent ι → Option (Photo ι)
  | .takePhoto i =>
    match s.callers i with
    | .idle _ => some (s.goOn i (if s.send.cnt = 0 then .testGet else .idle (some (-1))))
    | _ => none
  | .disable i =>
    match s.callers i with
    | .idle _ => some (s.goOn i (if s.flag then .resetSend else .idle none))
    | _ => none
  | .caller i ok => s.callerStep i ok
  | .setFlag b => some { s with flag := b }
  | .sender ok => some { s with send := s.send.workerStep ok }
  | .getter => some { s with get := s.get.workerStep true }

/-- A request of caller `i` on a mounted disk, without anybody else. -/
def request (i : ι) : List (PhotoEvent ι) := .takePhoto i :: List.replicate 7 (.caller i true)

/-- Nobody has asked for a photo since both threads have finished the last one. -/
def Finished (s : Photo ι) : Prop := s.send.last ≠ .caller ∧ s.get.last ≠ .caller

end Photo

variable {ι : Type} [DecidableEq ι]

/-- **Never stuck**: both counters are 0 or 1, and once the photo is finished they are 0, and a
request on a mounted disk is accepted. -/
structure NeverStuck (s : Photo ι) : Prop where
  send : s.send.cnt = 0 ∨ s.send.cnt = 1
  get : s.get.cnt = 0 ∨ s.get.cnt = 1
  finished : s.Finished → s.send.cnt = 0 ∧ s.get.cnt = 0
  accepted : s.Finished → ∀ i r, s.callers i = .idle r →
    ∃ t, (Photo.request i).foldlM Photo.step s = some t ∧ t.callers i = .idle (some 0)

/-- **Orderly**: a caller passes the first test only while nobody else is between this test and the
second increment, and a counter is reset while its thread is about to test it. -/
def PhotoEvent.Orderly (s : Photo ι) : PhotoEvent ι → Prop
  | .takePhoto i => s.send.cnt = 0 → ∀ j, j ≠ i → (s.callers j).inside = false
  | .caller i _ => (s.callers i = .resetSend → s.send.worker = .head) ∧
      (s.callers i = .resetGet → s.get.worker = .head)
  | .disable _ | .setFlag _ | .sender _ | .getter => True

instance [Fintype ι] (s : Photo ι) (e : PhotoEvent ι) : Decidable (e.Orderly s) :=
  match e with
  | .takePhoto i =>
    inferInstanceAs (Decidable (s.send.cnt = 0 → ∀ j, j ≠ i → (s.callers j).inside = false))
  | .caller i _ => inferInstanceAs (Decidable ((s.callers i = .resetSend → s.send.worker = .head) ∧
      (s.callers i = .resetGet → s.get.worker = .head)))
  | .disable _ | .setFlag _ | .sender _ | .getter => .isTrue trivial

namespace Photo

/-- **The invariant**: both counters keep theirs, one caller at most is inside, and a counter that a
caller has tested stays 0 until the caller increases it. -/
structure Inv (s : Photo ι) : Prop where
  send : s.send.Inv
  get : s.get.Inv
  single : ∀ i j, (s.callers i).inside = true → (s.callers j).inside = true → i = j
  sendZero : ∀ i, (s.callers i).beforeSend = true → s.send.cnt = 0
  sendRead : ∀ i n, s.callers i = .storeSend n → n = 0
  getZero : ∀ i, (s.callers i).beforeGet = true → s.get.cnt = 0
  getRead : ∀ i n, s.callers i = .storeGet n → n = 0

omit [DecidableEq ι] in
theorem inv_start : (start : Photo ι).Inv where
  send := Side.inv_start
  get := Side.inv_start
  single _ _ h := by cases h
  sendZero _ h := by cases h
  sendRead _ _ h := by cases h
  getZero _ h := by cases h
  getRead _ _ h := by cases h

variable {s t : Photo ι} {i : ι} {ok : Bool}

/-- Both counters are 0, so a request on a mounted disk goes through. -/
theorem accepted_of_zero (hsend : s.send.cnt = 0) (hget : s.get.cnt = 0) {r : Option ℤ}
    (hi : s.callers i = .idle r) :
    ∃ t, (request i).foldlM step s = some t ∧ t.callers i = .idle (some 0) := by
  simp only [request, List.replicate, List.foldlM_cons, List.foldlM_nil, step, callerStep, hi,
    hsend, hget, goOn, Function.update_self, if_true, Option.bind_eq_bind, Option.bind_some,
    Option.pure_def]
  exact ⟨_, rfl, Function.update_self ..⟩

theorem Inv.neverStuck (hs : s.Inv) : NeverStuck s where
  send := hs.send.range
  get := hs.get.range
  finished h := ⟨hs.send.zero h.1, hs.get.zero h.2⟩
  accepted h _ _ hi := accepted_of_zero (hs.send.zero h.1) (hs.get.zero h.2) hi

omit [DecidableEq ι] in
/-- Nobody else is inside. -/
theorem Inv.alone (hs : s.Inv) (hi : (s.callers i).inside = true) (j : ι) (hj : j ≠ i) :
    (s.callers j).inside = false := by
  by_contra hne
  exact hj (hs.single j i (Bool.eq_true_of_not_eq_false hne) hi)

/-- A caller goes on; inside it is alone, and has found the counters 0. -/
theorem Inv.goOn {c : CallerPc} (hs : s.Inv)
    (halone : c.inside = true → ∀ j, j ≠ i → (s.callers j).inside = false)
    (hsend : c.beforeSend = true → s.send.cnt = 0) (hsendRead : ∀ n, c = .storeSend n → n = 0)
    (hget : c.beforeGet = true → s.get.cnt = 0) (hgetRead : ∀ n, c = .storeGet n → n = 0) :
    (s.goOn i c).Inv := by
  -- what holds of caller `i` at `c`, and of the others where they are
  have hall : ∀ P : CallerPc → Prop, P c → (∀ j, P (s.callers j)) →
      ∀ j, P ((s.goOn i c).callers j) := by
    intro P hc h j
    change P (Function.update s.callers i c j)
    rcases eq_or_ne j i with rfl | hne
    · rwa [Function.update_self]
    · rw [Function.update_of_ne hne]
      exact h j
  refine ⟨hs.send, hs.get, fun j k hj hk => ?_,
    hall (fun c => c.beforeSend = true → s.send.cnt = 0) hsend hs.sendZero,
    hall (fun c => ∀ n, c = .storeSend n → n = 0) hsendRead hs.sendRead,
    hall (fun c => c.beforeGet = true → s.get.cnt = 0) hget hs.getZero,
    hall (fun c => ∀ n, c = .storeGet n → n = 0) hgetRead hs.getRead⟩
  change (Function.update s.callers i c j).inside = true at hj
  change (Function.update s.callers i c k).inside = true at hk
  rcases eq_or_ne j i with rfl | hji
  · rcases eq_or_ne k j with rfl | hkj
    · rfl
    · rw [Function.update_self] at hj
      rw [Function.update_of_ne hkj, halone hj k hkj] at hk
      cases hk
  · rw [Function.update_of_ne hji] at hj
    rcases eq_or_ne k i with rfl | hki
    · rw [Function.update_self] at hk
      rw [halone hk j hji] at hj
      cases hj
    · rw [Function.update_of_ne hki] at hk
      exact hs.single j k hj hk

/-- A caller leaves. -/
theorem Inv.leave {c : CallerPc} (hs : s.Inv) (hc : c.inside = false) : (s.goOn i c).Inv := by
  cases c with
  | idle | resetSend | resetGet | resetFlag => exact hs.goOn nofun nofun nofun nofun nofun
  | testGet | testMount | startRecv | loadSend | storeSend | loadGet | storeGet => cases hc

omit [DecidableEq ι] in
theorem Inv.setSend {x : Side} (hs : s.Inv) (hx : x.Inv)
    (hzero : ∀ j, (s.callers j).beforeSend = true → x.cnt = 0) :
    ({ s with send := x } : Photo ι).Inv :=
  ⟨hx, hs.get, hs.single, hzero, hs.sendRead, hs.getZero, hs.getRead⟩

omit [DecidableEq ι] in
theorem Inv.setGet {x : Side} (hs : s.Inv) (hx : x.Inv)
    (hzero : ∀ j, (s.callers j).beforeGet = true → x.cnt = 0) :
    ({ s with get := x } : Photo ι).Inv :=
  ⟨hs.send, hx, hs.single, hs.sendZero, hs.sendRead, hzero, hs.getRead⟩

/-- Nobody is before an increment that the only caller inside has behind it. -/
theorem not_of_alone {f : CallerPc → Bool} (hf : ∀ c, f c = true → c.inside = true)
    (halone : ∀ j, j ≠ i → (s.callers j).inside = false) {c : CallerPc} (hc : f c = false) (j : ι) :
    ¬ f ((s.goOn i c).callers j) = true := by
  intro hj
  change f (Function.update s.callers i c j) = true at hj
  rcases eq_or_ne j i with rfl | hne
  · rw [Function.update_self, hc] at hj
    cases hj
  · rw [Function.update_of_ne hne] at hj
    have hinside := hf _ hj
    rw [halone j hne] at hinside
    cases hinside

/-- One step of a caller. -/
theorem Inv.callerStep (hs : s.Inv) (hsend : s.callers i = .resetSend → s.send.worker = .head)
    (hget : s.callers i = .resetGet → s.get.worker = .head)
    (ht : s.callerStep i ok = some t) : t.Inv := by
  have halone := hs.alone (i := i)
  have hsendZero := hs.sendZero i
  have hgetZero := hs.getZero i
  unfold Photo.callerStep at ht
  cases hc : s.callers i with
  | idle r =>
    simp only [hc] at ht
    cases ht
  | testGet =>
    rw [hc] at halone hsendZero
    simp only [hc] at ht
    obtain rfl := Option.some.inj ht
    split_ifs with hzero
    · exact hs.goOn (fun _ => halone rfl) (fun _ => hsendZero rfl) nofun (fun _ => hzero) nofun
    · exact hs.leave rfl
  | testMount =>
    rw [hc] at halone hsendZero hgetZero
    simp only [hc] at ht
    obtain rfl := Option.some.inj ht
    split_ifs
    · exact hs.goOn (fun _ => halone rfl) (fun _ => hsendZero rfl) nofun (fun _ => hgetZero rfl)
        nofun
    · exact hs.leave rfl
  | startRecv =>
    rw [hc] at halone hsendZero hgetZero
    simp only [hc] at ht
    obtain rfl := Option.some.inj ht
    exact hs.goOn (fun _ => halone rfl) (fun _ => hsendZero rfl) nofun (fun _ => hgetZero rfl)
      nofun
  | loadSend =>
    rw [hc] at halone hsendZero hgetZero
    simp only [hc] at ht
    obtain rfl := Option.some.inj ht
    refine hs.goOn (fun _ => halone rfl) (fun _ => hsendZero rfl) (fun n hn => ?_)
      (fun _ => hgetZero rfl) nofun
    rw [← CallerPc.storeSend.inj hn]
    exact hsendZero rfl
  | storeSend n =>
    obtain rfl := hs.sendRead i n hc
    rw [hc] at halone hsendZero hgetZero
    simp only [hc] at ht
    obtain rfl := Option.some.inj ht
    have hnext := hs.goOn (i := i) (c := .loadGet) (fun _ => halone rfl) nofun nofun
      (fun _ => hgetZero rfl) nofun
    apply hnext.setSend (hs.send.increase (hsendZero rfl))
    intro j hj
    apply absurd hj
    apply not_of_alone (fun c hc => ?_) (halone rfl) rfl
    rw [CallerPc.inside, hc, Bool.true_or]
  | loadGet =>
    rw [hc] at halone hgetZero
    simp only [hc] at ht
    obtain rfl := Option.some.inj ht
    refine hs.goOn (fun _ => halone rfl) nofun nofun (fun _ => hgetZero rfl) (fun n hn => ?_)
    rw [← CallerPc.storeGet.inj hn]
    exact hgetZero rfl
  | storeGet n =>
    obtain rfl := hs.getRead i n hc
    rw [hc] at halone hgetZero
    simp only [hc] at ht
    obtain rfl := Option.some.inj ht
    apply (hs.leave (i := i) (c := .idle (some 0)) rfl).setGet (hs.get.increase (hgetZero rfl))
    intro j hj
    apply absurd hj
    apply not_of_alone (fun c hc => ?_) (halone rfl) rfl
    rw [CallerPc.inside, hc, Bool.or_true]
  | resetSend =>
    simp only [hc] at ht
    obtain rfl := Option.some.inj ht
    exact (hs.leave (i := i) (c := .resetGet) rfl).setSend (Side.Inv.reset (hsend hc)) fun _ _ =>
      rfl
  | resetGet =>
    simp only [hc] at ht
    obtain rfl := Option.some.inj ht
    exact (hs.leave (i := i) (c := .resetFlag) rfl).setGet (Side.Inv.reset (hget hc)) fun _ _ =>
      rfl
  | resetFlag =>
    simp only [hc] at ht
    obtain rfl := Option.some.inj ht
    have hnext := hs.leave (i := i) (c := .idle none) rfl
    exact ⟨hnext.send, hnext.get, hnext.single, hnext.sendZero, hnext.sendRead, hnext.getZero,
      hnext.getRead⟩

/-- **Every orderly step keeps the invariant.** -/
theorem Inv.step {e : PhotoEvent ι} (hs : s.Inv) (he : e.Orderly s) (ht : s.step e = some t) :
    t.Inv := by
  cases e with
  | takePhoto i =>
    simp only [Photo.step] at ht
    split at ht
    · obtain rfl := Option.some.inj ht
      split_ifs with hzero
      · exact hs.goOn (fun _ => he hzero) (fun _ => hzero) nofun nofun nofun
      · exact hs.leave rfl
    · cases ht
  | disable i =>
    simp only [Photo.step] at ht
    split at ht
    · obtain rfl := Option.some.inj ht
      split_ifs
      · exact hs.leave rfl
      · exact hs.leave rfl
    · cases ht
  | caller i ok => exact hs.callerStep he.1 he.2 ht
  | setFlag b =>
    obtain rfl := Option.some.inj ht
    exact ⟨hs.send, hs.get, hs.single, hs.sendZero, hs.sendRead, hs.getZero, hs.getRead⟩
  | sender ok =>
    obtain rfl := Option.some.inj ht
    refine hs.setSend (hs.send.workerStep ok) fun j hj => ?_
    rw [hs.send.workerStep_of_zero (hs.sendZero j hj)]
    exact hs.sendZero j hj
  | getter =>
    obtain rfl := Option.some.inj ht
    refine hs.setGet (hs.get.workerStep true) fun j hj => ?_
    rw [hs.get.workerStep_of_zero (hs.getZero j hj)]
    exact hs.getZero j hj

end Photo

/-- **Never stuck**, in every state of every orderly run. -/
theorem neverStuck_of_orderly {t : Photo ι} {es : List (PhotoEvent ι)}
    (hrun : Run (fun s e u => e.Orderly s ∧ s.step e = some u) Photo.start es t) : NeverStuck t :=
  (hrun.invariant (I := Photo.Inv) (fun _ _ _ hs h => hs.step h.1 h.2) Photo.inv_start).neverStuck

/-- A request, the frame that is sent at the second attempt, and the photo. -/
def photoOnce : List (PhotoEvent Bool) :=
  Photo.request false ++ [.sender true, .sender false] ++ List.replicate 4 (.sender true) ++
    List.replicate 4 .getter

theorem neverStuck_of_orderly_once :
    ∃ t, Run (fun s (e : PhotoEvent Bool) u => e.Orderly s ∧ s.step e = some u) Photo.start
        photoOnce t ∧
      t.Finished ∧ NeverStuck t := by
  obtain ⟨t, ht, hfinished⟩ : ∃ t, photoOnce.foldlM
      (fun s e => if e.Orderly s then s.step e else none) Photo.start = some t ∧ t.Finished :=
    ⟨_, rfl, nofun, nofun⟩
  have hrun := Run.of_foldlM_guard ht
  exact ⟨t, hrun, hfinished, neverStuck_of_orderly hrun⟩

/-- Two callers that both find the counters 0, one after the other. -/
def requestTwice : List (PhotoEvent Bool) :=
  [.takePhoto false, .takePhoto true, .caller false true, .caller true true] ++
    List.replicate 6 (.caller false true) ++ List.replicate 6 (.caller true true)

/-- **Two requests at the same time** are both accepted, and make both counters 2. -/
theorem two_requests :
    ∃ t, Run (fun s (e : PhotoEvent Bool) u => s.step e = some u) Photo.start requestTwice t ∧
      t.callers false = .idle (some 0) ∧ t.callers true = .idle (some 0) ∧
      t.send.cnt = 2 ∧ t.get.cnt = 2 ∧ ¬ NeverStuck t := by
  obtain ⟨t, ht, hfalse, htrue, hsend, hget⟩ : ∃ t,
      requestTwice.foldlM Photo.step Photo.start = some t ∧
      t.callers false = .idle (some 0) ∧ t.callers true = .idle (some 0) ∧
      t.send.cnt = 2 ∧ t.get.cnt = 2 :=
    ⟨_, rfl, rfl, rfl, rfl, rfl⟩
  refine ⟨t, Run.of_foldlM ht, hfalse, htrue, hsend, hget, fun h => ?_⟩
  rcases h.send with h | h
  · rw [hsend] at h
    cases h
  · rw [hsend] at h
    cases h

end RkIpc.Video
