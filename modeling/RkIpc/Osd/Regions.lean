import RkIpc.Resource.Handles
import RkIpc.Transition.Run
import RkIpc.Osd.Locking

/-!
# The regions of the on-screen display

Which callback destroys the region of an entry is decided by the type and the style of the entry at
that time. Regions are created over others, or left behind, if the entry has become another one in
between, or if entries are shown twice.

## Main definitions

* `World.alive`: the regions that are alive
* `Op`, `World.step`: calls, setters, and the beginning of a time server
* `Showable`, `Op.Fits`: the steps after which nothing is left behind
* `Sound`, `Inside`, `Orderly`: what holds in between, within a call, and outside

## Main results

* `createLoop_inside`, `destroyLoop_inside`: the loops
* `Orderly.step`: one step
* `regions_in_turn`: every run
* `changed_type_leaks`: an entry that becomes another one
-/

namespace RkIpc.Osd

open Text Param Imperative Transition Resource

/-- A callback as the use of a handle. -/
def Event.use : Event → Option (Use ℤ Kind)
  | .create k id _ => some (.create id k)
  | .destroy k id => some (.destroy id k)
  | .change _ _ => none

/-- What the callbacks made of the handles. -/
def World.uses (w : World) : List (Use ℤ Kind) := w.log.filterMap Event.use

/-- **The regions that are alive.** -/
def World.alive (w : World) : ℤ → Option Kind := Resource.alive w.uses

/-! ## Steps -/

/-- A step: a call, a change of an entry, or the beginning of a time server. -/
inductive Op where
  | call (c : Call)
  | set (setter : Setter)
  | timeServer (now : Str → List UInt32)
  | olderTimeServer (now : Str → List UInt32)

/-- **A step**, if it can be taken and returns. -/
def World.step (e : Env) (w : World) : Op → Option World
  | .call c => c.result e w
  | .set setter => (setter.run w.store).map fun p => { w with store := p }
  | .timeServer now =>
    if w.starting then some { w.serveTime e now with starting := false } else none
  | .olderTimeServer now =>
    if w.older = 0 then none else some { w.serveTime e now with older := w.older - 1 }

/-- What `rk_osd_init` shows an entry as. -/
def shownAs (e : Env) (q : Params) (id : ℤ) : Option Shown :=
  (initEntry e q (screen q) id e.junk).2

/-- What `rk_osd_privacy_mask_restart` shows an entry as. -/
def maskShownAs (e : Env) (q : Params) (id : ℤ) : Option Shown :=
  (restartEntry e q (screen q) id e.junk).2

/-- **The entries `ids` can be shown**: their handles are free, and at most one of them starts a
time server, whose handle is free then, and before which no other one is about to begin. -/
structure Showable (q : Params) (shown : ℤ → Option Shown) (ids : List ℤ) (w : World) : Prop where
  free : ∀ id ∈ ids, shown id ≠ none → w.alive id = none
  oneTime : ∀ i ∈ ids, ∀ j ∈ ids, shown i = some .time → shown j = some .time → i = j
  time : ∀ id ∈ ids, shown id = some .time → w.starting = false ∧ w.alive (osdTimeId q) = none

/-- The entries still name the regions that are alive. -/
def Named (e : Env) (w : World) : Prop :=
  ∀ id k, w.alive id = some k → destroyKind e (params w.store) id = some k

/-- **The steps that leave nothing behind.** The entries that are shown have free handles, those
whose regions are destroyed are still what they were, and no type changes while a time server is
about to begin. -/
def Op.Fits (e : Env) (w : World) : Op → Prop
  | .call (.init _) => Showable (params w.store) (shownAs e (params w.store)) slots w
  | .call (.deinit _) => Named e w
  | .call (.restart _ _) => Named e w ∧ ∀ i ∈ slots, ∀ j ∈ slots,
      TimeEnabled (params w.store) i → TimeEnabled (params w.store) j → i = j
  | .call .privacyMaskRestart => ∀ id k, w.alive id = some k →
      maskShownAs e (params w.store) id ≠ none → destroyMaskKind e (params w.store) id = some k
  | .set setter => w.starting = true → setter.isType = false
  | _ => True

/-! ## Callbacks -/

section Callbacks

variable {w : World} {id j : ℤ} {k : Kind}

theorem uses_create (data : OsdData) :
    World.uses { w with log := w.log ++ [.create k id data] } = w.uses ++ [.create id k] := by
  rw [World.uses, List.filterMap_append]
  rfl

theorem uses_destroy :
    World.uses { w with log := w.log ++ [.destroy k id] } = w.uses ++ [.destroy id k] := by
  rw [World.uses, List.filterMap_append]
  rfl

theorem uses_change (w : World) (id : ℤ) (data : OsdData) :
    World.uses { w with log := w.log ++ [.change id data] } = w.uses := by
  rw [World.uses, List.filterMap_append]
  exact List.append_nil _

end Callbacks

/-! ## Invariants -/

/-- **What always holds.** Regions were created in turn and behind handles of entries, and a time
server that is about to begin has an entry with a free handle. -/
structure Sound (w : World) : Prop where
  inTurn : InTurn w.uses
  inSlots : ∀ id, w.alive id ≠ none → id ∈ slots
  older : w.older = 0
  starting : w.starting = true →
    osdType (params w.store) (osdTimeId (params w.store)) = some (lit "dateTime") ∧
      w.alive (osdTimeId (params w.store)) = none

/-- **Within a call** on the parameters `p`: a time server that is about to begin can be joined. -/
structure Inside (p : Store) (w : World) : Prop where
  sound : Sound w
  store : w.store = p
  mutex : w.mutex = true
  joinable : w.starting = true → w.signal = true

theorem Inside.withRates {p : Store} {w : World} (h : Inside p w) (rates : Screen) :
    Inside p { w with rates := rates } where
  sound := ⟨h.sound.inTurn, h.sound.inSlots, h.sound.older, h.sound.starting⟩
  store := h.store
  mutex := h.mutex
  joinable := h.joinable

/-- **Between calls.** -/
structure Orderly (w : World) : Prop where
  sound : Sound w
  joinable : w.mutex = false → w.starting = true → w.signal = true

theorem Orderly.of_inside {p : Store} {w : World} (h : Inside p w) :
    Orderly { w with mutex := false } where
  sound := ⟨h.sound.inTurn, h.sound.inSlots, h.sound.older, h.sound.starting⟩
  joinable _ := h.joinable

/-- A region is created behind a free handle, which is not that of a time server about to begin. -/
theorem Sound.create {w w' : World} {id : ℤ} {k : Kind} (h : Sound w) (hid : id ∈ slots)
    (hfree : w.alive id = none) (huses : w'.uses = w.uses ++ [.create id k])
    (holder : w'.older = 0) (hstore : w'.store = w.store)
    (hstarting : w'.starting = true → w.starting = true ∧ id ≠ osdTimeId (params w.store)) :
    Sound w' where
  inTurn := by
    rw [huses]
    exact inTurn_create_iff.mpr ⟨h.inTurn, hfree⟩
  inSlots j hj := by
    rw [World.alive, huses, alive_create] at hj
    split at hj
    · next hji => exact hji ▸ hid
    · exact h.inSlots j hj
  older := holder
  starting hs := by
    obtain ⟨hs, hne⟩ := hstarting hs
    obtain ⟨htype, hnone⟩ := h.starting hs
    rw [hstore]
    refine ⟨htype, ?_⟩
    rw [World.alive, huses, alive_create, if_neg hne.symm]
    exact hnone

theorem Sound.destroy {w w' : World} {id : ℤ} {k : Kind} (h : Sound w)
    (huses : w'.uses = w.uses ++ [.destroy id k]) (holder : w'.older = w.older)
    (hstore : w'.store = w.store) (hstarting : w'.starting = w.starting) : Sound w' := by
  have halive : ∀ j, w'.alive j ≠ none → w'.alive j = w.alive j := fun j hj => by
    rw [World.alive, huses] at hj ⊢
    exact alive_of_destroy hj
  refine ⟨?_, fun j hj => ?_, holder.trans h.older, fun hs => ?_⟩
  · rw [huses]
    exact inTurn_destroy_iff.mpr h.inTurn
  · exact h.inSlots j (halive j hj ▸ hj)
  · rw [hstarting] at hs
    obtain ⟨htype, hnone⟩ := h.starting hs
    rw [hstore]
    refine ⟨htype, ?_⟩
    by_contra hne
    exact hne ((halive _ hne).trans hnone)

/-! ## Loops -/

section Loops

variable {e : Env} {p : Store} {B : World → Prop} {id : ℤ} {ids : List ℤ}

/-- One entry less is to be shown, and the handles of the others are as they were. -/
theorem Showable.tail {q : Params} {shown : ℤ → Option Shown} {w w' : World}
    (h : Showable q shown (id :: ids) w)
    (halive : ∀ j ∈ ids, shown j ≠ none → w'.alive j = w.alive j)
    (htime : ∀ j ∈ ids, shown j = some .time → w'.starting = w.starting ∧
      w'.alive (osdTimeId q) = w.alive (osdTimeId q)) : Showable q shown ids w' where
  free j hj hshown := (halive j hj hshown).trans (h.free j (List.mem_cons_of_mem _ hj) hshown)
  oneTime i hi j hj := h.oneTime i (List.mem_cons_of_mem _ hi) j (List.mem_cons_of_mem _ hj)
  time j hj hshown := by
    obtain ⟨hstarting, hnone⟩ := h.time j (List.mem_cons_of_mem _ hj) hshown
    obtain ⟨hs, ha⟩ := htime j hj hshown
    exact ⟨hs.trans hstarting, ha.trans hnone⟩

/-- **One entry is shown.** -/
theorem createEntry_inside {shown : ℤ → Option Shown}
    (hregion : ∀ id k, shown id = some (.region k) →
      osdType (params p) id ≠ some (lit "dateTime"))
    (htime : ∀ id, shown id = some .time → osdType (params p) id = some (lit "dateTime"))
    (hnodup : (id :: ids).Nodup) (hids : ∀ j ∈ id :: ids, j ∈ slots) (signals : ℤ → Bool)
    (data : OsdData) :
    Program.Triple (fun w => Inside p w ∧ Showable (params p) shown (id :: ids) w)
      (createEntry signals id data (shown id))
      (fun _ w => Inside p w ∧ Showable (params p) shown ids w) (fun _ => Orderly) B := by
  obtain ⟨hnew, -⟩ := List.nodup_cons.mp hnodup
  have hid := hids id (List.mem_cons_self ..)
  rintro w ⟨hw, hshow⟩
  obtain rfl := hw.store
  cases hshown : shown id with
  | none => exact ⟨hw, hshow.tail (fun _ _ _ => rfl) fun _ _ _ => ⟨rfl, rfl⟩⟩
  | some sh =>
    have hfree := hshow.free id (List.mem_cons_self ..) (by simp [hshown])
    cases sh with
    | region k =>
      set w' : World := { w with log := w.log ++ [.create k id data] } with hw'
      have huses : w'.uses = w.uses ++ [.create id k] := uses_create data
      have hother : ∀ j, j ≠ id → w'.alive j = w.alive j := fun j hj => by
        rw [World.alive, huses, alive_create, if_neg hj]
        rfl
      -- the handle of a time server is another one
      have hne : ∀ j ∈ slots, osdType (params w.store) j = some (lit "dateTime") →
          id ≠ osdTimeId (params w.store) := by
        intro j hj hdate heq
        exact hregion id k hshown (heq ▸ osdType_osdTimeId hj hdate)
      refine ⟨⟨hw.sound.create hid hfree huses hw.sound.older rfl fun hs => ⟨hs, ?_⟩, rfl, hw.mutex,
        hw.joinable⟩, hshow.tail (fun j hj _ => hother j fun h => hnew (h ▸ hj)) fun j hj hj' =>
          ⟨rfl, hother _ (hne j (hids j (List.mem_cons_of_mem _ hj)) (htime j hj')).symm⟩⟩
      exact hne _ (osdTimeId_mem _) (hw.sound.starting hs).1
    | time =>
      obtain ⟨hstarting, hnone⟩ := hshow.time id (List.mem_cons_self ..) hshown
      have hsound : ∀ ok, Sound { w with
          serverRun := true, starting := true, older := w.older, signal := ok } := fun ok =>
        ⟨hw.sound.inTurn, hw.sound.inSlots, hw.sound.older, fun _ =>
          ⟨osdType_osdTimeId hid (htime id hshown), hnone⟩⟩
      -- no other entry starts a time server
      have hlast : ∀ j ∈ ids, shown j ≠ some .time := fun j hj hj' => by
        obtain rfl := hshow.oneTime id (List.mem_cons_self ..) j (List.mem_cons_of_mem _ hj)
          hshown hj'
        exact hnew hj
      simp only [createEntry, startTimeServer, hstarting]
      cases signals id with
      | true =>
        exact ⟨⟨hsound true, rfl, hw.mutex, fun _ => rfl⟩,
          hshow.tail (fun _ _ _ => rfl) fun j hj hj' => absurd hj' (hlast j hj)⟩
      | false =>
        refine ⟨hsound false, fun hmutex => ?_⟩
        rw [hw.mutex] at hmutex
        cases hmutex

/-- **The loop that shows the entries.** -/
theorem createLoop_inside (entry : ℤ → OsdData → OsdData × Option Shown)
    {shown : ℤ → Option Shown} (hentry : ∀ id data, (entry id data).2 = shown id)
    (hregion : ∀ id k, shown id = some (.region k) →
      osdType (params p) id ≠ some (lit "dateTime"))
    (htime : ∀ id, shown id = some .time → osdType (params p) id = some (lit "dateTime"))
    (signals : ℤ → Bool) (ids : List ℤ) (hnodup : ids.Nodup) (hids : ∀ j ∈ ids, j ∈ slots)
    (data : OsdData) :
    Program.Triple (fun w => Inside p w ∧ Showable (params p) shown ids w)
      (createLoop entry signals ids data) (fun _ => Inside p) (fun _ => Orderly) B := by
  induction ids generalizing data with
  | nil => exact Program.Triple.pure fun _ hw => hw.1
  | cons id ids ih =>
    have hone := createEntry_inside (B := B) hregion htime hnodup hids signals (entry id data).1
    rw [← hentry id data] at hone
    exact hone.bind fun _ => ih (List.nodup_cons.mp hnodup).2
      (fun j hj => hids j (List.mem_cons_of_mem _ hj)) _

/-- What is alive of `P` is still to be destroyed, with its own callback. -/
def ToDestroy (P : ℤ → Prop) (kind : ℤ → Option Kind) (ids : List ℤ) (w : World) : Prop :=
  ∀ id, P id → w.alive id ≠ none → id ∈ ids ∧ kind id = w.alive id

/-- **The loop that destroys.** -/
theorem destroyLoop_inside {P : ℤ → Prop} {b : Bool} (kind : ℤ → Option Kind) (ids : List ℤ)
    {R : ℤ → World → Prop} :
    Program.Triple (fun w => Inside p w ∧ ToDestroy P kind ids w ∧ w.starting = b)
      (destroyLoop kind ids)
      (fun _ w => Inside p w ∧ (∀ id, P id → w.alive id = none) ∧ w.starting = b) R B := by
  induction ids with
  | nil =>
    refine Program.Triple.pure fun w ⟨hw, hdestroy, hb⟩ => ⟨hw, fun id hid => ?_, hb⟩
    by_contra hne
    cases (hdestroy id hid hne).1
  | cons id ids ih =>
    refine Program.Triple.bind ?_ fun _ => ih
    rintro w ⟨hw, hdestroy, hb⟩
    cases hkind : kind id with
    | none =>
      refine ⟨hw, fun j hj hne => ?_, hb⟩
      obtain ⟨hmem, heq⟩ := hdestroy j hj hne
      refine ⟨(List.mem_cons.mp hmem).resolve_left fun h => hne ?_, heq⟩
      rw [← heq, h, hkind]
    | some k =>
      set w' : World := { w with log := w.log ++ [.destroy k id] } with hw'
      have huses : w'.uses = w.uses ++ [.destroy id k] := uses_destroy
      have halive : ∀ j, w'.alive j = if j = id ∧ w.alive id = some k then none else w.alive j :=
        fun j => by
          rw [World.alive, huses, alive_destroy]
          rfl
      refine ⟨⟨hw.sound.destroy huses rfl rfl rfl, hw.store, hw.mutex, hw.joinable⟩,
        fun j hj hne => ?_, hb⟩
      rw [halive] at hne ⊢
      split at hne
      · exact absurd rfl hne
      · next hother =>
        rw [if_neg hother]
        obtain ⟨hmem, heq⟩ := hdestroy j hj hne
        refine ⟨(List.mem_cons.mp hmem).resolve_left fun h => hother ⟨h, ?_⟩, heq⟩
        rw [← h, ← heq, h, hkind]

end Loops

/-! ## Calls -/

section Calls

variable {e : Env} {p : Store} {B : World → Prop} {w : World}

/-- What is alive and named is to be destroyed. -/
theorem Named.toDestroy {w' : World} (h : Named e w) (hw : Sound w) (halive : w'.alive = w.alive) :
    ToDestroy (fun _ => True) (destroyKind e (params w.store)) slots w' := by
  intro id _ hne
  rw [halive] at hne ⊢
  obtain ⟨k, hk⟩ := Option.ne_none_iff_exists'.mp hne
  exact ⟨hw.inSlots id hne, (h id k hk).trans hk.symm⟩

/-- An entry for the date and the time is destroyed as a bitmap. -/
theorem destroyKind_dateTime {q : Params} {id : ℤ} (h : osdType q id = some (lit "dateTime")) :
    destroyKind e q id = some .bmp := by
  rw [destroyKind, h]
  rfl

/-- **A time server begins**: its region is created behind the free handle it has. -/
theorem Sound.serve (w' : World) {data : OsdData} (h : Sound w) (hs : w.starting = true)
    (hlog : w'.log = w.log ++ [.create .bmp (osdTimeId (params w.store)) data])
    (holder : w'.older = w.older) (hstore : w'.store = w.store) (hstarting : w'.starting = false) :
    Sound w' ∧ ∀ j, w'.alive j =
      if j = osdTimeId (params w.store) then some .bmp else w.alive j := by
  have huses : w'.uses = w.uses ++ [.create (osdTimeId (params w.store)) .bmp] := by
    rw [World.uses, hlog, List.filterMap_append]
    rfl
  refine ⟨h.create (osdTimeId_mem _) (h.starting hs).2 huses (holder.trans h.older) hstore
    fun hs' => ?_, fun j => ?_⟩
  · rw [hstarting] at hs'
    cases hs'
  · rw [World.alive, huses, alive_create]
    rfl

/-- **The time server is stopped.** If it had not begun, its region is created now. -/
theorem stopTimeServer_inside (now : Str → List UInt32) {R : ℤ → World → Prop} :
    Program.Triple (fun w => Inside p w ∧ Named e w) (stopTimeServer e now)
      (fun _ w => Inside p w ∧ ToDestroy (fun _ => True) (destroyKind e (params p)) slots w ∧
        w.starting = false) R B := by
  rintro w ⟨hw, hnamed⟩
  obtain rfl := hw.store
  -- without a time server about to begin nothing is created
  have hquiet : ∀ w' : World, w'.log = w.log → w'.older = w.older → w'.store = w.store →
      w'.mutex = w.mutex → w'.starting = false →
      Inside w.store w' ∧ ToDestroy (fun _ => True) (destroyKind e (params w.store)) slots w' ∧
        w'.starting = false := by
    intro w' hlog holder hstore hmutex hstarting
    have huses : w'.uses = w.uses := congrArg (List.filterMap Event.use) hlog
    have halive : w'.alive = w.alive := congrArg Resource.alive huses
    refine ⟨⟨⟨huses ▸ hw.sound.inTurn, halive ▸ hw.sound.inSlots, holder.trans hw.sound.older, ?_⟩,
      hstore, hmutex.trans hw.mutex, ?_⟩, hnamed.toDestroy hw.sound halive, hstarting⟩
    · rw [hstarting]
      exact fun h => by cases h
    · rw [hstarting]
      exact fun h => by cases h
  cases hstarting : w.starting with
  | false =>
    simp only [stopTimeServer, hstarting]
    cases w.signal with
    | false => exact hquiet _ rfl rfl rfl rfl rfl
    | true => exact hquiet _ rfl rfl rfl rfl rfl
  | true =>
    simp only [stopTimeServer, hstarting, hw.joinable hstarting]
    obtain ⟨hsound, halive⟩ := Sound.serve { w.serveTime e now with
      serverRun := false, starting := false, signal := false } hw.sound hstarting rfl rfl rfl rfl
    refine ⟨⟨hsound, rfl, hw.mutex, fun h => by cases h⟩, fun j _ hne => ?_, rfl⟩
    refine ⟨hsound.inSlots j hne, ?_⟩
    refine Eq.trans ?_ (halive j).symm
    split
    · next hj => rw [hj, destroyKind_dateTime (hw.sound.starting hstarting).1]
    · next hj =>
      have hne' : w.alive j ≠ none := fun h => hne ((halive j).trans (by rw [if_neg hj, h]))
      exact (hnamed.toDestroy hw.sound rfl j trivial hne').2

/-- The mutex is taken. -/
theorem Orderly.inside (h : Orderly w) (hw : w.mutex = false) (rates : Screen) :
    Inside w.store { w with mutex := true, rates := rates } where
  sound := ⟨h.sound.inTurn, h.sound.inSlots, h.sound.older, h.sound.starting⟩
  store := rfl
  mutex := rfl
  joinable := h.joinable hw

theorem mutexLock_bind {ρ α : Type} (hw : w.mutex = false) (f : Unit → Program World ρ α) :
    (mutexLock >>= f) w = f () { w with mutex := true } := by
  simp only [bind, mutexLock, hw, Bool.false_eq_true, if_false]

/-- The mutex is given back. -/
theorem unlock_orderly {R : ℤ → World → Prop} :
    Program.Triple (Inside p) (do mutexUnlock; return 0) (fun _ : ℤ => Orderly) R B :=
  fun _ hw => .of_inside hw

/-- **`rk_osd_init`** on entries that can be shown. -/
theorem rkOsdInit_orderly {signals : ℤ → Bool} (h : Orderly w) (hw : w.mutex = false)
    (hshow : Showable (params w.store) (shownAs e (params w.store)) slots w) :
    Program.Meets (fun _ => Orderly) (fun _ => Orderly) B (rkOsdInit e signals w) := by
  rw [rkOsdInit, mutexLock_bind hw]
  have hloop := createLoop_inside (B := B) (p := w.store)
    (initEntry e (params w.store) (screen (params w.store)))
    (fun id data => initEntry_congr e _ _ id data e.junk) (fun id k => initEntry_dateTime)
    (fun id htime => ((initEntry_time_iff e _ _ id e.junk).mp htime).1) signals slots
    (by decide) (fun _ h => h) e.junk
  exact (hloop.bind fun _ => unlock_orderly) _
    ⟨h.inside hw _, hshow.free, hshow.oneTime, hshow.time⟩

theorem readParams_inside {Q : World → Prop} {R : ℤ → World → Prop} :
    Program.Triple (fun w => Inside p w ∧ Q w) readParams
      (fun q w => (Inside p w ∧ Q w) ∧ q = params p) R B :=
  fun _ hw => ⟨hw, congrArg params hw.1.store⟩

/-- **`rk_osd_deinit`** on regions that are still named. -/
theorem rkOsdDeinit_orderly {now : Str → List UInt32} {R : ℤ → World → Prop} (h : Orderly w)
    (hw : w.mutex = false) (hnamed : Named e w) :
    Program.Meets (fun _ w' => Orderly w' ∧ w'.mutex = false ∧ w'.store = w.store ∧
      (∀ id, w'.alive id = none) ∧ w'.starting = false) R B (rkOsdDeinit e now w) := by
  rw [rkOsdDeinit, mutexLock_bind hw]
  refine ((stopTimeServer_inside (p := w.store) now).bind fun _ => readParams_inside.bind fun q =>
    Program.Triple.assuming ?_) _ ⟨h.inside hw w.rates, hnamed⟩
  rintro rfl
  exact (destroyLoop_inside _ slots).bind fun _ => fun w' ⟨hw', hnone, hstarting⟩ =>
    ⟨.of_inside hw', rfl, hw'.store, fun id => hnone id trivial, hstarting⟩

/-- **`rk_osd_restart`**, with at most one time server to start. -/
theorem rkOsdRestart_orderly {now : Str → List UInt32} {signals : ℤ → Bool} (h : Orderly w)
    (hw : w.mutex = false) (hnamed : Named e w)
    (hone : ∀ i ∈ slots, ∀ j ∈ slots, TimeEnabled (params w.store) i →
      TimeEnabled (params w.store) j → i = j) :
    Program.Meets (fun _ => Orderly) (fun _ => Orderly) (fun _ => False)
      (rkOsdRestart e now signals w) := by
  have hdeinit : Program.Triple (· = w) (rkOsdDeinit e now)
      (fun _ w' => Orderly w' ∧ w'.mutex = false ∧ w'.store = w.store ∧
        (∀ id, w'.alive id = none) ∧ w'.starting = false)
      (fun _ w' => Orderly w' ∧ w'.mutex = false ∧ w'.store = w.store ∧
        (∀ id, w'.alive id = none) ∧ w'.starting = false) fun _ => False := by
    rintro _ rfl
    exact rkOsdDeinit_orderly h hw hnamed
  have hinit : Program.Triple (fun w' => Orderly w' ∧ w'.mutex = false ∧ w'.store = w.store ∧
        (∀ id, w'.alive id = none) ∧ w'.starting = false) (rkOsdInit e signals)
      (fun _ => Orderly) (fun _ => Orderly) fun _ => False := by
    rintro w' ⟨hw', hmutex, hstore, hnone, hstarting⟩
    have htime := fun id =>
      initEntry_time_iff e (params w.store) (screen (params w.store)) id e.junk
    apply rkOsdInit_orderly hw' hmutex
    rw [hstore]
    exact ⟨fun id _ _ => hnone id,
      fun i hi j hj hi' hj' => hone i hi j hj ((htime i).mp hi') ((htime j).mp hj'),
      fun _ _ _ => ⟨hstarting, hnone _⟩⟩
  refine (hdeinit.call.bind fun _ => hinit.call.bind fun _ => ?_) w rfl
  exact Program.Triple.pure fun _ hw => hw

/-- **`rk_osd_privacy_mask_restart`** on masks that are still what they were. -/
theorem rkOsdPrivacyMaskRestart_orderly (h : Orderly w) (hw : w.mutex = false)
    (hmasks : ∀ id k, w.alive id = some k → maskShownAs e (params w.store) id ≠ none →
      destroyMaskKind e (params w.store) id = some k) :
    Program.Meets (fun _ => Orderly) (fun _ => Orderly) B (rkOsdPrivacyMaskRestart e w) := by
  rw [rkOsdPrivacyMaskRestart, mutexLock_bind hw]
  have hdestroy : ToDestroy (fun id => maskShownAs e (params w.store) id ≠ none)
      (destroyMaskKind e (params w.store)) slots w := by
    intro id hshown hne
    obtain ⟨k, hk⟩ := Option.ne_none_iff_exists'.mp hne
    exact ⟨h.sound.inSlots id hne, (hmasks id k hk hshown).trans hk.symm⟩
  have hread := readParams_inside (p := w.store) (B := B) (R := fun _ => Orderly)
    (Q := fun w' => ToDestroy (fun id => maskShownAs e (params w.store) id ≠ none)
      (destroyMaskKind e (params w.store)) slots w' ∧ w'.starting = w.starting)
  refine (hread.bind fun q => Program.Triple.assuming ?_) _ ⟨h.inside hw w.rates, hdestroy, rfl⟩
  rintro rfl
  refine (destroyLoop_inside _ slots).bind fun _ => ?_
  -- the handles of the masks that are shown again are free now
  have hrates : Program.Triple (fun w' => Inside w.store w' ∧
        (∀ id, maskShownAs e (params w.store) id ≠ none → w'.alive id = none) ∧
        w'.starting = w.starting) (setRates : Program World ℤ Screen)
      (fun s w' => (Inside w.store w' ∧
        Showable (params w.store) (maskShownAs e (params w.store)) slots w') ∧
        s = screen (params w.store)) (fun _ => Orderly) B := by
    have hne := fun id =>
      restartEntry_ne_time e (params w.store) (screen (params w.store)) id e.junk
    rintro w' ⟨hw', hnone, -⟩
    refine ⟨⟨hw'.withRates _, fun id _ hshown => hnone id hshown,
      fun i _ _ _ hi => absurd hi (hne i), fun id _ hid => absurd hid (hne id)⟩, ?_⟩
    rw [hw'.store]
  refine hrates.bind fun s => Program.Triple.assuming ?_
  rintro rfl
  exact (createLoop_inside (restartEntry e (params w.store) (screen (params w.store)))
    (fun id data => restartEntry_congr e _ _ id data e.junk) (fun id k => restartEntry_dateTime)
    (fun id htime => absurd htime (restartEntry_ne_time e _ _ id e.junk)) (fun _ => true) slots
    (by decide) (fun _ h => h) e.junk).bind fun _ => unlock_orderly

/-- **`rk_osd_bmp_change`** creates nothing. -/
theorem rkOsdBmpChange_orderly (h : Orderly w) (hw : w.mutex = false) (id : Int32) :
    Program.Meets (fun _ => Orderly) (fun _ => Orderly) B (rkOsdBmpChange e id w) := by
  rw [rkOsdBmpChange, mutexLock_bind hw]
  have hexit : Program.Triple (Inside w.store) (Program.exit (-1)) (fun _ : ℤ => Orderly)
      (fun _ : ℤ => Orderly) B := fun w' hw' => ⟨hw'.sound, fun hmutex => by
    rw [hw'.mutex] at hmutex
    cases hmutex⟩
  have hchange : ∀ data, Program.Triple (Inside w.store)
      (do callback (.change id.toInt data); mutexUnlock; return 0) (fun _ : ℤ => Orderly)
      (fun _ : ℤ => Orderly) B := fun data w' hw' => by
    have huses := uses_change w' id.toInt data
    refine Orderly.of_inside (p := w.store) ⟨⟨huses ▸ hw'.sound.inTurn, fun j hj => ?_,
      hw'.sound.older, fun hs => ?_⟩, hw'.store, hw'.mutex, hw'.joinable⟩
    · rw [World.alive, huses] at hj
      exact hw'.sound.inSlots j hj
    · obtain ⟨htype, hnone⟩ := hw'.sound.starting hs
      refine ⟨htype, ?_⟩
      rw [World.alive, huses]
      exact hnone
  have hend : Program.Triple (Inside w.store) (do mutexUnlock; return 0) (fun _ : ℤ => Orderly)
      (fun _ : ℤ => Orderly) B := unlock_orderly
  have hrates : Program.Triple (Inside w.store) setRates (fun _ => Inside w.store)
      (fun _ : ℤ => Orderly) B := fun w' hw' => hw'.withRates _
  refine (Program.Triple.bind (V := fun _ => Inside w.store) (fun _ hw' => hw') fun q =>
    hrates.bind fun s => ?_) _ (h.inside hw w.rates)
  cases osdType q id.toInt with
  | none => exact hexit
  | some type =>
    exact Program.Triple.ite (fun _ => hexit) fun _ => Program.Triple.ite (fun _ =>
      Program.Triple.ite (fun _ => hexit) fun _ => hchange _) fun _ => hend

end Calls

/-! ## Runs -/

/-- What a call leaves, from what holds when it returns. -/
theorem Call.of_meets {e : Env} {w w' : World} {c : Call} {I B : World → Prop}
    (hresult : c.result e w = some w')
    (hmeets : Program.Meets (fun _ => I) (fun _ => I) B (c.run e w)) : I w' := by
  rw [Call.result] at hresult
  generalize c.run e w = o at hresult hmeets
  rcases o with ⟨_ | _ | _, w''⟩
  · exact Option.some.inj hresult ▸ hmeets
  · exact Option.some.inj hresult ▸ hmeets
  · cases hresult

/-- **One step** that fits. -/
theorem Orderly.step {e : Env} {w w' : World} {op : Op} (h : Orderly w) (hfits : op.Fits e w)
    (hstep : w.step e op = some w') :
    Orderly w' ∧ ((∃ now, op = .call (.deinit now)) → ∀ id, w'.alive id = none) := by
  have hnot : ∀ {op : Op}, (∀ now, op ≠ .call (.deinit now)) →
      ((∃ now, op = .call (.deinit now)) → ∀ id, w'.alive id = none) :=
    fun hne ⟨now, hnow⟩ => absurd hnow (hne now)
  cases op with
  | call c =>
    have hmutex : w.mutex = false := by
      by_contra hheld
      rw [World.step, Call.result_eq_none (Bool.eq_true_of_not_eq_false hheld)] at hstep
      cases hstep
    cases c with
    | init signals =>
      exact ⟨Call.of_meets hstep (rkOsdInit_orderly (B := fun _ => True) h hmutex hfits),
        hnot (by simp)⟩
    | deinit now =>
      obtain ⟨hw', -, -, hnone, -⟩ := Call.of_meets (I := fun w' => Orderly w' ∧ w'.mutex = false ∧
        w'.store = w.store ∧ (∀ id, w'.alive id = none) ∧ w'.starting = false) hstep
        (rkOsdDeinit_orderly (B := fun _ => True) h hmutex hfits)
      exact ⟨hw', fun _ => hnone⟩
    | restart now signals =>
      exact ⟨Call.of_meets hstep (rkOsdRestart_orderly h hmutex hfits.1 hfits.2), hnot (by simp)⟩
    | bmpChange id =>
      exact ⟨Call.of_meets hstep (rkOsdBmpChange_orderly (B := fun _ => True) h hmutex id),
        hnot (by simp)⟩
    | privacyMaskRestart =>
      exact ⟨Call.of_meets hstep
        (rkOsdPrivacyMaskRestart_orderly (B := fun _ => True) h hmutex hfits), hnot (by simp)⟩
  | set setter =>
    obtain ⟨p, hp, rfl⟩ := Option.map_eq_some_iff.mp hstep
    refine ⟨⟨⟨h.sound.inTurn, h.sound.inSlots, h.sound.older, fun hs => ?_⟩, h.joinable⟩,
      hnot (by simp)⟩
    -- the entry of the time server is the same
    obtain ⟨htype, hid⟩ := osdTimeId_of_setter hp (hfits hs)
    obtain ⟨hdate, hnone⟩ := h.sound.starting hs
    dsimp only
    rw [hid]
    exact ⟨(htype _ (osdTimeId_mem _)).trans hdate, hnone⟩
  | timeServer now =>
    rw [World.step] at hstep
    split at hstep
    · next hs =>
      obtain rfl := Option.some.inj hstep
      have hserve := Sound.serve { w.serveTime e now with starting := false } h.sound hs
        rfl rfl rfl rfl
      exact ⟨⟨hserve.1, fun _ hs => by cases hs⟩, hnot (by simp)⟩
    · cases hstep
  | olderTimeServer now =>
    rw [World.step, if_pos h.sound.older] at hstep
    cases hstep

theorem World.initial_orderly (p : Store) : Orderly (World.initial p) where
  sound := ⟨inTurn_nil, fun id h => absurd rfl h, rfl, fun h => by cases h⟩
  joinable _ h := by cases h

/-- **Regions are created in turn** in every run of steps that fit, and none is alive after
`rk_osd_deinit`. -/
theorem regions_in_turn {e : Env} {p : Store} {ops : List Op} {w : World}
    (hrun : Run (fun w op w' => op.Fits e w ∧ w.step e op = some w') (World.initial p) ops w) :
    InTurn w.uses ∧
      ∀ now, ops.getLast? = some (.call (.deinit now)) → ∀ id, w.alive id = none := by
  have horderly : Orderly w ∧
      ∀ now, ops.getLast? = some (.call (.deinit now)) → ∀ id, w.alive id = none := by
    induction hrun with
    | nil => exact ⟨World.initial_orderly p, fun now h => by cases h⟩
    | snoc _ hstep ih =>
      obtain ⟨hw', hdeinit⟩ := ih.1.step hstep.1 hstep.2
      refine ⟨hw', fun now hlast => hdeinit ⟨now, ?_⟩⟩
      rw [List.getLast?_concat] at hlast
      exact Option.some.inj hlast
  exact ⟨horderly.1.sound.inTurn, horderly.2⟩

/-- An image is shown and taken away. -/
theorem regions_in_turn_image : ∃ w, Run (fun w op w' => op.Fits Env.plain w ∧
      w.step Env.plain op = some w') (World.initial (oneEntry "image"))
        [.call (.init fun _ => true), .call (.deinit fun _ => [])] w ∧
      InTurn w.uses ∧ ∀ id, w.alive id = none := by
  have hinit : ((World.initial (oneEntry "image")).step Env.plain (.call (.init fun _ => true))).map
      (fun w => (w.uses, w.mutex)) = some ([.create 0 .bmp], false) := by decide +kernel
  obtain ⟨w₁, hw₁, heq⟩ := Option.map_eq_some_iff.mp hinit
  obtain ⟨huses, hmutex⟩ := Prod.mk.inj heq
  have hfits : (Op.call (.init fun _ => true)).Fits Env.plain
      (World.initial (oneEntry "image")) := by
    have htime : ∀ id ∈ slots, shownAs Env.plain (params (oneEntry "image")) id ≠ some .time := by
      decide +kernel
    exact ⟨fun _ _ _ => rfl, fun i hi _ _ h => absurd h (htime i hi),
      fun id hid h => absurd h (htime id hid)⟩
  have hstore : w₁.store = oneEntry "image" := by
    obtain ⟨w', hw', hstore, -⟩ := Call.mutex_iff (e := Env.plain)
      (w := World.initial (oneEntry "image")) rfl (.init fun _ => true)
    obtain rfl := Option.some.inj (hw₁.symm.trans hw')
    exact hstore
  have hnamed : Named Env.plain w₁ := by
    intro id k hk
    rw [World.alive, huses, ← List.nil_append [_], alive_create] at hk
    split at hk
    · next hid =>
      obtain rfl := Option.some.inj hk
      rw [hid, hstore]
      decide +kernel
    · cases hk
  obtain ⟨w₂, hw₂, -⟩ := Call.mutex_iff (e := Env.plain) hmutex (.deinit fun _ => [])
  have hrun : Run (fun w op w' => op.Fits Env.plain w ∧ w.step Env.plain op = some w')
      (World.initial (oneEntry "image")) [.call (.init fun _ => true), .call (.deinit fun _ => [])]
      w₂ := (Run.single ⟨hfits, hw₁⟩).snoc ⟨hnamed, hw₂⟩
  obtain ⟨hturn, hnone⟩ := regions_in_turn hrun
  exact ⟨w₂, hrun, hturn, hnone (fun _ => []) rfl⟩

/-- **An entry that becomes another one leaves its region behind**, and it is created over when the
entry is what it was again. -/
theorem changed_type_leaks : ∃ w w', Run (fun w op w' => w.step Env.plain op = some w')
      (World.initial (oneEntry "image")) [.call (.init fun _ => true), .set (.type 0 (lit "none")),
        .call (.deinit fun _ => [])] w ∧ w.alive 0 = some .bmp ∧
    Run (fun w op w' => w.step Env.plain op = some w') w
      [.set (.type 0 (lit "image")), .call (.init fun _ => true)] w' ∧ ¬ InTurn w'.uses := by
  have hfirst : (([.call (.init fun _ => true), .set (.type 0 (lit "none")),
      .call (.deinit fun _ => [])] : List Op).foldlM (World.step Env.plain)
        (World.initial (oneEntry "image"))).bind (fun w => (([.set (.type 0 (lit "image")),
          .call (.init fun _ => true)] : List Op).foldlM (World.step Env.plain) w).map fun w' =>
            (w.uses, w'.uses)) =
      some ([.create 0 .bmp], [.create 0 .bmp, .create 0 .bmp]) := by decide +kernel
  obtain ⟨w, hw, hrest⟩ := Option.bind_eq_some_iff.mp hfirst
  obtain ⟨w', hw', heq⟩ := Option.map_eq_some_iff.mp hrest
  obtain ⟨huses, huses'⟩ := Prod.mk.inj heq
  refine ⟨w, w', Run.of_foldlM hw, ?_, Run.of_foldlM hw', fun h => ?_⟩
  · rw [World.alive, huses]
    rfl
  · rw [huses'] at h
    cases h [.create 0 .bmp] 0 .bmp [] rfl

end RkIpc.Osd
