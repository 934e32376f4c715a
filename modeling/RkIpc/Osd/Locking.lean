import RkIpc.Osd.Osd

/-!
# The mutex of the on-screen display

Some branches of `rk_osd_init` and `rk_osd_bmp_change` return without giving `g_osd_mutex` back, and
the next call waits for it for ever.

## Main definitions

* `Call.Releases`: the calls that do not take such a branch

## Main results

* `Call.mutex_iff`: one call
* `mutex_free_iff`: a sequence of calls
* `init_keeps_mutex`: a call after which every other one waits
-/

namespace RkIpc.Osd

open Text Param Imperative

/-- **The branches without unlock are not taken**: the signals of the enabled `dateTime` entries are
created, and the entry that is changed has a type, is enabled, and, if it is a text, keeps a
rectangle without negative numbers. -/
def Call.Releases (e : Env) (q : Params) : Call → Prop
  | .init signals | .restart _ signals => ∀ id ∈ slots, TimeEnabled q id → signals id = true
  | .bmpChange id => ∃ type, osdType q id.toInt = some type ∧
      q.int (osdEntry id.toInt "enabled") 0 ≠ 0 ∧
      (isText type → (changeData e q (screen q) id.toInt).negative = false)
  | .deinit _ | .privacyMaskRestart => True

/-- Whether the mutex is held, in a store that does not change. -/
def At (p : Store) (mutex : Bool) (w : World) : Prop := w.store = p ∧ w.mutex = mutex

section Statements

variable {e : Env} {p : Store} {b : Bool} {ρ : Type} {R : ρ → World → Prop} {B : World → Prop}

theorem mutexLock_at : Program.Triple (At p false) mutexLock (fun _ => At p true) R B := by
  rintro w ⟨hp, hw⟩
  rw [mutexLock, if_neg (by simp [hw])]
  exact ⟨hp, rfl⟩

theorem mutexUnlock_at : Program.Triple (At p b) mutexUnlock (fun _ => At p false) R B :=
  fun _ hw => ⟨hw.1, rfl⟩

theorem readParams_at :
    Program.Triple (At p b) readParams (fun q w => At p b w ∧ q = params p) R B :=
  fun _ hw => ⟨hw, congrArg params hw.1⟩

theorem setRates_at :
    Program.Triple (At p b) setRates (fun s w => At p b w ∧ s = screen (params p)) R B :=
  fun _ hw => ⟨hw, congrArg (fun p => screen (params p)) hw.1⟩

theorem callback_at (ev : Event) :
    Program.Triple (At p b) (callback ev) (fun _ => At p b) R B := fun _ hw => hw

theorem stopTimeServer_at (now : Str → List UInt32) :
    Program.Triple (At p b) (stopTimeServer e now) (fun _ => At p b) R B := by
  rintro w hw
  cases hsignal : w.signal <;> cases hstarting : w.starting <;>
    simp only [stopTimeServer, Program.Meets, hsignal, hstarting] <;> exact hw

theorem destroyLoop_at (kind : ℤ → Option Kind) (ids : List ℤ) {R : ℤ → World → Prop} :
    Program.Triple (At p b) (destroyLoop kind ids) (fun _ => At p b) R B := by
  induction ids with
  | nil => exact Program.Triple.pure fun _ hw => hw
  | cons id ids ih =>
    refine Program.Triple.bind ?_ fun _ => ih
    cases kind id with
    | none => exact Program.Triple.pure fun _ hw => hw
    | some k => exact callback_at _

/-- **The loop** goes to its end, or returns because a signal is not created. -/
theorem createLoop_at {entry : ℤ → OsdData → OsdData × Option Shown} {Time : ℤ → Prop}
    (signals : ℤ → Bool) (ids : List ℤ) (data : OsdData)
    (htime : ∀ id data, (entry id data).2 = some .time ↔ Time id) :
    Program.Triple (At p b) (createLoop entry signals ids data)
      (fun _ w => At p b w ∧ ∀ id ∈ ids, Time id → signals id = true)
      (fun _ w => At p b w ∧ ∃ id ∈ ids, Time id ∧ signals id = false) B := by
  induction ids generalizing data with
  | nil => exact Program.Triple.pure fun _ hw => ⟨hw, by simp⟩
  | cons id ids ih =>
    refine Program.Triple.bind
      (V := fun _ w => At p b w ∧ (Time id → signals id = true)) ?_ fun _ => ?_
    · -- the entry itself
      rw [← htime id data]
      cases hshown : (entry id data).2 with
      | none => exact Program.Triple.pure fun _ hw => ⟨hw, by simp⟩
      | some shown =>
        cases shown with
        | region k => exact fun _ hw => ⟨hw, by simp⟩
        | time =>
          intro w hw
          cases hsignal : signals id with
          | true =>
            simp only [createEntry, startTimeServer, hsignal]
            exact ⟨hw, fun _ => trivial⟩
          | false =>
            simp only [createEntry, startTimeServer, hsignal]
            exact ⟨hw, id, List.mem_cons_self .., (htime id data).mp hshown, hsignal⟩
    · rintro w ⟨hw, hid⟩
      refine (((ih (entry id data).1).post ?_).returns ?_) w hw
      · exact fun _ w h => ⟨h.1, List.forall_mem_cons.mpr ⟨hid, h.2⟩⟩
      · exact fun _ w h => ⟨h.1, h.2.imp fun j hj => ⟨List.mem_cons_of_mem _ hj.1, hj.2⟩⟩

end Statements

/-! ## Calls -/

section Calls

variable {e : Env} {p : Store} {B : World → Prop}

/-- What a call leaves: the same store, and a free mutex if `free`. -/
def Leaves (p : Store) (free : Prop) (w : World) : Prop := w.store = p ∧ (w.mutex = false ↔ free)

theorem At.leaves {free : Prop} {w : World} {b : Bool} (h : At p b w) (hfree : b = false ↔ free) :
    Leaves p free w := ⟨h.1, by rw [h.2, hfree]⟩

/-- The end of every function that gives the mutex back. -/
theorem unlock_leaves {R : ℤ → World → Prop} {b : Bool} {free : Prop} (hfree : free) :
    Program.Triple (At p b) (do mutexUnlock; return 0) (fun _ : ℤ => Leaves p free) R B :=
  Program.Triple.bind mutexUnlock_at fun _ =>
    Program.Triple.pure fun _ hw => hw.leaves (iff_of_true rfl hfree)

theorem exit_leaves {V : ℤ → World → Prop} {free : Prop} (hfree : ¬ free) :
    Program.Triple (At p true) (Program.exit (-1)) V (fun _ : ℤ => Leaves p free) B :=
  Program.Triple.exit fun _ hw => hw.leaves (iff_of_false (by simp) hfree)

/-- The beginning of the functions that create a region from the parameters. -/
theorem opening_at {α : Type} {V : α → World → Prop} {R : ℤ → World → Prop}
    {f : Params → Screen → Program World ℤ α}
    (hf : Program.Triple (At p true) (f (params p) (screen (params p))) V R B) :
    Program.Triple (At p false)
      (do mutexLock; let q ← readParams; let s ← setRates; f q s) V R B := by
  refine mutexLock_at.bind fun _ => readParams_at.bind fun q => Program.Triple.assuming ?_
  rintro rfl
  refine setRates_at.bind fun s => Program.Triple.assuming ?_
  rintro rfl
  exact hf

theorem rkOsdInit_leaves (signals : ℤ → Bool) :
    Program.Triple (At p false) (rkOsdInit e signals)
      (fun _ => Leaves p ((Call.init signals).Releases e (params p)))
      (fun _ => Leaves p ((Call.init signals).Releases e (params p))) B := by
  apply opening_at
  have hloop := createLoop_at (p := p) (b := true) (B := B) signals slots e.junk
    fun id data => initEntry_time_iff e (params p) (screen (params p)) id data
  refine Program.Triple.bind (hloop.returns ?_)
    fun _ => Program.Triple.assuming fun hsignals => unlock_leaves hsignals
  -- a signal was not created
  rintro - w ⟨hw, id, hid, htime, hsignal⟩
  refine hw.leaves (iff_of_false (by simp) fun h => ?_)
  rw [h id hid htime] at hsignal
  cases hsignal

theorem rkOsdDeinit_leaves (now : Str → List UInt32) {R : ℤ → World → Prop} :
    Program.Triple (At p false) (rkOsdDeinit e now) (fun _ => At p false) R B :=
  mutexLock_at.bind fun _ => (stopTimeServer_at now).bind fun _ => readParams_at.bind fun _ =>
    Program.Triple.assuming fun _ => (destroyLoop_at _ _).bind fun _ =>
      mutexUnlock_at.bind fun _ => Program.Triple.pure fun _ hw => hw

theorem rkOsdRestart_leaves (now : Str → List UInt32) (signals : ℤ → Bool) {R : ℤ → World → Prop} :
    Program.Triple (At p false) (rkOsdRestart e now signals)
      (fun _ => Leaves p ((Call.restart now signals).Releases e (params p))) R B :=
  (rkOsdDeinit_leaves now).call.bind fun _ => (rkOsdInit_leaves signals).call.bind fun _ =>
    Program.Triple.pure fun _ hw => hw

theorem rkOsdBmpChange_leaves (id : Int32) :
    Program.Triple (At p false) (rkOsdBmpChange e id)
      (fun _ => Leaves p ((Call.bmpChange id).Releases e (params p)))
      (fun _ => Leaves p ((Call.bmpChange id).Releases e (params p))) B := by
  apply opening_at
  simp only [Call.Releases]
  cases htype : osdType (params p) id.toInt with
  | none => exact exit_leaves (by simp)
  | some type =>
    refine Program.Triple.ite (fun h0 => exit_leaves ?_) fun h0 =>
      Program.Triple.ite (fun htext => ?_) fun htext => ?_
    · rintro ⟨type', -, hne, -⟩
      exact hne h0
    · refine Program.Triple.ite (fun hneg => exit_leaves ?_) fun hneg => ?_
      · rintro ⟨type', htype', -, hpos⟩
        obtain rfl := Option.some.inj htype'
        rw [hpos htext] at hneg
        cases hneg
      · exact (callback_at _).bind fun _ =>
          unlock_leaves ⟨type, rfl, h0, fun _ => by simpa using hneg⟩
    · exact unlock_leaves ⟨type, rfl, h0, fun h => absurd h htext⟩

theorem rkOsdPrivacyMaskRestart_leaves {R : ℤ → World → Prop} :
    Program.Triple (At p false) (rkOsdPrivacyMaskRestart e) (fun _ => At p false) R B := by
  refine mutexLock_at.bind fun _ => readParams_at.bind fun q => Program.Triple.assuming fun _ =>
    (destroyLoop_at _ _).bind fun _ => setRates_at.bind fun s => Program.Triple.assuming fun _ => ?_
  have hloop := createLoop_at (p := p) (b := true) (B := B) (fun _ => true) slots e.junk
    fun id data => iff_of_false (restartEntry_ne_time e q s id data) not_false
  refine Program.Triple.bind (hloop.returns ?_)
    fun _ => Program.Triple.assuming fun _ => mutexUnlock_at.bind fun _ =>
      Program.Triple.pure fun _ hw => hw
  rintro - w ⟨-, id, -, htime, -⟩
  exact htime.elim

/-- **One call** returns, leaves the parameters as they are, and gives the mutex back if and only if
it does not take a branch without unlock. -/
theorem Call.mutex_iff {w : World} (hw : w.mutex = false) (c : Call) :
    ∃ w', c.result e w = some w' ∧ w'.store = w.store ∧
      (w'.mutex = false ↔ c.Releases e (params w.store)) := by
  have hreturns : Program.Triple (At w.store false) (c.run e)
      (fun _ => Leaves w.store (c.Releases e (params w.store)))
      (fun _ => Leaves w.store (c.Releases e (params w.store))) fun _ => False := by
    cases c with
    | init signals => exact rkOsdInit_leaves signals
    | deinit now =>
      exact (rkOsdDeinit_leaves now).post fun _ _ h => h.leaves (iff_of_true rfl trivial)
    | restart now signals => exact rkOsdRestart_leaves now signals
    | bmpChange id => exact rkOsdBmpChange_leaves id
    | privacyMaskRestart =>
      exact rkOsdPrivacyMaskRestart_leaves.post fun _ _ h => h.leaves (iff_of_true rfl trivial)
  have h := hreturns w ⟨rfl, hw⟩
  rw [Call.result]
  generalize c.run e w = o at h ⊢
  rcases o with ⟨_ | _ | _, w'⟩
  · exact ⟨w', rfl, h⟩
  · exact ⟨w', rfl, h⟩
  · exact h.elim

/-- A call waits for a mutex that is held. -/
theorem Call.result_eq_none {w : World} (hw : w.mutex = true) (c : Call) : c.result e w = none := by
  have hlock : Program.Triple (fun w => w.mutex = true) (mutexLock : Program World ℤ Unit)
      (fun _ _ => False) (fun _ _ => False) fun _ => True := by
    intro w hw
    rw [mutexLock, if_pos hw]
    trivial
  have hblocks : Program.Triple (fun w => w.mutex = true) (c.run e)
      (fun _ _ => False) (fun _ _ => False) fun _ => True := by
    cases c with
    | restart now signals =>
      have hdeinit : Program.Triple (fun w => w.mutex = true) (rkOsdDeinit e now)
          (fun _ _ => False) (fun _ _ => False) fun _ => True := hlock.bind fun _ _ h => h.elim
      exact hdeinit.call.bind fun _ _ h => h.elim
    | _ => exact hlock.bind fun _ _ h => h.elim
  have h := hblocks w hw
  rw [Call.result]
  generalize c.run e w = o at h ⊢
  rcases o with ⟨_ | _ | _, w'⟩
  · exact h.elim
  · exact h.elim
  · rfl

end Calls

/-! ## Sequences -/

/-- Calls in turn. -/
def callAll (e : Env) : List Call → World → Option World
  | [], w => some w
  | c :: calls, w => (c.result e w).bind (callAll e calls)

/-- **Every call of a sequence returns and gives the mutex back** if and only if none of them takes
a branch without unlock. -/
theorem mutex_free_iff (e : Env) {w : World} (hw : w.mutex = false) (calls : List Call) :
    (∀ pre, pre <+: calls → ∃ w', callAll e pre w = some w' ∧ w'.mutex = false) ↔
      ∀ c ∈ calls, c.Releases e (params w.store) := by
  induction calls generalizing w with
  | nil =>
    refine iff_of_true (fun pre hpre => ⟨w, ?_, hw⟩) (by simp)
    rw [List.prefix_nil.mp hpre]
    rfl
  | cons c calls ih =>
    obtain ⟨w₁, hresult, hstore, hmutex⟩ := Call.mutex_iff (e := e) hw c
    rw [List.forall_mem_cons, ← hmutex]
    constructor
    · intro h
      -- the first call alone, and then the others
      have hfree : w₁.mutex = false := by
        obtain ⟨w', hw', hfree⟩ := h [c] ⟨calls, rfl⟩
        rw [callAll, hresult] at hw'
        obtain rfl := Option.some.inj hw'
        exact hfree
      refine ⟨hfree, ?_⟩
      rw [← hstore]
      refine (ih hfree).mp fun pre hpre => ?_
      obtain ⟨w', hw', hfree'⟩ := h (c :: pre) (List.cons_prefix_cons.mpr ⟨rfl, hpre⟩)
      rw [callAll, hresult] at hw'
      exact ⟨w', hw', hfree'⟩
    · rintro ⟨hfree, hcalls⟩ pre hpre
      cases pre with
      | nil => exact ⟨w, rfl, hw⟩
      | cons c' pre =>
        obtain ⟨rfl, hrest⟩ := List.cons_prefix_cons.mp hpre
        rw [← hstore] at hcalls
        obtain ⟨w', hw', hfree'⟩ := (ih hfree).mpr hcalls pre hrest
        exact ⟨w', by rw [callAll, hresult]; exact hw', hfree'⟩

/-- A signal is created for the only entry, and the entry is changed inside the picture. -/
theorem mutex_free_iff_signal : ∃ w', callAll Env.plain
    [.init fun _ => true, .bmpChange 0, .privacyMaskRestart, .deinit fun _ => []]
    (World.initial (oneEntry "dateTime")) = some w' ∧ w'.mutex = false := by
  refine (mutex_free_iff Env.plain rfl [.init fun _ => true, .bmpChange 0, .privacyMaskRestart,
    .deinit fun _ => []]).mpr ?_ _ (List.prefix_refl _)
  simp only [List.forall_mem_cons, List.not_mem_nil, false_imp_iff, implies_true, and_true]
  refine ⟨fun _ _ _ => rfl, ⟨lit "dateTime", ?_, ?_, fun _ => ?_⟩, trivial, trivial⟩
  · decide +kernel
  · decide +kernel
  · decide +kernel

/-- **A call after which every other one waits**: the signal of the time server is not created. -/
theorem init_keeps_mutex : ∃ w', (Call.init fun _ => false).result Env.plain
    (World.initial (oneEntry "dateTime")) = some w' ∧ w'.mutex = true ∧
      ∀ c : Call, c.result Env.plain w' = none := by
  obtain ⟨w', hresult, -, hmutex⟩ := Call.mutex_iff (e := Env.plain)
    (w := World.initial (oneEntry "dateTime")) rfl (.init fun _ => false)
  have htime : TimeEnabled (params (oneEntry "dateTime")) 0 := by decide +kernel
  have hheld : w'.mutex = true := by
    rw [← Bool.not_eq_false, hmutex]
    intro h
    cases h 0 (by decide) htime
  exact ⟨w', hresult, hheld, fun c => Call.result_eq_none hheld c⟩

end RkIpc.Osd
