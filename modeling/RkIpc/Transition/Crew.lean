import RkIpc.Mutex.Serial
import RkIpc.Transition.Orderly

/-!
# A program and its threads

A program creates threads and joins them. Each of the threads makes some calls, and then goes round
a loop as long as a condition holds; in every round it makes calls again. The program and the
threads alternate, call by call. A thread that has been created or has ended is there until it is
joined, and a thread that is not there cannot be joined.

## Main definitions

* `Crew`: what the statements of the program do, and what the threads call
* `Crew.State`, `Crew.Step`: where the program and the threads stand, and their steps
* `Crew.Lawful`: a program that is in order knows which threads there are

## Main results

* `Crew.calls_induction`: what holds of the calls of every round, holds of all calls of a thread
* `Crew.Sound.count_le`: a thread that is waited for makes no more than so many steps
* `Crew.Sound.exists_run`: the program can come to its end from wherever the threads stand
-/

namespace Transition

/-- Where a thread stands: there is none, or it is before everything, at the head of its loop,
before the calls that are left, with whether it ends behind them, or behind its end and not
joined. -/
inductive Place (κ : Type*)
  | absent
  | born
  | head
  | busy (cs : List κ) (last : Bool)
  | ended

/-- The calls that are left. -/
def Place.pending {κ : Type*} : Place κ → List κ
  | .busy cs _ => cs
  | _ => []

/-- How many steps a thread makes at most once its loop goes round no more, where nothing takes
more than `n` calls. -/
def Place.left {κ : Type*} (n : ℕ) : Place κ → ℕ
  | .born => n + 3
  | .head => 1
  | .busy cs _ => cs.length + 2
  | .absent | .ended => 0

/-- **What a program and its threads do.** A statement changes the control and the data, and may
take the data to be in a certain way; a thread changes the data when it begins, and has them
changed by its calls. The loops go on as the control and the data say. -/
structure Crew (β δ γ ω κ : Type*) where
  exec : β → γ → β
  feed : δ → γ → δ
  enter : δ → ω → δ
  make : δ → ω → κ → δ
  spawns : γ → Option ω
  joins : γ → Option ω
  finds : δ → γ → Prop
  goesOn : β → δ → ω → Bool
  Start : δ → ω → List κ → Bool → Prop
  Round : δ → ω → List κ → Bool → Prop

namespace Crew

variable {β δ γ ω κ : Type*} [DecidableEq ω]

/-- The control, the data, the statements that are left, where the threads stand, and the calls so
far. -/
structure State (β δ γ ω κ : Type*) where
  control : β
  data : δ
  program : List γ
  place : ω → Place κ
  calls : List (ω × κ)

/-- Before the first statement. -/
def State.start (control : β) (data : δ) (program : List γ) : State β δ γ ω κ :=
  ⟨control, data, program, fun _ => .absent, []⟩

/-- A statement of the program is executed. -/
def State.execute (m : Crew β δ γ ω κ) (s : State β δ γ ω κ) (c : γ) (rest : List γ) :
    State β δ γ ω κ :=
  { s with
    control := m.exec s.control c
    data := m.feed s.data c
    program := rest
    place := fun w =>
      if m.spawns c = some w then .born else if m.joins c = some w then .absent else s.place w }

/-- A thread goes on to a place. -/
def State.goTo (s : State β δ γ ω κ) (w : ω) (p : Place κ) : State β δ γ ω κ :=
  { s with place := Function.update s.place w p }

/-- A thread begins. -/
def State.enter (m : Crew β δ γ ω κ) (s : State β δ γ ω κ) (w : ω) (cs : List κ) (last : Bool) :
    State β δ γ ω κ :=
  { s with
    data := m.enter s.data w
    place := Function.update s.place w (.busy cs last) }

/-- A thread makes a call. -/
def State.make (m : Crew β δ γ ω κ) (s : State β δ γ ω κ) (w : ω) (c : κ) (rest : List κ)
    (last : Bool) : State β δ γ ω κ :=
  { s with
    data := m.make s.data w c
    place := Function.update s.place w (.busy rest last)
    calls := s.calls ++ [(w, c)] }

/-- **A step** of a thread, or of the program; where it joins a thread, it waits for its end. -/
inductive Step (m : Crew β δ γ ω κ) (s : State β δ γ ω κ) : Option ω → State β δ γ ω κ → Prop
  | main {c : γ} {rest : List γ} : s.program = c :: rest →
      (∀ w, m.joins c = some w → s.place w = .ended) → m.finds s.data c →
      Step m s none (s.execute m c rest)
  | start {w : ω} {cs : List κ} {last : Bool} : s.place w = .born → m.Start s.data w cs last →
      Step m s (some w) (s.enter m w cs last)
  | round {w : ω} {cs : List κ} {last : Bool} : s.place w = .head →
      m.goesOn s.control s.data w = true → m.Round s.data w cs last →
      Step m s (some w) (s.goTo w (.busy cs last))
  | call {w : ω} {c : κ} {cs : List κ} {last : Bool} : s.place w = .busy (c :: cs) last →
      Step m s (some w) (s.make m w c cs last)
  | back {w : ω} : s.place w = .busy [] false → Step m s (some w) (s.goTo w .head)
  | finish {w : ω} : s.place w = .busy [] true → Step m s (some w) (s.goTo w .ended)
  | leave {w : ω} : s.place w = .head → m.goesOn s.control s.data w = false →
      Step m s (some w) (s.goTo w .ended)

section

variable {m : Crew β δ γ ω κ} {s : State β δ γ ω κ} {v w : ω} {p : Place κ} {c : κ} {cs : List κ}
  {last : Bool} {d : γ} {rest : List γ}

@[simp] theorem place_goTo_self : (s.goTo w p).place w = p := Function.update_self ..

theorem place_goTo_of_ne (h : v ≠ w) : (s.goTo w p).place v = s.place v :=
  Function.update_of_ne h ..

@[simp] theorem place_enter_self : (s.enter m w cs last).place w = .busy cs last :=
  Function.update_self ..

theorem place_enter_of_ne (h : v ≠ w) : (s.enter m w cs last).place v = s.place v :=
  Function.update_of_ne h ..

@[simp] theorem place_make_self : (s.make m w c cs last).place w = .busy cs last :=
  Function.update_self ..

theorem place_make_of_ne (h : v ≠ w) : (s.make m w c cs last).place v = s.place v :=
  Function.update_of_ne h ..

theorem place_execute : (s.execute m d rest).place w =
    if m.spawns d = some w then .born else if m.joins d = some w then .absent else s.place w := rfl

theorem place_execute_of_not (hs : m.spawns d ≠ some w) (hj : m.joins d ≠ some w) :
    (s.execute m d rest).place w = s.place w := by
  rw [place_execute, if_neg hs, if_neg hj]

end

/-! ## Programs in order -/

/-- The control says which threads there are. -/
def Tells (on : β → ω → Bool) (s : State β δ γ ω κ) : Prop :=
  ∀ w, on s.control w = true ↔ s.place w ≠ .absent

/-- A statement has the control say which threads it creates and joins. -/
def Follows (m : Crew β δ γ ω κ) (on : β → ω → Bool) : Prop :=
  ∀ x c w, on (m.exec x c) w =
    if m.spawns c = some w then true else if m.joins c = some w then false else on x w

/-- **Statements in order** know which threads there are: none is created twice, none is joined
that is not there or whose loop goes on. Whether it does may depend on an invariant. -/
structure Lawful (m : Crew β δ γ ω κ) (allows : β → γ → Prop) (on : β → ω → Bool)
    (I : State β δ γ ω κ → Prop) : Prop where
  follows : m.Follows on
  off_of_spawn : ∀ {x c w}, allows x c → m.spawns c = some w → on x w = false
  on_of_join : ∀ {x c w}, allows x c → m.joins c = some w → on x w = true
  invariant : ∀ {s u i}, I s → Tells on s → (∀ c rest, s.program = c :: rest → allows s.control c) →
    Step m s i u → I u
  ends_of_join : ∀ {s c rest w}, I s → s.program = c :: rest → allows s.control c →
    m.joins c = some w → m.goesOn s.control s.data w = false

/-- **What every step keeps**: what is left of the program is in order, the control says which
threads there are, and the invariant holds. -/
structure Sound (m : Crew β δ γ ω κ) (allows : β → γ → Prop) (on : β → ω → Bool)
    (I : State β δ γ ω κ → Prop) (s : State β δ γ ω κ) : Prop where
  inOrder : InOrder allows m.exec s.control s.program
  tells : Tells on s
  holds : I s

variable {m : Crew β δ γ ω κ} {allows : β → γ → Prop} {on : β → ω → Bool}
  {I : State β δ γ ω κ → Prop} {s t u : State β δ γ ω κ} {v w : ω}

omit [DecidableEq ω] in
theorem Tells.on_of_place (h : Tells on s) (hplace : s.place w ≠ .absent) :
    on s.control w = true := (h w).mpr hplace

omit [DecidableEq ω] in
theorem Tells.absent_of_off (h : Tells on s) (hoff : on s.control w = false) :
    s.place w = .absent := by
  by_contra hne
  exact absurd ((h.on_of_place hne).symm.trans hoff) (by decide)

omit [DecidableEq ω] in
/-- What is left of the program begins with a statement that is in order. -/
theorem Sound.allowed (h : Sound m allows on I s) {c : γ} {rest : List γ}
    (hprogram : s.program = c :: rest) : allows s.control c := by
  have horder := h.inOrder
  rw [hprogram] at horder
  exact horder.1

/-- A step of a thread leaves the control, the program and the other threads. -/
theorem Step.frame (hstep : Step m s (some v) u) :
    u.control = s.control ∧ u.program = s.program ∧ ∀ w, w ≠ v → u.place w = s.place w := by
  cases hstep with
  | start _ _ => exact ⟨rfl, rfl, fun w hw => place_enter_of_ne hw⟩
  | call _ => exact ⟨rfl, rfl, fun w hw => place_make_of_ne hw⟩
  | _ => exact ⟨rfl, rfl, fun w hw => place_goTo_of_ne hw⟩

/-- A thread that makes a step is there, before and behind. -/
theorem Step.place_ne (hstep : Step m s (some v) u) :
    s.place v ≠ .absent ∧ u.place v ≠ .absent := by
  cases hstep <;> simp_all

/-- **A step** has the control say which threads there are. -/
theorem Tells.step (hon : m.Follows on) (h : Tells on s) {i : Option ω} (hstep : Step m s i u) :
    Tells on u := by
  intro w
  cases i with
  | some v =>
    obtain ⟨hcontrol, -, hplace⟩ := hstep.frame
    rw [hcontrol]
    rcases eq_or_ne w v with rfl | hne
    · exact iff_of_true (h.on_of_place hstep.place_ne.1) hstep.place_ne.2
    · rw [hplace w hne]
      exact h w
  | none =>
    cases hstep with
    | @main c rest _ _ _ =>
      -- the thread is created, joined, or not meant
      change on (m.exec s.control c) w = true ↔ _
      rw [hon, place_execute]
      split_ifs
      · simp
      · simp
      · exact h w

theorem Tells.run (hon : m.Follows on) {is : List (Option ω)} (h : Tells on s)
    (hrun : Run (Step m) s is u) : Tells on u :=
  hrun.invariant (fun _ _ _ hs hstep => hs.step hon hstep) h

theorem Sound.step (hm : m.Lawful allows on I) (h : Sound m allows on I s) {i : Option ω}
    (hstep : Step m s i u) : Sound m allows on I u := by
  refine ⟨?_, h.tells.step hm.follows hstep,
    hm.invariant h.holds h.tells (fun _ _ hprogram => h.allowed hprogram) hstep⟩
  cases i with
  | some v =>
    obtain ⟨hcontrol, hprogram, -⟩ := hstep.frame
    rw [hcontrol, hprogram]
    exact h.inOrder
  | none =>
    cases hstep with
    | main hprogram _ _ =>
      have horder := h.inOrder
      rw [hprogram] at horder
      exact horder.2

omit [DecidableEq ω] in
theorem sound_start {x : β} {d : δ} {program : List γ} (h : InOrder allows m.exec x program)
    (hoff : ∀ w, on x w = false) (hI : I (State.start x d program)) :
    Sound m allows on I (State.start x d program) :=
  ⟨h, fun w => iff_of_false (by rw [State.start, hoff]; decide) fun hne => hne rfl, hI⟩

theorem Sound.run (hm : m.Lawful allows on I) {is : List (Option ω)} (h : Sound m allows on I s)
    (hrun : Run (Step m) s is u) : Sound m allows on I u :=
  hrun.invariant (fun _ _ _ hs hstep => hs.step hm hstep) h

/-- What statements in order keep of the control. -/
theorem Sound.control_invariant (hm : m.Lawful allows on I) {is : List (Option ω)} {J : β → Prop}
    (h : Sound m allows on I s) (hrun : Run (Step m) s is u)
    (hkeep : ∀ x c, J x → allows x c → J (m.exec x c)) (hs : J s.control) : J u.control := by
  -- what a statement keeps, it keeps only where it is in order
  have hinv : Sound m allows on I u ∧ J u.control := by
    refine hrun.invariant (I := fun s => Sound m allows on I s ∧ J s.control)
      (fun s i u hs hstep => ⟨hs.1.step hm hstep, ?_⟩) ⟨h, hs⟩
    cases i with
    | some v =>
      rw [hstep.frame.1]
      exact hs.2
    | none =>
      cases hstep with
      | main hprogram _ _ => exact hkeep _ _ hs.2 (hs.1.allowed hprogram)
  exact hinv.2

/-! ## The calls of a thread -/

/-- The calls of a thread, those it has made and those that are left. -/
def State.callsOf (s : State β δ γ ω κ) (w : ω) : List κ :=
  Mutex.ofThread w s.calls ++ (s.place w).pending

section

variable {p : Place κ} {c : κ} {cs : List κ} {last : Bool}

theorem callsOf_eq (hplace : (s.place w).pending = []) :
    s.callsOf w = Mutex.ofThread w s.calls := by
  rw [State.callsOf, hplace, List.append_nil]

theorem callsOf_goTo_of_ne (h : w ≠ v) : (s.goTo v p).callsOf w = s.callsOf w := by
  rw [State.callsOf, place_goTo_of_ne h]
  rfl

/-- A round begins. -/
theorem callsOf_goTo_self (hplace : (s.place w).pending = []) :
    (s.goTo w p).callsOf w = s.callsOf w ++ p.pending := by
  rw [callsOf_eq hplace, State.callsOf, place_goTo_self]
  rfl

/-- A thread goes on without a call. -/
theorem callsOf_goTo (hplace : (s.place v).pending = []) (hp : p.pending = []) :
    (s.goTo v p).callsOf w = s.callsOf w := by
  rcases eq_or_ne w v with rfl | hne
  · rw [callsOf_goTo_self hplace, hp, List.append_nil]
  · exact callsOf_goTo_of_ne hne

theorem callsOf_enter_of_ne (h : w ≠ v) : (s.enter m v cs last).callsOf w = s.callsOf w := by
  rw [State.callsOf, place_enter_of_ne h]
  rfl

/-- A thread begins. -/
theorem callsOf_enter_self (hplace : (s.place w).pending = []) :
    (s.enter m w cs last).callsOf w = s.callsOf w ++ cs := by
  rw [callsOf_eq hplace, State.callsOf, place_enter_self]
  rfl

/-- A call that was left is made. -/
theorem callsOf_make (hplace : s.place v = .busy (c :: cs) last) :
    (s.make m v c cs last).callsOf w = s.callsOf w := by
  have hcalls : (s.make m v c cs last).calls = s.calls ++ [(v, c)] := rfl
  rw [State.callsOf, State.callsOf, hcalls, Mutex.ofThread_append]
  rcases eq_or_ne w v with rfl | hne
  · rw [place_make_self, hplace, Mutex.ofThread_self, List.append_assoc]
    rfl
  · rw [place_make_of_ne hne, Mutex.ofThread_of_ne hne.symm, List.append_nil]

end

/-- A statement of the program leaves the calls. -/
theorem Sound.callsOf_execute (hm : m.Lawful allows on I) (h : Sound m allows on I s) {c : γ}
    {rest : List γ} (hprogram : s.program = c :: rest)
    (hjoin : ∀ w, m.joins c = some w → s.place w = .ended) :
    (s.execute m c rest).callsOf w = s.callsOf w := by
  have hcalls : (s.execute m c rest).calls = s.calls := rfl
  rw [State.callsOf, State.callsOf, hcalls, place_execute]
  split_ifs with hs hj
  · -- there is no such thread before
    rw [h.tells.absent_of_off (hm.off_of_spawn (h.allowed hprogram) hs)]
    rfl
  · rw [hjoin w hj]
    rfl
  · rfl

/-- **What a step makes of the calls of a thread**: nothing, or a round begins. -/
theorem Sound.callsOf_step (hm : m.Lawful allows on I) (h : Sound m allows on I s) {i : Option ω}
    (hstep : Step m s i u) : u.callsOf w = s.callsOf w ∨ ∃ cs last,
      u.callsOf w = s.callsOf w ++ cs ∧
        (m.Start s.data w cs last ∨ s.place w = .head ∧ m.Round s.data w cs last) := by
  cases hstep with
  | main hprogram hjoin _ => exact .inl (h.callsOf_execute hm hprogram hjoin)
  | @start v cs last hborn hcs =>
    rcases eq_or_ne w v with rfl | hne
    · have hpending : (s.place w).pending = [] := by rw [hborn]; rfl
      exact .inr ⟨cs, last, callsOf_enter_self hpending, .inl hcs⟩
    · exact .inl (callsOf_enter_of_ne hne)
  | @round v cs last hhead _ hcs =>
    rcases eq_or_ne w v with rfl | hne
    · have hpending : (s.place w).pending = [] := by rw [hhead]; rfl
      exact .inr ⟨cs, last, callsOf_goTo_self hpending, .inr ⟨hhead, hcs⟩⟩
    · exact .inl (callsOf_goTo_of_ne hne)
  | call hbusy => exact .inl (callsOf_make hbusy)
  | back hbusy => exact .inl (callsOf_goTo (by rw [hbusy]; rfl) rfl)
  | finish hbusy => exact .inl (callsOf_goTo (by rw [hbusy]; rfl) rfl)
  | leave hhead _ => exact .inl (callsOf_goTo (by rw [hhead]; rfl) rfl)

/-- **What holds of the calls so far, and with those of one round more**, holds of the calls of a
thread in every state. -/
theorem Sound.calls_invariant (hm : m.Lawful allows on I) {P : List κ → Prop}
    {is : List (Option ω)} (h : Sound m allows on I s) (hrun : Run (Step m) s is u)
    (hs : P (s.callsOf w))
    (hround : ∀ {s cs last}, Sound m allows on I s → P (s.callsOf w) →
      m.Start s.data w cs last ∨ s.place w = .head ∧ m.Round s.data w cs last →
        P (s.callsOf w ++ cs)) : P (u.callsOf w) := by
  have hinv : Sound m allows on I u ∧ P (u.callsOf w) := by
    refine hrun.invariant (I := fun s => Sound m allows on I s ∧ P (s.callsOf w))
      (fun s i u hs hstep => ⟨hs.1.step hm hstep, ?_⟩) ⟨h, hs⟩
    rcases hs.1.callsOf_step (w := w) hm hstep with he | ⟨cs, last, he, hcs⟩
    · rw [he]
      exact hs.2
    · rw [he]
      exact hround hs.1 hs.2 hcs
  exact hinv.2

/-- The same where the state does not matter. -/
theorem calls_induction (hm : m.Lawful allows on I) {P : List κ → Prop} {is : List (Option ω)}
    (h : Sound m allows on I s) (hrun : Run (Step m) s is u) (hs : P (s.callsOf w))
    (hstart : ∀ {d cs cs' last}, P cs → m.Start d w cs' last → P (cs ++ cs'))
    (hround : ∀ {d cs cs' last}, P cs → m.Round d w cs' last → P (cs ++ cs')) :
    P (u.callsOf w) :=
  h.calls_invariant hm hrun hs fun _ hcalls hcs =>
    hcs.elim (hstart hcalls) fun hcs => hround hcalls hcs.2

/-- **A thread whose loop goes round no more** makes no call any more but those that were left,
and those before its loop. -/
theorem calls_of_off {Q : κ → Prop} {is : List (Option ω)} (hrun : Run (Step m) s is u)
    (hoff : m.goesOn s.control s.data w = false)
    (hkeep : ∀ {t u : State β δ γ ω κ} {i}, Step m t i u → m.goesOn t.control t.data w = false →
      m.goesOn u.control u.data w = false)
    (hpending : ∀ c ∈ (s.place w).pending, Q c)
    (hstart : ∀ {d cs last}, m.Start d w cs last → ∀ c ∈ cs, Q c) :
    ∃ cs, Mutex.ofThread w u.calls = Mutex.ofThread w s.calls ++ cs ∧ ∀ c ∈ cs, Q c := by
  -- besides the calls made, those that are left have the property
  have hinv : m.goesOn u.control u.data w = false ∧ (∀ c ∈ (u.place w).pending, Q c) ∧
      ∃ cs, Mutex.ofThread w u.calls = Mutex.ofThread w s.calls ++ cs ∧ ∀ c ∈ cs, Q c := by
    refine hrun.invariant (I := fun u => m.goesOn u.control u.data w = false ∧
      (∀ c ∈ (u.place w).pending, Q c) ∧
        ∃ cs, Mutex.ofThread w u.calls = Mutex.ofThread w s.calls ++ cs ∧ ∀ c ∈ cs, Q c)
      (fun t i u ht hstep => ⟨hkeep hstep ht.1, ?_⟩) ⟨hoff, hpending, [],
        (List.append_nil _).symm, by simp⟩
    obtain ⟨htoff, htpending, cs, hcs, hq⟩ := ht
    cases i with
    | none =>
      cases hstep with
      | main _ _ _ =>
        -- a thread that is created or joined has no calls left
        refine ⟨?_, cs, hcs, hq⟩
        rw [place_execute]
        split_ifs
        · simp [Place.pending]
        · simp [Place.pending]
        · exact htpending
    | some v =>
      rcases eq_or_ne v w with rfl | hne
      · cases hstep with
        | start _ hcs' =>
          refine ⟨?_, cs, hcs, hq⟩
          rw [place_enter_self]
          exact hstart hcs'
        | round _ hon _ => exact absurd (hon.symm.trans htoff) (by decide)
        | @call _ c cs' last hbusy =>
          rw [hbusy] at htpending
          obtain ⟨hc, hcs'⟩ := List.forall_mem_cons.mp htpending
          refine ⟨?_, cs ++ [c], ?_, ?_⟩
          · rw [place_make_self]
            exact hcs'
          · change Mutex.ofThread v (t.calls ++ [(v, c)]) = _
            rw [Mutex.ofThread_append, Mutex.ofThread_self, hcs, List.append_assoc]
          · exact List.forall_mem_append.mpr ⟨hq, List.forall_mem_singleton.mpr hc⟩
        | _ =>
          refine ⟨?_, cs, hcs, hq⟩
          rw [place_goTo_self]
          simp [Place.pending]
      · refine ⟨(hstep.frame.2.2 w hne.symm).symm ▸ htpending, cs, ?_, hq⟩
        cases hstep with
        | call _ =>
          rw [← hcs]
          change Mutex.ofThread w (t.calls ++ [_]) = _
          rw [Mutex.ofThread_append, Mutex.ofThread_of_ne hne, List.append_nil]
        | _ => exact hcs
  exact hinv.2.2

/-! ## The end of a thread -/

/-- **Nothing takes more than `n` calls.** -/
def Bounded (m : Crew β δ γ ω κ) (n : ℕ) : Prop :=
  ∀ d w cs last, m.Start d w cs last ∨ m.Round d w cs last → cs.length ≤ n

/-- **A step of a thread whose loop goes round no more** brings it nearer to its end. -/
theorem Step.left_lt {n : ℕ} (hn : m.Bounded n) (hstep : Step m s (some w) u)
    (hends : m.goesOn s.control s.data w = false) :
    (u.place w).left n < (s.place w).left n := by
  cases hstep with
  | @start _ cs last hborn hcs =>
    have hlen := hn _ _ _ _ (.inl hcs)
    rw [hborn, place_enter_self]
    simp only [Place.left]
    omega
  | round _ hon _ => exact absurd (hon.symm.trans hends) (by decide)
  | call hbusy =>
    rw [hbusy, place_make_self]
    exact Nat.lt_succ_self _
  | back hbusy =>
    rw [hbusy, place_goTo_self]
    exact Nat.lt_succ_self 1
  | finish hbusy =>
    rw [hbusy, place_goTo_self]
    exact Nat.zero_lt_two
  | leave hhead _ =>
    rw [hhead, place_goTo_self]
    exact Nat.zero_lt_one

/-- No thread has more steps left than one that is about to start. -/
theorem Step.left_le {n : ℕ} (hn : m.Bounded n) {i : Option ω} (hstep : Step m s i u)
    (hle : ∀ w, (s.place w).left n ≤ n + 3) (w : ω) : (u.place w).left n ≤ n + 3 := by
  cases i with
  | none =>
    cases hstep with
    | main _ _ _ =>
      rw [place_execute]
      split_ifs
      · exact Nat.le_refl _
      · exact Nat.zero_le _
      · exact hle w
  | some v =>
    rcases eq_or_ne w v with rfl | hne
    · cases hstep with
      | start _ hcs =>
        have hlen := hn _ _ _ _ (.inl hcs)
        rw [place_enter_self]
        simp only [Place.left]
        omega
      | round _ _ hcs =>
        have hlen := hn _ _ _ _ (.inr hcs)
        rw [place_goTo_self]
        simp only [Place.left]
        omega
      | call hbusy =>
        have hw := hle w
        rw [hbusy] at hw
        rw [place_make_self]
        simp only [Place.left, List.length_cons] at hw ⊢
        omega
      | _ =>
        rw [place_goTo_self]
        simp only [Place.left]
        omega
    · rw [hstep.frame.2.2 w hne]
      exact hle w

theorem left_le_of_run {n : ℕ} (hn : m.Bounded n) {x : β} {d : δ} {program : List γ}
    {is : List (Option ω)} (hrun : Run (Step m) (.start x d program) is s) :
    ∀ w, (s.place w).left n ≤ n + 3 :=
  hrun.invariant (I := fun s => ∀ w, (s.place w).left n ≤ n + 3)
    (fun _ _ _ hs hstep => hstep.left_le hn hs) fun _ => Nat.zero_le _

/-- Steps of threads leave the control and the program. -/
theorem frame_run {is : List (Option ω)} (hrun : Run (Step m) s is u) (hthreads : none ∉ is) :
    u.control = s.control ∧ u.program = s.program := by
  induction hrun with
  | nil => exact ⟨rfl, rfl⟩
  | @snoc is u v i _ hstep ih =>
    rw [List.mem_append, not_or] at hthreads
    obtain ⟨hcontrol, hprogram⟩ := ih hthreads.1
    cases i with
    | none => exact absurd List.mem_cons_self hthreads.2
    | some w => exact ⟨hstep.frame.1.trans hcontrol, hstep.frame.2.1.trans hprogram⟩

section

variable {n : ℕ} {is js : List (Option ω)} {c : γ} {rest : List γ}

/-- A thread that is about to be joined goes round no more. -/
theorem Sound.ends (hm : m.Lawful allows on I) (h : Sound m allows on I s)
    (hprogram : s.program = c :: rest) (hjoin : m.joins c = some w) :
    on s.control w = true ∧ m.goesOn s.control s.data w = false :=
  ⟨hm.on_of_join (h.allowed hprogram) hjoin,
    hm.ends_of_join h.holds hprogram (h.allowed hprogram) hjoin⟩

/-- The steps of a thread that the program waits for. -/
theorem Sound.count_add_left_le (hn : m.Bounded n) (hm : m.Lawful allows on I)
    (h : Sound m allows on I s) (hprogram : s.program = c :: rest) (hjoin : m.joins c = some w)
    (hrun : Run (Step m) s js u) (hwaits : none ∉ js) :
    js.count (some w) + (u.place w).left n ≤ (s.place w).left n := by
  induction hrun with
  | nil => simp
  | @snoc js u v i hrun hstep ih =>
    rw [List.mem_append, not_or] at hwaits
    have hle := ih hwaits.1
    cases i with
    | none => exact absurd List.mem_cons_self hwaits.2
    | some w' =>
      rw [List.count_append, List.count_singleton]
      rcases eq_or_ne w' w with rfl | hne
      · -- the program still waits, so the loop goes round no more
        have hends := (h.run hm hrun).ends hm ((frame_run hrun hwaits.1).2.trans hprogram) hjoin
        have hlt := hstep.left_lt hn hends.2
        simp only [beq_self_eq_true, if_true]
        omega
      · rw [hstep.frame.2.2 w hne.symm, if_neg (by simpa using hne)]
        omega

/-- **While the program waits for a thread**, this thread makes only so many steps. -/
theorem Sound.count_le (hn : m.Bounded n) (hm : m.Lawful allows on I) (h : Sound m allows on I s)
    (hleft : ∀ w, (s.place w).left n ≤ n + 3) (hprogram : s.program = c :: rest)
    (hjoin : m.joins c = some w) (hrun : Run (Step m) s js u) (hwaits : none ∉ js) :
    js.count (some w) ≤ n + 3 := by
  have hcount := h.count_add_left_le hn hm hprogram hjoin hrun hwaits
  have hle := hleft w
  omega

/-- **A thread that is there and has not ended can make a step** once its loop goes round no
more. -/
theorem exists_step (hstart : ∀ d w, ∃ cs last, m.Start d w cs last)
    (hends : m.goesOn s.control s.data w = false) (hthere : s.place w ≠ .absent)
    (hplace : s.place w ≠ .ended) : ∃ u, Step m s (some w) u := by
  cases hp : s.place w with
  | absent => exact absurd hp hthere
  | born =>
    obtain ⟨cs, last, hcs⟩ := hstart s.data w
    exact ⟨_, .start hp hcs⟩
  | head => exact ⟨_, .leave hp hends⟩
  | busy cs last =>
    cases cs with
    | nil =>
      cases last with
      | false => exact ⟨_, .back hp⟩
      | true => exact ⟨_, .finish hp⟩
    | cons c cs => exact ⟨_, .call hp⟩
  | ended => exact absurd hp hplace

/-- A thread that the program waits for can come to its end. -/
theorem Sound.exists_run_ended (hn : m.Bounded n)
    (hstart : ∀ d w, ∃ cs last, m.Start d w cs last) (hm : m.Lawful allows on I)
    (h : Sound m allows on I s) (hprogram : s.program = c :: rest) (hjoin : m.joins c = some w) :
    ∃ js u, Run (Step m) s js u ∧ none ∉ js ∧ u.place w = .ended := by
  -- by induction on the steps that the thread has left
  induction hk : (s.place w).left n using Nat.strongRecOn generalizing s with
  | _ k ih =>
    by_cases hplace : s.place w = .ended
    · exact ⟨[], s, .nil, by simp, hplace⟩
    · obtain ⟨hon, hends⟩ := h.ends hm hprogram hjoin
      obtain ⟨v, hstep⟩ := exists_step hstart hends ((h.tells w).mp hon) hplace
      obtain ⟨js, u, hrun, hthreads, hended⟩ := ih _ (hk ▸ hstep.left_lt hn hends)
        (h.step hm hstep) (hstep.frame.2.1.trans hprogram) rfl
      exact ⟨some w :: js, u, (Run.single hstep).append hrun, by simpa using hthreads, hended⟩

/-- **The program can come to its end** from every state that is sound, if the threads can have a
statement find what it takes the data to be. -/
theorem Sound.exists_run (hn : m.Bounded n) (hstart : ∀ d w, ∃ cs last, m.Start d w cs last)
    (hm : m.Lawful allows on I)
    (hfinds : ∀ {s c rest}, Sound m allows on I s → s.program = c :: rest →
      ∃ js u, Run (Step m) s js u ∧ none ∉ js ∧ m.finds u.data c)
    (hjoins : ∀ {d c w}, m.joins c = some w → m.finds d c)
    (h : Sound m allows on I s) : ∃ js u, Run (Step m) s js u ∧ u.program = [] ∧
      u.control = s.program.foldl m.exec s.control := by
  -- by induction on what is left of the program
  induction hp : s.program generalizing s with
  | nil => exact ⟨[], s, .nil, hp, rfl⟩
  | cons c rest ih =>
    -- the threads come to where the statement waits for them
    obtain ⟨js, v, hrun, hthreads, hended, hfound⟩ : ∃ js v, Run (Step m) s js v ∧ none ∉ js ∧
        (∀ w, m.joins c = some w → v.place w = .ended) ∧ m.finds v.data c := by
      cases hjoin : m.joins c with
      | none =>
        obtain ⟨js, v, hrun, hthreads, hfound⟩ := hfinds h hp
        exact ⟨js, v, hrun, hthreads, nofun, hfound⟩
      | some w =>
        obtain ⟨js, v, hrun, hthreads, hended⟩ := h.exists_run_ended hn hstart hm hp hjoin
        refine ⟨js, v, hrun, hthreads, fun w' hw' => ?_, hjoins hjoin⟩
        obtain rfl := Option.some.inj hw'
        exact hended
    obtain ⟨hcontrol, hprogram⟩ := frame_run hrun hthreads
    have hmain : Step m v none (v.execute m c rest) := .main (hprogram.trans hp) hended hfound
    obtain ⟨js', u, hrun', hend, hoff⟩ := ih ((h.run hm hrun).step hm hmain) rfl
    refine ⟨_, u, (hrun.snoc hmain).append hrun', hend, ?_⟩
    rw [hoff, List.foldl_cons, ← hcontrol]
    rfl

/-- What of a program has been executed has made the control what it is. -/
theorem exists_executed (hrun : Run (Step m) s is u) :
    ∃ pre, s.program = pre ++ u.program ∧ u.control = pre.foldl m.exec s.control := by
  refine hrun.invariant
    (I := fun u => ∃ pre, s.program = pre ++ u.program ∧ u.control = pre.foldl m.exec s.control)
    (fun t i u ht hstep => ?_) ⟨[], rfl, rfl⟩
  obtain ⟨pre, hprogram, hcontrol⟩ := ht
  cases i with
  | none =>
    cases hstep with
    | @main c rest htprogram _ _ =>
      refine ⟨pre ++ [c], ?_, ?_⟩
      · rw [hprogram, htprogram, List.append_assoc]
        rfl
      · rw [List.foldl_append, ← hcontrol]
        rfl
  | some w => exact ⟨pre, hstep.frame.2.1 ▸ hprogram, hstep.frame.1.trans hcontrol⟩

/-- What is left of a program makes of the control what all of it does. -/
theorem foldl_control (hrun : Run (Step m) s is u) :
    u.program.foldl m.exec u.control = s.program.foldl m.exec s.control := by
  obtain ⟨pre, hprogram, hcontrol⟩ := exists_executed hrun
  rw [hprogram, List.foldl_append, hcontrol]

end

end Crew

end Transition
