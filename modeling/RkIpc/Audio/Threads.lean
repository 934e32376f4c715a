import RkIpc.Audio.Lifecycle
import RkIpc.Stream.Rtsp
import RkIpc.Transition.Crew

/-!
# The threads of the audio

`save_aenc_thread` takes the streams of the encoder, passes them on to the storage or to RTSP, and
gives them back. It goes by the text of the type that it has got a pointer to when it started, and
which is freed when the type is set. `g_audio_run_` starts as 1, and `rkipc_audio_deinit` is the
only function that writes it.

## Main definitions

* `Call`, `Round`: what a thread calls in a round of its loop
* `crew`: the program and its threads
* `TypeRead`: the text that the thread goes by is the one that it has found
* `takenAs`: the streams that are taken, each with the type that the thread goes by

## Main results

* `streams_delivered`: where each stream goes
* `restarts_end`: wherever the threads stand, restarts come to their end
* `silent_after_deinit`: after `rkipc_audio_deinit` no stream is taken any more
-/

namespace RkIpc.Audio

open Text Transition

/-! ## Rounds -/

/-- A stream of the encoder: the frame, and whether its memory is mapped. -/
structure Packet where
  frame : Stream.Frame
  mapped : Bool
deriving DecidableEq, Repr

/-- `eos`: the stream is empty. -/
def Packet.eos (p : Packet) : Bool := p.frame.buffer.isEmpty

/-- Where a stream is written: `rk_storage_write_audio_frame` with its first argument, and
`rkipc_rtsp_write_audio_frame`. -/
inductive Sink
  | storage (id : ℕ)
  | rtsp
deriving DecidableEq, Repr

/-- Where streams of a type go. -/
def sinks (encodeType : Str) : List Sink :=
  if encodeType = lit "MP2" || encodeType = lit "MP3" then [.storage 0, .storage 1, .storage 2]
  else if encodeType = lit "G711A" then [.rtsp]
  else []

/-- A call of a thread, with what it returned. -/
inductive Call
  /-- `rk_param_get_string` of `audio.0:encode_type`, with the text that is there -/
  | readType (encodeType : Str)
  | getStream (p : Option Packet)
  | write (k : Sink) (f : Stream.Frame)
  | releaseStream
  | getAedResult
  | getBcdResult
deriving DecidableEq, Repr

/-- A round of `save_aenc_thread`, by the text that it compares. -/
def saveAencRound (encodeType : Str) : Option Packet → List Call
  | none => [.getStream none]
  | some p =>
    .getStream (some p) ::
      if p.mapped then (sinks encodeType).map (.write · p.frame) ++ [.releaseStream] else []

/-- Whether `save_aenc_thread` ends behind a round. A failure leaves `eos` as it is, which is 0. -/
def endsBehind : Option Packet → Bool
  | none => false
  | some p => p.eos

/-- A round of `ai_get_detect_result`. -/
def aiGetDetectResultRound (aed bcd : Bool) : List Call :=
  (if aed then [.getAedResult] else []) ++ (if bcd then [.getBcdResult] else [])

/-- `audio.0:encode_type`, the text that `encode_type` of `save_aenc_thread` points to, which is
nothing once it is freed, `enable_aed` and `enable_bcd`. -/
structure Plant where
  encodeType : Str
  text : Option Str
  aed : Bool
  bcd : Bool

/-- What a thread calls before its loop. -/
inductive Start (x : Plant) : Worker → List Call → Bool → Prop
  | saveAenc : Start x .saveAenc [.readType x.encodeType] false
  | detect : Start x .detect [] false

/-- **The rounds of a thread.** Where the text is freed, anything may be read. -/
inductive Round (x : Plant) : Worker → List Call → Bool → Prop
  | saveAenc (t : Str) (p : Option Packet) : (∀ t', x.text = some t' → t = t') →
      Round x .saveAenc (saveAencRound t p) (endsBehind p)
  | detect : Round x .detect (aiGetDetectResultRound x.aed x.bcd) false

/-- **The program and its threads.** -/
def crew : Crew Board Plant Command Worker Call where
  exec := Board.exec
  feed
    -- the dictionary frees the text that was there
    | x, .setType t => { x with encodeType := t, text := none }
    | x, .setDetect aed bcd => { x with aed := aed, bcd := bcd }
    | x, _ => x
  enter
    | x, .saveAenc => { x with text := some x.encodeType }
    | x, .detect => x
  make x _ _ := x
  spawns
    | .spawn w => some w
    | _ => none
  joins
    | .join w => some w
    | _ => none
  finds _ _ := True
  goesOn b _ _ := b.run
  Start := Start
  Round := Round

/-- What there is, the statements that are left, and where the threads stand. -/
abbrev Machine := Crew.State Board Plant Command Worker Call

/-- Before the first initialisation. -/
def initial (ps : List Period) (g : Globals) : Machine :=
  Crew.State.start .start ⟨g.encodeType, none, g.aed, g.bcd⟩ (commands ps g)

theorem follows_crew : crew.Follows Board.on := by
  intro x c w
  cases c with
  | spawn v => simp [crew, Board.exec, Function.update_apply, eq_comm]
  | join v => simp [crew, Board.exec, Function.update_apply, eq_comm]
  | _ => rfl

/-! ## The text of the type -/

/-- What a call makes of the type that the thread goes by. -/
def setType (encodeType : Str) : Call → Str
  | .readType t => t
  | _ => encodeType

/-- **The text that the thread goes by** is the one that it has found. -/
def TypeRead (s : Machine) : Prop :=
  s.place .saveAenc ≠ .absent → s.place .saveAenc ≠ .born →
    s.data.text = some ((s.callsOf .saveAenc).foldl setType [])

section

variable {ps : List Period} {g : Globals} {s u : Machine} {encodeType : Str}

theorem foldl_setType_saveAencRound (t : Str) (p : Option Packet) :
    (saveAencRound t p).foldl setType encodeType = encodeType := by
  have hwrites : ∀ (ks : List Sink) (f : Stream.Frame),
      (ks.map (Call.write · f)).foldl setType encodeType = encodeType := by
    intro ks f
    induction ks with
    | nil => rfl
    | cons k ks ih => exact ih
  cases p with
  | none => rfl
  | some p =>
    rw [saveAencRound, List.foldl_cons]
    split
    · rw [List.foldl_append]
      change ((sinks t).map (Call.write · p.frame)).foldl setType encodeType = encodeType
      exact hwrites _ _
    · rfl

/-- A thread that is there goes on without a new text. -/
theorem TypeRead.congr (h : TypeRead s) (hplace : s.place .saveAenc ≠ .absent)
    (hborn : s.place .saveAenc ≠ .born) (htext : u.data.text = s.data.text)
    (hcalls : (u.callsOf .saveAenc).foldl setType [] = (s.callsOf .saveAenc).foldl setType []) :
    TypeRead u := by
  intro _ _
  rw [htext, hcalls]
  exact h hplace hborn

/-- A thread goes on without a call. -/
theorem TypeRead.goTo (h : TypeRead s) {w : Worker} {p q : Place Call} (hplace : s.place w = p)
    (hpending : p.pending = []) (hp : p ≠ .absent ∧ p ≠ .born) (hq : q.pending = []) :
    TypeRead (s.goTo w q) := by
  intro habsent hborn
  rw [Crew.callsOf_goTo (by rw [hplace, hpending]) hq]
  rcases eq_or_ne w .saveAenc with rfl | hne
  · exact h (hplace ▸ hp.1) (hplace ▸ hp.2)
  · rw [Crew.place_goTo_of_ne hne.symm] at habsent hborn
    exact h habsent hborn

/-- A statement that is safe. -/
theorem TypeRead.execute (h : TypeRead s) (htells : Crew.Tells Board.on s) {c : Command}
    {rest : List Command} (hc : s.control.Safe c) : TypeRead (s.execute crew c rest) := by
  intro hplace hborn
  rw [Crew.place_execute] at hplace hborn
  split_ifs at hplace hborn with hspawn hjoin
  · exact absurd rfl hborn
  · exact absurd rfl hplace
  · have hcalls : (s.execute crew c rest).callsOf .saveAenc = s.callsOf .saveAenc := by
      rw [Crew.State.callsOf, Crew.State.callsOf, Crew.place_execute, if_neg hspawn, if_neg hjoin]
      rfl
    rw [hcalls, ← h hplace hborn]
    cases c with
    | setType t =>
      -- the text is freed where there is no thread
      exact absurd (htells.absent_of_off (hc.2 t rfl)) hplace
    | _ => rfl

theorem TypeRead.step (h : TypeRead s) (htells : Crew.Tells Board.on s)
    (hsafe : ∀ c rest, s.program = c :: rest → s.control.Safe c) {i : Option Worker}
    (hstep : crew.Step s i u) : TypeRead u := by
  cases hstep with
  | main hprogram _ _ => exact h.execute htells (hsafe _ _ hprogram)
  | @start w cs last hborn hcs =>
    cases hcs with
    | saveAenc =>
      intro _ _
      rw [Crew.callsOf_enter_self (by rw [hborn]; rfl), List.foldl_append]
      rfl
    | detect =>
      intro hplace hborn'
      rw [Crew.place_enter_of_ne (by decide)] at hplace hborn'
      rw [Crew.callsOf_enter_of_ne (by decide)]
      exact h hplace hborn'
  | @round w cs last hhead _ hcs =>
    cases hcs with
    | saveAenc t p _ =>
      refine h.congr (by simp [hhead]) (by simp [hhead]) rfl ?_
      rw [Crew.callsOf_goTo_self (by rw [hhead]; rfl), List.foldl_append]
      exact foldl_setType_saveAencRound t p
    | detect =>
      intro hplace hborn
      rw [Crew.place_goTo_of_ne (by decide)] at hplace hborn
      rw [Crew.callsOf_goTo_of_ne (by decide)]
      exact h hplace hborn
  | @call w c cs last hbusy =>
    intro hplace hborn
    rw [Crew.callsOf_make hbusy]
    cases w with
    | saveAenc => exact h (by simp [hbusy]) (by simp [hbusy])
    | detect =>
      rw [Crew.place_make_of_ne (by decide)] at hplace hborn
      exact h hplace hborn
  | @back w hbusy => exact h.goTo hbusy rfl (by simp) rfl
  | @finish w hbusy => exact h.goTo hbusy rfl (by simp) rfl
  | @leave w hhead _ => exact h.goTo hhead rfl (by simp) rfl

theorem lawful_crew : crew.Lawful Board.Safe Board.on TypeRead where
  follows := follows_crew
  off_of_spawn {x c w} h hc := by
    cases c with
    | spawn v =>
      obtain rfl := Option.some.inj hc
      exact h.1.1.1
    | _ => cases hc
  on_of_join {x c w} h hc := by
    cases c with
    | join v =>
      obtain rfl := Option.some.inj hc
      exact h.1.2 v rfl
    | _ => cases hc
  invariant h htells hsafe hstep := h.step htells hsafe hstep
  ends_of_join {s c rest w} _ _ h hc := by
    cases c with
    | join v => exact h.1.1
    | _ => cases hc

theorem sound_initial (hsafe : InOrder Board.Safe Board.exec .start (commands ps g)) :
    crew.Sound Board.Safe Board.on TypeRead (initial ps g) :=
  Crew.sound_start hsafe (fun _ => rfl) fun hplace => absurd rfl hplace

end

/-! ## Where the streams go -/

/-- The stream that a call takes. -/
def Call.taken : Call → Option Packet
  | .getStream p => p
  | _ => none

/-- What a call writes. -/
def Call.written (k : Sink) : Call → Option Stream.Frame
  | .write j f => if j = k then some f else none
  | _ => none

/-- **The streams that are taken**, each with the type that the thread goes by. -/
def takenAs (encodeType : Str) : List Call → List (Str × Packet)
  | [] => []
  | c :: cs => (c.taken.map (encodeType, ·)).toList ++ takenAs (setType encodeType c) cs

/-- **Streams are delivered**: each stream with data is written where its type says, and given
back. -/
structure Delivers (encodeType : Str) (cs : List Call) : Prop where
  written : ∀ k, cs.filterMap (Call.written k) =
    ((takenAs encodeType cs).filter fun x => x.2.mapped && k ∈ sinks x.1).map (·.2.frame)
  released : cs.count .releaseStream = (takenAs encodeType cs).countP (·.2.mapped)

section

variable {encodeType : Str} {cs cs' : List Call}

theorem takenAs_append : takenAs encodeType (cs ++ cs') =
    takenAs encodeType cs ++ takenAs (cs.foldl setType encodeType) cs' := by
  induction cs generalizing encodeType with
  | nil => rfl
  | cons c cs ih => rw [List.cons_append, takenAs, takenAs, ih, List.append_assoc, List.foldl_cons]

theorem takenAs_of_forall (h : ∀ c ∈ cs, c.taken = none) : takenAs encodeType cs = [] := by
  induction cs generalizing encodeType with
  | nil => rfl
  | cons c cs ih =>
    obtain ⟨hc, hcs⟩ := List.forall_mem_cons.mp h
    rw [takenAs, hc, ih hcs]
    rfl

theorem Delivers.append (h : Delivers encodeType cs)
    (h' : Delivers (cs.foldl setType encodeType) cs') : Delivers encodeType (cs ++ cs') where
  written k := by
    rw [List.filterMap_append, takenAs_append, List.filter_append, List.map_append, h.written,
      h'.written]
  released := by
    rw [List.count_append, takenAs_append, List.countP_append, h.released, h'.released]

/-- No sink gets a stream twice. -/
theorem filterMap_written (k : Sink) (f : Stream.Frame) :
    ((sinks encodeType).map (Call.write · f)).filterMap (Call.written k) =
      if k ∈ sinks encodeType then [f] else [] := by
  have hnodup : (sinks encodeType).Nodup := by
    unfold sinks
    split_ifs <;> decide
  generalize sinks encodeType = ks at hnodup
  induction ks with
  | nil => rfl
  | cons j ks ih =>
    obtain ⟨hj, hks⟩ := List.nodup_cons.mp hnodup
    rw [List.map_cons, List.filterMap_cons, ih hks]
    rcases eq_or_ne j k with rfl | hne
    · simp [Call.written, hj]
    · simp [Call.written, hne, hne.symm]

/-- A round delivers its stream. -/
theorem delivers_saveAencRound (p : Option Packet) :
    Delivers encodeType (saveAencRound encodeType p) := by
  cases p with
  | none => exact ⟨fun _ => rfl, rfl⟩
  | some p =>
    have hwrites : ∀ c ∈ (sinks encodeType).map (Call.write · p.frame) ++ [.releaseStream],
        c.taken = none := by
      intro c hc
      rcases List.mem_append.mp hc with hc | hc
      · obtain ⟨k, -, rfl⟩ := List.mem_map.mp hc
        rfl
      · obtain rfl := List.mem_singleton.mp hc
        rfl
    have hcount : ((sinks encodeType).map (Call.write · p.frame)).count .releaseStream = 0 := by
      rw [List.count_eq_zero]
      simp
    cases hmapped : p.mapped with
    | false =>
      constructor <;> simp [saveAencRound, hmapped, takenAs, Call.taken, Call.written]
    | true =>
      have htaken : takenAs encodeType (saveAencRound encodeType (some p)) = [(encodeType, p)] := by
        rw [saveAencRound, if_pos hmapped, takenAs, takenAs_of_forall hwrites]
        rfl
      constructor
      · intro k
        rw [htaken, saveAencRound, if_pos hmapped]
        have hgive : (Call.written k .releaseStream) = none := rfl
        have hget : (Call.written k (.getStream (some p))) = none := rfl
        rw [List.filterMap_cons_none hget, List.filterMap_append, filterMap_written,
          List.filterMap_cons_none hgive]
        by_cases hk : k ∈ sinks encodeType <;> simp [hk, hmapped]
      · rw [htaken, saveAencRound, if_pos hmapped]
        simp [hcount, hmapped]

end

section

variable {ps : List Period} {g : Globals} {s u : Machine} {is js : List (Option Worker)}

/-- A stream that the encoder delivers. -/
def oneStream : Packet := ⟨⟨[255, 251], 24000⟩, true⟩

/-- The statements of a period in which everything comes about, for MP3. -/
def mp3Commands : List Command :=
  [.create .dev, .setDetect true false, .spawn .detect, .create .chn, .create .mp3, .create .aenc,
    .spawn .saveAenc, .stop, .join .detect, .join .saveAenc, .destroy .aenc, .destroy .chn,
    .destroy .dev, .destroy .mp3]

theorem initial_twice :
    initial [⟨allAnswers, [], []⟩, ⟨allAnswers, [], []⟩] ⟨lit "MP3", false, false, false⟩ =
      Crew.State.start .start ⟨lit "MP3", none, false, false⟩ (mp3Commands ++ mp3Commands) := by
  have hcommands : commands [⟨allAnswers, [], []⟩, ⟨allAnswers, [], []⟩]
      ⟨lit "MP3", false, false, false⟩ = mp3Commands ++ mp3Commands := by decide
  rw [initial, hcommands]

/-- The thread of the encoder passes a stream on, and is joined; then there is another one. -/
theorem exists_run_twice : ∃ is s,
    Run crew.Step (initial [⟨allAnswers, [], []⟩, ⟨allAnswers, [], []⟩]
        ⟨lit "MP3", false, false, false⟩) is s ∧
      ((s.place .saveAenc).pending = [] ∧
        s.calls = (Call.readType (lit "MP3") :: saveAencRound (lit "MP3") (some oneStream)).map
          (Worker.saveAenc, ·) ∧
        ∃ js t, Run crew.Step s js t ∧ (t.program = mp3Commands ∧
          ∃ ks u, Run crew.Step t ks u ∧ u.place .saveAenc = .born)) := by
  have hstart : ∀ x : Plant, crew.Start x .saveAenc [.readType x.encodeType] false :=
    fun _ => Start.saveAenc
  have hround : ∀ x : Plant, x.text = some (lit "MP3") →
      crew.Round x .saveAenc (saveAencRound (lit "MP3") (some oneStream)) false := fun _ hx =>
    Round.saveAenc (lit "MP3") (some oneStream) fun _ ht => Option.some.inj (hx.symm.trans ht)
  have hdetect : ∀ x : Plant, crew.Start x .detect [] false := fun _ => Start.detect
  rw [initial_twice]
  -- the first initialisation
  iterate 7 refine Run.exists_cons (.main rfl nofun trivial) ?_
  -- a round of the thread
  refine Run.exists_cons (.start (w := .saveAenc) rfl (hstart _)) ?_
  refine Run.exists_cons (.call (w := .saveAenc) rfl) ?_
  refine Run.exists_cons (.back (w := .saveAenc) rfl) ?_
  refine Run.exists_cons (.round (w := .saveAenc) rfl rfl (hround _ rfl)) ?_
  iterate 5 refine Run.exists_cons (.call (w := .saveAenc) rfl) ?_
  refine ⟨[], _, .nil, rfl, rfl, ?_⟩
  -- the threads are joined
  refine Run.exists_cons (.main rfl nofun trivial) ?_
  refine Run.exists_cons (.start (w := .detect) rfl (hdetect _)) ?_
  refine Run.exists_cons (.back (w := .detect) rfl) ?_
  refine Run.exists_cons (.leave (w := .detect) rfl rfl) ?_
  refine Run.exists_cons (.main rfl (fun w hw => by cases hw; rfl) trivial) ?_
  refine Run.exists_cons (.back (w := .saveAenc) rfl) ?_
  refine Run.exists_cons (.leave (w := .saveAenc) rfl rfl) ?_
  refine Run.exists_cons (.main rfl (fun w hw => by cases hw; rfl) trivial) ?_
  iterate 4 refine Run.exists_cons (.main rfl nofun trivial) ?_
  refine ⟨[], _, .nil, rfl, ?_⟩
  -- the second initialisation
  iterate 7 refine Run.exists_cons (.main rfl nofun trivial) ?_
  exact ⟨[], _, .nil, rfl⟩

theorem safe_twice : InOrder Board.Safe Board.exec .start
    (commands [⟨allAnswers, [], []⟩, ⟨allAnswers, [], []⟩] ⟨lit "MP3", false, false, false⟩) := by
  refine inOrder_safe ⟨⟨rfl, .inl ⟨rfl, rfl⟩⟩, ⟨rfl, .inl ⟨rfl, rfl⟩⟩, trivial⟩ ?_ ⟨rfl, rfl⟩
  simp

/-- **The streams of the encoder are delivered**: in every run of restarts that are safe, whenever
the thread is between two rounds. -/
theorem streams_delivered (hsafe : InOrder Board.Safe Board.exec .start (commands ps g))
    (hrun : Run crew.Step (initial ps g) is s) (hplace : (s.place .saveAenc).pending = []) :
    Delivers [] (Mutex.ofThread .saveAenc s.calls) := by
  have hall : Delivers [] (s.callsOf .saveAenc) := by
    refine (sound_initial hsafe).calls_invariant lawful_crew (P := Delivers []) hrun
      ⟨fun _ => rfl, rfl⟩ ?_
    rintro s cs last hs h (⟨⟨⟩⟩ | ⟨hhead, hround⟩)
    · exact h.append ⟨fun _ => rfl, rfl⟩
    · cases hround with
      | saveAenc t p htext =>
        -- the thread goes by the text that it has found
        obtain rfl := htext _ (hs.holds (by simp [hhead]) (by simp [hhead]))
        exact h.append (delivers_saveAencRound p)
  rwa [Crew.callsOf_eq hplace] at hall

theorem streams_delivered_mp3 : ∃ is s,
    Run crew.Step (initial [⟨allAnswers, [], []⟩, ⟨allAnswers, [], []⟩]
        ⟨lit "MP3", false, false, false⟩) is s ∧
      s.calls = (Call.readType (lit "MP3") :: saveAencRound (lit "MP3") (some oneStream)).map
        (Worker.saveAenc, ·) ∧ Delivers [] (Mutex.ofThread .saveAenc s.calls) := by
  obtain ⟨is, s, hrun, hplace, hcalls, -⟩ := exists_run_twice
  exact ⟨is, s, hrun, hcalls, streams_delivered safe_twice hrun hplace⟩

/-- **After `rkipc_audio_deinit` no stream is taken any more**, however often the audio is
initialised again: `g_audio_run_` stays 0. -/
theorem silent_after_deinit {p : Period} (hrun : Run crew.Step (initial (p :: ps) g) is s)
    (hdeinit : s.program = commands ps (after g p)) (hrun' : Run crew.Step s js u) :
    (Mutex.ofThread .saveAenc u.calls).filterMap Call.taken =
      (Mutex.ofThread .saveAenc s.calls).filterMap Call.taken := by
  -- the statements of the first period have been executed
  obtain ⟨pre, hprogram, hcontrol⟩ := Crew.exists_executed hrun
  have hpre : pre = p.commands g := by
    rw [hdeinit] at hprogram
    exact List.append_cancel_right hprogram.symm
  have hboard : s.control.On false false ∧ s.control.run = false := by
    rw [hcontrol, hpre]
    exact (p.leads g .start ⟨rfl, rfl⟩).2
  -- the thread has been joined, and its loop goes round no more
  have htells : Crew.Tells Board.on s := by
    have hstart : Crew.Tells Board.on (initial (p :: ps) g) := fun w =>
      iff_of_false (fun hon => by cases hon) fun hne => hne rfl
    exact hstart.run follows_crew hrun
  have habsent := htells.absent_of_off (hboard.1.off .saveAenc)
  have hkeep : ∀ {t v : Machine} {i}, crew.Step t i v → t.control.run = false →
      v.control.run = false := by
    intro t v i hstep hoff
    cases i with
    | some w => rwa [hstep.frame.1]
    | none =>
      cases hstep with
      | @main c rest _ _ _ =>
        cases c with
        | stop => rfl
        | _ => exact hoff
  have hpending : ∀ c ∈ (s.place .saveAenc).pending, c.taken = none := by
    rw [habsent]
    simp [Place.pending]
  have hstart : ∀ {d cs last}, crew.Start d .saveAenc cs last → ∀ c ∈ cs, c.taken = none := by
    rintro d cs last ⟨⟩
    simp [Call.taken]
  obtain ⟨cs, hcs, hnone⟩ := Crew.calls_of_off hrun' hboard.2 hkeep hpending hstart
  rw [hcs, List.filterMap_append, List.filterMap_eq_nil_iff.mpr hnone, List.append_nil]

/-- A stream is taken in the first period, and none in the second one. -/
theorem silent_after_deinit_twice : ∃ is s js t ks u,
    Run crew.Step (initial [⟨allAnswers, [], []⟩, ⟨allAnswers, [], []⟩]
        ⟨lit "MP3", false, false, false⟩) is s ∧
      (Mutex.ofThread .saveAenc s.calls).filterMap Call.taken = [oneStream] ∧
      Run crew.Step s js t ∧ Run crew.Step t ks u ∧ u.place .saveAenc = .born ∧
        (Mutex.ofThread .saveAenc u.calls).filterMap Call.taken =
          (Mutex.ofThread .saveAenc t.calls).filterMap Call.taken := by
  obtain ⟨is, s, hrun, -, hcalls, js, t, hrun', hprogram, ks, u, hrun'', hborn⟩ := exists_run_twice
  have hdeinit : t.program = commands [⟨allAnswers, [], []⟩]
      (after ⟨lit "MP3", false, false, false⟩ ⟨allAnswers, [], []⟩) := by
    rw [hprogram]
    decide
  refine ⟨is, s, js, t, ks, u, hrun, ?_, hrun', hrun'', hborn,
    silent_after_deinit (hrun.append hrun') hdeinit hrun''⟩
  rw [hcalls]
  decide

theorem bounded_crew : crew.Bounded 5 := by
  rintro d w cs last (hstart | hround)
  · cases hstart <;> simp
  · cases hround with
    | saveAenc t p _ =>
      cases p with
      | none => simp [saveAencRound]
      | some p =>
        have hsinks : (sinks t).length ≤ 3 := by
          unfold sinks
          split_ifs <;> simp
        have hlength : (saveAencRound t (some p)).length ≤ (sinks t).length + 2 := by
          cases hmapped : p.mapped <;> simp [saveAencRound, hmapped]
        omega
    | detect =>
      unfold aiGetDetectResultRound
      split_ifs <;> simp

theorem exists_start (d : Plant) (w : Worker) : ∃ cs last, crew.Start d w cs last := by
  cases w with
  | saveAenc => exact ⟨_, _, .saveAenc⟩
  | detect => exact ⟨_, _, .detect⟩

/-- **Restarts that are safe come to their end**: wherever the threads stand, the rest can be
executed, and no thread is left then. -/
theorem restarts_end (hsafe : InOrder Board.Safe Board.exec .start (commands ps g))
    (hrun : Run crew.Step (initial ps g) is s) :
    ∃ js u, Run crew.Step s js u ∧ u.program = [] ∧ ∀ w, u.place w = .absent := by
  have hs := (sound_initial hsafe).run lawful_crew hrun
  obtain ⟨js, u, hrun', hend, hcontrol⟩ := hs.exists_run bounded_crew exists_start lawful_crew
    (fun {s _ _} _ _ => ⟨[], s, .nil, by simp, trivial⟩) fun _ => trivial
  have hoff : u.control.On false false := by
    rw [hcontrol, Crew.foldl_control hrun]
    exact (leads_commands ps g .start ⟨rfl, rfl⟩).2
  refine ⟨js, u, hrun', hend, fun w => ?_⟩
  exact (hs.run lawful_crew hrun').tells.absent_of_off (hoff.off w)

theorem restarts_end_twice : ∃ is s js u,
    Run crew.Step (initial [⟨allAnswers, [], []⟩, ⟨allAnswers, [], []⟩]
        ⟨lit "MP3", false, false, false⟩) is s ∧
      Run crew.Step s js u ∧ u.program = [] ∧ ∀ w, u.place w = .absent := by
  obtain ⟨is, s, hrun, -⟩ := exists_run_twice
  obtain ⟨js, u, h⟩ := restarts_end safe_twice hrun
  exact ⟨is, s, js, u, hrun, h⟩

end

end RkIpc.Audio
