import RkIpc.Stream.Clients
import RkIpc.Video.Threads

/-!
# Where the streams of the encoders go

The threads `rkipc_get_venc_0` and `rkipc_get_venc_1` pass every stream on to the RTSP server, to
the storage, and to the RTMP muxer. The sessions of the RTSP server are created before the threads
and deleted after they have been joined.

## Main definitions

* `Feeds`: the order of the RTSP server and of the encoders
* `Serving`: while an encoder has its thread, there is a session for its URL

## Main results

* `inOrder_feeds`: periods that are complete keep this order
* `frames_delivered`: what an encoder delivers reaches the clients of its URL and the storage
-/

namespace RkIpc.Video

open Text Transition

/-! ## The order of the RTSP server and the encoders -/

/-- The thread of an encoder. -/
def encoder (k : Fin 2) : Worker := if k = 0 then .venc0 else .venc1

/-- No encoder has a thread. -/
def Board.Silent (b : Board) : Prop := ∀ k, b.on (encoder k) = false

/-- What there is, and whether the RTSP server is up. -/
abbrev Feed := Board × Bool

def Feed.exec (x : Feed) (c : Command) : Feed :=
  (x.1.exec c,
    match c with
    | .rtsp (.init ..) => true
    | .rtsp .deinit => false
    | _ => x.2)

/-- **The server comes before the encoders**: it is initialised with a session for each URL, and
deinitialised, where no encoder has a thread, and the encoders get theirs where it is up. -/
def Feed.Allows (x : Feed) : Command → Prop
  | .spawn w => ∀ k, w = encoder k → x.2 = true
  | .rtsp (.init url _ demo session) =>
    x.1.Silent ∧ url = rtspUrl ∧ demo = true ∧ ∀ k u, rtspUrl k = some u → session k = true
  | .rtsp .deinit => x.1.Silent
  | .rtsp _ => False
  | _ => True

/-- **A period streams**: RTSP is enabled, and its sessions come about. -/
def Period.Streams (p : Period) : Prop :=
  p.answers.enableRtsp = true ∧ p.answers.demo = true ∧
    ∀ k u, rtspUrl k = some u → p.answers.session k = true

/-- A statement for the encoders or for RTSP. -/
def Command.feeds : Command → Bool
  | .rtsp _ => true
  | c => c.part = some .pipe0 || c.part = some .pipe1

/-- The part of the board that matters. -/
def Feed.part (x : Feed) : Bool × Bool × Bool := (x.1.on .venc0, x.1.on .venc1, x.2)

section

variable {x y : Feed} {c : Command} {cs : List Command}

theorem Feed.part_exec_of_not (hc : c.feeds = false) : (x.exec c).part = x.part := by
  cases c with
  | rtsp r => cases hc
  | spawn w => cases w <;> first | rfl | cases hc
  | join w => cases w <;> first | rfl | cases hc
  | _ => rfl

theorem Feed.part_exec (h : x.part = y.part) : (x.exec c).part = (y.exec c).part := by
  simp only [Feed.part, Prod.mk.injEq] at h
  obtain ⟨h₀, h₁, hup⟩ := h
  cases c with
  | rtsp r => cases r <;> simp [Feed.part, Feed.exec, Board.exec, h₀, h₁, hup]
  | spawn w => simp [Feed.part, Feed.exec, Board.exec, Function.update_apply, h₀, h₁, hup]
  | join w => simp [Feed.part, Feed.exec, Board.exec, Function.update_apply, h₀, h₁, hup]
  | _ => simp [Feed.part, Feed.exec, Board.exec, h₀, h₁, hup]

theorem Board.silent_iff {b : Board} : b.Silent ↔ b.on .venc0 = false ∧ b.on .venc1 = false :=
  Fin.forall_fin_two

theorem Feed.allows_iff_of_part (h : x.part = y.part) : x.Allows c ↔ y.Allows c := by
  simp only [Feed.part, Prod.mk.injEq] at h
  obtain ⟨h₀, h₁, hup⟩ := h
  have hsilent : x.1.Silent ↔ y.1.Silent := by rw [Board.silent_iff, Board.silent_iff, h₀, h₁]
  cases c with
  | rtsp r => cases r <;> simp only [Feed.Allows, hsilent]
  | spawn w => rw [Feed.Allows, Feed.Allows, hup]
  | _ => exact Iff.rfl

theorem Feed.allows_of_not (hc : c.feeds = false) : x.Allows c := by
  cases c with
  | rtsp r => cases hc
  | spawn w =>
    rintro k rfl
    obtain rfl | rfl : k = 0 ∨ k = 1 := by omega
    · cases hc
    · cases hc
  | _ => trivial

/-- **Only statements for the encoders and for RTSP** make a difference. -/
theorem inOrder_feeds_iff (hxy : x.part = y.part) : InOrder Feed.Allows Feed.exec x cs ↔
    InOrder Feed.Allows Feed.exec y (cs.filter Command.feeds) := by
  have hkeep : ∀ (x : Feed) c, Command.feeds c = false → (x.exec c).part = x.part :=
    fun _ _ h => Feed.part_exec_of_not h
  have hexec : ∀ (x y : Feed) c, x.part = y.part → (x.exec c).part = (y.exec c).part :=
    fun _ _ _ h => Feed.part_exec h
  have hallows : ∀ (x y : Feed) c, x.part = y.part → (x.Allows c ↔ y.Allows c) :=
    fun _ _ _ h => Feed.allows_iff_of_part h
  have hother : ∀ (x : Feed) c, Command.feeds c = false → x.Allows c :=
    fun _ _ h => Feed.allows_of_not h
  exact inOrder_filter_iff hkeep hexec hallows hother hxy

/-- Where the server and the encoders stand after statements. -/
theorem Feed.part_foldl (hxy : x.part = y.part) : (cs.foldl Feed.exec x).part =
    ((cs.filter Command.feeds).foldl Feed.exec y).part := by
  have hkeep : ∀ (x : Feed) c, Command.feeds c = false → (x.exec c).part = x.part :=
    fun _ _ h => Feed.part_exec_of_not h
  have hexec : ∀ (x y : Feed) c, x.part = y.part → (x.exec c).part = (y.exec c).part :=
    fun _ _ _ h => Feed.part_exec h
  exact part_foldl_filter hkeep hexec hxy

theorem OfPart.filter_feeds {q : Part} (h : OfPart q cs) :
    cs.filter Command.feeds = if q = .pipe0 ∨ q = .pipe1 then cs else [] := by
  have hfeeds : ∀ c ∈ cs, c.feeds = decide (q = .pipe0 ∨ q = .pipe1) := by
    intro c hc
    have hpart := h c hc
    cases c with
    | rtsp r => cases hpart
    | _ => simp [Command.feeds, hpart]
  split
  · next hq =>
    exact List.filter_eq_self.mpr fun c hc => (hfeeds c hc).trans (decide_eq_true hq)
  · next hq =>
    refine List.filter_eq_nil_iff.mpr fun c hc => ?_
    rw [hfeeds c hc, decide_eq_false hq]
    decide

end

/-- What a period does for the encoders and for RTSP. -/
theorem filter_feeds_commands {p : Period} (hp : p.Streams) (c : Snapshot) :
    (p.commands c).1.filter Command.feeds =
      .rtsp (.init rtspUrl p.answers.setup p.answers.demo p.answers.session) ::
        (initOf p.answers c .pipe0 ++ initOf p.answers c .pipe1 ++
          deinitOf p.answers (p.closing c) .pipe0 ++ deinitOf p.answers (p.closing c) .pipe1 ++
            [.rtsp .deinit]) := by
  have hcommands : (p.commands c).1 = (rkVideoInit p.answers c).1 ++
      (setSnapshots p.snapshots (p.opened c)).1 ++ (rkVideoDeinit p.answers (p.closing c)).1 := rfl
  rw [hcommands, rkVideoInit_eq, rkVideoDeinit_eq, hp.1]
  have hrtsp : ∀ r, [Command.rtsp r].filter Command.feeds = [.rtsp r] := fun _ => rfl
  have hrun : ∀ value, [Command.setRun value].filter Command.feeds = [] := fun _ => rfl
  have hrtmp : ∀ value, [Command.setRtmp value].filter Command.feeds = [] := fun _ => rfl
  simp only [List.filter_append, (ofPart_initOf p.answers c _).filter_feeds,
    (ofPart_deinitOf p.answers (p.closing c) _).filter_feeds,
    (ofPart_setSnapshots p.snapshots _).filter_feeds, if_true, hrtsp, hrun, hrtmp]
  simp

/-- What a pipe that is complete does. -/
theorem rkipcPipe0Init_eq {a : PipeAnswers} (h : a.Complete) :
    rkipcPipe0Init a = [.create .vi0, .create .venc0, .spawn .venc0] := by
  obtain ⟨h₁, h₂, h₃, h₄⟩ := h
  simp [rkipcPipe0Init, h₁, h₂, h₃, h₄]

theorem rkipcPipe1Init_eq {a : PipeAnswers} (h : a.Complete) :
    rkipcPipe1Init a = [.create .vi1, .create .venc1, .spawn .venc1] := by
  obtain ⟨h₁, h₂, h₃, h₄⟩ := h
  simp [rkipcPipe1Init, h₁, h₂, h₃, h₄]

/-- What a period that is complete does for the encoders, until RTSP is deinitialised. -/
def encoderCommands (enable₀ enable₁ : Bool) : List Command :=
  (if enable₀ then [.create .vi0, .create .venc0, .spawn .venc0] else []) ++
    (if enable₁ then [.create .vi1, .create .venc1, .spawn .venc1] else []) ++
    (if enable₀ then .join .venc0 :: rkipcPipe0Deinit else []) ++
    (if enable₁ then .join .venc1 :: rkipcPipe1Deinit else []) ++ [.rtsp .deinit]

/-- The encoders are created and destroyed while the server is up. -/
theorem inOrder_encoderCommands (enable₀ enable₁ : Bool) :
    InOrder Feed.Allows Feed.exec (.off, true) (encoderCommands enable₀ enable₁) ∧
      ((encoderCommands enable₀ enable₁).foldl Feed.exec (.off, true)).part =
        (false, false, false) := by
  cases enable₀ <;> cases enable₁ <;>
    simp [encoderCommands, inOrder_cons_iff, Feed.Allows, Feed.exec, Feed.part, Board.silent_iff,
      Board.exec, Board.off, rkipcPipe0Deinit, rkipcPipe1Deinit]

/-- A period keeps the order. -/
theorem Period.Streams.inOrder {p : Period} {c : Snapshot} (hp : p.Streams) (h : p.Complete c)
    {x : Feed} (hx : x.part = (false, false, false)) :
    InOrder Feed.Allows Feed.exec x (p.commands c).1 ∧
      ((p.commands c).1.foldl Feed.exec x).part = (false, false, false) := by
  have hx' : x.part = Feed.part (.off, false) := hx
  have h₀ : initOf p.answers c .pipe0 = if p.answers.enableVenc0 then
      [.create .vi0, .create .venc0, .spawn .venc0] else [] := by
    rw [initOf]
    split
    · next hen => exact rkipcPipe0Init_eq (h.pipe0 hen)
    · rfl
  have h₁ : initOf p.answers c .pipe1 = if p.answers.enableVenc1 then
      [.create .vi1, .create .venc1, .spawn .venc1] else [] := by
    rw [initOf]
    split
    · next hen => exact rkipcPipe1Init_eq (h.pipe1 hen)
    · rfl
  obtain ⟨horder, hpart⟩ := inOrder_encoderCommands p.answers.enableVenc0 p.answers.enableVenc1
  rw [inOrder_feeds_iff hx', Feed.part_foldl hx', filter_feeds_commands hp, h₀, h₁]
  exact ⟨⟨⟨fun _ => rfl, rfl, hp.2.1, hp.2.2⟩, horder⟩, hpart⟩

/-- **Periods that are complete and stream** keep the order of the server and the encoders. -/
theorem inOrder_feeds {ps : List Period} {c : Snapshot} (hflag : c.flag = false)
    (h : InOrder (fun c p => p.Complete c) after c ps) (hstreams : ∀ p ∈ ps, p.Streams)
    {x : Feed} (hx : x.part = (false, false, false)) :
    InOrder Feed.Allows Feed.exec x (commands ps c) := by
  induction ps generalizing c x with
  | nil => exact inOrder_nil
  | cons p ps ih =>
    obtain ⟨hp, hps⟩ := h
    obtain ⟨hstream, hstreams⟩ := List.forall_mem_cons.mp hstreams
    obtain ⟨horder, hpart⟩ := hstream.inOrder hp hx
    exact inOrder_append_iff.mpr ⟨horder, ih (hp.flag_after hflag) hps hstreams hpart⟩

/-! ## What the threads pass on -/

/-- The stream that a call has taken. -/
def Call.taken : Call → Option Packet
  | .getStream _ p => p
  | _ => none

/-- The number under which a call passes a frame on. -/
def Call.video : Call → Option ℤ
  | .rtspVideo id _ | .storageVideo id _ _ | .rtmpVideo id _ _ => some id
  | _ => none

/-- The frame that a call passes on to the RTSP server under a number. -/
def Call.sent (id : ℤ) : Call → Option Stream.Frame
  | .rtspVideo i f => if i = id then some f else none
  | _ => none

/-- What a call passes on to the storage under a number. -/
def Call.stored (id : ℤ) : Call → Option (Stream.Frame × Bool)
  | .storageVideo i f key => if i = id then some (f, key) else none
  | _ => none

/-- What a call passes on to the RTMP muxer under a number. -/
def Call.pushed (id : ℤ) : Call → Option (Stream.Frame × Bool)
  | .rtmpVideo i f key => if i = id then some (f, key) else none
  | _ => none

section

variable {c : Call} {id : ℤ}

theorem Call.sent_eq_none (h : c.video ≠ some id) : c.sent id = none := by
  cases c with
  | rtspVideo i f => exact if_neg fun hi => h (congrArg some hi)
  | _ => rfl

theorem Call.stored_eq_none (h : c.video ≠ some id) : c.stored id = none := by
  cases c with
  | storageVideo i f key => exact if_neg fun hi => h (congrArg some hi)
  | _ => rfl

theorem Call.pushed_eq_none (h : c.video ≠ some id) : c.pushed id = none := by
  cases c with
  | rtmpVideo i f key => exact if_neg fun hi => h (congrArg some hi)
  | _ => rfl

end

/-- The calls of an encoder's thread pass on what has been taken. -/
structure PassesOn (t : NaluTypes) (k : Fin 2) (cs : List Call) : Prop where
  sent : cs.filterMap (Call.sent k) = (cs.filterMap Call.taken).map Packet.frame
  stored : cs.filterMap (Call.stored k) =
    (cs.filterMap Call.taken).map fun p => (p.frame, t.isKey p)
  pushed : (cs.filterMap (Call.pushed k)).Sublist (cs.filterMap (Call.stored k))

theorem PassesOn.append {t : NaluTypes} {k : Fin 2} {cs cs' : List Call} (h : PassesOn t k cs)
    (h' : PassesOn t k cs') : PassesOn t k (cs ++ cs') where
  sent := by
    rw [List.filterMap_append, List.filterMap_append, List.map_append, h.sent, h'.sent]
  stored := by
    rw [List.filterMap_append, List.filterMap_append, List.map_append, h.stored, h'.stored]
  pushed := by
    rw [List.filterMap_append, List.filterMap_append]
    exact h.pushed.append h'.pushed

theorem passesOn_getVencRound (t : NaluTypes) (enableRtmp : Bool) (r : Resource) (k : Fin 2)
    (p : Option Packet) : PassesOn t k (getVencRound t enableRtmp r k p) := by
  cases p with
  | none => exact ⟨rfl, rfl, List.Sublist.refl _⟩
  | some p =>
    cases enableRtmp <;> constructor <;>
      simp [getVencRound, Call.sent, Call.stored, Call.pushed, Call.taken, List.filterMap_cons]

theorem Round.passesOn {t : NaluTypes} {enableRtmp : Bool} {k : Fin 2} {cs : List Call}
    (h : Round t enableRtmp (encoder k) cs) : PassesOn t k cs := by
  obtain rfl | rfl : k = 0 ∨ k = 1 := by omega
  · cases h with
    | venc0 p => exact passesOn_getVencRound t enableRtmp .venc0 0 p
  · cases h with
    | venc1 p => exact passesOn_getVencRound t enableRtmp .venc1 1 p

theorem Start.passesOn {t : NaluTypes} {k : Fin 2} {cs : List Call} {last : Bool}
    (h : Start (encoder k) cs last) : PassesOn t k cs := by
  obtain rfl | rfl : k = 0 ∨ k = 1 := by omega
  · cases h
    exact ⟨rfl, rfl, List.Sublist.refl _⟩
  · cases h
    exact ⟨rfl, rfl, List.Sublist.refl _⟩

theorem video_getVencRound (t : NaluTypes) (enableRtmp : Bool) (r : Resource) (k : ℤ)
    (p : Option Packet) :
    ∀ c ∈ getVencRound t enableRtmp r k p, ∀ id, c.video = some id → id = k := by
  cases p with
  | none => simp [getVencRound, Call.video]
  | some p => cases enableRtmp <;> simp [getVencRound, Call.video, eq_comm]

/-- **Only the thread of an encoder passes frames on**, under the number of the encoder. -/
theorem Round.video {t : NaluTypes} {enableRtmp : Bool} {w : Worker} {cs : List Call}
    (h : Round t enableRtmp w cs) :
    ∀ c ∈ cs, ∀ id, c.video = some id → ∃ k : Fin 2, w = encoder k ∧ id = k := by
  intro c hc id hid
  cases h with
  | venc0 p => exact ⟨0, rfl, video_getVencRound t enableRtmp .venc0 0 p c hc id hid⟩
  | venc1 p => exact ⟨1, rfl, video_getVencRound t enableRtmp .venc1 1 p c hc id hid⟩
  | jpeg asked p opened => cases p <;> grind [getJpegRound, Call.video]
  | sendJpeg asked a =>
    have hnone : ∀ c ∈ getViSendJpegRound asked a, c.video = none := by
      rcases a with ⟨_ | _, _ | _, _ | _, _ | _, waitForDone⟩ <;> cases asked <;>
        simp [getViSendJpegRound, Call.video]
    exact absurd ((hnone c hc).symm.trans hid) (by simp)
  | cycle photo => grind [cycleSnapshotRound, Call.video]
  | vi2 ok => grind [getVi2SendRound, Call.video]
  | nnOsd found ok fits => grind [getNnUpdateOsdRound, Call.video]
  | ivs ok => grind [ivsGetResultsRound, Call.video]

theorem Start.video {w : Worker} {cs : List Call} {last : Bool} (h : Start w cs last) :
    ∀ c ∈ cs, c.video = none := by
  cases h with
  | jpeg p => cases p <;> simp [dropFirst, Call.video]
  | sendJpeg => simp
  | other _ => simp

/-! ## The whole run -/

/-- The calls of all threads. -/
def allCalls (s : Machine) : List Call := s.calls.map Prod.snd

/-- **While an encoder has its thread, the server serves its URL**, and the clients have received
what has been passed on under its number. -/
structure Serving (s : Machine) (up : Bool) : Prop where
  inOrder : InOrder Feed.Allows Feed.exec (s.control, up) s.program
  up_of_on : ∀ k, s.control.on (encoder k) = true → up = true
  serves : up = true → s.data.rtsp.Serves rtspUrl
  received : ∀ k : Fin 2, ∀ u, rtspUrl k.castSucc = some u →
    s.data.rtsp.clients.frames u = (allCalls s).filterMap (Call.sent k)

/-- The URLs of two encoders are different. -/
theorem rtspUrl_inj {j k : Fin 2} {u : Str} (hj : rtspUrl j.castSucc = some u)
    (hk : rtspUrl k.castSucc = some u) : j = k := by
  have hinj : ∀ j k : Fin 2, rtspUrl j.castSucc = rtspUrl k.castSucc → j = k := by decide
  exact hinj j k (hj.trans hk.symm)

theorem rtspUrl_encoder (k : Fin 2) : ∃ u, rtspUrl k.castSucc = some u := by
  obtain rfl | rfl : k = 0 ∨ k = 1 := by omega
  · exact ⟨_, rfl⟩
  · exact ⟨_, rfl⟩

section

variable {t : NaluTypes} {s u : Machine} {w : Worker} {up : Bool} {program : List Command}
  {is : List (Option Worker)}

/-- A statement of the program. -/
theorem Serving.execute (h : Serving s up) {c : Command} {rest : List Command}
    (hprogram : s.program = c :: rest) :
    Serving (s.execute (crew t) c rest) (Feed.exec (s.control, up) c).2 := by
  have horder := h.inOrder
  rw [hprogram] at horder
  obtain ⟨hallows, hrest⟩ := horder
  cases c with
  | spawn w =>
    refine ⟨hrest, fun k hk => ?_, h.serves, h.received⟩
    change Function.update s.control.on w true (encoder k) = true at hk
    rcases eq_or_ne (encoder k) w with he | hne
    · exact hallows k he.symm
    · rw [Function.update_of_ne hne] at hk
      exact h.up_of_on k hk
  | join w =>
    refine ⟨hrest, fun k hk => ?_, h.serves, h.received⟩
    change Function.update s.control.on w false (encoder k) = true at hk
    rcases eq_or_ne (encoder k) w with he | hne
    · rw [he, Function.update_self] at hk
      cases hk
    · rw [Function.update_of_ne hne] at hk
      exact h.up_of_on k hk
  | rtsp r =>
    cases r with
    | init url setup demo session =>
      obtain ⟨hsilent, rfl, rfl, hok⟩ := hallows
      refine ⟨hrest, fun _ _ => rfl, fun _ => Stream.Rtsp.serves_init s.data.rtsp setup hok, ?_⟩
      intro k u hu
      exact (congrFun (Stream.Rtsp.frames_init s.data.rtsp setup true session) u).trans
        (h.received k u hu)
    | deinit =>
      have hsilent : s.control.Silent := hallows
      refine ⟨hrest, fun k hk => absurd (hk.symm.trans (hsilent k)) (by decide), nofun, ?_⟩
      intro k u hu
      exact (congrFun (Stream.Rtsp.frames_deinit s.data.rtsp) u).trans (h.received k u hu)
    | writeVideoFrame id f => exact hallows.elim
    | writeAudioFrame f => exact hallows.elim
  | _ => exact ⟨hrest, h.up_of_on, h.serves, h.received⟩

/-- A thread goes on without a call. -/
theorem Serving.goTo (h : Serving s up) (w : Worker) (p : Place Call) :
    Serving (s.goTo w p) up := ⟨h.inOrder, h.up_of_on, h.serves, h.received⟩

/-- A thread begins. -/
theorem Serving.enter (h : Serving s up) (w : Worker) (cs : List Call) (last : Bool) :
    Serving (s.enter (crew t) w cs last) up := by
  have hrtsp : ((crew t).enter s.data w).rtsp = s.data.rtsp := by cases w <;> rfl
  refine ⟨h.inOrder, h.up_of_on, fun hup => ?_, fun k u hu => ?_⟩
  · change ((crew t).enter s.data w).rtsp.Serves rtspUrl
    rw [hrtsp]
    exact h.serves hup
  · change ((crew t).enter s.data w).rtsp.clients.frames u = _
    rw [hrtsp]
    exact h.received k u hu

theorem allCalls_make {c : Call} {cs : List Call} {last : Bool} :
    allCalls (s.make (crew t) w c cs last) = allCalls s ++ [c] := by
  change (s.calls ++ [(w, c)]).map Prod.snd = _
  rw [List.map_append]
  rfl

/-- A call of a thread. -/
theorem Serving.make (h : Serving s up) {c : Call} (cs : List Call) (last : Bool)
    (hon : s.control.on w = true)
    (hvideo : ∀ id, c.video = some id → ∃ k : Fin 2, w = encoder k ∧ id = k) :
    Serving (s.make (crew t) w c cs last) up := by
  cases c with
  | rtspVideo id f =>
    obtain ⟨k, rfl, rfl⟩ := hvideo id rfl
    obtain ⟨u, hu⟩ := rtspUrl_encoder k
    -- the thread is there, so the server is
    have hserves := h.serves (h.up_of_on k hon)
    obtain ⟨hserves', hframes⟩ := hserves.writeVideoFrame hu f
    refine ⟨h.inOrder, h.up_of_on, fun _ => hserves', fun j v hv => ?_⟩
    rw [allCalls_make, List.filterMap_append]
    refine (congrFun hframes v).trans ?_
    rcases eq_or_ne v u with rfl | hne
    · obtain rfl := rtspUrl_inj hu hv
      rw [Function.update_self, h.received k v hv]
      simp [Call.sent]
    · have hk : k ≠ j := by
        rintro rfl
        exact hne (Option.some.inj (hv.symm.trans hu))
      have hid : ¬ ((k : ℕ) : ℤ) = (j : ℕ) := fun he => hk (Fin.ext (by exact_mod_cast he))
      rw [Function.update_of_ne hne, h.received j v hv]
      simp [Call.sent, hid]
  | _ =>
    refine ⟨h.inOrder, h.up_of_on, h.serves, fun k u hu => ?_⟩
    rw [allCalls_make, List.filterMap_append]
    exact (h.received k u hu).trans (List.append_nil _).symm

/-- The calls of a thread that pass a frame on. -/
theorem video_callsOf (horder : InOrder Board.Allows Board.exec .off program)
    (hrun : Run (crew t).Step (initial program) is s) (w : Worker) :
    ∀ c ∈ s.callsOf w, ∀ id, c.video = some id → ∃ k : Fin 2, w = encoder k ∧ id = k :=
  callsOf_induction
    (P := fun cs => ∀ c ∈ cs, ∀ id, c.video = some id → ∃ k : Fin 2, w = encoder k ∧ id = k)
    horder hrun (fun c hc => by cases hc)
    (fun h hcs c hc id hid => (List.mem_append.mp hc).elim (fun hc => h c hc id hid)
      fun hc => absurd ((hcs.video c hc).symm.trans hid) (by simp))
    fun h hcs c hc => (List.mem_append.mp hc).elim (h c) (hcs.video c)

/-- **The server serves in every run.** -/
theorem exists_serving (horder : InOrder Board.Allows Board.exec .off program)
    (hfeeds : InOrder Feed.Allows Feed.exec (.off, false) program)
    (hrun : Run (crew t).Step (initial program) is s) : ∃ up, Serving s up := by
  induction hrun with
  | nil => exact ⟨false, hfeeds, nofun, nofun, fun _ _ _ => rfl⟩
  | @snoc is s u i hrun hstep ih =>
    obtain ⟨up, h⟩ := ih
    cases hstep with
    | main hprogram _ _ => exact ⟨_, h.execute hprogram⟩
    | @start w cs last _ _ => exact ⟨up, h.enter w cs last⟩
    | @call w c cs last hbusy =>
      have hsound := (sound_initial horder).run (lawful_crew t) hrun
      have hon := hsound.tells.on_of_place (w := w) (by simp [hbusy])
      have hmem : c ∈ s.callsOf w := by
        rw [Crew.State.callsOf, hbusy]
        exact List.mem_append_right _ List.mem_cons_self
      exact ⟨up, h.make cs last hon (video_callsOf horder hrun w c hmem)⟩
    | _ => exact ⟨up, h.goTo _ _⟩

/-- The streams that the thread of an encoder has taken. -/
def taken (s : Machine) (k : Fin 2) : List Packet :=
  (Mutex.ofThread (encoder k) s.calls).filterMap Call.taken

/-- **What the encoder delivers reaches the clients of its URL and the storage**, each frame once
and in order, and the RTMP muxer gets what the storage gets or less of it. -/
structure Delivered (t : NaluTypes) (k : Fin 2) (s : Machine) : Prop where
  received : ∀ u, rtspUrl k.castSucc = some u →
    s.data.rtsp.clients.frames u = (taken s k).map Packet.frame
  stored : (allCalls s).filterMap (Call.stored k) = (taken s k).map fun p => (p.frame, t.isKey p)
  pushed : ((allCalls s).filterMap (Call.pushed k)).Sublist ((allCalls s).filterMap (Call.stored k))

/-- **Frames are delivered**: in every run of restarts in which everything that is enabled comes
about, RTSP with it, whenever the thread of an encoder is between two rounds. -/
theorem frames_delivered {ps : List Period} {c : Snapshot} (hflag : c.flag = false)
    (h : InOrder (fun c p => p.Complete c) after c ps) (hstreams : ∀ p ∈ ps, p.Streams)
    (hrun : Run (crew t).Step (initial (commands ps c)) is s) {k : Fin 2}
    (hplace : (s.place (encoder k)).pending = []) : Delivered t k s := by
  obtain ⟨horder, -⟩ := inOrder_commands hflag h
  obtain ⟨up, hserving⟩ := exists_serving horder (inOrder_feeds hflag h hstreams rfl) hrun
  -- the calls of the thread pass on what it has taken
  have hpasses : PassesOn t k (s.callsOf (encoder k)) :=
    callsOf_induction horder hrun ⟨rfl, rfl, List.Sublist.refl _⟩
      (fun h hcs => h.append hcs.passesOn) fun h hcs => h.append hcs.passesOn
  rw [Crew.callsOf_eq hplace] at hpasses
  -- and no other thread passes anything on under its number
  have hothers : ∀ p ∈ s.calls, p.1 ≠ encoder k → p.2.video ≠ some (k : ℤ) := by
    intro p hp hne hid
    have hmem : p.2 ∈ s.callsOf p.1 :=
      List.mem_append_left _ (Mutex.mem_ofThread.mpr hp)
    obtain ⟨j, hj, he⟩ := video_callsOf horder hrun p.1 p.2 hmem _ hid
    have hjk : k = j := Fin.ext (by exact_mod_cast he)
    exact hne (hjk ▸ hj)
  refine ⟨fun u hu => ?_, ?_, ?_⟩
  · rw [hserving.received k u hu, allCalls, ← Mutex.filterMap_ofThread
      fun p hp hne => Call.sent_eq_none (hothers p hp hne)]
    exact hpasses.sent
  · rw [allCalls, ← Mutex.filterMap_ofThread
      fun p hp hne => Call.stored_eq_none (hothers p hp hne)]
    exact hpasses.stored
  · rw [allCalls, ← Mutex.filterMap_ofThread
      fun p hp hne => Call.stored_eq_none (hothers p hp hne), ← Mutex.filterMap_ofThread
      fun p hp hne => Call.pushed_eq_none (hothers p hp hne)]
    exact hpasses.pushed

/-- A frame of the first encoder. -/
theorem frames_delivered_frame : ∃ is s,
    Run (crew ⟨5, 1, 19, 1⟩).Step (initial (commands [⟨allEnabled, []⟩] ⟨0, false⟩)) is s ∧
      taken s 0 = [⟨⟨[0, 0, 0, 1], 40000⟩, 5⟩] ∧ Delivered ⟨5, 1, 19, 1⟩ 0 s := by
  have h : InOrder (fun c p => Period.Complete p c) after ⟨0, false⟩ [⟨allEnabled, []⟩] :=
    ⟨complete_allEnabled _ _, trivial⟩
  have hstreams : ∀ p ∈ [(⟨allEnabled, []⟩ : Period)], p.Streams :=
    List.forall_mem_singleton.mpr ⟨rfl, rfl, fun _ _ _ => rfl⟩
  -- `rk_video_init` up to the thread of the first encoder
  have h₁ : Run (crew ⟨5, 1, 19, 1⟩).Step (initial (commands [⟨allEnabled, []⟩] ⟨0, false⟩)) _ _ :=
    .single (.main rfl nofun trivial)
  have h₂ := (h₁.snoc (.main rfl nofun trivial)).snoc (.main rfl nofun trivial)
  have h₃ := (h₂.snoc (.main rfl nofun trivial)).snoc (.main rfl nofun trivial)
  have h₄ := (h₃.snoc (.main rfl nofun trivial)).snoc (.main rfl nofun trivial)
  have h₅ := (h₄.snoc (.main rfl nofun trivial)).snoc (.main rfl nofun trivial)
  -- one round
  have h₆ := h₅.snoc (.start (w := .venc0) rfl (.other nofun))
  have h₇ := h₆.snoc (.back (w := .venc0) rfl)
  have h₈ := h₇.snoc (.round (w := .venc0) rfl rfl
    ⟨rfl, .venc0 (some ⟨⟨[0, 0, 0, 1], 40000⟩, 5⟩)⟩)
  have h₉ := (h₈.snoc (.call (w := .venc0) rfl)).snoc (.call (w := .venc0) rfl)
  have h₁₀ := (h₉.snoc (.call (w := .venc0) rfl)).snoc (.call (w := .venc0) rfl)
  have h₁₁ := h₁₀.snoc (.call (w := .venc0) rfl)
  exact ⟨_, _, h₁₁, rfl, frames_delivered rfl h hstreams h₁₁ rfl⟩

end

end RkIpc.Video
