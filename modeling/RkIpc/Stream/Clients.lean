import RkIpc.Stream.Rtsp

/-!
# What the clients of a URL receive

A client asks for a URL, and receives what is sent over the session that was created with it.

## Main definitions

* `Clients`: the URL of each session, and what has been sent for each URL
* `Rtsp.Serves`: there is a session for each URL

## Main results

* `Rtsp.serves_init`, `Rtsp.Serves.writeVideoFrame`: an initialisation that succeeds serves all
  URLs, and from then on each frame goes to one of them
-/

namespace RkIpc.Stream

open Text Mutex

/-- The URL of each session, and the frames that have been sent for each URL. -/
structure Clients where
  url : Session → Option Str
  frames : Str → List Frame

/-- No session. -/
def Clients.start : Clients := ⟨fun _ => none, fun _ => []⟩

/-- What a call of the library means to the clients. -/
def Clients.serve (x : Clients) : RtspCall → Clients
  | .newSession _ url (some h) => { x with url := Function.update x.url h (some url) }
  | .txVideo h f =>
    match x.url h with
    | none => x
    | some u => { x with frames := Function.update x.frames u (x.frames u ++ [f]) }
  | _ => x

/-- **What the clients have received.** -/
def Rtsp.clients (s : Rtsp) : Clients := s.calls.foldl Clients.serve .start

/-- **There is a session for each URL.** -/
def Rtsp.Serves (url : Fin 3 → Option Str) (s : Rtsp) : Prop :=
  (∃ d, s.live = some d) ∧
    ∀ k u, url k = some u → ∃ h, s.session k = some h ∧ s.clients.url h = some u

section

variable {s : Rtsp} {url : Fin 3 → Option Str} {c : RtspCall}

@[simp] theorem Rtsp.clients_call : (s.call c).clients = s.clients.serve c := by
  rw [Rtsp.clients, Rtsp.calls_call, List.foldl_append]
  rfl

/-- A statement that sends no frame of the video. -/
def RtspAtom.Silent : RtspAtom → Prop
  | .txVideo _ _ _ => False
  | _ => True

/-- A statement that sends no frame sends the clients nothing. -/
theorem RtspAtom.Silent.frames_exec {a : RtspAtom} (ha : a.Silent) (s : Rtsp) :
    (a.exec s).clients.frames = s.clients.frames := by
  cases a with
  | createDemo ok => cases ok <;> rw [RtspAtom.exec, Rtsp.clients_call] <;> rfl
  | newSession k url ok =>
    rw [RtspAtom.exec, Rtsp.clients_call]
    cases s.newHandle ok <;> rfl
  | set k what => rw [RtspAtom.exec, Rtsp.clients_call]; rfl
  | delSession k =>
    rw [RtspAtom.exec]
    split
    · rfl
    · rw [Rtsp.clients_call]
      rfl
  | delDemo =>
    rw [RtspAtom.exec]
    split
    · rfl
    · rw [Rtsp.clients_call]
      rfl
  | txVideo k id f => exact ha.elim
  | txAudio k f =>
    rw [RtspAtom.exec]
    split
    · rw [Rtsp.clients_call]
      rfl
    · rfl
  | doEvent =>
    rw [RtspAtom.exec]
    split
    · rfl
    · rw [Rtsp.clients_call]
      rfl

theorem frames_finish {cs : List RtspAtom} (hcs : ∀ a ∈ cs, a.Silent) (s : Rtsp) :
    (finish RtspAtom.exec cs s).clients.frames = s.clients.frames := by
  induction cs generalizing s with
  | nil => rfl
  | cons a cs ih =>
    obtain ⟨ha, hcs⟩ := List.forall_mem_cons.mp hcs
    rw [finish_cons, ih hcs, ha.frames_exec]

theorem silent_openSession (k : Fin 3) (url : Str) (setup : Setup) (ok : Bool) :
    ∀ a ∈ openSession k url setup ok, a.Silent := by
  unfold openSession
  cases setup.codec <;> cases setup.audio <;> simp [RtspAtom.Silent]

/-- **An initialisation sends nothing.** -/
theorem Rtsp.frames_init (s : Rtsp) (setup : Fin 3 → Setup) (demo : Bool) (session : Fin 3 → Bool) :
    (Request.exec (.init url setup demo session) s).clients.frames = s.clients.frames := by
  have hdemo : (RtspAtom.createDemo demo).Silent := trivial
  refine frames_finish (List.forall_mem_cons.mpr ⟨hdemo, fun a ha => ?_⟩) s
  obtain ⟨k, -, hk⟩ := List.mem_flatMap.mp ha
  cases hurl : url k with
  | none => simp [hurl] at hk
  | some u =>
    rw [hurl] at hk
    exact silent_openSession _ _ _ _ a hk

theorem Rtsp.frames_deinit (s : Rtsp) :
    (Request.exec .deinit s).clients.frames = s.clients.frames := by
  refine frames_finish (fun a ha => ?_) s
  rcases List.mem_append.mp ha with ha | ha
  · obtain ⟨k, -, rfl⟩ := List.mem_map.mp ha
    trivial
  · rw [List.mem_singleton.mp ha]
    trivial

/-! ## Sessions -/

/-- A call that creates no session leaves the URLs. -/
theorem Clients.url_serve {x : Clients} (hc : ∀ d u h, c ≠ .newSession d u (some h)) :
    (x.serve c).url = x.url := by
  cases c with
  | newSession d u h =>
    cases h with
    | none => rfl
    | some h => exact absurd rfl (hc d u h)
  | txVideo h f =>
    rw [Clients.serve]
    split <;> rfl
  | _ => rfl

/-- A quiet statement leaves the URLs. -/
theorem RtspAtom.Quiet.url_exec {a : RtspAtom} (ha : a.Quiet) (s : Rtsp) :
    (a.exec s).clients.url = s.clients.url := by
  rcases ha.exec_cases s with h | ⟨c, h, hc, -⟩
  · rw [h]
  · rw [h, Rtsp.clients_call]
    refine Clients.url_serve ?_
    rintro d u x rfl
    -- a new session would be alive
    have hmem : Handle.session x ∈ RtspCall.apply ∅ (.newSession d u (some x)) :=
      Set.mem_insert _ _
    rw [hc ∅] at hmem
    exact hmem

theorem url_finish {cs : List RtspAtom} (hcs : ∀ a ∈ cs, a.Quiet) (s : Rtsp) :
    (finish RtspAtom.exec cs s).clients.url = s.clients.url := by
  induction cs generalizing s with
  | nil => rfl
  | cons a cs ih =>
    obtain ⟨ha, hcs⟩ := List.forall_mem_cons.mp hcs
    rw [finish_cons, ih hcs, ha.url_exec]

theorem created_finish {cs : List RtspAtom} (hcs : ∀ a ∈ cs, a.Quiet) (s : Rtsp) :
    (finish RtspAtom.exec cs s).created = s.created := by
  induction cs generalizing s with
  | nil => rfl
  | cons a cs ih =>
    obtain ⟨ha, hcs⟩ := List.forall_mem_cons.mp hcs
    rw [finish_cons, ih hcs]
    rcases ha.exec_cases s with h | ⟨c, h, -⟩
    · rw [h]
    · rw [h]
      rfl

/-- Quiet statements leave the sessions and their URLs. -/
theorem Rtsp.Serves.quiet (h : s.Serves url) {cs : List RtspAtom} (hcs : ∀ a ∈ cs, a.Quiet) :
    (finish RtspAtom.exec cs s).Serves url := by
  obtain ⟨hlive, hsession, -⟩ := quiet_finish hcs s
  rw [Rtsp.Serves, hlive, hsession, url_finish hcs]
  exact h

/-- The sessions of some of the indices, no two of them the same. -/
structure Rtsp.ServesOf (url : Fin 3 → Option Str) (ks : List (Fin 3)) (d : ℕ) (s : Rtsp) :
    Prop where
  live : s.live = some d
  session : ∀ k ∈ ks, ∀ u, url k = some u → ∃ n < s.created, s.session k = some ⟨d, n⟩ ∧
    s.clients.url ⟨d, n⟩ = some u

theorem Rtsp.ServesOf.newSession {ks : List (Fin 3)} {d : ℕ} (h : s.ServesOf url ks d)
    {k : Fin 3} {u : Str} (hk : k ∉ ks) (hurl : url k = some u) :
    (RtspAtom.exec (.newSession k u true) s).ServesOf url (ks ++ [k]) d := by
  have hnew : s.newHandle true = some ⟨d, s.created⟩ := by
    rw [Rtsp.newHandle, h.live]
    rfl
  have hsession : (RtspAtom.exec (.newSession k u true) s).session =
      Function.update s.session k (some ⟨d, s.created⟩) := by
    rw [RtspAtom.exec, hnew]
    rfl
  have hclients : (RtspAtom.exec (.newSession k u true) s).clients.url =
      Function.update s.clients.url ⟨d, s.created⟩ (some u) := by
    rw [RtspAtom.exec, Rtsp.clients_call, hnew]
    rfl
  refine ⟨h.live, fun j hj v hv => ?_⟩
  rw [hsession, hclients]
  have hcreated : (RtspAtom.exec (.newSession k u true) s).created = s.created + 1 := rfl
  rw [hcreated]
  rcases List.mem_append.mp hj with hj | hj
  · -- the sessions before have smaller numbers
    obtain ⟨n, hn, hs, hu⟩ := h.session j hj v hv
    have hne : j ≠ k := fun he => hk (he ▸ hj)
    have hne' : (⟨d, n⟩ : Session) ≠ ⟨d, s.created⟩ := fun he => hn.ne (Session.mk.inj he).2
    exact ⟨n, by omega, by rw [Function.update_of_ne hne, hs],
      by rw [Function.update_of_ne hne', hu]⟩
  · obtain rfl := List.mem_singleton.mp hj
    obtain rfl : u = v := Option.some.inj (hurl.symm.trans hv)
    exact ⟨s.created, by omega, Function.update_self .., Function.update_self ..⟩

theorem Rtsp.ServesOf.quiet {ks : List (Fin 3)} {d : ℕ} (h : s.ServesOf url ks d)
    {cs : List RtspAtom} (hcs : ∀ a ∈ cs, a.Quiet) :
    (finish RtspAtom.exec cs s).ServesOf url ks d := by
  obtain ⟨hlive, hsession, -⟩ := quiet_finish hcs s
  refine ⟨hlive.trans h.live, fun k hk u hu => ?_⟩
  rw [hsession, url_finish hcs, created_finish hcs]
  exact h.session k hk u hu

theorem Rtsp.ServesOf.openSessions {ks js : List (Fin 3)} {d : ℕ} (h : s.ServesOf url js d)
    (hks : (js ++ ks).Nodup) (setup : Fin 3 → Setup) {session : Fin 3 → Bool}
    (hok : ∀ k u, url k = some u → session k = true) :
    (finish RtspAtom.exec (ks.flatMap fun k =>
      match url k with
      | none => []
      | some url => openSession k url (setup k) (session k)) s).ServesOf url (js ++ ks) d := by
  induction ks generalizing s js with
  | nil => rwa [List.append_nil]
  | cons k ks ih =>
    rw [List.flatMap_cons, finish, List.foldl_append]
    rw [List.append_cons] at hks ⊢
    cases hurl : url k with
    | none =>
      refine ih ⟨h.live, fun j hj u hu => ?_⟩ hks
      rcases List.mem_append.mp hj with hj | hj
      · exact h.session j hj u hu
      · rw [List.mem_singleton.mp hj, hurl] at hu
        cases hu
    | some u =>
      obtain ⟨sets, hopen, hsets⟩ := openSession_eq k u (setup k) (session k)
      have hk : k ∉ js := fun hk =>
        (List.nodup_append.mp (List.nodup_append.mp hks).1).2.2 k hk k (by simp) rfl
      rw [hok k u hurl] at hopen
      simp only [hok k u hurl, hopen]
      exact ih ((h.newSession hk hurl).quiet hsets) hks

/-- **An initialisation that succeeds** serves all URLs. -/
theorem Rtsp.serves_init (s : Rtsp) (setup : Fin 3 → Setup) {session : Fin 3 → Bool}
    (hok : ∀ k u, url k = some u → session k = true) :
    (Request.exec (.init url setup true session) s).Serves url := by
  have hdemo : (RtspAtom.exec (.createDemo true) s).ServesOf url [] s.created :=
    ⟨rfl, fun k hk => by cases hk⟩
  have hall := hdemo.openSessions (List.nodup_finRange 3) setup hok
  refine ⟨⟨s.created, hall.live⟩, fun k u hu => ?_⟩
  obtain ⟨n, -, hs, hurl⟩ := hall.session k (List.mem_finRange k) u hu
  exact ⟨_, hs, hurl⟩

/-! ## Frames -/

/-- A frame for another session is not sent. -/
theorem RtspAtom.exec_txVideo_of_ne {j k : Fin 3} (hne : k ≠ j) (f : Frame) (s : Rtsp) :
    RtspAtom.exec (.txVideo j k f) s = s := by
  have hid : ¬ ((k : ℕ) : ℤ) = (j : ℕ) := fun he => hne (Fin.ext (by exact_mod_cast he))
  rw [RtspAtom.exec]
  split
  · exact if_neg hid
  · rfl

/-- **A frame goes to the clients of its URL**, and to no others. -/
theorem Rtsp.Serves.writeVideoFrame (h : s.Serves url) {k : Fin 3} {u : Str}
    (hurl : url k = some u) (f : Frame) :
    (Request.exec (.writeVideoFrame k f) s).Serves url ∧
      (Request.exec (.writeVideoFrame k f) s).clients.frames =
        Function.update s.clients.frames u (s.clients.frames u ++ [f]) := by
  obtain ⟨x, hx, hxu⟩ := h.2 k u hurl
  obtain ⟨d, hd⟩ := h.1
  have htx : RtspAtom.exec (.txVideo k k f) s = s.call (.txVideo x f) := by
    rw [RtspAtom.exec, hd, hx]
    exact if_pos rfl
  -- one of the three statements sends the frame
  have hsend : finish RtspAtom.exec [.txVideo 0 k f, .txVideo 1 k f, .txVideo 2 k f] s =
      s.call (.txVideo x f) := by
    have hk : k = 0 ∨ k = 1 ∨ k = 2 := by omega
    rcases hk with rfl | rfl | rfl
    · rw [finish_cons, htx, finish_cons, RtspAtom.exec_txVideo_of_ne (by decide), finish_cons,
        RtspAtom.exec_txVideo_of_ne (by decide), finish_nil]
    · rw [finish_cons, RtspAtom.exec_txVideo_of_ne (by decide), finish_cons, htx, finish_cons,
        RtspAtom.exec_txVideo_of_ne (by decide), finish_nil]
    · rw [finish_cons, RtspAtom.exec_txVideo_of_ne (by decide), finish_cons,
        RtspAtom.exec_txVideo_of_ne (by decide), finish_cons, htx, finish_nil]
  have hexec : Request.exec (.writeVideoFrame k f) s =
      finish RtspAtom.exec [.doEvent] (s.call (.txVideo x f)) := by
    rw [← hsend]
    rfl
  have hquiet : ∀ a ∈ [RtspAtom.doEvent], a.Quiet := List.forall_mem_singleton.mpr trivial
  have hsilent : ∀ a ∈ [RtspAtom.doEvent], a.Silent := List.forall_mem_singleton.mpr trivial
  have hserves : (s.call (.txVideo x f)).Serves url := by
    rw [Rtsp.Serves, Rtsp.live_call, Rtsp.session_call, Rtsp.clients_call,
      Clients.url_serve (by simp)]
    exact h
  rw [hexec]
  refine ⟨hserves.quiet hquiet, ?_⟩
  rw [frames_finish hsilent, Rtsp.clients_call, Clients.serve, hxu]

end

end RkIpc.Stream
