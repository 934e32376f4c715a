import Mathlib.Logic.Function.Basic
import RkIpc.Text.Scan
import RkIpc.Transition.Orderly

/-!
# The audio

`rkipc_audio_init` enables the capture of the sound, and creates the encoder and a thread that
passes its streams on; `rkipc_audio_deinit` joins the threads and destroys the channels. Before and
in between clients set the type of the streams. The functions go on when a call of the library
fails, `rkipc_audio_deinit` joins threads that `rkipc_audio_init` has not created, and an encoder
for MP3 is registered and unregistered as the type is at the time.

## Main definitions

* `Resource`, `Worker`, `Command`: what is created and destroyed, the threads, and the statements
* `rkipcAudioInit`, `rkipcAudioDeinit`: the functions
* `Board`, `Board.Allows`, `Board.Safe`: what there is, and where a statement is in order, and safe
* `Period`, `commands`: the audio from one initialisation to the next
* `Period.Joins`: the threads that are joined have been created
* `Period.Releases`: what is created is destroyed

## Main results

* `leads_commands`: but for the joins restarts are in order, whatever fails in them
* `inOrder_safe`: when no text is freed that a thread goes by
* `releases_iff`: when restarts are in order and leave nothing behind
-/

namespace RkIpc.Audio

open Text Transition

/-! ## Statements -/

/-- What the functions create and destroy: the capture device, its channel, the channel of the
encoder, and the registration of the encoder for MP3. -/
inductive Resource
  | dev
  | chn
  | aenc
  | mp3
deriving DecidableEq, Repr

/-- The threads: `save_aenc_thread` and `ai_get_detect_result`. -/
inductive Worker
  | saveAenc
  | detect
deriving DecidableEq, Repr

/-- A statement that takes effect. -/
inductive Command
  /-- `g_audio_run_ = 0;` -/
  | stop
  | create (r : Resource)
  | destroy (r : Resource)
  /-- `pthread_create` -/
  | spawn (w : Worker)
  /-- `pthread_join` -/
  | join (w : Worker)
  /-- `enable_aed` and `enable_bcd` -/
  | setDetect (aed bcd : Bool)
  /-- `audio.0:encode_type` is set. -/
  | setType (encodeType : Str)
deriving DecidableEq, Repr

/-- What `rkipc_audio_init` and `rkipc_audio_deinit` read, and what the library answers; a success
is `true`. -/
structure AudioAnswers where
  setPubAttr : Bool
  enable : Bool
  aed : Bool
  bcd : Bool
  enableChn : Bool
  registerEncoder : Bool
  createChn : Bool
  destroyChn : Bool
  disableChn : Bool
  disable : Bool
  unRegisterEncoder : Bool
deriving DecidableEq, Repr

/-- `audio.0:encode_type`, whether `extCodecHandle` is a handle, `enable_aed` and `enable_bcd`. -/
structure Globals where
  encodeType : Str
  handle : Bool
  aed : Bool
  bcd : Bool
deriving DecidableEq, Repr

/-- Whether the type is `MP3`. -/
def isMp3 (encodeType : Str) : Bool := encodeType = lit "MP3"

/-- `rkipc_ai_init`. -/
def rkipcAiInit (a : AudioAnswers) (g : Globals) : List Command × Globals :=
  if !a.setPubAttr then ([], g)
  else if !a.enable then ([], g)
  else
    ([.create .dev, .setDetect a.aed a.bcd] ++ (if a.aed || a.bcd then [.spawn .detect] else []) ++
      (if a.enableChn then [.create .chn] else []), { g with aed := a.aed, bcd := a.bcd })

/-- `register_aenc_mp3`: the handle before is lost. -/
def registerAencMp3 (a : AudioAnswers) (g : Globals) : List Command × Globals :=
  if a.registerEncoder then ([.create .mp3], { g with handle := true })
  else ([], { g with handle := false })

/-- `unregister_aenc_mp3`. -/
def unregisterAencMp3 (a : AudioAnswers) (g : Globals) : List Command × Globals :=
  if !g.handle then ([], g)
  else if !a.unRegisterEncoder then ([], g)
  else ([.destroy .mp3], { g with handle := false })

/-- `rkipc_aenc_init`. -/
def rkipcAencInit (a : AudioAnswers) (g : Globals) : List Command × Globals :=
  let mp3 := if isMp3 g.encodeType then registerAencMp3 a g else ([], g)
  (mp3.1 ++ (if a.createChn then [.create .aenc, .spawn .saveAenc] else []), mp3.2)

/-- `rkipc_aenc_deinit`. -/
def rkipcAencDeinit (a : AudioAnswers) : List Command :=
  if a.destroyChn then [.destroy .aenc] else []

/-- `rkipc_ai_deinit`. -/
def rkipcAiDeinit (a : AudioAnswers) : List Command :=
  if !a.disableChn then []
  else .destroy .chn :: if !a.disable then [] else [.destroy .dev]

/-- `rkipc_audio_init`. -/
def rkipcAudioInit (a : AudioAnswers) (g : Globals) : List Command × Globals :=
  let ai := rkipcAiInit a g
  let aenc := rkipcAencInit a ai.2
  (ai.1 ++ aenc.1, aenc.2)

/-- `rkipc_audio_deinit`. -/
def rkipcAudioDeinit (a : AudioAnswers) (g : Globals) : List Command × Globals :=
  let mp3 := if isMp3 g.encodeType then unregisterAencMp3 a g else ([], g)
  ([.stop] ++ (if g.aed || g.bcd then [.join .detect] else []) ++ [.join .saveAenc] ++
    (rkipcAencDeinit a ++ rkipcAiDeinit a ++ mp3.1), mp3.2)

/-- **The audio from one initialisation to the next**, with what clients set
`audio.0:encode_type` to before `rkipc_audio_init`, and between the two functions. -/
structure Period where
  answers : AudioAnswers
  before : List Str
  encodeTypes : List Str

/-- Clients set the type. -/
def Globals.setTypes (g : Globals) (encodeTypes : List Str) : Globals :=
  { g with encodeType := encodeTypes.getLastD g.encodeType }

/-- The globals when `rkipc_audio_init` begins. -/
def Period.opening (p : Period) (g : Globals) : Globals := g.setTypes p.before

/-- The globals when `rkipc_audio_deinit` begins. -/
def Period.closing (p : Period) (g : Globals) : Globals :=
  (rkipcAudioInit p.answers (p.opening g)).2.setTypes p.encodeTypes

/-- The statements of a period. -/
def Period.commands (p : Period) (g : Globals) : List Command :=
  p.before.map .setType ++ (rkipcAudioInit p.answers (p.opening g)).1 ++
    p.encodeTypes.map .setType ++ (rkipcAudioDeinit p.answers (p.closing g)).1

/-- What a period makes of the globals. -/
def after (g : Globals) (p : Period) : Globals := (rkipcAudioDeinit p.answers (p.closing g)).2

/-- **The statements of periods**, as `rk_audio_restart` strings them together. -/
def commands : List Period → Globals → List Command
  | [], _ => []
  | p :: ps, g => p.commands g ++ commands ps (after g p)

/-! ## The board -/

/-- What there is: `g_audio_run_`, what has been created and not been destroyed, and the threads
that have been created and not been joined. -/
structure Board where
  run : Bool
  alive : Resource → Bool
  on : Worker → Bool

/-- A statement is executed. -/
def Board.exec (b : Board) : Command → Board
  | .stop => { b with run := false }
  | .create r => { b with alive := Function.update b.alive r true }
  | .destroy r => { b with alive := Function.update b.alive r false }
  | .spawn w => { b with on := Function.update b.on w true }
  | .join w => { b with on := Function.update b.on w false }
  | .setDetect _ _ | .setType _ => b

/-- Before the first initialisation. -/
def Board.start : Board := ⟨true, fun _ => false, fun _ => false⟩

/-- The channel that a thread works on. -/
def Worker.needs : Worker → Resource
  | .saveAenc => .aenc
  | .detect => .dev

/-- A statement is in order but for the thread that it joins: no thread is created that is there
already, or without its channel, none is joined whose loop goes on, and no channel is destroyed
that a thread works on. -/
def Board.Tolerates (b : Board) : Command → Prop
  | .spawn w => b.on w = false ∧ b.alive w.needs = true
  | .join _ => b.run = false
  | .destroy r => ∀ w, w.needs = r → b.on w = false
  | _ => True

/-- A thread that a statement joins is there. -/
def Board.Has (b : Board) (c : Command) : Prop := ∀ w, c = .join w → b.on w = true

/-- **A statement is in order.** -/
def Board.Allows (b : Board) (c : Command) : Prop := b.Tolerates c ∧ b.Has c

/-- A statement does not free the text of the type that `save_aenc_thread` goes by. -/
def Board.Spares (b : Board) (c : Command) : Prop := ∀ t, c = .setType t → b.on .saveAenc = false

/-- **A statement is safe**: it is in order, and no thread is left with a text that is freed. -/
def Board.Safe (b : Board) (c : Command) : Prop := b.Allows c ∧ b.Spares c

/-- Which threads there are. -/
def Board.On (b : Board) (saveAenc detect : Bool) : Prop :=
  b.on .saveAenc = saveAenc ∧ b.on .detect = detect

theorem Board.On.off {b : Board} (h : b.On false false) (w : Worker) : b.on w = false := by
  cases w with
  | saveAenc => exact h.1
  | detect => exact h.2

/-! ## Restarts are in order -/

section

variable {p : Period} {a : AudioAnswers} {g : Globals} {b : Board}

/-- `rkipc_ai_init` creates the thread for the detection, if the capture is enabled. -/
theorem leads_rkipcAiInit (a : AudioAnswers) (g : Globals) :
    Leads Board.Tolerates Board.exec (Board.On · false false) (rkipcAiInit a g).1
      (Board.On · false (a.setPubAttr && a.enable && (a.aed || a.bcd))) := by
  unfold rkipcAiInit
  cases a.setPubAttr with
  | false => exact .nil fun _ => id
  | true =>
    cases a.enable with
    | false => exact .nil fun _ => id
    | true =>
      have hdev : Leads Board.Tolerates Board.exec (Board.On · false false)
          [.create .dev, .setDetect a.aed a.bcd] fun b => b.On false false ∧ b.alive .dev = true :=
        .cons (fun b hb => ⟨trivial, hb, rfl⟩) (.single fun b hb => ⟨trivial, hb⟩)
      have hspawn : Leads Board.Tolerates Board.exec
          (fun b => b.On false false ∧ b.alive .dev = true)
          (if a.aed || a.bcd then [.spawn .detect] else [])
          (Board.On · false (a.aed || a.bcd)) := by
        cases a.aed || a.bcd with
        | false => exact .nil fun _ => And.left
        | true => exact .single fun b hb => ⟨⟨hb.1.2, hb.2⟩, hb.1.1, rfl⟩
      have hchn : Leads Board.Tolerates Board.exec (Board.On · false (a.aed || a.bcd))
          (if a.enableChn then [.create .chn] else []) (Board.On · false (a.aed || a.bcd)) := by
        cases a.enableChn with
        | false => exact .nil fun _ => id
        | true => exact .single fun b hb => ⟨trivial, hb⟩
      -- the capture, its thread, and only then the channel
      exact (hdev.append hspawn).append hchn

/-- `rkipc_aenc_init` creates the thread of the encoder, if the encoder comes about. -/
theorem leads_rkipcAencInit (a : AudioAnswers) (g : Globals) (detect : Bool) :
    Leads Board.Tolerates Board.exec (Board.On · false detect) (rkipcAencInit a g).1
      (Board.On · a.createChn detect) := by
  refine Leads.append (.of_forall fun c hc b hb => ?_) ?_
  · unfold registerAencMp3 at hc
    split_ifs at hc
    · obtain rfl := List.mem_singleton.mp hc
      exact ⟨trivial, hb⟩
    · cases hc
    · cases hc
  · cases a.createChn with
    | false => exact .nil fun _ => id
    | true =>
      have hcreate : Leads Board.Tolerates Board.exec (Board.On · false detect) [.create .aenc]
          fun b => b.On false detect ∧ b.alive .aenc = true :=
        .single fun b hb => ⟨trivial, hb, rfl⟩
      exact hcreate.append (.single fun b hb => ⟨⟨hb.1.1, hb.2⟩, rfl, hb.1.2⟩)

/-- Clients that set the type leave the board. -/
theorem foldl_setType (b : Board) (encodeTypes : List Str) :
    (encodeTypes.map .setType).foldl Board.exec b = b := by
  induction encodeTypes with
  | nil => rfl
  | cons t encodeTypes ih => exact ih

theorem leads_setType (encodeTypes : List Str) (saveAenc detect : Bool) :
    Leads Board.Tolerates Board.exec (Board.On · saveAenc detect) (encodeTypes.map .setType)
      (Board.On · saveAenc detect) := by
  refine .of_forall fun c hc b hb => ?_
  obtain ⟨t, -, rfl⟩ := List.mem_map.mp hc
  exact ⟨trivial, hb⟩

/-- Behind the joins `rkipc_audio_deinit` only destroys. -/
theorem exists_destroy {c : Command} (hc : c ∈ rkipcAencDeinit a ++ rkipcAiDeinit a ++
    (if isMp3 g.encodeType then unregisterAencMp3 a g else ([], g)).1) : ∃ r, c = .destroy r := by
  unfold rkipcAencDeinit rkipcAiDeinit unregisterAencMp3 at hc
  split_ifs at hc <;> simp at hc <;> grind

/-- **`rkipc_audio_deinit` joins the threads**, and destroys the channels behind them. -/
theorem leads_rkipcAudioDeinit {saveAenc detect : Bool}
    (hdetect : detect = true → (g.aed || g.bcd) = true) :
    Leads Board.Tolerates Board.exec (Board.On · saveAenc detect) (rkipcAudioDeinit a g).1
      fun b => b.On false false ∧ b.run = false := by
  have hjoin : Leads Board.Tolerates Board.exec (fun b => b.On saveAenc detect ∧ b.run = false)
      (if g.aed || g.bcd then [.join .detect] else [])
      fun b => b.On saveAenc false ∧ b.run = false := by
    split
    · exact .single fun b hb => ⟨hb.2, ⟨hb.1.1, rfl⟩, hb.2⟩
    · next hoff =>
      -- no detection is enabled, so there is no thread to join
      have hnone : detect = false := Bool.eq_false_iff.mpr fun h => hoff (hdetect h)
      exact .nil fun b hb => hnone ▸ hb
  -- `g_audio_run_` is 0 before the joins, and nobody is left when channels are destroyed
  refine .append (.append (.append (.single fun b hb => ⟨trivial, hb, rfl⟩) hjoin)
    (.single fun b hb => ⟨hb.2, ⟨rfl, hb.1.2⟩, hb.2⟩)) (.of_forall ?_)
  intro c hc b hb
  obtain ⟨r, rfl⟩ := exists_destroy hc
  exact ⟨fun w _ => hb.1.off w, hb⟩

theorem detect_rkipcAiInit (a : AudioAnswers) (g : Globals) :
    ((rkipcAiInit a g).2.aed || (rkipcAiInit a g).2.bcd) =
      if a.setPubAttr && a.enable then a.aed || a.bcd else g.aed || g.bcd := by
  unfold rkipcAiInit
  cases a.setPubAttr <;> cases a.enable <;> rfl

theorem detect_rkipcAencInit (a : AudioAnswers) (g : Globals) :
    ((rkipcAencInit a g).2.aed || (rkipcAencInit a g).2.bcd) = (g.aed || g.bcd) := by
  unfold rkipcAencInit registerAencMp3
  split_ifs <;> rfl

/-- What `rkipc_audio_deinit` takes the detection to be. -/
theorem detect_closing (p : Period) (g : Globals) : ((p.closing g).aed || (p.closing g).bcd) =
    if p.answers.setPubAttr && p.answers.enable then p.answers.aed || p.answers.bcd
    else g.aed || g.bcd :=
  (detect_rkipcAencInit _ _).trans (detect_rkipcAiInit _ _)

/-- The thread for the detection, when `rkipc_audio_deinit` begins. -/
def Period.detects (p : Period) : Bool :=
  p.answers.setPubAttr && p.answers.enable && (p.answers.aed || p.answers.bcd)

/-- The threads when `rkipc_audio_deinit` begins. -/
theorem leads_opened (p : Period) (g : Globals) :
    Leads Board.Tolerates Board.exec (Board.On · false false)
      (p.before.map .setType ++ (rkipcAudioInit p.answers (p.opening g)).1 ++
        p.encodeTypes.map .setType) (Board.On · p.answers.createChn p.detects) :=
  .append (.append (leads_setType _ _ _)
    (.append (leads_rkipcAiInit _ _) (leads_rkipcAencInit _ _ _))) (leads_setType _ _ _)

theorem detect_of_detects (h : p.detects = true) :
    ((p.closing g).aed || (p.closing g).bcd) = true := by
  rw [Period.detects, Bool.and_eq_true] at h
  rw [detect_closing, if_pos h.1]
  exact h.2

/-- **A period is in order but for the joins**, whatever fails in it. -/
theorem Period.leads (p : Period) (g : Globals) :
    Leads Board.Tolerates Board.exec (Board.On · false false) (p.commands g)
      fun b => b.On false false ∧ b.run = false :=
  .append (leads_opened p g) (leads_rkipcAudioDeinit detect_of_detects)

theorem leads_commands (ps : List Period) (g : Globals) :
    Leads Board.Tolerates Board.exec (Board.On · false false) (commands ps g)
      (Board.On · false false) := by
  induction ps generalizing g with
  | nil => exact .nil fun _ => id
  | cons p ps ih =>
    have hfirst : Leads Board.Tolerates Board.exec (Board.On · false false) (p.commands g)
        (Board.On · false false) := fun b hb =>
      ⟨(p.leads g b hb).1, (p.leads g b hb).2.1⟩
    exact hfirst.append (ih _)

end

/-! ## What is joined -/

/-- **The threads that `rkipc_audio_deinit` joins have been created**: the encoder comes about, and
the capture is enabled, or no detection is from an earlier period. -/
structure Period.Joins (p : Period) (g : Globals) : Prop where
  saveAenc : p.answers.createChn = true
  detect : p.answers.setPubAttr = true ∧ p.answers.enable = true ∨ (g.aed || g.bcd) = false

section

variable {p : Period} {a : AudioAnswers} {g : Globals} {b : Board}

theorem inOrder_has_of_forall {cs : List Command} (h : ∀ c ∈ cs, ∀ w, c ≠ .join w) :
    InOrder Board.Has Board.exec b cs :=
  inOrder_of_forall fun c hc _ w hw => absurd hw (h c hc w)

theorem ne_join_setType {encodeTypes : List Str} :
    ∀ c ∈ encodeTypes.map Command.setType, ∀ w, c ≠ .join w := by
  intro c hc w
  obtain ⟨t, -, rfl⟩ := List.mem_map.mp hc
  nofun

theorem ne_join_rkipcAudioInit : ∀ c ∈ (rkipcAudioInit a g).1, ∀ w, c ≠ .join w := by
  unfold rkipcAudioInit rkipcAiInit rkipcAencInit registerAencMp3
  intro c hc w
  split_ifs at hc <;> simp at hc <;> grind

/-- What `rkipc_audio_deinit` joins. -/
theorem inOrder_has_rkipcAudioDeinit {saveAenc detect : Bool} (hb : b.On saveAenc detect) :
    InOrder Board.Has Board.exec b (rkipcAudioDeinit a g).1 ↔
      ((g.aed || g.bcd) = true → detect = true) ∧ saveAenc = true := by
  have hdestroy : ∀ b : Board, InOrder Board.Has Board.exec b (rkipcAencDeinit a ++
      rkipcAiDeinit a ++ (if isMp3 g.encodeType then unregisterAencMp3 a g else ([], g)).1) := by
    refine fun b => inOrder_has_of_forall fun c hc w => ?_
    obtain ⟨r, rfl⟩ := exists_destroy hc
    nofun
  have hhas : ∀ (b : Board) w, b.Has (.join w) ↔ b.on w = true := fun b w =>
    ⟨fun h => h w rfl, fun h v hv => Command.join.inj hv ▸ h⟩
  have hstop : ∀ b : Board, b.Has .stop := fun b => nofun
  unfold rkipcAudioDeinit
  rw [inOrder_append_iff, and_iff_left (hdestroy _), inOrder_concat_iff, inOrder_append_iff,
    inOrder_cons_iff, and_iff_left inOrder_nil, and_iff_right (hstop b), hhas]
  -- the flags that are left from an earlier period count as well
  cases hflags : g.aed || g.bcd with
  | false => simp [Board.exec, hb.1]
  | true => simp [inOrder_cons_iff, hhas, Board.exec, hb.1, hb.2]

/-- What a period joins. -/
theorem inOrder_has_iff (hb : b.On false false) :
    InOrder Board.Has Board.exec b (p.commands g) ↔ p.Joins g := by
  have hnone : InOrder Board.Has Board.exec b (p.before.map .setType ++
      (rkipcAudioInit p.answers (p.opening g)).1 ++ p.encodeTypes.map .setType) := by
    refine inOrder_has_of_forall fun c hc => ?_
    rcases List.mem_append.mp hc with hc | hc
    · rcases List.mem_append.mp hc with hc | hc
      · exact ne_join_setType c hc
      · exact ne_join_rkipcAudioInit c hc
    · exact ne_join_setType c hc
  rw [Period.commands, inOrder_append_iff, and_iff_right hnone,
    inOrder_has_rkipcAudioDeinit (leads_opened p g b hb).2, detect_closing, Period.detects]
  constructor
  · rintro ⟨hdetect, haenc⟩
    refine ⟨haenc, ?_⟩
    cases hpub : p.answers.setPubAttr <;> cases hen : p.answers.enable <;>
      simp_all
  · rintro ⟨haenc, hdetect⟩
    refine ⟨fun hflags => ?_, haenc⟩
    rcases hdetect with ⟨hpub, hen⟩ | hoff
    · simpa [hpub, hen] using hflags
    · cases hpub : p.answers.setPubAttr <;> cases hen : p.answers.enable <;> simp_all

/-- **A period is in order** if and only if the threads have been created that are joined. -/
theorem inOrder_iff (hb : b.On false false) :
    InOrder Board.Allows Board.exec b (p.commands g) ↔ p.Joins g :=
  inOrder_and_iff.trans ((and_iff_right (p.leads g b hb).1).trans (inOrder_has_iff hb))

end

/-! ## The text of the type -/

section

variable {p : Period} {a : AudioAnswers} {g : Globals} {b : Board}

theorem ne_setType_rkipcAudioInit : ∀ c ∈ (rkipcAudioInit a g).1, ∀ t, c ≠ .setType t := by
  unfold rkipcAudioInit rkipcAiInit rkipcAencInit registerAencMp3
  intro c hc t
  split_ifs at hc <;> simp at hc <;> grind

theorem ne_setType_rkipcAudioDeinit : ∀ c ∈ (rkipcAudioDeinit a g).1, ∀ t, c ≠ .setType t := by
  intro c hc t
  unfold rkipcAudioDeinit at hc
  rcases List.mem_append.mp hc with hc | hc
  · split_ifs at hc <;> simp at hc <;> grind
  · obtain ⟨r, rfl⟩ := exists_destroy hc
    nofun

/-- The type is set before `rkipc_audio_init` only. -/
theorem inOrder_spares (hb : b.on .saveAenc = false) (htypes : p.encodeTypes = []) :
    InOrder Board.Spares Board.exec b (p.commands g) := by
  have hnone : ∀ {cs : List Command} {b : Board}, (∀ c ∈ cs, ∀ t, c ≠ .setType t) →
      InOrder Board.Spares Board.exec b cs := fun h =>
    inOrder_of_forall fun c hc _ t ht => absurd ht (h c hc t)
  have hbefore : Leads Board.Spares Board.exec (fun b => b.on .saveAenc = false)
      (p.before.map .setType) fun b => b.on .saveAenc = false := by
    refine .of_forall fun c hc b hb => ⟨fun _ _ => hb, ?_⟩
    obtain ⟨t, -, rfl⟩ := List.mem_map.mp hc
    exact hb
  rw [Period.commands, htypes, List.map_nil, List.append_nil]
  exact inOrder_append_iff.mpr ⟨inOrder_append_iff.mpr
    ⟨(hbefore b hb).1, hnone ne_setType_rkipcAudioInit⟩, hnone ne_setType_rkipcAudioDeinit⟩

/-- **Restarts are safe** if the threads have been created that are joined, and no client sets the
type between `rkipc_audio_init` and `rkipc_audio_deinit`. -/
theorem inOrder_safe {ps : List Period} (hjoins : InOrder (fun g p => p.Joins g) after g ps)
    (htypes : ∀ p ∈ ps, p.encodeTypes = []) (hb : b.On false false) :
    InOrder Board.Safe Board.exec b (commands ps g) := by
  induction ps generalizing g b with
  | nil => exact inOrder_nil
  | cons p ps ih =>
    obtain ⟨hp, hps⟩ := hjoins
    obtain ⟨htype, htypes⟩ := List.forall_mem_cons.mp htypes
    have hfirst : InOrder Board.Safe Board.exec b (p.commands g) :=
      inOrder_and_iff.mpr ⟨(inOrder_iff hb).mpr hp, inOrder_spares hb.1 htype⟩
    exact inOrder_append_iff.mpr ⟨hfirst, ih hps htypes (p.leads g b hb).2.1⟩

end

/-! ## What is left behind -/

/-- **Nothing is there.** -/
structure Board.Bare (b : Board) : Prop where
  alive : ∀ r, b.alive r = false
  on : b.On false false

/-- **A period releases** what it creates: the threads that are joined have been created, the
library disables and destroys what it has created, and an encoder for MP3 that has been registered
is still the type in the end. -/
structure Period.Releases (p : Period) (g : Globals) : Prop where
  joins : p.Joins g
  ai : p.answers.setPubAttr = true → p.answers.enable = true →
    p.answers.disableChn = true ∧ p.answers.disable = true
  aenc : p.answers.destroyChn = true
  mp3 : isMp3 (p.opening g).encodeType = true → p.answers.registerEncoder = true →
    isMp3 (p.closing g).encodeType = true ∧ p.answers.unRegisterEncoder = true

section

variable {p : Period} {a : AudioAnswers} {g : Globals} {b : Board}

theorem alive_rkipcAiInit (r : Resource) : ((rkipcAiInit a g).1.foldl Board.exec b).alive r =
    match r with
    | .dev => b.alive .dev || (a.setPubAttr && a.enable)
    | .chn => b.alive .chn || (a.setPubAttr && a.enable && a.enableChn)
    | r => b.alive r := by
  unfold rkipcAiInit
  cases a.setPubAttr <;> cases a.enable <;> cases a.aed || a.bcd <;> cases a.enableChn <;>
    cases r <;> simp [Board.exec]

theorem alive_rkipcAencInit (r : Resource) : ((rkipcAencInit a g).1.foldl Board.exec b).alive r =
    match r with
    | .aenc => b.alive .aenc || a.createChn
    | .mp3 => b.alive .mp3 || (isMp3 g.encodeType && a.registerEncoder)
    | r => b.alive r := by
  unfold rkipcAencInit registerAencMp3
  cases isMp3 g.encodeType <;> cases a.registerEncoder <;> cases a.createChn <;> cases r <;>
    simp [Board.exec]

theorem alive_rkipcAudioDeinit (r : Resource) :
    ((rkipcAudioDeinit a g).1.foldl Board.exec b).alive r =
      match r with
      | .dev => b.alive .dev && !(a.disableChn && a.disable)
      | .chn => b.alive .chn && !a.disableChn
      | .aenc => b.alive .aenc && !a.destroyChn
      | .mp3 => b.alive .mp3 && !(isMp3 g.encodeType && g.handle && a.unRegisterEncoder) := by
  have hjoins : ((([.stop] ++ (if g.aed || g.bcd then [.join .detect] else []) ++
      [.join .saveAenc] : List Command)).foldl Board.exec b).alive = b.alive := by
    split <;> rfl
  unfold rkipcAudioDeinit
  rw [List.foldl_append]
  -- the joins leave what is created
  generalize hb : (([.stop] ++ (if g.aed || g.bcd then [.join .detect] else []) ++
    [.join .saveAenc] : List Command)).foldl Board.exec b = b' at hjoins ⊢
  rw [← hjoins]
  unfold rkipcAencDeinit rkipcAiDeinit unregisterAencMp3
  cases a.destroyChn <;> cases a.disableChn <;> cases a.disable <;> cases isMp3 g.encodeType <;>
    cases g.handle <;> cases a.unRegisterEncoder <;> cases r <;> simp [Board.exec]

theorem encodeType_rkipcAiInit (a : AudioAnswers) (g : Globals) :
    (rkipcAiInit a g).2.encodeType = g.encodeType := by
  unfold rkipcAiInit
  split_ifs <;> rfl

/-- Whether an encoder for MP3 is registered after `rkipc_audio_init`. -/
theorem handle_closing (hhandle : g.handle = false) : (p.closing g).handle =
    (isMp3 (p.opening g).encodeType && p.answers.registerEncoder) := by
  have hkeep : (rkipcAiInit p.answers (p.opening g)).2.handle = g.handle := by
    unfold rkipcAiInit
    split_ifs <;> rfl
  rw [Period.closing, Globals.setTypes]
  simp only [rkipcAudioInit, rkipcAencInit, registerAencMp3, encodeType_rkipcAiInit]
  cases isMp3 (p.opening g).encodeType <;> cases p.answers.registerEncoder <;>
    simp [hkeep, hhandle]

/-- **What is left of a period.** -/
theorem alive_commands (hb : ∀ r, b.alive r = false) (hhandle : g.handle = false) (r : Resource) :
    ((p.commands g).foldl Board.exec b).alive r =
      match r with
      | .dev => p.answers.setPubAttr && p.answers.enable &&
          !(p.answers.disableChn && p.answers.disable)
      | .chn => p.answers.setPubAttr && p.answers.enable && p.answers.enableChn &&
          !p.answers.disableChn
      | .aenc => p.answers.createChn && !p.answers.destroyChn
      | .mp3 => isMp3 (p.opening g).encodeType && p.answers.registerEncoder &&
          !(isMp3 (p.closing g).encodeType && p.answers.unRegisterEncoder) := by
  rw [Period.commands, rkipcAudioInit, List.foldl_append, List.foldl_append, List.foldl_append,
    List.foldl_append, alive_rkipcAudioDeinit, foldl_setType, foldl_setType]
  simp only [alive_rkipcAencInit, alive_rkipcAiInit, encodeType_rkipcAiInit, handle_closing hhandle]
  cases r with
  | mp3 =>
    simp only [hb, Bool.false_or]
    cases isMp3 (p.opening g).encodeType <;> cases p.answers.registerEncoder <;> simp
  | _ => simp only [hb, Bool.false_or]

/-- A period releases if and only if it is in order and nothing is left. -/
theorem bare_iff (hb : b.Bare) (hhandle : g.handle = false) :
    InOrder Board.Allows Board.exec b (p.commands g) ∧
        ((p.commands g).foldl Board.exec b).Bare ↔ p.Releases g := by
  have hbare : ((p.commands g).foldl Board.exec b).Bare ↔
      ((p.commands g).foldl Board.exec b).alive .dev = false ∧
        ((p.commands g).foldl Board.exec b).alive .chn = false ∧
        ((p.commands g).foldl Board.exec b).alive .aenc = false ∧
        ((p.commands g).foldl Board.exec b).alive .mp3 = false := by
    refine ⟨fun h => ⟨h.alive _, h.alive _, h.alive _, h.alive _⟩, fun h => ⟨fun r => ?_, ?_⟩⟩
    · cases r with
      | dev => exact h.1
      | chn => exact h.2.1
      | aenc => exact h.2.2.1
      | mp3 => exact h.2.2.2
    · exact (p.leads g b hb.on).2.1
  rw [inOrder_iff hb.on, hbare]
  simp only [alive_commands hb.alive hhandle]
  constructor
  · rintro ⟨hjoins, hdev, -, haenc, hmp3⟩
    have hcreate := hjoins.saveAenc
    exact ⟨hjoins, by grind, by grind, by grind⟩
  · rintro ⟨hjoins, hai, haenc, hmp3⟩
    exact ⟨hjoins, by grind, by grind, by grind, by grind⟩

/-- An encoder that has been unregistered is no handle any more. -/
theorem Period.Releases.handle_after (h : p.Releases g) (hhandle : g.handle = false) :
    (after g p).handle = false := by
  have hclosing := handle_closing (p := p) hhandle
  unfold after rkipcAudioDeinit unregisterAencMp3
  cases hmp3 : (p.closing g).handle with
  | false => split <;> simp [hmp3]
  | true =>
    rw [hmp3, eq_comm, Bool.and_eq_true] at hclosing
    obtain ⟨htype, hunregister⟩ := h.mp3 hclosing.1 hclosing.2
    simp [htype, hunregister]

end

/-- **Restarts are in order and leave nothing behind** if and only if each of them releases what it
creates. -/
theorem releases_iff {ps : List Period} {g : Globals} (hhandle : g.handle = false) :
    (InOrder Board.Allows Board.exec .start (commands ps g) ∧
        ∀ n, ((commands (ps.take n) g).foldl Board.exec .start).Bare) ↔
      InOrder (fun g p => p.Releases g) after g ps := by
  have hfrom : ∀ b : Board, b.Bare → ((InOrder Board.Allows Board.exec b (commands ps g) ∧
      ∀ n, ((commands (ps.take n) g).foldl Board.exec b).Bare) ↔
        InOrder (fun g p => p.Releases g) after g ps) := by
    intro b hb
    -- each period begins with nothing there, and without a handle
    induction ps generalizing g b with
    | nil => exact iff_of_true ⟨trivial, fun n => by rw [List.take_nil]; exact hb⟩ trivial
    | cons p ps ih =>
      have hnext : ∀ n, (commands ((p :: ps).take (n + 1)) g).foldl Board.exec b =
          (commands (ps.take n) (after g p)).foldl Board.exec
            ((p.commands g).foldl Board.exec b) := by
        intro n
        rw [List.take_succ_cons, commands, List.foldl_append]
      rw [inOrder_cons_iff, ← bare_iff hb hhandle, commands, inOrder_append_iff]
      constructor
      · rintro ⟨⟨horder, horders⟩, h⟩
        have hfirst : ((p.commands g).foldl Board.exec b).Bare := hnext 0 ▸ h 1
        have hreleases := (bare_iff hb hhandle).mp ⟨horder, hfirst⟩
        exact ⟨⟨horder, hfirst⟩, (ih (hreleases.handle_after hhandle) _ hfirst).mp
          ⟨horders, fun n => hnext n ▸ h (n + 1)⟩⟩
      · rintro ⟨hfirst, hrest⟩
        have hreleases := (bare_iff hb hhandle).mp hfirst
        obtain ⟨horders, hbares⟩ := (ih (hreleases.handle_after hhandle) _ hfirst.2).mpr hrest
        refine ⟨⟨hfirst.1, horders⟩, fun n => ?_⟩
        cases n with
        | zero => exact hb
        | succ n =>
          rw [hnext]
          exact hbares n
  exact hfrom _ ⟨fun _ => rfl, rfl, rfl⟩

/-- Everything comes about. -/
def allAnswers : AudioAnswers :=
  ⟨true, true, true, false, true, true, true, true, true, true, true⟩

/-- Where the type is no longer MP3, the encoder for MP3 stays behind. -/
theorem releases_iff_mp3 :
    (InOrder Board.Allows Board.exec .start
        (commands [⟨allAnswers, [], []⟩, ⟨allAnswers, [lit "G711A"], []⟩]
          ⟨lit "MP3", false, false, false⟩) ∧
      ∀ n, ((commands ([⟨allAnswers, [], []⟩, ⟨allAnswers, [lit "G711A"], []⟩].take n)
        ⟨lit "MP3", false, false, false⟩).foldl Board.exec .start).Bare) ∧
    ¬ (InOrder Board.Allows Board.exec .start
        (commands [⟨allAnswers, [], [lit "G711A"]⟩] ⟨lit "MP3", false, false, false⟩) ∧
      ∀ n, ((commands ([⟨allAnswers, [], [lit "G711A"]⟩].take n)
        ⟨lit "MP3", false, false, false⟩).foldl Board.exec .start).Bare) := by
  refine ⟨(releases_iff rfl).mpr ⟨⟨⟨?_, ?_⟩, ?_, ?_, ?_⟩, ⟨⟨?_, ?_⟩, ?_, ?_, ?_⟩, trivial⟩,
    fun h => ?_⟩
  · decide
  · decide
  · decide
  · decide
  · decide
  · decide
  · decide
  · decide
  · decide
  · decide
  · have hmp3 := ((releases_iff rfl).mp h).1.mp3 (by decide) rfl
    exact absurd hmp3.1 (by decide)

end RkIpc.Audio
