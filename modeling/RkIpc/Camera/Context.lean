import RkIpc.Imperative.Log
import RkIpc.Isp.SensorRate

/-!
# Camera contexts

`common/isp/rv1106/isp.c` keeps, for up to eight cameras, the context of the AIQ library, the
context of the camera group, and the working mode, each in an array. A request names a camera by a
number, and `RK_ISP_CHECK_CAMERA_ID` tests the number before anything else is done; it does not test
whether the number is negative.

## Main definitions

* `Access`: an index into one of the arrays, or a call of the AIQ library
* `Cameras`: the arrays, the other variables, and the accesses so far
* `checkCameraId`, `rkipcAiqGetCtx`, `aiq`: the statements that access them
* `At`: the arrays are indexed with one number only, or with 0
* `ChecksFirst`: a function that checks the number before anything else

## Main results

* `checkCameraId_refused`, `checkCameraId_passed`: what the check does
* `appends_checkCameraId`, `appends_aiq`, ...: what the statements access
-/

namespace RkIpc.Camera

open Imperative Text Param Video

/-- The three arrays. -/
inductive CtxArray
  | aiqCtx
  | cameraGroupCtx
  | wdrMode
deriving DecidableEq, Repr

/-- The functions of the AIQ library. -/
inductive AiqCall
  | aeGetExpSwAttr
  | aeSetExpSwAttr
  | aeGetLinExpAttr
  | aeSetLinExpAttr
  | acpGetAttrib
  | acpSetAttrib
  | asharpV33SetStrength
  | aieGetAttrib
  | aieSetAttrib
  | setDrcGain
  | awbGetWpModeAttrib
  | awbSetWpModeAttrib
  | awbGetMwbAttrib
  | awbSetMwbAttrib
  | adehazeV12GetSwAttrib
  | adehazeV12SetSwAttrib
  | acgcGetAttrib
  | acgcSetAttrib
  | aldchV21GetAttrib
  | aldchV21SetAttrib
  | aynrV22SetStrength
  | abayer2dnrV23GetStrength
  | abayertnrV23SetStrength
  | setMirrorFlip
  | setFocusMode
  | sysctlSwitchScene
  | sysctlEnumStaticMetasByPhyId
  | sysctlPreInitDevBufCnt
  | sysctlPreInitScene
  | sysctlInit
  | sysctlPrepare
  | sysctlStart
  | sysctlStop
  | sysctlDeinit
  | camgroupCreate
  | camgroupPrepare
  | camgroupStart
  | camgroupStop
  | camgroupDestroy
deriving DecidableEq, Repr

/-- An index into an array, or a call of the AIQ library. -/
inductive Access
  | index (a : CtxArray) (i : ℤ)
  | aiq (call : AiqCall)
deriving DecidableEq, Repr

/-- What a function of the AIQ library returns, and what a caller tests of what it has got: whether
a switch is on, or a pointer is not null. -/
structure AiqResult where
  ret : Int32
  flag : Bool

/-- **What is outside**: the AIQ library, what `rk_isp_set_light_strength` returns, and what is in a
variable that was not set. -/
structure Env where
  aiq : List Access → AiqCall → AiqResult
  setLightStrength : List Access → Int32
  unset : Int32

/-- **The variables of `isp.c`**: `rkipc_aiq_use_group`, which pointers of the two arrays of
contexts are not null, which cameras are not in the normal mode, `current_scenario_id` and
`light_level`; the parameters with the streams; and the accesses so far. What is beyond an array is
whatever the memory has there. -/
structure Cameras where
  useGroup : Bool
  aiqCtx : ℤ → Bool
  cameraGroupCtx : ℤ → Bool
  hdr : ℤ → Bool
  currentScenarioId : ℤ
  lightLevel : Int32
  encoder : Encoder
  log : List Access

/-- `MAX_AIQ_CTX`. -/
def maxAiqCtx : ℤ := 8

/-- The array of contexts in use. -/
def Cameras.ctxArray (s : Cameras) : CtxArray := if s.useGroup then .cameraGroupCtx else .aiqCtx

/-- Whether the context of a camera is there. -/
def Cameras.ctx (s : Cameras) (i : ℤ) : Bool :=
  if s.useGroup then s.cameraGroupCtx i else s.aiqCtx i

/-- **A camera that is initialised.** -/
def Cameras.Ready (s : Cameras) (camId : Int32) : Prop :=
  0 ≤ camId.toInt ∧ camId.toInt < maxAiqCtx ∧ s.ctx camId.toInt = true

instance (s : Cameras) (camId : Int32) : Decidable (s.Ready camId) :=
  inferInstanceAs (Decidable (_ ∧ _ ∧ _))

/-! ## Statements -/

section

variable {ρ : Type}

/-- An access is made. -/
def record (a : Access) : Program Cameras ρ Unit :=
  Program.modify fun s => { s with log := s.log ++ [a] }

/-- **`rkipc_aiq_get_ctx`**: whether there is a context. -/
def rkipcAiqGetCtx (camId : Int32) : Program Cameras ρ Bool := do
  let s ← Program.get
  record (.index s.ctxArray camId.toInt)
  pure (s.ctx camId.toInt)

/-- **`RK_ISP_CHECK_CAMERA_ID`**; the function returns `r` if the test fails. -/
def checkCameraId (r : ρ) (camId : Int32) : Program Cameras ρ Unit := do
  if maxAiqCtx ≤ camId.toInt then Program.exit r
  else
    let there ← rkipcAiqGetCtx camId
    if there then pure () else Program.exit r

/-- `g_WDRMode[cam_id] != RK_AIQ_WORKING_MODE_NORMAL`. -/
def notNormalMode (camId : Int32) : Program Cameras ρ Bool := do
  let s ← Program.get
  record (.index .wdrMode camId.toInt)
  pure (s.hdr camId.toInt)

/-- **`RK_ISP_CHECK_NORMAL_MODE`**; the function returns `r` if the test fails. -/
def checkNormalMode (r : ρ) (camId : Int32) : Program Cameras ρ Unit := do
  let hdr ← notNormalMode camId
  if hdr then Program.exit r else pure ()

/-- A function of the AIQ library without a context. -/
def aiqFree (env : Env) (call : AiqCall) : Program Cameras ρ AiqResult := do
  let s ← Program.get
  record (.aiq call)
  pure (env.aiq s.log call)

/-- **A function of the AIQ library** on the context of a camera. -/
def aiq (env : Env) (camId : Int32) (call : AiqCall) : Program Cameras ρ AiqResult := do
  let _ ← rkipcAiqGetCtx camId
  aiqFree env call

/-- `rk_param_get_int`. -/
def getInt (entry : Str) (default : ℤ) : Program Cameras ρ ℤ := do
  let s ← Program.get
  Program.ofOption (rkParamGetInt s.encoder.store entry default)

/-- `rk_param_get_string`. -/
def getString (entry : Str) (default : Option Str) : Program Cameras ρ (Option Str) := do
  let s ← Program.get
  Program.ofOption (rkParamGetString s.encoder.store entry default)

/-- The streams and the store are changed, if there is a result. -/
def setEncoder (f : Encoder → Option Encoder) : Program Cameras ρ Unit := do
  let s ← Program.get
  let e ← Program.ofOption (f s.encoder)
  Program.modify fun s => { s with encoder := e }

/-- `rk_param_set_int`. -/
def setInt (entry : Str) (value : ℤ) : Program Cameras ρ Unit :=
  setEncoder fun e => (rkParamSetInt e.store entry value).map fun store => { e with store }

/-- `rk_param_set_string`. -/
def setString (entry : Str) (value : Str) : Program Cameras ρ Unit :=
  setEncoder fun e =>
    (rkParamSetString e.store entry (some value)).map fun store => { e with store }

/-- `snprintf(entry, 127, "isp.%d…", rkipc_get_scenario_id(cam_id))`. -/
def scenarioEntry (camId : Int32) (name : String) : Program Cameras ρ Str := do
  let s ← Program.get
  pure (lit "isp." ++ decimal (camId.toInt * Isp.maxScenarioNum + s.currentScenarioId) ++ lit name)

end

/-! ## What the statements access -/

/-- **The arrays are indexed with one number only**, or with 0. -/
def At (camId : Int32) : Access → Prop
  | .index _ i => i = camId.toInt ∨ i = 0
  | .aiq _ => True

theorem at_zero {camId : Int32} : ∀ a, At 0 a → At camId a := by
  rintro (⟨a, i⟩ | call) h
  · exact .inr (h.elim id id)
  · trivial

section

variable {ρ : Type} {camId : Int32} {r : ρ}

/-- What a statement accesses. -/
abbrev Accesses (camId : Int32) {α : Type} (x : Program Cameras ρ α) : Prop :=
  Program.Appends Cameras.log (At camId) x

theorem accesses_record {a : Access} (h : At camId a) :
    Accesses camId (record a : Program Cameras ρ Unit) :=
  .append (fun _ => rfl) h

theorem accesses_rkipcAiqGetCtx : Accesses camId (rkipcAiqGetCtx camId : Program Cameras ρ Bool) :=
  .bind .get fun _ => .bind (accesses_record (.inl rfl)) fun _ => .pure _

theorem accesses_checkCameraId : Accesses camId (checkCameraId r camId) :=
  .ite (.exit r) (.bind accesses_rkipcAiqGetCtx fun _ => .ite (.pure _) (.exit r))

theorem accesses_notNormalMode : Accesses camId (notNormalMode camId : Program Cameras ρ Bool) :=
  .bind .get fun _ => .bind (accesses_record (.inl rfl)) fun _ => .pure _

theorem accesses_checkNormalMode : Accesses camId (checkNormalMode r camId) :=
  .bind accesses_notNormalMode fun _ => .ite (.exit r) (.pure _)

variable {env : Env} {call : AiqCall} {entry : Str}

theorem accesses_aiqFree : Accesses camId (aiqFree env call : Program Cameras ρ AiqResult) :=
  .bind .get fun _ => .bind (accesses_record trivial) fun _ => .pure _

theorem accesses_aiq : Accesses camId (aiq env camId call : Program Cameras ρ AiqResult) :=
  .bind accesses_rkipcAiqGetCtx fun _ => accesses_aiqFree

theorem accesses_getInt {default : ℤ} :
    Accesses camId (getInt entry default : Program Cameras ρ ℤ) :=
  .bind .get fun _ => .ofOption _

theorem accesses_getString {default : Option Str} :
    Accesses camId (getString entry default : Program Cameras ρ (Option Str)) :=
  .bind .get fun _ => .ofOption _

theorem accesses_setEncoder {f : Encoder → Option Encoder} :
    Accesses camId (setEncoder f : Program Cameras ρ Unit) :=
  .bind .get fun _ => .bind (.ofOption _) fun _ => .modify fun _ => rfl

theorem accesses_scenarioEntry {id : Int32} {name : String} :
    Accesses camId (scenarioEntry id name : Program Cameras ρ Str) :=
  .bind .get fun _ => .pure _

/-! ## The check -/

/-- A number that is too large, or a context that is not there: the function returns. The array was
indexed unless the number is too large. -/
theorem checkCameraId_refused {s : Cameras}
    (h : maxAiqCtx ≤ camId.toInt ∨ s.ctx camId.toInt = false) :
    ∃ new, checkCameraId r camId s = (.returned r, { s with log := s.log ++ new }) ∧
      ∀ a ∈ new, camId.toInt < maxAiqCtx ∧ a = .index s.ctxArray camId.toInt := by
  unfold checkCameraId
  by_cases hlarge : maxAiqCtx ≤ camId.toInt
  · refine ⟨[], ?_, nofun⟩
    rw [if_pos hlarge, List.append_nil]
    rfl
  · have hctx := h.resolve_left hlarge
    refine ⟨[.index s.ctxArray camId.toInt], ?_, fun a ha => ⟨by omega, List.mem_singleton.mp ha⟩⟩
    rw [if_neg hlarge]
    change (if s.ctx camId.toInt = true then pure () else Program.exit r : Program Cameras ρ Unit)
      { s with log := s.log ++ [.index s.ctxArray camId.toInt] } = _
    rw [hctx]
    rfl

/-- A context that is there: the function goes on. -/
theorem checkCameraId_passed {s : Cameras}
    (h : camId.toInt < maxAiqCtx ∧ s.ctx camId.toInt = true) :
    checkCameraId r camId s =
      (.value (), { s with log := s.log ++ [.index s.ctxArray camId.toInt] }) := by
  unfold checkCameraId
  rw [if_neg (by omega)]
  change (if s.ctx camId.toInt = true then pure () else Program.exit r : Program Cameras ρ Unit)
    { s with log := s.log ++ [.index s.ctxArray camId.toInt] } = _
  rw [if_pos h.2]
  rfl

/-- A number that is not too large is used as an index. -/
theorem checkCameraId_index {s : Cameras} (h : camId.toInt < maxAiqCtx) :
    .index s.ctxArray camId.toInt ∈ (checkCameraId r camId s).2.log := by
  unfold checkCameraId
  rw [if_neg (by omega)]
  change _ ∈ ((if s.ctx camId.toInt = true then pure () else Program.exit r :
    Program Cameras ρ Unit) { s with log := s.log ++ [.index s.ctxArray camId.toInt] }).2.log
  split <;> exact List.mem_append_right _ (List.mem_singleton_self _)

/-- **A function that checks the number first.** -/
structure ChecksFirst {α : Type} (r : ρ) (camId : Int32) (x : Program Cameras ρ α) : Prop where
  accesses : Accesses camId x
  refused : ∀ s : Cameras, maxAiqCtx ≤ camId.toInt ∨ s.ctx camId.toInt = false →
    ∃ new, x s = (.returned r, { s with log := s.log ++ new }) ∧
      ∀ a ∈ new, camId.toInt < maxAiqCtx ∧ a = .index s.ctxArray camId.toInt
  index : ∀ s : Cameras, camId.toInt < maxAiqCtx →
    .index s.ctxArray camId.toInt ∈ (x s).2.log

theorem ChecksFirst.bind {α : Type} {f : Unit → Program Cameras ρ α}
    (hf : ∀ u, Accesses camId (f u)) : ChecksFirst r camId (checkCameraId r camId >>= f) where
  accesses := .bind accesses_checkCameraId hf
  refused s h := by
    obtain ⟨new, hcheck, hnew⟩ := checkCameraId_refused (r := r) h
    exact ⟨new, by simp only [Bind.bind, hcheck], hnew⟩
  index s h := by
    have hmem := checkCameraId_index (r := r) (s := s) h
    simp only [Bind.bind]
    generalize checkCameraId r camId s = o at hmem ⊢
    rcases o with ⟨a | _ | _, t⟩
    · exact (hf a t).mem hmem
    · exact hmem
    · exact hmem

end

end RkIpc.Camera
