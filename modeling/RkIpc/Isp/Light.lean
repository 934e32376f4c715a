import RkIpc.Param.Store
import RkIpc.Transition.Since

/-!
# The fill light

The fill light hangs on a PWM, which is reached through files of sysfs.
`rk_isp_set_light_brightness` keeps the level of the last call in `light_level`, and has nothing to
do for the same level; `rk_isp_set_night_to_day` turns the light off for the day, and leaves
`light_level` as it is.

## Main definitions

* `Pwm`, `rkPwmInit`, `rkPwmDeinit`, `rkPwmSetEnable`: the PWM, and the functions that set it up
* `Light`, `rkIspSetLightBrightness`, `rkIspSetNightToDay`: the variables, and the two functions
* `LightOp`, `SetsUp`, `Enables`, `Releases`: what was done to the PWM, and what came of it
* `Light.Lit`: the light is on at a level
* `Honoured`, `AsksAfterSetUp`: calls that return 0 leave the light on; calls for the level of the
  last one are made when the PWM has been set up and enabled, and not been released since

## Main results

* `Light.Keeps`: the variables follow from what was done to the PWM
* `calls_honoured_iff`: calls are honoured if and only if they ask after the PWM was set up
* `day_forgotten`: after the day the level of the night is not set again
-/

namespace RkIpc.Isp

open Text Param Transition

/-! ## The PWM -/

/-- What comes out of writing a text to a file of sysfs; the error codes are negative. -/
inductive Sysfs
  | done
  /-- the text was written, and closing or reading back the file fails -/
  | unread (err : ℕ)
  | fails (err : ℕ)
deriving DecidableEq, Repr

/-- `write_sysfs_int`, `write_sysfs_int_and_verify` and `write_sysfs_string_and_verify` return what
`fprintf` returned, which is the number of characters of the text. -/
def Sysfs.ret (o : Sysfs) (text : Str) : ℤ :=
  match o with
  | .done => text.length
  | .unread err | .fails err => -(err + 1)

/-- The file holds the text. -/
def Sysfs.written : Sysfs → Bool
  | .done | .unread _ => true
  | .fails _ => false

/-- **A PWM**: its duty cycle, if it has been set since the PWM was released, and whether it is
enabled. -/
structure Pwm where
  duty : Option UInt32
  enabled : Bool
deriving DecidableEq, Repr

/-- What comes out of the accesses of one call; `present` is whether `access` finds the PWM. -/
structure PwmIo where
  present : Bool
  exporting : Sysfs
  period : Sysfs
  duty : Sysfs
  polarity : Sysfs
  unexporting : Sysfs
  enable : Sysfs
deriving DecidableEq, Repr

/-- Everything goes well. -/
def PwmIo.good : PwmIo := ⟨false, .done, .done, .done, .done, .done, .done⟩

/-- `rk_pwm_export`. -/
def rkPwmExport (io : PwmIo) : ℤ := if io.present then 0 else io.exporting.ret (lit "0")

/-- `rk_pwm_unexport`, after which the PWM is off. -/
def rkPwmUnexport (io : PwmIo) (w : Pwm) : ℤ × Pwm :=
  (io.unexporting.ret (lit "0"), if io.unexporting.written then ⟨none, false⟩ else w)

/-- **`rk_pwm_init`**, with the polarity `PWM_POLARITY_NORMAL`. -/
def rkPwmInit (io : PwmIo) (period duty : UInt32) (w : Pwm) : ℤ × Pwm :=
  let ret := rkPwmExport io
  if ret < 0 then (ret, w)
  else
    let ret := io.period.ret (decimal period.toInt32.toInt)
    if ret < 0 then (ret, (rkPwmUnexport io w).2)
    else
      let ret := io.duty.ret (decimal duty.toInt32.toInt)
      let w := if io.duty.written then { w with duty := some duty } else w
      if ret < 0 then (ret, (rkPwmUnexport io w).2)
      else
        let ret := io.polarity.ret (lit "normal")
        if ret < 0 then (ret, (rkPwmUnexport io w).2) else (0, w)

/-- `rk_pwm_deinit`. -/
def rkPwmDeinit (io : PwmIo) (w : Pwm) : ℤ × Pwm :=
  let (ret, w) := rkPwmUnexport io w
  (if ret < 0 then ret else 0, w)

/-- `rk_pwm_set_enable` with `true`; the PWM is on once the text is written, also when it cannot be
read back. -/
def rkPwmSetEnable (io : PwmIo) (w : Pwm) : ℤ × Pwm :=
  (io.enable.ret (lit "1"), if io.enable.written then { w with enabled := true } else w)

/-! ## What was done to the PWM -/

/-- The PWM is there when the period is to be set. -/
def PwmIo.Exported (io : PwmIo) : Prop := io.present = true ∨ io.exporting = .done

/-- Every access of `rk_pwm_init` goes well. -/
def PwmIo.GetsThrough (io : PwmIo) : Prop :=
  io.Exported ∧ io.period = .done ∧ io.duty = .done ∧ io.polarity = .done

/-- A call of `rk_isp_set_light_strength` or `rk_isp_close_light`, with its accesses. -/
inductive LightOp
  | strength (io : PwmIo)
  | close (io : PwmIo)
deriving DecidableEq, Repr

/-- It got through `rk_pwm_init`. -/
def SetsUp : LightOp → Prop
  | .strength io => io.GetsThrough
  | .close _ => False

/-- It wrote to `enable`. -/
def Enables : LightOp → Prop
  | .strength io => io.GetsThrough ∧ io.enable.written = true
  | .close _ => False

/-- It wrote to `unexport`. -/
def Releases : LightOp → Prop
  | .strength io => io.Exported ∧ ¬ io.GetsThrough ∧ io.unexporting.written = true
  | .close io => io.unexporting.written = true

/-! ## The light -/

/-- **The variables of the light**: `light_level`, `light_state`, `current_scenario_id`, the
parameters, and the PWM of number 3. What was done to the PWM is noted, the latest first. -/
structure Light where
  level : Int32
  state : ℤ
  currentScenarioId : ℤ
  store : Store
  pwm : Pwm
  done : List LightOp

/-- The variables at the start of the program. -/
def Light.start (p : Store) : Light := ⟨-1, -1, 0, p, ⟨none, false⟩, []⟩

/-- `MAX_SCENARIO_NUM`. -/
def maxScenarioNum : ℤ := 2

/-- `rkipc_get_scenario_id`. -/
def rkipcGetScenarioId (s : Light) (camId : Int32) : ℤ :=
  camId.toInt * maxScenarioNum + s.currentScenarioId

/-- `snprintf(entry, 127, "isp.%d.night_to_day:…", id)`. -/
def nightToDayEntry (id : ℤ) (name : String) : Str :=
  lit "isp." ++ decimal id ++ lit ".night_to_day:" ++ lit name

/-- **`rk_isp_set_light_strength`**. -/
def rkIspSetLightStrength (io : PwmIo) (period duty : UInt32) (s : Light) : ℤ × Light :=
  let (ret, w) := rkPwmInit io period duty s.pwm
  let s := { s with done := .strength io :: s.done }
  if ret ≠ 0 then (ret, { s with state := 0, pwm := w })
  else
    let (ret, w) := rkPwmSetEnable io w
    (ret, { s with state := 1, pwm := w })

/-- `rk_isp_close_light`. -/
def rkIspCloseLight (io : PwmIo) (s : Light) : ℤ × Light :=
  let (ret, w) := rkPwmDeinit io s.pwm
  (ret, { s with state := 0, pwm := w, done := .close io :: s.done })

/-- **`rk_isp_set_light_brightness`**; `ready` is whether `RK_ISP_CHECK_CAMERA_ID` lets a camera
pass. There is no result when the value does not fit the buffer of `rk_param_set_int`. -/
def rkIspSetLightBrightness (ready : Int32 → Bool) (io : PwmIo) (camId value : Int32) (s : Light) :
    Option (ℤ × Light) :=
  if s.level = value then some (0, s)
  else if !ready camId then some (-1, s)
  else
    let (ret, s) := rkIspSetLightStrength io 100 value.toUInt32 s
    let entry := nightToDayEntry (rkipcGetScenarioId s camId) "light_brightness"
    (rkParamSetInt s.store entry value.toInt).map fun p =>
      (ret, { s with store := p, level := value })

/-- **`rk_isp_set_night_to_day`**. What it returns is not initialised unless the camera is not
ready. -/
def rkIspSetNightToDay (ready : Int32 → Bool) (io : PwmIo) (camId : Int32) (value : Str)
    (s : Light) : Option Light :=
  if !ready camId then some s
  else
    let s := if value = lit "night" then s
      else if s.state = 1 then (rkIspCloseLight io s).2 else s
    let entry := nightToDayEntry (rkipcGetScenarioId s camId) "night_to_day"
    (rkParamSetString s.store entry (some value)).map fun p => { s with store := p }

/-- A call of one of the two functions. -/
inductive LightCall
  | setLightBrightness (io : PwmIo) (camId value : Int32)
  | setNightToDay (io : PwmIo) (camId : Int32) (value : Str)

/-- What a call returns, if it is `rk_isp_set_light_brightness`, and what it leaves. -/
def LightCall.result (ready : Int32 → Bool) (s : Light) : LightCall → Option (Option ℤ × Light)
  | .setLightBrightness io camId value =>
    (rkIspSetLightBrightness ready io camId value s).map fun r => (some r.1, r.2)
  | .setNightToDay io camId value =>
    (rkIspSetNightToDay ready io camId value s).map fun s => (none, s)

/-- The light is on, and the PWM was set up with the level. -/
structure Light.Lit (s : Light) (value : Int32) : Prop where
  duty : s.pwm.duty = some value.toUInt32
  enabled : s.pwm.enabled = true
  state : s.state = 1

/-- **Every call of `rk_isp_set_light_brightness` that returns 0** leaves the light on at its
level. -/
def Honoured (ready : Int32 → Bool) : Light → List LightCall → Prop
  | _, [] => True
  | s, c :: calls => ∀ r t, c.result ready s = some (r, t) →
      (∀ io camId value, c = .setLightBrightness io camId value → r = some 0 → t.Lit value) ∧
        Honoured ready t calls

/-- **The PWM is set up and on**: the latest of the calls got through `rk_pwm_init`, and `enable`
was written to since the PWM was last released. -/
structure SetUp (done : List LightOp) : Prop where
  latest : Since SetsUp (fun o => ¬ SetsUp o) done
  enabled : Since Enables Releases done

/-- **Calls for the level in `light_level`** are made when the PWM is set up and on. -/
def AsksAfterSetUp (ready : Int32 → Bool) : Light → List LightCall → Prop
  | _, [] => True
  | s, c :: calls =>
    (∀ io camId, c = .setLightBrightness io camId s.level → SetUp s.done) ∧
      ∀ r t, c.result ready s = some (r, t) → AsksAfterSetUp ready t calls

/-! ## What the functions do -/

/-- A write returns the length of its text, so not 0. -/
theorem Sysfs.ret_ne_zero (o : Sysfs) {text : Str} (htext : text ≠ []) : o.ret text ≠ 0 := by
  cases o with
  | done =>
    have h := List.length_pos_of_ne_nil htext
    simp only [Sysfs.ret]
    omega
  | unread err | fails err =>
    simp only [Sysfs.ret]
    omega

/-- A write fails if and only if what it returns is negative. -/
theorem Sysfs.ret_neg_iff (o : Sysfs) (text : Str) : o.ret text < 0 ↔ o ≠ .done := by
  cases o with
  | done => simp [Sysfs.ret]
  | unread err | fails err =>
    refine iff_of_true ?_ nofun
    simp only [Sysfs.ret]
    omega

theorem rkPwmExport_neg_iff (io : PwmIo) : rkPwmExport io < 0 ↔ ¬ io.Exported := by
  unfold rkPwmExport PwmIo.Exported
  split_ifs with h
  · exact iff_of_false (lt_irrefl 0) (not_not.mpr (Or.inl h))
  · rw [Sysfs.ret_neg_iff, or_iff_right h]

/-- **`rk_pwm_init`** gets through, or it releases the PWM, or leaves it on. -/
theorem rkPwmInit_cases (io : PwmIo) (period duty : UInt32) (w : Pwm) :
    (io.GetsThrough ∧ rkPwmInit io period duty w = (0, { w with duty := some duty })) ∨
      (¬ io.GetsThrough ∧ (rkPwmInit io period duty w).1 < 0 ∧
        ((rkPwmInit io period duty w).2.enabled = true ↔
          w.enabled = true ∧ ¬ Releases (.strength io))) := by
  -- after a failure the PWM is released if `unexport` can be written
  have hunexport : ∀ v : Pwm, v.enabled = w.enabled → io.Exported → ¬ io.GetsThrough →
      ((rkPwmUnexport io v).2.enabled = true ↔
        w.enabled = true ∧ ¬ Releases (.strength io)) := by
    intro v hv hexport hfails
    unfold rkPwmUnexport Releases
    split_ifs with h
    · simp [hexport, hfails, h]
    · simp [hv, h]
  unfold rkPwmInit
  dsimp only
  by_cases hexport : io.Exported
  · rw [if_neg fun h => (rkPwmExport_neg_iff io).mp h hexport]
    by_cases hperiod : io.period = .done
    · rw [if_neg fun h => (Sysfs.ret_neg_iff ..).mp h hperiod]
      by_cases hduty : io.duty = .done
      · rw [if_neg fun h => (Sysfs.ret_neg_iff ..).mp h hduty, hduty]
        by_cases hpolarity : io.polarity = .done
        · rw [if_neg fun h => (Sysfs.ret_neg_iff ..).mp h hpolarity]
          exact Or.inl ⟨⟨hexport, hperiod, hduty, hpolarity⟩, rfl⟩
        · have hneg := (io.polarity.ret_neg_iff (lit "normal")).mpr hpolarity
          have hfails : ¬ io.GetsThrough := fun h => hpolarity h.2.2.2
          rw [if_pos hneg]
          exact Or.inr ⟨hfails, hneg, hunexport _ rfl hexport hfails⟩
      · have hneg := (io.duty.ret_neg_iff (decimal duty.toInt32.toInt)).mpr hduty
        have hfails : ¬ io.GetsThrough := fun h => hduty h.2.2.1
        rw [if_pos hneg]
        refine Or.inr ⟨hfails, hneg, hunexport _ ?_ hexport hfails⟩
        split_ifs <;> rfl
    · have hneg := (io.period.ret_neg_iff (decimal period.toInt32.toInt)).mpr hperiod
      have hfails : ¬ io.GetsThrough := fun h => hperiod h.2.1
      rw [if_pos hneg]
      exact Or.inr ⟨hfails, hneg, hunexport w rfl hexport hfails⟩
  · have hneg := (rkPwmExport_neg_iff io).mpr hexport
    rw [if_pos hneg]
    exact Or.inr ⟨fun h => hexport h.1, hneg, (and_iff_left fun h => hexport h.1).symm⟩

/-- **The variables follow from what was done to the PWM**: `light_state`, whether the PWM is on,
and its duty cycle, which is the level in `light_level` while the light is on. -/
structure Light.Keeps (s : Light) : Prop where
  state : s.state = 1 ↔ Since SetsUp (fun o => ¬ SetsUp o) s.done
  enabled : s.pwm.enabled = true ↔ Since Enables Releases s.done
  duty : s.state = 1 → s.pwm.duty = some s.level.toUInt32

theorem Light.keeps_start (p : Store) : (Light.start p).Keeps where
  state := iff_of_false nofun not_since_nil
  enabled := iff_of_false Bool.false_ne_true not_since_nil
  duty := nofun

variable {ready : Int32 → Bool} {s t : Light}

/-- What is stored does not matter to the light. -/
theorem Light.Keeps.setStore (hs : s.Keeps) (p : Store) : ({ s with store := p } : Light).Keeps :=
  { hs with }

/-- The light is on at its level if and only if the PWM is set up and on. -/
theorem Light.Keeps.lit_iff (hs : s.Keeps) : s.Lit s.level ↔ SetUp s.done := by
  constructor
  · exact fun h => ⟨hs.state.mp h.state, hs.enabled.mp h.enabled⟩
  · intro h
    have hstate := hs.state.mpr h.latest
    exact ⟨hs.duty hstate, hs.enabled.mpr h.enabled, hstate⟩

/-- **`rk_isp_set_light_strength`** sets the level, and never returns 0: when the PWM is enabled it
returns 1. -/
theorem rkIspSetLightStrength_keeps (hs : s.Keeps) (io : PwmIo) (period : UInt32) (value : Int32) :
    ({ (rkIspSetLightStrength io period value.toUInt32 s).2 with level := value } : Light).Keeps ∧
      (rkIspSetLightStrength io period value.toUInt32 s).1 ≠ 0 := by
  unfold rkIspSetLightStrength
  rcases rkPwmInit_cases io period value.toUInt32 s.pwm with
    ⟨hthrough, hinit⟩ | ⟨hfails, hneg, henabled⟩
  · -- set up; whether it is on depends on the write to `enable`
    rw [hinit]
    refine ⟨⟨iff_of_true rfl (since_cons_of_left hthrough), ?_, fun _ => ?_⟩,
      io.enable.ret_ne_zero (by decide)⟩
    · simp only [ne_eq, not_true_eq_false, if_false, rkPwmSetEnable]
      by_cases hwritten : io.enable.written = true
      · rw [if_pos hwritten]
        exact iff_of_true rfl (since_cons_of_left ⟨hthrough, hwritten⟩)
      · rw [if_neg hwritten, since_cons_of_not (fun h => hwritten h.2) fun h => h.2.1 hthrough]
        exact hs.enabled
    · simp only [ne_eq, not_true_eq_false, if_false, rkPwmSetEnable]
      split_ifs <;> rfl
  · -- the function returns before `rk_pwm_set_enable`
    dsimp only
    rw [if_pos (ne_of_lt hneg)]
    refine ⟨⟨iff_of_false nofun (not_since_cons hfails hfails), ?_, nofun⟩, ne_of_lt hneg⟩
    rw [since_cons_iff, or_iff_right (fun h => hfails h.1), ← hs.enabled, and_comm]
    exact henabled

/-- `rk_isp_close_light` turns the light off. -/
theorem rkIspCloseLight_keeps (hs : s.Keeps) (io : PwmIo) : (rkIspCloseLight io s).2.Keeps := by
  unfold rkIspCloseLight rkPwmDeinit rkPwmUnexport
  refine ⟨iff_of_false nofun (not_since_cons id id), ?_, nofun⟩
  rw [since_cons_iff, or_iff_right (show ¬ Enables (.close io) from id), ← hs.enabled]
  dsimp only [Releases]
  split_ifs with h
  · simp [h]
  · simp [h]

/-- A call that is carried out sets the level, and one that returns 0 is not. -/
theorem rkIspSetLightBrightness_keeps {io : PwmIo} {camId value : Int32} {ret : ℤ} (hs : s.Keeps)
    (h : rkIspSetLightBrightness ready io camId value s = some (ret, t)) :
    t.Keeps ∧ (ret = 0 → s.level = value ∧ t = s) := by
  unfold rkIspSetLightBrightness at h
  split_ifs at h with hlevel hready
  · -- the level is the one of the last call: nothing is done
    obtain ⟨rfl, rfl⟩ := Prod.mk.inj (Option.some.inj h)
    exact ⟨hs, fun _ => ⟨hlevel, rfl⟩⟩
  · obtain ⟨rfl, rfl⟩ := Prod.mk.inj (Option.some.inj h)
    exact ⟨hs, fun h => absurd h (by decide)⟩
  · obtain ⟨p, -, heq⟩ := Option.map_eq_some_iff.mp h
    obtain ⟨rfl, rfl⟩ := Prod.mk.inj heq
    obtain ⟨hkeeps, hne⟩ := rkIspSetLightStrength_keeps hs io 100 value
    exact ⟨hkeeps.setStore p, fun hret => absurd hret hne⟩

theorem rkIspSetNightToDay_keeps {io : PwmIo} {camId : Int32} {value : Str} (hs : s.Keeps)
    (h : rkIspSetNightToDay ready io camId value s = some t) : t.Keeps := by
  unfold rkIspSetNightToDay at h
  split_ifs at h
  · obtain rfl := Option.some.inj h
    exact hs
  · obtain ⟨p, -, rfl⟩ := Option.map_eq_some_iff.mp h
    exact hs.setStore p
  · obtain ⟨p, -, rfl⟩ := Option.map_eq_some_iff.mp h
    exact (rkIspCloseLight_keeps hs io).setStore p
  · obtain ⟨p, -, rfl⟩ := Option.map_eq_some_iff.mp h
    exact hs.setStore p

/-- **Every call** keeps what the variables follow from. -/
theorem LightCall.keeps {c : LightCall} {r : Option ℤ} (hs : s.Keeps)
    (h : c.result ready s = some (r, t)) : t.Keeps := by
  cases c with
  | setLightBrightness io camId value =>
    obtain ⟨⟨ret, t'⟩, hcall, heq⟩ := Option.map_eq_some_iff.mp h
    obtain ⟨-, rfl⟩ := Prod.mk.inj heq
    exact (rkIspSetLightBrightness_keeps hs hcall).1
  | setNightToDay io camId value =>
    obtain ⟨t', hcall, heq⟩ := Option.map_eq_some_iff.mp h
    obtain ⟨-, rfl⟩ := Prod.mk.inj heq
    exact rkIspSetNightToDay_keeps hs hcall

/-- **One call**: if it returns 0 the light is on at its level, if and only if the PWM is set up and
on in case it asks for the level in `light_level`. -/
theorem LightCall.lit_iff (hs : s.Keeps) (c : LightCall) :
    (∀ r t, c.result ready s = some (r, t) →
      ∀ io camId value, c = .setLightBrightness io camId value → r = some 0 → t.Lit value) ↔
    ∀ io camId, c = .setLightBrightness io camId s.level → SetUp s.done := by
  constructor
  · rintro h io camId rfl
    -- it returns at once
    have hcall : rkIspSetLightBrightness ready io camId s.level s = some (0, s) := if_pos rfl
    have hresult : LightCall.result ready s (.setLightBrightness io camId s.level) =
        some (some 0, s) := by
      rw [LightCall.result, hcall]
      rfl
    exact hs.lit_iff.mp (h (some 0) s hresult io camId s.level rfl rfl)
  · rintro h r t hresult io camId value rfl rfl
    obtain ⟨⟨ret, t'⟩, hcall, heq⟩ := Option.map_eq_some_iff.mp hresult
    obtain ⟨hret, rfl⟩ := Prod.mk.inj heq
    obtain ⟨rfl, rfl⟩ := (rkIspSetLightBrightness_keeps hs hcall).2 (Option.some.inj hret)
    exact hs.lit_iff.mpr (h io camId rfl)

/-- The calls of a sequence. -/
theorem Light.Keeps.honoured_iff (hs : s.Keeps) (calls : List LightCall) :
    Honoured ready s calls ↔ AsksAfterSetUp ready s calls := by
  induction calls generalizing s with
  | nil => exact Iff.rfl
  | cons c calls ih =>
    rw [Honoured, AsksAfterSetUp, ← @LightCall.lit_iff ready s hs c]
    constructor
    · exact fun h => ⟨fun r t hc => (h r t hc).1,
        fun r t hc => (ih (c.keeps hs hc)).mp (h r t hc).2⟩
    · exact fun h r t hc => ⟨h.1 r t hc, (ih (c.keeps hs hc)).mpr (h.2 r t hc)⟩

/-- **Calls that return 0 leave the light on at their level** if and only if calls for the level in
`light_level` are made when the PWM is set up and on. -/
theorem calls_honoured_iff (ready : Int32 → Bool) (p : Store) (calls : List LightCall) :
    Honoured ready (Light.start p) calls ↔ AsksAfterSetUp ready (Light.start p) calls :=
  (Light.keeps_start p).honoured_iff calls

/-- The light at 50 for the night, the day, and the light at 50 again. -/
def nightAfterDay : List LightCall :=
  [.setLightBrightness .good 0 50, .setNightToDay .good 0 (lit "day"),
    .setLightBrightness .good 0 50]

/-- **After the day the level of the night is not set again**: the call returns 0 and the light is
off. -/
theorem day_forgotten : ¬ Honoured (fun _ => true) (Light.start ⟨none, .null⟩) nightAfterDay := by
  intro h
  have hfirst := (h (some 1) _ rfl).2
  have hday := (hfirst none _ rfl).2
  have hlit := (hday (some 0) _ rfl).1 _ _ _ rfl rfl
  exact absurd hlit.state (by decide)

end RkIpc.Isp
