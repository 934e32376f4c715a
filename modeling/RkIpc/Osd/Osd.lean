import RkIpc.Imperative.Program
import RkIpc.Osd.Entry

/-!
# The on-screen display

The functions of `common/osd/osd.c` hold `g_osd_mutex` while they go through the entries and call
the callbacks of the platform. The date and the time are drawn by a thread, which creates a region
as soon as it runs.

## Main definitions

* `Event`, `World`: a callback, and the variables with the record of the callbacks
* `rkOsdInit`, `rkOsdDeinit`, `rkOsdRestart`, `rkOsdBmpChange`, `rkOsdPrivacyMaskRestart`: the
  functions
* `Call`, `Call.result`: a call, and what it leaves when it returns
-/

namespace RkIpc.Osd

open Text Param Imperative

/-- A callback. -/
inductive Event where
  | create (k : Kind) (id : ℤ) (data : OsdData)
  | destroy (k : Kind) (id : ℤ)
  | change (id : ℤ) (data : OsdData)

/-- **The variables of `osd.c`**: the parameters, the two rates, whether `g_osd_mutex` is held,
`g_osd_signal` is not null and `g_osd_server_run_` is set, whether the last time server has been
created and not run yet, how many such others there are, and the callbacks so far. -/
structure World where
  store : Store
  rates : Screen
  mutex : Bool
  signal : Bool
  serverRun : Bool
  starting : Bool
  older : ℕ
  log : List Event

variable {ρ : Type}

/-! ## Statements -/

/-- `pthread_mutex_lock(&g_osd_mutex)`. -/
def mutexLock : Program World ρ Unit := fun w =>
  if w.mutex then (.blocked, w) else (.value (), { w with mutex := true })

/-- `pthread_mutex_unlock(&g_osd_mutex)`. -/
def mutexUnlock : Program World ρ Unit := fun w => (.value (), { w with mutex := false })

/-- The parameters, which nobody changes during a call. -/
def readParams : Program World ρ Params := fun w => (.value (params w.store), w)

/-- The sizes are read, and the rates set. -/
def setRates : Program World ρ Screen := fun w =>
  (.value (screen (params w.store)), { w with rates := screen (params w.store) })

/-- A callback of the platform. -/
def callback (ev : Event) : Program World ρ Unit := fun w =>
  (.value (), { w with log := w.log ++ [ev] })

/-- **The time server begins**: it takes the last entry of the type, and creates its region. -/
def World.serveTime (e : Env) (now : Str → List UInt32) (w : World) : World :=
  let q := params w.store
  { w with log := w.log ++ [.create .bmp (osdTimeId q) (timeData e q w.rates (osdTimeId q) now)] }

/-- The branch for `dateTime` in `rk_osd_init`; `ok` is whether `rk_signal_create` succeeds. -/
def startTimeServer (ok : Bool) : Program World ℤ Unit := fun w =>
  let w := { w with
    serverRun := true
    starting := true
    older := if w.starting then w.older + 1 else w.older
    signal := ok }
  if ok then (.value (), w) else (.returned (-1), w)

/-- `g_osd_server_run_ = 0`, and the thread is joined if there is a signal. -/
def stopTimeServer (e : Env) (now : Str → List UInt32) : Program World ρ Unit := fun w =>
  let w := { w with serverRun := false }
  (.value (), if w.signal then
    { (if w.starting then w.serveTime e now else w) with starting := false, signal := false }
    else w)

/-! ## Loops -/

/-- What is shown for one entry. -/
def createEntry (signals : ℤ → Bool) (id : ℤ) (data : OsdData) :
    Option Shown → Program World ℤ Unit
  | none => pure ()
  | some (.region k) => callback (.create k id data)
  | some .time => startTimeServer (signals id)

/-- The loop over the entries, with `osd_data`; `signals` says for which entries
`rk_signal_create` succeeds. -/
def createLoop (entry : ℤ → OsdData → OsdData × Option Shown) (signals : ℤ → Bool) :
    List ℤ → OsdData → Program World ℤ Unit
  | [], _ => pure ()
  | id :: ids, data => do
    let r := entry id data
    createEntry signals id r.1 r.2
    createLoop entry signals ids r.1

/-- What is destroyed for one entry. -/
def destroyEntry (id : ℤ) : Option Kind → Program World ℤ Unit
  | none => pure ()
  | some k => callback (.destroy k id)

/-- The loop that destroys, with the callback of every entry. -/
def destroyLoop (kind : ℤ → Option Kind) : List ℤ → Program World ℤ Unit
  | [] => pure ()
  | id :: ids => do
    destroyEntry id (kind id)
    destroyLoop kind ids

/-! ## The functions -/

section Functions

variable (e : Env)

/-- **`rk_osd_init`**. -/
def rkOsdInit (signals : ℤ → Bool) : Program World ℤ ℤ := do
  mutexLock
  let q ← readParams
  let s ← setRates
  createLoop (initEntry e q s) signals slots e.junk
  mutexUnlock
  return 0

/-- **`rk_osd_deinit`**. -/
def rkOsdDeinit (now : Str → List UInt32) : Program World ℤ ℤ := do
  mutexLock
  stopTimeServer e now
  let q ← readParams
  destroyLoop (destroyKind e q) slots
  mutexUnlock
  return 0

/-- **`rk_osd_restart`**. -/
def rkOsdRestart (now : Str → List UInt32) (signals : ℤ → Bool) : Program World ℤ ℤ := do
  let _ ← Program.call (rkOsdDeinit e now)
  let _ ← Program.call (rkOsdInit e signals)
  return 0

/-- **`rk_osd_bmp_change`**. -/
def rkOsdBmpChange (id : Int32) : Program World ℤ ℤ := do
  mutexLock
  let q ← readParams
  let s ← setRates
  match osdType q id.toInt with
  | none => Program.exit (-1)
  | some type =>
    if q.int (osdEntry id.toInt "enabled") 0 = 0 then Program.exit (-1)
    else if isText type then
      let data := changeData e q s id.toInt
      if data.negative then Program.exit (-1)
      else
        callback (.change id.toInt data)
        mutexUnlock
        return 0
    else
      mutexUnlock
      return 0

/-- **`rk_osd_privacy_mask_restart`**. -/
def rkOsdPrivacyMaskRestart : Program World ℤ ℤ := do
  mutexLock
  let q ← readParams
  destroyLoop (destroyMaskKind e q) slots
  let s ← setRates
  -- no entry starts a time server here
  createLoop (restartEntry e q s) (fun _ => true) slots e.junk
  mutexUnlock
  return 0

/-- A call of one of the functions. -/
inductive Call where
  | init (signals : ℤ → Bool)
  | deinit (now : Str → List UInt32)
  | restart (now : Str → List UInt32) (signals : ℤ → Bool)
  | bmpChange (id : Int32)
  | privacyMaskRestart

/-- The function that is called. -/
def Call.run : Call → Program World ℤ ℤ
  | .init signals => rkOsdInit e signals
  | .deinit now => rkOsdDeinit e now
  | .restart now signals => rkOsdRestart e now signals
  | .bmpChange id => rkOsdBmpChange e id
  | .privacyMaskRestart => rkOsdPrivacyMaskRestart e

/-- **What a call leaves when it returns**; one that waits for the mutex never does. -/
def Call.result (w : World) (c : Call) : Option World :=
  match c.run e w with
  | (.value _, w) => some w
  | (.returned _, w) => some w
  | (.blocked, _) => none

end Functions

/-! ## A device -/

/-- The display before the first call. -/
def World.initial (p : Store) : World where
  store := p
  rates := ⟨1, 1, 1, 1⟩
  mutex := false
  signal := false
  serverRun := true
  starting := false
  older := 0
  log := []

/-- Integer scaling, letters of eight pixels, small image files, and all callbacks. -/
def Env.plain : Env where
  scale video normalized value := value * video / normalized
  iconvUtf8ToWchar text := text.map fun s => s.map fun c => c.toUInt32
  wstrGetActualAdvanceX wch := 8 * wch.length
  loadBmpFormFile _ := some (64, 64)
  coverCreate := true
  coverDestroy := true
  mosaicCreate := true
  mosaicDestroy := true
  junk := ⟨0, 0, 0, 0, 0, 0, []⟩

/-- One entry, enabled and of the given type, beside what all entries share. -/
def oneEntry (type : String) : Store where
  file := none
  iniD := .live <| [("video.0:width", "1920"), ("video.0:height", "1080"),
    ("osd.common:normalized_screen_width", "704"), ("osd.common:normalized_screen_height", "480"),
    ("osd.common:font_size", "32"), ("osd.common:font_color", "fff799"),
    ("osd.common:font_path", "/oem/usr/share/simsun_cn.ttc"),
    ("osd.0:type", type), ("osd.0:enabled", "1"),
    ("osd.0:position_x", "16"), ("osd.0:position_y", "16"),
    ("osd.0:image_path", "/userdata/image.bmp")].foldl
      (fun d entry => dictionarySet d (lit entry.1) (some (lit entry.2))) dictionaryNew

end RkIpc.Osd
