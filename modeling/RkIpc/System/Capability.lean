import RkIpc.Param.Store
import RkIpc.Server.Map
import RkIpc.Text.Field

/-!
# What the device is capable of

The ini file has a section for each page of settings, with a text that is too long for one line. The
entries `0`, `1`, … are copied one behind the other into a buffer of the server. How many there are
is the number of keys of the section, whatever the keys are called.

## Main definitions

* `Capability`: the sections
* `copyEntries`, `getCapability`: the loop, and the function
* `serCapability`: what the handler of the server has got
* `Entries`: the texts of the entries, in order
* `Assembled`: the buffer holds the entries

## Main results

* `copyEntries_eq_some_iff`: the loop, if all entries are there
* `assembled_iff`: when the buffer holds the entries
* `serCapability_of_assembled`: the reply has them
-/

namespace RkIpc.System

open Text Param Memory Server

/-- The sections. -/
inductive Capability
  | video
  | imageAdjustment
  | imageBlc
  | imageEnhancement
  | imageExposure
  | imageNightToDay
  | imageVideoAdjustment
  | imageWhiteBlance
deriving DecidableEq, Repr

/-- The name of the section. -/
def Capability.name : Capability → Str
  | .video => lit "capability.video"
  | .imageAdjustment => lit "capability.image_adjustment"
  | .imageBlc => lit "capability.image_blc"
  | .imageEnhancement => lit "capability.image_enhancement"
  | .imageExposure => lit "capability.image_exposure"
  | .imageNightToDay => lit "capability.image_night_to_day"
  | .imageVideoAdjustment => lit "capability.image_video_adjustment"
  | .imageWhiteBlance => lit "capability.image_white_blance"

/-- `snprintf(entry, 127, "capability.video:%d", i)`. -/
def capabilityEntry (name : Str) (i : ℕ) : Str := name ++ lit ":" ++ decimal i

/-- `for (int i = 0; i < section_keys; i++)`: `strcpy(value + total_length, tmp)`. Nothing is said
about a null pointer, or about what is behind the buffer. -/
def copyEntries (p : Store) (name : Str) : List ℕ → ℕ → List UInt8 → Option (List UInt8)
  | [], _, value => some value
  | i :: is, totalLength, value => do
    let tmp ← (rkParamGetString p (capabilityEntry name i) none).join
    let value ← write value totalLength (cstr tmp ++ [0])
    copyEntries p name is (totalLength + (cstr tmp).length) value

/-- **The function for a section**: what it returns, and the buffer. -/
def getCapability (name : Str) (p : Store) (value : List UInt8) : Option (ℤ × List UInt8) :=
  match p.iniD with
  | .freed => none
  | .null => some (0, value)
  | .live d =>
    let sectionKeys := iniparserGetsecnkeys d name
    if sectionKeys = 0 then some (0, value)
    else (copyEntries p name (List.range sectionKeys) 0 value).map fun value => (0, value)

def rkSystemCapabilityGetVideo := getCapability (lit "capability.video")
def rkSystemCapabilityGetImageAdjustment := getCapability (lit "capability.image_adjustment")
def rkSystemCapabilityGetImageBlc := getCapability (lit "capability.image_blc")
def rkSystemCapabilityGetImageEnhancement := getCapability (lit "capability.image_enhancement")
def rkSystemCapabilityGetImageExposure := getCapability (lit "capability.image_exposure")
def rkSystemCapabilityGetImageNightToDay := getCapability (lit "capability.image_night_to_day")
def rkSystemCapabilityGetImageVideoAdjustment :=
  getCapability (lit "capability.image_video_adjustment")
def rkSystemCapabilityGetImageWhiteBlance := getCapability (lit "capability.image_white_blance")

/-- The function of a section. -/
def Capability.get : Capability → Store → List UInt8 → Option (ℤ × List UInt8)
  | .video => rkSystemCapabilityGetVideo
  | .imageAdjustment => rkSystemCapabilityGetImageAdjustment
  | .imageBlc => rkSystemCapabilityGetImageBlc
  | .imageEnhancement => rkSystemCapabilityGetImageEnhancement
  | .imageExposure => rkSystemCapabilityGetImageExposure
  | .imageNightToDay => rkSystemCapabilityGetImageNightToDay
  | .imageVideoAdjustment => rkSystemCapabilityGetImageVideoAdjustment
  | .imageWhiteBlance => rkSystemCapabilityGetImageWhiteBlance

theorem Capability.get_eq (c : Capability) : c.get = getCapability c.name := by
  cases c <;> rfl

/-- The handlers of the server. -/
def Capability.handler : Capability → Handler
  | .video => serRkSystemCapabilityGetVideo
  | .imageAdjustment => serRkSystemCapabilityGetImageAdjustment
  | .imageBlc => serRkSystemCapabilityGetImageBlc
  | .imageEnhancement => serRkSystemCapabilityGetImageEnhancement
  | .imageExposure => serRkSystemCapabilityGetImageExposure
  | .imageNightToDay => serRkSystemCapabilityGetImageNightToDay
  | .imageVideoAdjustment => serRkSystemCapabilityGetImageVideoAdjustment
  | .imageWhiteBlance => serRkSystemCapabilityGetImageWhiteBlance

/-- `char value[4096]`. -/
def capabilitySize : ℕ := 4096

/-- **What the handler replies**: `value` is made empty, and the function is called. Nothing is said
about a text that has no end. -/
def serCapability (c : Capability) (p : Store) (value : List UInt8) : Option OpResult := do
  let value ← write value 0 [0]
  let (err, value) ← c.get p value
  let text ← content value
  pure ⟨err, [], [text]⟩

/-! ## The loop -/

/-- **The texts of the entries**, in order. -/
def Entries (p : Store) (name : Str) (is : List ℕ) (texts : List Str) : Prop :=
  List.Forall₂ (fun i text => rkParamGetString p (capabilityEntry name i) none = some (some text))
    is texts

section

variable {p : Store} {name : Str} {is : List ℕ} {texts texts' : List Str}
  {value value' : List UInt8} {t : Str}

theorem Entries.unique (h : Entries p name is texts) (h' : Entries p name is texts') :
    texts = texts' := by
  refine List.right_unique_forall₂' (fun i text text' htext htext' => ?_) h h'
  exact Option.some.inj (Option.some.inj (htext.symm.trans htext'))

theorem join_eq_some_iff {o : Option (Option Str)} {text : Str} :
    o.join = some text ↔ o = some (some text) := by
  rcases o with _ | _ | _ <;> simp

/-- **The loop puts one entry behind the other**; where the next one goes is behind the text that
the buffer holds. -/
theorem copyEntries_eq_some_iff (hf : Holds value t) :
    copyEntries p name is t.length value = some value' ↔
      ∃ texts, Entries p name is texts ∧ strcats value texts = some value' := by
  induction is generalizing value t with
  | nil =>
    constructor
    · intro h
      exact ⟨[], .nil, h⟩
    · rintro ⟨texts, hentries, h⟩
      cases hentries
      exact h
  | cons i is ih =>
    have hstep : ∀ tmp, write value t.length (cstr tmp ++ [0]) = strcat value tmp := by
      intro tmp
      rw [strcat, hf.1]
    have hrest : ∀ {tmp value₁}, strcat value tmp = some value₁ →
        (copyEntries p name is (t.length + (cstr tmp).length) value₁ = some value' ↔
          ∃ texts, Entries p name is texts ∧ strcats value₁ texts = some value') := by
      intro tmp value₁ h
      rw [← List.length_append]
      exact ih (holds_of_strcat hf h).1
    simp only [copyEntries, Option.bind_eq_bind, Option.bind_eq_some_iff, join_eq_some_iff, hstep]
    constructor
    · rintro ⟨tmp, htmp, value₁, hcat, h⟩
      obtain ⟨texts, hentries, hcats⟩ := (hrest hcat).mp h
      refine ⟨tmp :: texts, .cons htmp hentries, ?_⟩
      rw [strcats, List.foldlM_cons, hcat]
      exact hcats
    · rintro ⟨texts, hentries, h⟩
      cases hentries with
      | cons htmp hentries =>
        rename_i tmp texts
        rw [strcats, List.foldlM_cons] at h
        obtain ⟨value₁, hcat, hcats⟩ := Option.bind_eq_some_iff.mp h
        exact ⟨tmp, htmp, value₁, hcat, (hrest hcat).mpr ⟨texts, hentries, hcats⟩⟩

/-- Into an empty buffer. -/
theorem exists_strcats_iff (hf : Holds value []) :
    (∃ value', strcats value texts = some value') ↔
      (texts.flatMap cstr).length < value.length := by
  rcases @strcats_cases value [] texts hf with ⟨hlen, hnone⟩ | ⟨value', hsome, hholds, hlen⟩
  · rw [hnone]
    exact ⟨nofun, fun h => absurd hlen (by simpa using h)⟩
  · refine ⟨fun _ => ?_, fun _ => ⟨value', hsome⟩⟩
    rw [← hlen]
    exact length_lt_of_holds hholds

theorem holds_of_strcats (hf : Holds value []) (h : strcats value texts = some value') :
    Holds value' (texts.flatMap cstr) ∧ value'.length = value.length := by
  rcases @strcats_cases value [] texts hf with ⟨-, hnone⟩ | ⟨value₁, hsome, hholds, hlen⟩
  · cases hnone.symm.trans h
  · obtain rfl : value₁ = value' := Option.some.inj (hsome.symm.trans h)
    exact ⟨hholds, hlen⟩

end

/-! ## The buffer -/

/-- The numbers below the number of keys of the section. -/
def Capability.indexes (c : Capability) (d : Dictionary) : List ℕ :=
  List.range (iniparserGetsecnkeys d c.name)

/-- **The buffer holds the entries**: the function returns for every buffer of the server that is
empty, and what it writes is in the buffer, and all the entries there are one behind the other. -/
def Assembled (c : Capability) (file : Option (List UInt8)) (d : Dictionary) : Prop :=
  ∀ value, Holds value [] → value.length = capabilitySize →
    ∃ value', c.get ⟨file, .live d⟩ value = some (0, value') ∧ value'.length = capabilitySize ∧
      ∀ texts, Entries ⟨file, .live d⟩ c.name (c.indexes d) texts →
        Holds value' (texts.flatMap cstr)

/-- **Every number below the number of keys is an entry**, and the texts fit the buffer. -/
def Fits (c : Capability) (file : Option (List UInt8)) (d : Dictionary) : Prop :=
  ∃ texts, Entries ⟨file, .live d⟩ c.name (c.indexes d) texts ∧
    (texts.flatMap cstr).length < capabilitySize

section

variable {c : Capability} {file : Option (List UInt8)} {d : Dictionary}
  {value value' : List UInt8}

/-- What the function returns for an empty buffer. -/
theorem get_eq_some_iff {r : ℤ} (hf : Holds value []) :
    c.get ⟨file, .live d⟩ value = some (r, value') ↔
      r = 0 ∧ ∃ texts, Entries ⟨file, .live d⟩ c.name (c.indexes d) texts ∧
        strcats value texts = some value' := by
  have hloop : c.get ⟨file, .live d⟩ value =
      (copyEntries ⟨file, .live d⟩ c.name (c.indexes d) 0 value).map fun value => (0, value) := by
    rw [c.get_eq, getCapability]
    dsimp only
    split
    · next hkeys => rw [Capability.indexes, hkeys]; rfl
    · rfl
  rw [hloop, Option.map_eq_some_iff]
  constructor
  · rintro ⟨value₁, hcopy, heq⟩
    obtain ⟨rfl, rfl⟩ := Prod.mk.inj heq
    exact ⟨rfl, (copyEntries_eq_some_iff hf).mp hcopy⟩
  · rintro ⟨rfl, h⟩
    exact ⟨value', (copyEntries_eq_some_iff hf).mpr h, rfl⟩

theorem fits_of_assembled (h : Assembled c file d) : Fits c file d := by
  have hf : Holds (List.replicate capabilitySize 0) [] :=
    ⟨rfl, List.mem_replicate.mpr ⟨by decide, rfl⟩⟩
  have hsize : (List.replicate capabilitySize (0 : UInt8)).length = capabilitySize :=
    List.length_replicate
  obtain ⟨value', hget, -, -⟩ := h _ hf hsize
  obtain ⟨-, texts, hentries, hcats⟩ := (get_eq_some_iff hf).mp hget
  exact ⟨texts, hentries, hsize ▸ (exists_strcats_iff hf).mp ⟨value', hcats⟩⟩

theorem assembled_of_fits (h : Fits c file d) : Assembled c file d := by
  obtain ⟨texts, hentries, hlen⟩ := h
  intro value hf hsize
  obtain ⟨value', hcats⟩ := (exists_strcats_iff hf).mpr (hsize ▸ hlen)
  obtain ⟨hholds, hsize'⟩ := holds_of_strcats hf hcats
  refine ⟨value', (get_eq_some_iff hf).mpr ⟨rfl, texts, hentries, hcats⟩, hsize'.trans hsize, ?_⟩
  intro texts' hentries'
  rwa [hentries'.unique hentries]

/-- **The buffer holds the entries** if and only if they are all there and fit. -/
theorem assembled_iff : Assembled c file d ↔ Fits c file d := ⟨fits_of_assembled, assembled_of_fits⟩

/-- **The reply has the entries**, whatever is in the memory of the server. -/
theorem serCapability_of_assembled (h : Assembled c file d)
    (hsize : value.length = capabilitySize) :
    ∃ texts, Entries ⟨file, .live d⟩ c.name (c.indexes d) texts ∧
      serCapability c ⟨file, .live d⟩ value = some ⟨0, [], [texts.flatMap cstr]⟩ := by
  obtain ⟨texts, hentries, -⟩ := fits_of_assembled h
  obtain ⟨value₀, hempty⟩ := exists_sprintf
    (show ([] : Str).length < value.length by rw [hsize]; decide)
  have hf : Holds value₀ [] := holds_of_sprintf List.not_mem_nil hempty
  obtain ⟨value', hget, -, hholds⟩ := h value₀ hf ((length_write hempty).trans hsize)
  refine ⟨texts, hentries, ?_⟩
  have hwrite : write value 0 [0] = some value₀ := hempty
  simp only [serCapability, hwrite, hget, content_of_holds (hholds texts hentries),
    Option.bind_eq_bind, Option.bind_some, Option.pure_def]

/-- The handlers are in the table, and reply with one text. -/
theorem Capability.served (c : Capability) :
    ⟨c.handler.op, c.handler⟩ ∈ Server.map ∧ c.handler = globalStrGetter c.handler.op := by
  cases c <;> exact ⟨by decide +kernel, rfl⟩

end

/-- A section with a key that is no number. -/
def letters : Dictionary :=
  iniparserSet (iniparserSet dictionaryNew (lit "capability.video") none)
    (lit "capability.video:a") (some (lit "x"))

/-- **A key that is no number** is counted, and the null pointer of an entry that is not there is
copied from. -/
theorem not_assembled_letters : ¬ Assembled .video none letters := by
  intro h
  obtain ⟨texts, hentries, -⟩ := fits_of_assembled h
  have hkeys : Capability.video.indexes letters = [0] := by decide +kernel
  rw [hkeys] at hentries
  cases hentries with
  | cons hentry _ =>
    have habsent : rkParamGetString ⟨none, .live letters⟩
        (capabilityEntry Capability.video.name 0) none = some none := by decide +kernel
    exact nomatch habsent.symm.trans hentry

end RkIpc.System
