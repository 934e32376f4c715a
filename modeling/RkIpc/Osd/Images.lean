import RkIpc.Osd.Bitmap
import RkIpc.Osd.Frame

/-!
# The buffers of images

`rk_osd_init` goes through the entries with one `osd_data`. The loader of images and the branch of
texts set its buffer, and the buffer is freed behind the callback. The result of `fill_image` is
not looked at, so that an image whose file is not loaded is created from what is in `osd_data`: what
was on the stack, or what an earlier entry has left and freed.

There is memory for the pixels of images that are loaded and of texts, and the accesses of the
decoder are not looked at here.

## Main definitions

* `Pointer`, `BufferEvent`, `Buffers`: the pointer in `osd_data`, what happens to buffers, and the
  variables
* `bufferEntry`, `bufferLoop`: the body and the loop, with the buffers
* `OnlyLoaded`: images are created from what was loaded for them, and buffers are freed once
* `Loadable`: the files that are loaded

## Main results

* `bufferLoop_logged`: the loop is the one of `rkOsdInit`
* `onlyLoaded_iff`: when images are created from what was loaded for them
* `missing_image_created`: an image without a file
-/

namespace RkIpc.Osd

open Text Param Imperative

/-! ## The loop -/

/-- `osd_data.buffer`: null, what was on the stack, or a block of memory. -/
inductive Pointer where
  | null
  | wild
  | block (k : ℕ)
deriving DecidableEq

/-- What happens to buffers: the file of an entry is loaded into a new block, a block is allocated
for a text, a bitmap is created, and a buffer is freed. -/
inductive BufferEvent where
  | load (id : ℤ) (k : ℕ) (width height : ℤ)
  | malloc (k : ℕ)
  | create (id : ℤ) (width height : ℤ) (buffer : Pointer)
  | free (buffer : Pointer)
deriving DecidableEq

/-- **`osd_data` with its buffer**, how many blocks there have been, and what has happened. -/
structure Buffers where
  data : OsdData
  buffer : Pointer
  blocks : ℕ
  log : List BufferEvent

namespace Buffers

/-- `osd_data` is changed. -/
def set (b : Buffers) (data : OsdData) : Buffers := { b with data := data }

/-- **`fill_image`**, with what the loader makes of the file. -/
def fillImage (b : Buffers) (id : ℤ) : Option (ℤ × ℤ) → Buffers
  | none => b
  | some (width, height) =>
    { data := { b.data with width := width, height := height }
      buffer := .block b.blocks
      blocks := b.blocks + 1
      log := b.log ++ [.load id b.blocks width height] }

/-- `osd_data.buffer = malloc(osd_data.size)`. -/
def malloc (b : Buffers) : Buffers :=
  { b with buffer := .block b.blocks, blocks := b.blocks + 1, log := b.log ++ [.malloc b.blocks] }

/-- `rk_osd_bmp_create_`. -/
def create (b : Buffers) (id : ℤ) : Buffers :=
  { b with log := b.log ++ [.create id b.data.width b.data.height b.buffer] }

/-- `free(osd_data.buffer)`. -/
def free (b : Buffers) : Buffers := { b with log := b.log ++ [.free b.buffer] }

end Buffers

section Loop

variable (e : Env) (q : Params) (s : Screen) (load : ℤ → Option (ℤ × ℤ))

/-- An `image` entry. -/
def imageBuffers (id : ℤ) (b : Buffers) : Buffers :=
  let b := (b.fillImage id (load id)).create id
  if b.buffer ≠ .null then b.free else b

/-- A `channelName` or `character` entry. -/
def textBuffers (id : ℤ) (b : Buffers) : Buffers :=
  match e.iconvUtf8ToWchar (q.string (osdEntry id "display_text") none) with
  | none => b
  | some wch =>
    let b := b.malloc
    let b := b.set (textRect s (textWidth e wch) { b.data with wch := wch })
    -- the buffer is kept if the text is dropped
    if b.data.negative then b else (b.create id).free

/-- **The body of the loop of `rk_osd_init`**, where `load` is what becomes of the file of an
image. -/
def bufferEntry (id : ℤ) (b : Buffers) : Buffers :=
  match osdType q id with
  | none => b
  | some type =>
    let b := b.set { b.data with enable := q.int (osdEntry id "enabled") 0 }
    if b.data.enable = 0 then b
    else
      let b := b.set (position e q s id b.data)
      if type = lit "image" then imageBuffers load id b
      else if type = lit "privacyMask" then b.set (maskEntry e q s id b.data).1
      else
        let b := b.set { b.data with fontSize := q.int (lit "osd.common:font_size") (-1) }
        if isText type then textBuffers e q s id b else b

/-- **The loop of `rk_osd_init`**, which is left if there is no signal for the time server. -/
def bufferLoop (signals : ℤ → Bool) : List ℤ → Buffers → Buffers
  | [], b => b
  | id :: ids, b =>
    if TimeEnabled q id ∧ signals id = false then bufferEntry e q s load id b
    else bufferLoop signals ids (bufferEntry e q s load id b)

end Loop

/-- The buffers that `rk_osd_init` leaves; `buffer` is what was on the stack. -/
def initBuffers (e : Env) (q : Params) (load : ℤ → Option (ℤ × ℤ)) (signals : ℤ → Bool)
    (buffer : Pointer) : Buffers :=
  bufferLoop e q (screen q) load signals slots ⟨e.junk, buffer, 0, []⟩

/-! ## What is wanted -/

/-- An image is shown. -/
def ImageEnabled (q : Params) (id : ℤ) : Prop :=
  osdType q id = some (lit "image") ∧ q.int (osdEntry id "enabled") 0 ≠ 0

/-- **Images are created from what was loaded for them**: the size and the buffer are those of a
load for the same entry that comes before, the buffer is freed behind it, and no buffer is freed
twice. -/
structure OnlyLoaded (q : Params) (log : List BufferEvent) : Prop where
  create : ∀ id width height buffer, .create id width height buffer ∈ log →
    osdType q id = some (lit "image") → ∃ k, buffer = .block k ∧
      [.load id k width height, .create id width height buffer, .free buffer].Sublist log
  loaded : ∀ id k width height, .load id k width height ∈ log → .free (.block k) ∈ log
  freed : ∀ buffer, .free buffer ∈ log →
    (∃ k, buffer = .block k) ∧ log.count (.free buffer) = 1

/-- **A file that is loaded**: it is there, begins as a bitmap file with 24 bits or more for a
pixel, and has pixels for which there is memory. -/
def Loadable (e : LoadEnv) (file : Option (List UInt8)) : Prop :=
  ∃ bytes, file = some bytes ∧ bmpCheck (readHeader bytes e.stack) ∧ ¬ NoPixels e bytes

/-- The size of a file that is loaded. -/
def loadedSize (e : LoadEnv) (file : Option (List UInt8)) : Option (ℤ × ℤ) :=
  (readBmp e file).map fun r => (r.1.biWidth, r.1.biHeight)

/-! ## The loader -/

theorem loadedSize_isSome_iff {e : LoadEnv} {file : Option (List UInt8)} :
    (loadedSize e file).isSome ↔ Loadable e file := by
  rw [loadedSize, Option.isSome_map, Option.isSome_iff_ne_none]
  cases file with
  | none => simp [readBmp, Loadable]
  | some bytes => simp [readBmp_eq_none_iff, Loadable]

/-- What the loader sets. -/
theorem loadedSize_of_loaded {e : LoadEnv} {file : Option (List UInt8)} {b : Bitmap}
    (h : loadBmpFormFile e file = .loaded b) : loadedSize e file = some (b.width, b.height) := by
  unfold loadBmpFormFile at h
  unfold loadedSize
  cases hread : readBmp e file with
  | none =>
    rw [hread] at h
    cases h
  | some r =>
    rw [hread] at h
    dsimp only at h
    split at h
    · cases h
    · split at h
      · cases h
      · cases h
        rfl

/-! ## One entry -/

section Entry

variable {e : Env} {q : Params} {s : Screen} {load : ℤ → Option (ℤ × ℤ)} {id : ℤ} {b : Buffers}

/-- **What happens in an entry**, and how many blocks there are then: an image is created from a new
block or, if its file is not loaded, from the buffer that was there; a text is created from a new
block, which is kept if the text is dropped. -/
inductive EntryLog (q : Params) (load : ℤ → Option (ℤ × ℤ)) (id : ℤ) (k : ℕ) :
    ℕ → List BufferEvent → Prop
  | quiet (himage : ¬ ImageEnabled q id) : EntryLog q load id k k []
  | image {width height : ℤ} (himage : ImageEnabled q id)
      (hload : load id = some (width, height)) :
    EntryLog q load id k (k + 1)
      [.load id k width height, .create id width height (.block k), .free (.block k)]
  | missing (width height : ℤ) (buffer : Pointer) (himage : ImageEnabled q id)
      (hload : load id = none) :
    EntryLog q load id k k
      (.create id width height buffer :: if buffer = .null then [] else [.free buffer])
  | dropped (htype : osdType q id ≠ some (lit "image")) : EntryLog q load id k (k + 1) [.malloc k]
  | text (width height : ℤ) (htype : osdType q id ≠ some (lit "image")) :
    EntryLog q load id k (k + 1)
      [.malloc k, .create id width height (.block k), .free (.block k)]

/-- What an image does. -/
theorem imageBuffers_log (himage : ImageEnabled q id) :
    ∃ evs, (imageBuffers load id b).log = b.log ++ evs ∧
      EntryLog q load id b.blocks (imageBuffers load id b).blocks evs := by
  unfold imageBuffers
  cases hload : load id with
  | none =>
    have hmissing := EntryLog.missing (k := b.blocks) b.data.width b.data.height b.buffer himage
      hload
    dsimp only [Buffers.fillImage, Buffers.create]
    by_cases hnull : b.buffer = .null
    · rw [if_pos hnull] at hmissing
      rw [if_neg (not_not.mpr hnull)]
      exact ⟨_, rfl, hmissing⟩
    · rw [if_neg hnull] at hmissing
      rw [if_pos hnull]
      exact ⟨_, List.append_assoc .., hmissing⟩
  | some r =>
    refine ⟨_, ?_, .image himage hload⟩
    simp [Buffers.fillImage, Buffers.create, Buffers.free]

/-- What a text does. -/
theorem textBuffers_log (htype : osdType q id ≠ some (lit "image")) :
    ∃ evs, (textBuffers e q s id b).log = b.log ++ evs ∧
      EntryLog q load id b.blocks (textBuffers e q s id b).blocks evs := by
  unfold textBuffers
  cases e.iconvUtf8ToWchar (q.string (osdEntry id "display_text") none) with
  | none => exact ⟨[], (List.append_nil _).symm, .quiet fun h => htype h.1⟩
  | some wch =>
    dsimp only
    split
    · exact ⟨[.malloc b.blocks], rfl, .dropped htype⟩
    · let data := textRect s (textWidth e wch) { b.data with wch := wch }
      refine ⟨_, ?_, .text data.width data.height htype⟩
      simp only [Buffers.free, Buffers.create, Buffers.set, Buffers.malloc, List.append_assoc,
        List.cons_append, List.nil_append, data]

variable (e q s load id b) in
/-- **One entry.** -/
theorem bufferEntry_log : ∃ evs, (bufferEntry e q s load id b).log = b.log ++ evs ∧
    EntryLog q load id b.blocks (bufferEntry e q s load id b).blocks evs := by
  have hquiet : ∀ b' : Buffers, ¬ ImageEnabled q id → b'.log = b.log → b'.blocks = b.blocks →
      ∃ evs, b'.log = b.log ++ evs ∧ EntryLog q load id b.blocks b'.blocks evs := by
    intro b' himage hlog hblocks
    refine ⟨[], by rw [hlog, List.append_nil], ?_⟩
    rw [hblocks]
    exact .quiet himage
  unfold bufferEntry
  cases htype : osdType q id with
  | none => exact hquiet b (fun h => by simpa [htype] using h.1) rfl rfl
  | some type =>
    dsimp only
    split
    · next henabled => exact hquiet _ (fun h => h.2 henabled) rfl rfl
    · next henabled =>
      split
      · next himage =>
        subst himage
        exact imageBuffers_log (b := (b.set _).set _) ⟨htype, henabled⟩
      · next himage =>
        have hne : osdType q id ≠ some (lit "image") := by simpa [htype] using himage
        split
        · exact hquiet _ (fun h => hne h.1) rfl rfl
        · split
          · exact textBuffers_log (b := ((b.set _).set _).set _) hne
          · exact hquiet _ (fun h => hne h.1) rfl rfl

end Entry

/-! ## The ledger -/

/-- **The ledger**: images are created from what was loaded for them, and blocks that are freed have
been allocated. -/
structure Ledger (q : Params) (blocks : ℕ) (log : List BufferEvent) : Prop
    extends OnlyLoaded q log where
  allocated : ∀ k, .free (.block k) ∈ log → k < blocks

section Ledger

variable {q : Params} {load : ℤ → Option (ℤ × ℤ)} {id : ℤ} {k n : ℕ}
  {log evs : List BufferEvent}

theorem ledger_nil (q : Params) (k : ℕ) : Ledger q k [] :=
  ⟨⟨nofun, nofun, nofun⟩, nofun⟩

/-- An allocation that creates nothing. -/
theorem Ledger.malloc (h : Ledger q k log) : Ledger q (k + 1) (log ++ [.malloc k]) := by
  have hmem : ∀ {ev : BufferEvent}, ev ≠ .malloc k → ev ∈ log ++ [.malloc k] → ev ∈ log := by
    intro ev hne hev
    rcases List.mem_append.mp hev with hev | hev
    · exact hev
    · exact absurd (List.mem_singleton.mp hev) hne
  refine ⟨⟨?_, ?_, ?_⟩, ?_⟩
  · intro i width height buffer hev himage
    obtain ⟨j, hj, hsub⟩ := h.create i width height buffer (hmem (by simp) hev) himage
    exact ⟨j, hj, hsub.trans (List.sublist_append_left ..)⟩
  · intro i j width height hev
    exact List.mem_append_left _ (h.loaded i j width height (hmem (by simp) hev))
  · intro buffer hev
    obtain ⟨hblock, hcount⟩ := h.freed buffer (hmem (by simp) hev)
    exact ⟨hblock, by simpa [List.count_append] using hcount⟩
  · intro j hev
    exact Nat.lt_succ_of_lt (h.allocated j (hmem (by simp) hev))

/-- Of the blocks, the one of a bitmap is freed, once. -/
theorem count_free_bitmap {ev : BufferEvent} {width height : ℤ}
    (hev : ev = .malloc k ∨ ev = .load id k width height) (buffer : Pointer) :
    [ev, .create id width height (.block k), .free (.block k)].count (BufferEvent.free buffer) =
      if buffer = .block k then 1 else 0 := by
  by_cases hbuffer : buffer = .block k
  · subst hbuffer
    rcases hev with rfl | rfl <;> simp
  · have hne : BufferEvent.free (.block k) ≠ .free buffer := fun h =>
      hbuffer (BufferEvent.free.inj h).symm
    rcases hev with rfl | rfl <;> simp [hbuffer, hne]

/-- A bitmap that is created from a new block, which is freed behind it. -/
theorem Ledger.bitmap {ev : BufferEvent} {width height : ℤ} (h : Ledger q k log)
    (hev : ev = .malloc k ∨ ev = .load id k width height)
    (himage : osdType q id = some (lit "image") → ev = .load id k width height) :
    Ledger q (k + 1) (log ++ [ev, .create id width height (.block k), .free (.block k)]) := by
  have hnew : .free (.block k) ∉ log := fun hmem => Nat.lt_irrefl k (h.allocated k hmem)
  refine ⟨⟨?_, ?_, ?_⟩, ?_⟩
  · intro i w l buffer hmem htype
    rcases List.mem_append.mp hmem with hmem | hmem
    · obtain ⟨j, hj, hsub⟩ := h.create i w l buffer hmem htype
      exact ⟨j, hj, hsub.trans (List.sublist_append_left ..)⟩
    · obtain ⟨rfl, rfl, rfl, rfl⟩ : i = id ∧ w = width ∧ l = height ∧ buffer = .block k := by
        rcases hev with rfl | rfl <;> simpa using hmem
      rw [himage htype]
      exact ⟨k, rfl, List.sublist_append_right ..⟩
  · intro i j w l hmem
    rcases List.mem_append.mp hmem with hmem | hmem
    · exact List.mem_append_left _ (h.loaded i j w l hmem)
    · obtain rfl : j = k := by
        rcases hev with rfl | rfl
        · simp at hmem
        · simp only [List.mem_cons, BufferEvent.load.injEq, reduceCtorEq, List.not_mem_nil,
            or_false] at hmem
          exact hmem.2.1
      exact List.mem_append_right _ (by simp)
  · intro buffer hmem
    rw [List.count_append, count_free_bitmap hev]
    rcases List.mem_append.mp hmem with hmem | hmem
    · obtain ⟨hblock, hone⟩ := h.freed buffer hmem
      have hne : buffer ≠ .block k := fun heq => hnew (heq ▸ hmem)
      rw [if_neg hne, hone]
      exact ⟨hblock, rfl⟩
    · obtain rfl : buffer = .block k := by
        rcases hev with rfl | rfl <;> simpa using hmem
      rw [if_pos rfl, List.count_eq_zero_of_not_mem hnew]
      exact ⟨⟨k, rfl⟩, rfl⟩
  · intro j hmem
    rcases List.mem_append.mp hmem with hmem | hmem
    · exact Nat.lt_succ_of_lt (h.allocated j hmem)
    · obtain rfl : j = k := by
        rcases hev with rfl | rfl <;> simpa using hmem
      exact Nat.lt_succ_self j

/-- **One entry keeps the ledger**, if the file of an image is loaded. -/
theorem Ledger.entry (h : Ledger q k log) (hload : ImageEnabled q id → (load id).isSome)
    (hevs : EntryLog q load id k n evs) : Ledger q n (log ++ evs) := by
  cases hevs with
  | quiet => rwa [List.append_nil]
  | image himage hload => exact h.bitmap (.inr rfl) fun _ => rfl
  | missing width height buffer himage hnone =>
    have hsome := hload himage
    rw [hnone] at hsome
    cases hsome
  | dropped htype => exact h.malloc
  | text width height htype => exact h.bitmap (.inl rfl) fun himage => absurd himage htype

end Ledger

/-! ## The loop -/

section Loop

variable {e : Env} {q : Params} {s : Screen} {load : ℤ → Option (ℤ × ℤ)} {signals : ℤ → Bool}

/-- **The loop keeps the ledger**, if the files of all images are loaded. -/
theorem bufferLoop_ledger {ids : List ℤ} {b : Buffers} (hb : Ledger q b.blocks b.log)
    (hload : ∀ id ∈ ids, ImageEnabled q id → (load id).isSome) :
    Ledger q (bufferLoop e q s load signals ids b).blocks
      (bufferLoop e q s load signals ids b).log := by
  induction ids generalizing b with
  | nil => exact hb
  | cons id ids ih =>
    obtain ⟨hid, hids⟩ := List.forall_mem_cons.mp hload
    obtain ⟨evs, hlog, hevs⟩ := bufferEntry_log e q s load id b
    have hentry := hb.entry hid hevs
    rw [← hlog] at hentry
    unfold bufferLoop
    split
    · exact hentry
    · exact ih hentry hids

/-- What has happened stays. -/
theorem mem_bufferLoop {ids : List ℤ} {b : Buffers} {ev : BufferEvent} (h : ev ∈ b.log) :
    ev ∈ (bufferLoop e q s load signals ids b).log := by
  induction ids generalizing b with
  | nil => exact h
  | cons id ids ih =>
    obtain ⟨evs, hlog, -⟩ := bufferEntry_log e q s load id b
    have hmem : ev ∈ (bufferEntry e q s load id b).log := by
      rw [hlog]
      exact List.mem_append_left _ h
    unfold bufferLoop
    split
    · exact hmem
    · exact ih hmem

/-- What is loaded for an entry is what its file gives. -/
theorem load_of_mem_bufferLoop {ids : List ℤ} {b : Buffers} {i : ℤ} {k : ℕ} {width height : ℤ}
    (hb : ∀ k width height, .load i k width height ∈ b.log → load i = some (width, height))
    (h : .load i k width height ∈ (bufferLoop e q s load signals ids b).log) :
    load i = some (width, height) := by
  induction ids generalizing b with
  | nil => exact hb k width height h
  | cons id ids ih =>
    obtain ⟨evs, hlog, hevs⟩ := bufferEntry_log e q s load id b
    have hentry : ∀ k width height, .load i k width height ∈ (bufferEntry e q s load id b).log →
        load i = some (width, height) := by
      intro k width height hmem
      rw [hlog] at hmem
      rcases List.mem_append.mp hmem with hmem | hmem
      · exact hb k width height hmem
      · generalize (bufferEntry e q s load id b).blocks = n at hevs
        cases hevs with
        | quiet => cases hmem
        | image himage hload =>
          simp only [List.mem_cons, BufferEvent.load.injEq, reduceCtorEq, List.not_mem_nil,
            or_false] at hmem
          obtain ⟨rfl, rfl, rfl, rfl⟩ := hmem
          exact hload
        | missing => split at hmem <;> simp at hmem
        | dropped => simp at hmem
        | text => simp at hmem
    unfold bufferLoop at h
    split at h
    · exact hentry k width height h
    · exact ih hentry h

/-- **Every image that is reached is created.** -/
theorem exists_create {ids : List ℤ} {b : Buffers} {id : ℤ} (hid : id ∈ ids)
    (himage : ImageEnabled q id) : ∃ width height buffer, .create id width height buffer ∈
      (bufferLoop e q s load (fun _ => true) ids b).log := by
  induction ids generalizing b with
  | nil => cases hid
  | cons j ids ih =>
    unfold bufferLoop
    rw [if_neg (by simp)]
    rcases List.mem_cons.mp hid with rfl | hid
    · obtain ⟨evs, hlog, hevs⟩ := bufferEntry_log e q s load id b
      have hcreate : ∃ width height buffer, .create id width height buffer ∈ evs := by
        generalize (bufferEntry e q s load id b).blocks = n at hevs
        cases hevs with
        | quiet hquiet => exact absurd himage hquiet
        | image => exact ⟨_, _, _, List.mem_cons_of_mem _ (List.mem_cons_self ..)⟩
        | missing width height buffer => exact ⟨width, height, buffer, List.mem_cons_self ..⟩
        | dropped htype => exact absurd himage.1 htype
        | text width height htype => exact absurd himage.1 htype
      obtain ⟨width, height, buffer, hmem⟩ := hcreate
      refine ⟨width, height, buffer, mem_bufferLoop ?_⟩
      rw [hlog]
      exact List.mem_append_right _ hmem
    · exact ih hid

end Loop

/-! ## The loop of the display -/

/-- The bitmap that is created, with its size. -/
def BufferEvent.bitmap : BufferEvent → Option (ℤ × ℤ × ℤ)
  | .create id width height _ => some (id, width, height)
  | _ => none

/-- The bitmap that a callback creates, with its size. -/
def Event.bitmap : Event → Option (ℤ × ℤ × ℤ)
  | .create .bmp id data => some (id, data.width, data.height)
  | _ => none

section Logged

variable {e : Env} {q : Params} {s : Screen} {load : ℤ → Option (ℤ × ℤ)}

/-- A mask is no bitmap. -/
theorem maskEntry_bitmaps (id : ℤ) (data : OsdData) :
    (shownRegion id (maskEntry e q s id data).1 (maskEntry e q s id data).2).filterMap
      Event.bitmap = [] := by
  have hstyle : styleKind q id e.coverCreate e.mosaicCreate ≠ some .bmp := by
    unfold styleKind
    dsimp only
    split
    · simp
    · split <;> simp
  rw [maskEntry_eq]
  dsimp only
  split
  · rfl
  · cases hkind : styleKind q id e.coverCreate e.mosaicCreate with
    | none => rfl
    | some k =>
      cases k with
      | cover => rfl
      | mosaic => rfl
      | bmp => exact absurd hkind hstyle

/-- An image leaves the same `osd_data`, and creates the same bitmap. -/
theorem imageBuffers_fillImage {id : ℤ} (b : Buffers)
    (hload : e.loadBmpFormFile (q.string (osdEntry id "image_path") none) = load id) :
    (imageBuffers load id b).data = fillImage e q id b.data ∧
    (imageBuffers load id b).log.filterMap BufferEvent.bitmap =
      b.log.filterMap BufferEvent.bitmap ++
        [(id, (fillImage e q id b.data).width, (fillImage e q id b.data).height)] := by
  -- a load and a `free` are no bitmaps
  have hfree : ∀ b : Buffers, (if b.buffer ≠ .null then b.free else b).data = b.data ∧
      (if b.buffer ≠ .null then b.free else b).log.filterMap BufferEvent.bitmap =
        b.log.filterMap BufferEvent.bitmap := by
    intro b
    split
    · exact ⟨rfl, by simp [Buffers.free, BufferEvent.bitmap]⟩
    · exact ⟨rfl, rfl⟩
  rw [imageBuffers, fillImage, hload, (hfree _).1, (hfree _).2]
  cases load id with
  | none => exact ⟨rfl, by simp [Buffers.fillImage, Buffers.create, BufferEvent.bitmap]⟩
  | some r =>
    refine ⟨rfl, ?_⟩
    simp [Buffers.fillImage, Buffers.create, BufferEvent.bitmap, List.filterMap_cons]

/-- A text leaves the same `osd_data`, and creates the same bitmap. -/
theorem textBuffers_textEntry (id : ℤ) (b : Buffers) :
    (textBuffers e q s id b).data = (textEntry e q s id b.data).1 ∧
    (textBuffers e q s id b).log.filterMap BufferEvent.bitmap =
      b.log.filterMap BufferEvent.bitmap ++
        (shownRegion id (textEntry e q s id b.data).1 (textEntry e q s id b.data).2).filterMap
          Event.bitmap := by
  unfold textBuffers textEntry
  cases e.iconvUtf8ToWchar (q.string (osdEntry id "display_text") none) with
  | none => exact ⟨rfl, (List.append_nil _).symm⟩
  | some wch =>
    dsimp only [Buffers.malloc, Buffers.set, textWidth]
    split
    · exact ⟨rfl, by simp [BufferEvent.bitmap, shownRegion]⟩
    · refine ⟨rfl, ?_⟩
      simp [Buffers.create, Buffers.free, BufferEvent.bitmap, shownRegion, Event.bitmap,
        List.filterMap_cons]

/-- **One entry** leaves the same `osd_data`, and creates the same bitmap. -/
theorem bufferEntry_initEntry
    (hload : ∀ id, e.loadBmpFormFile (q.string (osdEntry id "image_path") none) = load id)
    (id : ℤ) (b : Buffers) :
    (bufferEntry e q s load id b).data = (initEntry e q s id b.data).1 ∧
    (bufferEntry e q s load id b).log.filterMap BufferEvent.bitmap =
      b.log.filterMap BufferEvent.bitmap ++
        (shownRegion id (initEntry e q s id b.data).1 (initEntry e q s id b.data).2).filterMap
          Event.bitmap := by
  unfold bufferEntry initEntry
  cases osdType q id with
  | none => exact ⟨rfl, (List.append_nil _).symm⟩
  | some type =>
    dsimp only [Buffers.set]
    split
    · exact ⟨rfl, (List.append_nil _).symm⟩
    · split
      · exact imageBuffers_fillImage _ (hload id)
      · split
        · refine ⟨rfl, ?_⟩
          rw [maskEntry_bitmaps, List.append_nil]
        · split
          · exact textBuffers_textEntry id _
          · refine ⟨by split <;> rfl, ?_⟩
            split <;> exact (List.append_nil _).symm

/-- What is shown for one entry creates its bitmap, and returns only without a signal. -/
theorem createEntry_bitmaps {l : List (ℤ × ℤ × ℤ)} (signals : ℤ → Bool) (id : ℤ) (data : OsdData)
    (shown : Option Shown) :
    Program.Triple (fun w => w.log.filterMap Event.bitmap = l) (createEntry signals id data shown)
      (fun _ w => w.log.filterMap Event.bitmap =
        l ++ (shownRegion id data shown).filterMap Event.bitmap ∧
          ¬ (shown = some .time ∧ signals id = false))
      (fun _ w => w.log.filterMap Event.bitmap =
        l ++ (shownRegion id data shown).filterMap Event.bitmap ∧
          shown = some .time ∧ signals id = false)
      fun _ => False := by
  rintro w rfl
  rcases shown with _ | k | _
  · exact ⟨(List.append_nil _).symm, by simp⟩
  · exact ⟨List.filterMap_append .., by simp⟩
  · cases hsignal : signals id with
    | true =>
      simp only [createEntry, startTimeServer, hsignal]
      exact ⟨(List.append_nil _).symm, by simp⟩
    | false =>
      simp only [createEntry, startTimeServer, hsignal]
      exact ⟨(List.append_nil _).symm, trivial, trivial⟩

/-- **The loop is the one of `rkOsdInit`**: it creates the same bitmaps. -/
theorem bufferLoop_logged
    (hload : ∀ id, e.loadBmpFormFile (q.string (osdEntry id "image_path") none) = load id)
    (signals : ℤ → Bool) (ids : List ℤ) (b : Buffers) :
    Program.Triple
      (fun w => w.log.filterMap Event.bitmap = b.log.filterMap BufferEvent.bitmap)
      (createLoop (initEntry e q s) signals ids b.data)
      (fun _ w => w.log.filterMap Event.bitmap =
        (bufferLoop e q s load signals ids b).log.filterMap BufferEvent.bitmap)
      (fun _ w => w.log.filterMap Event.bitmap =
        (bufferLoop e q s load signals ids b).log.filterMap BufferEvent.bitmap)
      fun _ => False := by
  induction ids generalizing b with
  | nil => exact Program.Triple.pure fun _ hw => hw
  | cons id ids ih =>
    obtain ⟨hdata, hlog⟩ := bufferEntry_initEntry (s := s) hload id b
    have htime := initEntry_time_iff e q s id b.data
    have hentry := createEntry_bitmaps (l := b.log.filterMap BufferEvent.bitmap) signals id
      (initEntry e q s id b.data).1 (initEntry e q s id b.data).2
    rw [← hlog, htime] at hentry
    have hih := ih (bufferEntry e q s load id b)
    rw [hdata] at hih
    unfold createLoop bufferLoop
    by_cases hreturn : TimeEnabled q id ∧ signals id = false
    · -- nothing comes after the return
      rw [if_pos hreturn]
      refine Program.Triple.bind (V := fun _ _ => False)
        ((hentry.post fun _ w hw => absurd hreturn hw.2).returns fun _ w hw => hw.1) fun _ => ?_
      exact fun w hw => hw.elim
    · rw [if_neg hreturn]
      refine Program.Triple.bind ((hentry.post fun _ w hw => hw.1).returns ?_) fun _ => hih
      exact fun _ w hw => absurd hw.2 hreturn

end Logged

/-- **`rk_osd_init`** creates the bitmaps of the buffers. -/
theorem init_bitmaps {e : Env} {p : Store} {w : World} {signals : ℤ → Bool}
    {load : ℤ → Option (ℤ × ℤ)} (buffer : Pointer)
    (hload : ∀ id, e.loadBmpFormFile ((params p).string (osdEntry id "image_path") none) = load id)
    (h : (Call.init signals).result e (World.initial p) = some w) :
    w.log.filterMap Event.bitmap =
      (initBuffers e (params p) load signals buffer).log.filterMap BufferEvent.bitmap := by
  have hloop := bufferLoop_logged (s := screen (params p)) hload signals slots
    ⟨e.junk, buffer, 0, []⟩
  have hrun := hloop.bind (f := fun _ => do mutexUnlock; return (0 : ℤ))
    (W := fun _ w => w.log.filterMap Event.bitmap =
      (initBuffers e (params p) load signals buffer).log.filterMap BufferEvent.bitmap)
    fun _ w hw => hw
  have hmeets := hrun { World.initial p with mutex := true, rates := screen (params p) } rfl
  have hresult : Program.Meets
      (fun _ w => w.log.filterMap Event.bitmap =
        (initBuffers e (params p) load signals buffer).log.filterMap BufferEvent.bitmap)
      (fun _ w => w.log.filterMap Event.bitmap =
        (initBuffers e (params p) load signals buffer).log.filterMap BufferEvent.bitmap)
      (fun _ => False) ((Call.init signals).run e (World.initial p)) := hmeets
  unfold Call.result at h
  generalize (Call.init signals).run e (World.initial p) = o at h hresult
  rcases o with ⟨_ | _ | _, t⟩
  · obtain rfl := Option.some.inj h
    exact hresult
  · obtain rfl := Option.some.inj h
    exact hresult
  · cases h

/-! ## Every store -/

/-- The file of an entry. -/
def imageFile (q : Params) (files : Str → Option (List UInt8)) (id : ℤ) : Option (List UInt8) :=
  (q.string (osdEntry id "image_path") none).bind files

/-- **Images are created from what was loaded for them**, and buffers are freed once, if and only if
the file of every image that is shown is loaded. -/
theorem onlyLoaded_iff (e : Env) (q : Params) (l : ℤ → LoadEnv) (files : Str → Option (List UInt8))
    (buffer : Pointer) :
    (∀ signals, OnlyLoaded q
      (initBuffers e q (fun id => loadedSize (l id) (imageFile q files id)) signals buffer).log) ↔
      ∀ id ∈ slots, ImageEnabled q id → Loadable (l id) (imageFile q files id) := by
  constructor
  · intro h id hid himage
    obtain ⟨width, height, buffer', hcreate⟩ := exists_create hid himage
    obtain ⟨k, -, hsub⟩ := (h fun _ => true).create id width height buffer' hcreate himage.1
    have hmem := hsub.subset (List.mem_cons_self ..)
    rw [← loadedSize_isSome_iff]
    exact Option.isSome_iff_exists.mpr ⟨_, load_of_mem_bufferLoop (fun _ _ _ h => by cases h) hmem⟩
  · intro h signals
    refine (bufferLoop_ledger (ledger_nil q 0) fun id hid himage => ?_).toOnlyLoaded
    exact loadedSize_isSome_iff.mpr (h id hid himage)

/-- An image with a file, and one without. -/
def twoImages : Store where
  file := none
  iniD := .live <| [("video.0:width", "1920"), ("video.0:height", "1080"),
    ("osd.common:normalized_screen_width", "704"), ("osd.common:normalized_screen_height", "480"),
    ("osd.0:type", "image"), ("osd.0:enabled", "1"), ("osd.0:image_path", "/a.bmp"),
    ("osd.1:type", "image"), ("osd.1:enabled", "1"), ("osd.1:image_path", "/b.bmp")].foldl
      (fun d entry => dictionarySet d (lit entry.1) (some (lit entry.2))) dictionaryNew

/-- What happens to the buffers then. -/
def twoImagesLog : List BufferEvent :=
  (initBuffers .plain (params twoImages) (fun id => loadedSize .plain
    (imageFile (params twoImages) (fun path =>
      if path = lit "/a.bmp" then some (bitmapFile 54 1 1 24 [1, 2, 3, 0]) else none) id))
    (fun _ => true) .wild).log

/-- **An image without a file is created** from the size and the buffer of the one before, which has
been freed and is freed again. -/
theorem missing_image_created :
    twoImagesLog = [.load 0 0 1 1, .create 0 1 1 (.block 0), .free (.block 0),
      .create 1 1 1 (.block 0), .free (.block 0)] ∧
    ¬ OnlyLoaded (params twoImages) twoImagesLog := by
  have hlog : twoImagesLog = [.load 0 0 1 1, .create 0 1 1 (.block 0), .free (.block 0),
      .create 1 1 1 (.block 0), .free (.block 0)] := by
    decide +kernel
  refine ⟨hlog, fun h => ?_⟩
  have hfreed := (h.freed (.block 0) (by simp [hlog])).2
  rw [hlog] at hfreed
  exact absurd hfreed (by decide)

end RkIpc.Osd
