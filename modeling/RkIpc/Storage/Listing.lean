import RkIpc.Storage.Monitor

/-!
# What the list says about the files

The list of a folder is kept by the monitor thread, and given out by `rkipc_storage_get_file_list`.
A file that is listed already keeps the size and the time it was listed with, whatever an event
says. The list is copied from the newest file on, from the front for `LIST_ASCENDING` and from the
back for `LIST_DESCENDING`, and a failed allocation leaves with the mutex of the folder.

## Main definitions

* `WatchState.process`: the monitor thread, from one event to the next
* `Current`: the list says of a file what `lstat` says
* `getFileList`: `rkipc_storage_get_file_list`
* `Answered`: what is asked of it

## Main results

* `current_process_iff`: the arrivals after which the list is current
* `answered_getFileList_iff`: the folders and allocations for which the answer is right
-/

namespace RkIpc.Storage

open LinkedList Catalogue

/-! ## An arrival is processed -/

/-- The monitor thread goes on with its event, if it is in one. -/
def WatchState.proceed (s : WatchState) : Option WatchState :=
  match s.monitor with
  | .start => some s
  | .stated _ | .checked _ | .emptyFile => s.monitorStep

/-- **The monitor thread processes an event**, which takes three steps at most. -/
def WatchState.process (s : WatchState) : Option WatchState := do
  let s ← s.monitorStep
  let s ← s.proceed
  s.proceed

/-- **The list is current** for the file `f`: it has one entry of this name, with what `lstat` says,
at its place by time, and the other entries as they were. The total is then what the listed files
take up, if it was for the others. -/
def Current (c : FileCatalogue) (folder : StrFolder) (f : String) (st : StatBuf) : Prop :=
  ∃ d : FileCatalogue, folder.Lists d ∧
    d.entries.filter (fun x => x.filename = f) = [newFile f st] ∧ d.erase f = c.erase f ∧
    ∀ used : String → ℕ, used f = st.stBlocks * 512 →
      (∀ x ∈ c.entries, x.filename ≠ f → x.space = used x.filename) →
      folder.totalSpace = (d.names.map used).sum

section Arrival

variable {s : WatchState} {c : FileCatalogue} {e : InotifyEvent} {q : List InotifyEvent}
  {st : StatBuf} {isReg : Bool} {f : String}

/-- The total is what the files take up, if it is for each of them. -/
theorem StrFolder.Lists.totalSpace_eq {folder : StrFolder} (hs : folder.Lists c)
    {used : String → ℕ} (hused : ∀ x ∈ c.entries, x.space = used x.filename) :
    folder.totalSpace = (c.names.map used).sum := by
  rw [hs.totalSpace, names, List.map_map]
  exact congrArg List.sum (List.map_congr_left hused)

/-- A file that is not listed is added, and one that is listed is left alone. -/
theorem process_arrival (hs : s.folder.Lists c) (hmonitor : s.monitor = .start)
    (hq : s.queue = e :: q) (he : e.mask = .closeWrite ∨ e.mask = .movedTo)
    (hst : s.dir e.name = some ⟨st, isReg⟩) (hsize : 0 < st.stSize) :
    ∃ t, s.process = some t ∧ t.queue = q ∧ t.monitor = .start ∧
      t.folder.Lists (c.insertNew (newFile e.name st)) := by
  obtain ⟨folder, dir, queue, monitor, scan⟩ := s
  dsimp only at hs hmonitor hq hst
  subst hmonitor hq
  have hstated : WatchState.monitorStep ⟨folder, dir, e :: q, .start, scan⟩ =
      some ⟨folder, dir, e :: q, .stated st, scan⟩ := by
    rcases he with he | he
    · simp [WatchState.monitorStep, WatchState.handle, WatchState.dispatch, he, hst,
        Nat.ne_of_gt hsize]
    · simp [WatchState.monitorStep, WatchState.handle, WatchState.dispatch, he, hst]
  have hcheck := fileListCheck_spec hs e.name
  rw [WatchState.process, hstated]
  by_cases hn : e.name ∈ c.names
  · -- the check finds the name, and the event is over
    rw [if_pos hn] at hcheck
    refine ⟨⟨folder, dir, q, .start, scan⟩, ?_, rfl, rfl, ?_⟩
    · simp [WatchState.proceed, WatchState.monitorStep, WatchState.handle, hcheck, WatchState.next]
    · have hold : c.insertNew (newFile e.name st) = c := insertNew_of_mem hn
      rwa [hold]
  · rw [if_neg hn] at hcheck
    obtain ⟨folder', hadd, hfolder⟩ := fileListAdd_spec hs hn st
    refine ⟨⟨folder', dir, q, .start, scan⟩, ?_, rfl, rfl, hfolder⟩
    simp [WatchState.proceed, WatchState.monitorStep, WatchState.handle, hcheck, WatchState.next,
      hadd]

/-- **The arrivals after which the list is current**: those of a file that was not listed, or was
listed with the same size, space and time. -/
theorem current_process_iff (hs : s.folder.Lists c) (hmonitor : s.monitor = .start)
    (hq : s.queue = e :: q) (he : e.mask = .closeWrite ∨ e.mask = .movedTo)
    (hst : s.dir e.name = some ⟨st, isReg⟩) (hsize : 0 < st.stSize) :
    (∃ t, s.process = some t ∧ t.queue = q ∧ t.monitor = .start ∧
        Current c t.folder e.name st) ↔
      ∀ x ∈ c.entries, x.filename = e.name → x = newFile e.name st := by
  obtain ⟨t, hprocess, hqueue, hstart, hlists⟩ := process_arrival hs hmonitor hq he hst hsize
  constructor
  · rintro ⟨t', ht', -, -, d, hd, hone, -⟩ x hx hname
    obtain rfl := Option.some.inj (hprocess.symm.trans ht')
    -- the name was listed, so the list is the one of before
    have hn : (newFile e.name st).filename ∈ c.names := mem_names.mpr ⟨x, hx, hname⟩
    rw [insertNew_of_mem hn] at hlists
    obtain rfl := hd.unique hlists
    have hmem : x ∈ [newFile e.name st] := by
      rw [← hone, List.mem_filter]
      exact ⟨hx, decide_eq_true hname⟩
    exact List.mem_singleton.mp hmem
  · intro hsame
    have hmem : newFile e.name st ∈ (c.insertNew (newFile e.name st)).entries := by
      by_cases hn : (newFile e.name st).filename ∈ c.names
      · obtain ⟨x, hx, hname⟩ := mem_names.mp hn
        rw [insertNew_of_mem hn, ← hsame x hx hname]
        exact hx
      · exact (insertNew_perm hn).mem_iff.mpr List.mem_cons_self
    have hothers := erase_insertNew c (newFile e.name st)
    refine ⟨t, hprocess, hqueue, hstart, _, hlists, filter_name_eq hmem, hothers, ?_⟩
    intro used hused hall
    apply hlists.totalSpace_eq
    intro x hx
    by_cases hname : x.filename = e.name
    · -- the entry of this name is the new one
      have hone : x ∈ [newFile e.name st] := by
        rw [← filter_name_eq hmem, List.mem_filter]
        exact ⟨hx, decide_eq_true hname⟩
      obtain rfl := List.mem_singleton.mp hone
      exact hused.symm
    · have hx' : x ∈ (c.erase e.name).entries := by
        rw [← show (c.insertNew (newFile e.name st)).erase e.name = c.erase e.name from hothers,
          erase_entries, List.mem_filter]
        exact ⟨hx, decide_eq_true hname⟩
      rw [erase_entries, List.mem_filter] at hx'
      exact hall x hx'.1 hname

end Arrival

/-- A recording is closed, and its event is the only one. -/
def closing (folder : StrFolder) : WatchState where
  folder := folder
  dir f := if f = "1000.mp4" then some ⟨⟨400, 16, 10⟩, true⟩ else none
  queue := [⟨.closeWrite, "1000.mp4"⟩]
  monitor := .start
  scan := .idle

theorem dir_closing (folder : StrFolder) :
    (closing folder).dir "1000.mp4" = some ⟨⟨400, 16, 10⟩, true⟩ := by
  simp [closing]

/-- The folder after recordings have been added in turn. -/
def listing (fs : List (String × StatBuf)) : StrFolder :=
  (fs.foldlM (fun s f => fileListAdd s f.1 f.2) StrFolder.empty).getD StrFolder.empty

/-- Recordings of different names are all listed. -/
theorem listing_lists {fs : List (String × StatBuf)} (hnodup : (fs.map Prod.fst).Nodup) :
    (listing fs).Lists (Catalogue.empty.insertAll (fs.map fun f => newFile f.1 f.2)) := by
  have hadd : ∀ (gs : List (String × StatBuf)) (s : StrFolder) (c : FileCatalogue), s.Lists c →
      (∀ f ∈ gs, f.1 ∉ c.names) → (gs.map Prod.fst).Nodup →
      ∃ t, gs.foldlM (fun s f => fileListAdd s f.1 f.2) s = some t ∧
        t.Lists (c.insertAll (gs.map fun f => newFile f.1 f.2)) := by
    intro gs
    induction gs with
    | nil => exact fun s c hs _ _ => ⟨s, rfl, hs⟩
    | cons f gs ih =>
      intro s c hs hnew hgs
      rw [List.map_cons, List.nodup_cons] at hgs
      obtain ⟨t, ht, hlists⟩ := fileListAdd_spec hs (hnew f List.mem_cons_self) f.2
      -- the names still to be added are neither listed nor the one that has just been
      have hrest : ∀ g ∈ gs, g.1 ∉ (c.insertNew (newFile f.1 f.2)).names := by
        intro g hg hmem
        rcases mem_names_insertNew.mp hmem with heq | hmem
        · exact hgs.1 (List.mem_map.mpr ⟨g, hg, heq⟩)
        · exact hnew g (List.mem_cons_of_mem f hg) hmem
      obtain ⟨u, hu, hu'⟩ := ih t _ hlists hrest hgs.2
      exact ⟨u, by rw [List.foldlM_cons, ht]; exact hu, hu'⟩
  obtain ⟨t, ht, hlists⟩ :=
    hadd fs StrFolder.empty Catalogue.empty empty_lists (fun _ _ => List.not_mem_nil) hnodup
  rw [listing, ht]
  exact hlists

/-- Another recording was listed, and this one was not. -/
def oneBefore : List (String × StatBuf) := [("999.mp4", ⟨300, 8, 9⟩)]

theorem current_process_iff_closing :
    ∃ t, (closing (listing oneBefore)).process = some t ∧ t.queue = [] ∧ t.monitor = .start ∧
      Current (Catalogue.empty.insertAll (oneBefore.map fun f => newFile f.1 f.2)) t.folder
        "1000.mp4" ⟨400, 16, 10⟩ := by
  have hsize : 0 < (⟨400, 16, 10⟩ : StatBuf).stSize := by decide
  have hs : (listing oneBefore).Lists
      (Catalogue.empty.insertAll (oneBefore.map fun f => newFile f.1 f.2)) :=
    listing_lists (by decide)
  have hother : ∀ x ∈ (Catalogue.empty.insertAll (oneBefore.map fun f => newFile f.1 f.2) :
      FileCatalogue).entries, x.filename = "1000.mp4" → x = newFile "1000.mp4" ⟨400, 16, 10⟩ := by
    decide
  exact (current_process_iff (s := closing (listing oneBefore)) (e := ⟨.closeWrite, "1000.mp4"⟩) hs
    rfl rfl (Or.inl rfl) (dir_closing _) hsize).mpr hother

/-- It was **listed while it was written**, and keeps the size of then. -/
theorem not_current_closing : ∃ folder,
    fileListAdd StrFolder.empty "1000.mp4" ⟨100, 8, 5⟩ = some folder ∧
      ∀ c t, (closing folder).process = some t →
        ¬ Current c t.folder "1000.mp4" ⟨400, 16, 10⟩ := by
  have hnew : "1000.mp4" ∉ (Catalogue.empty : FileCatalogue).names := List.not_mem_nil
  obtain ⟨folder, hadd, hfolder⟩ := fileListAdd_spec empty_lists hnew ⟨100, 8, 5⟩
  have hsize : 0 < (⟨400, 16, 10⟩ : StatBuf).stSize := by decide
  have hs : (closing folder).folder.Lists
      (Catalogue.empty.insertNew (newFile "1000.mp4" ⟨100, 8, 5⟩)) := hfolder
  obtain ⟨t', ht', -, -, hlists⟩ :=
    process_arrival hs rfl rfl (Or.inl rfl) (dir_closing folder) hsize
  refine ⟨folder, hadd, fun c t ht => ?_⟩
  obtain rfl := Option.some.inj (ht.symm.trans ht')
  rintro ⟨d, hd, hone, -⟩
  obtain rfl := hd.unique hlists
  exact absurd hone (by decide)

/-! ## The list is given out -/

/-- `rkipc_sort_type`. -/
inductive SortType
  | ascending
  | descending
  | butt
deriving DecidableEq, Repr

/-- `rkipc_fileinfo`; nothing is done with `thumb`. -/
structure Fileinfo where
  filename : String
  size : ℕ
  time : ℤ
deriving DecidableEq, Repr

/-- What is copied of a node. -/
def StrFile.info (x : StrFile) : Fileinfo := ⟨x.filename, x.size, x.time⟩

/-- A `rkipc_fileinfo` after `memset(.., 0, ..)`. -/
def Fileinfo.zero : Fileinfo := ⟨"", 0, 0⟩

/-- `rkipc_filelist`. -/
structure Filelist where
  path : String
  fileNum : ℕ
  file : Option (List Fileinfo)

/-- A folder of the device, with its path and its mutex. -/
structure DevFolder where
  cpath : String
  mutex : Bool
  folder : StrFolder

/-- Either loop over the list, with `k` rounds to go: `j` is `slot` of the rounds that are to go
after this one. -/
def fillLoop (h : Heap StrFile) (slot : ℕ → ℕ) :
    ℕ → Option ℕ → List Fileinfo → Option (List Fileinfo)
  | 0, _, file => some file
  | _ + 1, none, file => some file
  | k + 1, some tmp, file => do
    let n ← h.load tmp
    fillLoop h slot k n.next (file.set (slot k) n.val.info)

/-- The critical section of `rkipc_storage_get_file_list`; `allocated` is whether `malloc`
succeeds. -/
def getFromFolder (allocated : Bool) (list : Filelist) (sort : SortType) (d : DevFolder) :
    Option (ℤ × Filelist × DevFolder) := do
  -- `pthread_mutex_lock`, which waits for ever if nobody gives the mutex back
  let d ← if d.mutex then none else some { d with mutex := true }
  let num := d.folder.fileNum
  if !allocated then
    -- the mutex is not given back
    some (-1, { list with fileNum := num, file := none }, d)
  else
    let zeros := List.replicate num Fileinfo.zero
    let file ←
      if sort = .ascending then
        fillLoop d.folder.heap (fun k => num - 1 - k) num d.folder.fileListFirst zeros
      else fillLoop d.folder.heap (fun k => k) num d.folder.fileListFirst zeros
    some (0, { list with fileNum := num, file := some file }, { d with mutex := false })

/-- **`rkipc_storage_get_file_list`**, over the folders of the device. -/
def getFileList (allocated : Bool) (list : Filelist) (sort : SortType) :
    List DevFolder → Option (ℤ × Filelist × List DevFolder)
  | [] => some (-1, list, [])
  | d :: ds =>
    if list.path = d.cpath then
      (getFromFolder allocated list sort d).map fun r => (r.1, r.2.1, r.2.2 :: ds)
    else (getFileList allocated list sort ds).map fun r => (r.1, r.2.1, d :: r.2.2)

/-- **In the order asked for.** -/
def Ordered : SortType → List Fileinfo → Prop
  | .ascending, file => file.Pairwise fun x y => x.time ≤ y.time
  | .descending, file => file.Pairwise fun x y => y.time ≤ x.time
  | .butt, _ => True

/-- **What is asked of an answer** for a folder that lists `c`: if there is memory for it, every
listed file stands in it once, in the order asked for, and no mutex is held afterwards. -/
structure Answered (allocated : Bool) (sort : SortType) (c : FileCatalogue)
    (r : ℤ × Filelist × List DevFolder) : Prop where
  listed : allocated = true → r.1 = 0 ∧ r.2.1.fileNum = c.entries.length ∧
    ∃ file, r.2.1.file = some file ∧ file.Perm (c.entries.map StrFile.info) ∧ Ordered sort file
  released : ∀ d ∈ r.2.2, d.mutex = false

section Answer

variable {h : Heap StrFile} {l : List (ℕ × StrFile)} {p : Option ℕ}

/-- The loop of `LIST_ASCENDING` fills the array from the front. -/
theorem fillLoop_forwards {num : ℕ} (pre : List Fileinfo) (hl : Chain h p l)
    (hnum : pre.length + l.length = num) :
    fillLoop h (fun k => num - 1 - k) l.length p
        (pre ++ List.replicate l.length Fileinfo.zero) =
      some (pre ++ l.map fun x => x.2.info) := by
  induction l generalizing p pre with
  | nil => rfl
  | cons x l ih =>
    obtain ⟨a, x⟩ := x
    obtain ⟨rfl, q, hload, hl⟩ := Chain.cons_iff.mp hl
    rw [List.length_cons] at hnum
    have hslot : num - 1 - l.length = pre.length := by omega
    have hset : (pre ++ List.replicate (l.length + 1) Fileinfo.zero).set pre.length x.info =
        (pre ++ [x.info]) ++ List.replicate l.length Fileinfo.zero := by
      rw [List.replicate_succ, List.set_append_right _ _ (le_refl _), Nat.sub_self,
        List.set_cons_zero, List.append_assoc, List.singleton_append]
    rw [List.length_cons, fillLoop, hload, Option.bind_eq_bind, Option.bind_some, hslot, hset,
      ih _ hl (by rw [List.length_append, List.length_singleton]; omega), List.append_assoc]
    rfl

/-- The other loop fills it from the back. -/
theorem fillLoop_backwards (post : List Fileinfo) (hl : Chain h p l) :
    fillLoop h (fun k => k) l.length p (List.replicate l.length Fileinfo.zero ++ post) =
      some ((l.map fun x => x.2.info).reverse ++ post) := by
  induction l generalizing p post with
  | nil => rfl
  | cons x l ih =>
    obtain ⟨a, x⟩ := x
    obtain ⟨rfl, q, hload, hl⟩ := Chain.cons_iff.mp hl
    have hset : (List.replicate (l.length + 1) Fileinfo.zero ++ post).set l.length x.info =
        List.replicate l.length Fileinfo.zero ++ (x.info :: post) := by
      rw [List.replicate_succ', List.append_assoc, List.set_append_right _ _ (by simp)]
      simp
    rw [List.length_cons, fillLoop, hload, Option.bind_eq_bind, Option.bind_some, hset, ih _ hl,
      List.map_cons, List.reverse_cons, List.append_assoc]
    rfl

variable {c : FileCatalogue} {d : DevFolder} {ds : List DevFolder} {list : Filelist}
  {sort : SortType} {allocated : Bool}

/-- The files in the order in which the array has them. -/
def inArray (sort : SortType) (c : FileCatalogue) : List Fileinfo :=
  if sort = .ascending then c.entries.map StrFile.info else (c.entries.map StrFile.info).reverse

/-- The critical section fills the array, if it is allocated, and keeps the mutex otherwise. -/
theorem getFromFolder_eq (hs : d.folder.Lists c) (hmutex : d.mutex = false) :
    getFromFolder allocated list sort d = some (
      if allocated then (0, ⟨list.path, c.entries.length, some (inArray sort c)⟩, d)
      else (-1, ⟨list.path, c.entries.length, none⟩, { d with mutex := true })) := by
  obtain ⟨l, hl, hm, -⟩ := hs.nodes
  obtain ⟨cpath, mutex, folder⟩ := d
  dsimp only at hs hmutex hl
  subst hmutex
  have hnum : folder.fileNum = l.length := by rw [hs.fileNum, ← hm, List.length_map]
  have hlen : c.entries.length = l.length := by rw [← hm, List.length_map]
  have hinfo : c.entries.map StrFile.info = l.map fun x => x.2.info := by
    rw [← hm, List.map_map]
    rfl
  have hforwards := fillLoop_forwards [] hl (Nat.zero_add _)
  have hbackwards := fillLoop_backwards [] hl
  rw [List.nil_append, List.nil_append] at hforwards
  rw [List.append_nil, List.append_nil] at hbackwards
  cases allocated with
  | false => simp [getFromFolder, hnum, hlen]
  | true =>
    by_cases hsort : sort = .ascending
    · simp [getFromFolder, hnum, hlen, hsort, inArray, hinfo, hforwards]
    · simp [getFromFolder, hnum, hlen, hsort, inArray, hinfo, hbackwards]

/-- The array is in the order asked for if all files have one time. -/
theorem ordered_inArray_iff (hsort : sort ≠ .butt) : Ordered sort (inArray sort c) ↔
    ∀ x ∈ c.entries, ∀ y ∈ c.entries, x.time = y.time := by
  rw [← Catalogue.oldestFirst_iff]
  cases sort with
  | ascending => exact List.pairwise_map
  | descending =>
    rw [inArray, if_neg nofun, Ordered, List.pairwise_reverse]
    exact List.pairwise_map
  | butt => exact absurd rfl hsort

theorem perm_inArray : (inArray sort c).Perm (c.entries.map StrFile.info) := by
  unfold inArray
  split
  · exact List.Perm.refl _
  · exact List.reverse_perm _

/-- The folder asked for is the first one of its path, and the others are left alone. -/
theorem getFileList_of_find (allocated : Bool) (sort : SortType)
    (hfind : ds.find? (fun d => list.path = d.cpath) = some d) :
    ∃ pre post, ds = pre ++ d :: post ∧ getFileList allocated list sort ds =
      (getFromFolder allocated list sort d).map fun r => (r.1, r.2.1, pre ++ r.2.2 :: post) := by
  induction ds with
  | nil => cases hfind
  | cons d' ds ih =>
    by_cases hpath : list.path = d'.cpath
    · rw [List.find?_cons_of_pos (by simpa using hpath)] at hfind
      obtain rfl := Option.some.inj hfind
      exact ⟨[], ds, rfl, by rw [getFileList, if_pos hpath]; rfl⟩
    · rw [List.find?_cons_of_neg (by simpa using hpath)] at hfind
      obtain ⟨pre, post, rfl, hget⟩ := ih hfind
      refine ⟨d' :: pre, post, rfl, ?_⟩
      rw [getFileList, if_neg hpath, hget, Option.map_map]
      rfl

/-- **The answers that are right**: those for which there was memory, from a folder whose files all
have one time. -/
theorem answered_getFileList_iff (hfind : ds.find? (fun d => list.path = d.cpath) = some d)
    (hs : d.folder.Lists c) (hmutex : ∀ d ∈ ds, d.mutex = false) (hsort : sort ≠ .butt) :
    (∃ r, getFileList allocated list sort ds = some r ∧ Answered allocated sort c r) ↔
      allocated = true ∧ ∀ x ∈ c.entries, ∀ y ∈ c.entries, x.time = y.time := by
  obtain ⟨pre, post, rfl, hget⟩ := getFileList_of_find allocated sort hfind
  rw [hget, getFromFolder_eq hs (hmutex d (by simp)), Option.map_some]
  constructor
  · rintro ⟨r, hr, hanswered⟩
    obtain rfl := Option.some.inj hr
    cases allocated with
    | false => exact absurd (hanswered.released { d with mutex := true } (by simp)) nofun
    | true =>
      obtain ⟨-, -, file, hfile, -, hordered⟩ := hanswered.listed rfl
      obtain rfl := Option.some.inj hfile
      exact ⟨rfl, (ordered_inArray_iff hsort).mp hordered⟩
  · rintro ⟨rfl, htime⟩
    refine ⟨_, rfl, fun _ => ⟨rfl, rfl, _, rfl, perm_inArray, ?_⟩, hmutex⟩
    exact (ordered_inArray_iff hsort).mpr htime

end Answer

/-- Two recordings, one after the other. -/
def twoInTurn : StrFolder :=
  ((fileListAdd StrFolder.empty "1.mp4" ⟨1, 1, 1⟩).bind
    (fileListAdd · "2.mp4" ⟨1, 1, 2⟩)).getD StrFolder.empty

/-- Two photos of one second. -/
def twoAtOnce : List (String × StatBuf) := [("a.jpeg", ⟨70, 8, 5⟩), ("b.jpeg", ⟨90, 16, 5⟩)]

theorem answered_getFileList_iff_twoAtOnce :
    ∃ r, getFileList true ⟨"/p", 0, none⟩ .descending
        [⟨"/v", false, StrFolder.empty⟩, ⟨"/p", false, listing twoAtOnce⟩] = some r ∧
      Answered true .descending
        (Catalogue.empty.insertAll (twoAtOnce.map fun f => newFile f.1 f.2)) r := by
  have hfind : [(⟨"/v", false, StrFolder.empty⟩ : DevFolder),
      ⟨"/p", false, listing twoAtOnce⟩].find? (fun d => "/p" = d.cpath) =
        some ⟨"/p", false, listing twoAtOnce⟩ := rfl
  have hmutex : ∀ d ∈ [(⟨"/v", false, StrFolder.empty⟩ : DevFolder),
      ⟨"/p", false, listing twoAtOnce⟩], d.mutex = false := by
    simp
  have hlists : (listing twoAtOnce).Lists
      (Catalogue.empty.insertAll (twoAtOnce.map fun f => newFile f.1 f.2)) :=
    listing_lists (by decide)
  have htime : ∀ x ∈ (Catalogue.empty.insertAll (twoAtOnce.map fun f => newFile f.1 f.2) :
      FileCatalogue).entries, ∀ y ∈ (Catalogue.empty.insertAll
        (twoAtOnce.map fun f => newFile f.1 f.2) : FileCatalogue).entries, x.time = y.time := by
    decide
  exact (answered_getFileList_iff hfind hlists hmutex (by decide)).mpr ⟨rfl, htime⟩

/-- **The newest file comes first** in a list in ascending order, and a failed allocation keeps the
mutex. -/
theorem getFileList_wrong :
    (∃ file ds, getFileList true ⟨"/v", 0, none⟩ .ascending [⟨"/v", false, twoInTurn⟩] =
      some (0, ⟨"/v", 2, some file⟩, ds) ∧ ¬ Ordered .ascending file) ∧
    ∃ d, getFileList false ⟨"/v", 0, none⟩ .ascending [⟨"/v", false, twoInTurn⟩] =
      some (-1, ⟨"/v", 2, none⟩, [d]) ∧ d.mutex = true := by
  refine ⟨⟨[⟨"2.mp4", 1, 2⟩, ⟨"1.mp4", 1, 1⟩], _, rfl, ?_⟩, _, rfl, rfl⟩
  simp [Ordered]

end RkIpc.Storage
