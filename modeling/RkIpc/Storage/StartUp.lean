import Mathlib.Data.List.Nodup
import Mathlib.Logic.Function.Basic
import RkIpc.Storage.FolderRun

/-!
# From the first reading of a folder to its watch

`rkipc_storage_file_scan_thread` reads every folder into its list and only then creates the
monitor thread, which registers the inotify watches one folder after the other. The recorder goes
on closing files meanwhile. A file closed after its folder was opened may or may not be returned
by `readdir`, as the directory stream pleases, and the reader gives up after `limit + 301`
entries.

`lstat` succeeds, and the card stays mounted.

## Main definitions

* `StartUp`, `StartAction`, `StartUp.step`: the folders, the two threads and the recorder
* `StartUp.NothingMissed`: the list names every regular file of the directory

## Main results

* `startUp_lists`: at the watch the list names every file there when the directory was opened,
  unless the reader gave up
* `startUp_misses`: with more regular files than the reader takes, some file is never listed
* `exists_run_watch`: a start-up without a recorder comes to the watch
-/

namespace RkIpc.Storage

open LinkedList Catalogue Transition

/-- A directory stream: what the directory held when it was opened, what `readdir` has returned,
and what it will return. -/
structure DirStream where
  opened : List Dirent
  returned : List Dirent
  rest : List Dirent

/-- Put `x` in at some place. -/
def insertAt {α : Type*} (k : ℕ) (x : α) (l : List α) : List α := l.take k ++ x :: l.drop k

theorem insertAt_perm {α : Type*} (k : ℕ) (x : α) (l : List α) :
    (insertAt k x l).Perm (x :: l) := by
  have h : (l.take k ++ x :: l.drop k).Perm (x :: (l.take k ++ l.drop k)) := List.perm_middle
  rwa [List.take_append_drop] at h

/-- A new entry may still turn up in the stream, at any place. -/
def DirStream.offer (d : DirStream) (ptr : Dirent) : Option ℕ → DirStream
  | none => d
  | some k => { d with rest := insertAt k ptr d.rest }

/-- A folder at start-up: its directory, its list, and the stream once it has been opened. -/
structure StartFolder where
  entries : List Dirent
  stat : String → StatBuf
  folder : StrFolder
  stream : Option DirStream

/-- Where the scan thread stands. -/
inductive StartPc
  /-- about to open folder `i`; past the last one, about to create the monitor thread -/
  | folder (i : ℕ)
  /-- in the `readdir` loop of folder `i` -/
  | reading (i : ℕ)
  /-- the monitor thread has been created -/
  | created
deriving DecidableEq

/-- The folders, the scan thread, and how many watches the monitor thread has registered. -/
structure StartUp where
  folders : ℕ → StartFolder
  scan : StartPc
  watches : ℕ

/-- What can happen next. The recorder closes a file, which takes some place in the directory and,
while that is being read, perhaps a place in the stream. -/
inductive StartAction
  | close (i : ℕ) (name : String) (statbuf : StatBuf) (place : ℕ) (seen : Option ℕ)
  | opendir (ok : Bool)
  | readdir
  | createMonitor
  | addWatch

namespace StartUp

/-- The folder `i` changes. -/
def setFolder (s : StartUp) (i : ℕ) (f : StartFolder) : StartUp :=
  { s with folders := Function.update s.folders i f }

/-- The recorder closes, or moves in, a non-empty file: a new one, or in the place of a file. -/
def close (s : StartUp) (i : ℕ) (name : String) (statbuf : StatBuf) (place : ℕ)
    (seen : Option ℕ) : Option StartUp :=
  let f := s.folders i
  let ptr : Dirent := ⟨name, 8⟩
  if statbuf.stSize = 0 ∨ name = "." ∨ name = ".." then none
  -- the name is there as a regular file: it is written again
  else if ptr ∈ f.entries then
    some (s.setFolder i { f with stat := Function.update f.stat name statbuf })
  -- the name is there as something else, say a directory
  else if name ∈ f.entries.map Dirent.dName then none
  else
    some (s.setFolder i
      { f with
        entries := insertAt place ptr f.entries
        stat := Function.update f.stat name statbuf
        stream := if s.scan = .reading i then f.stream.map fun d => d.offer ptr seen
          else f.stream })

/-- `opendir`, and the loop that clears the list. -/
def opendir (folderNum : ℕ) (s : StartUp) (ok : Bool) : Option StartUp :=
  match s.scan with
  | .folder i =>
    if i < folderNum then
      if ok then do
        let f := s.folders i
        let folder ← clearLoop f.folder.heap.brk f.folder
        some { s.setFolder i
          { f with folder := folder, stream := some ⟨f.entries, [], f.entries⟩ } with
            scan := .reading i }
      else some { s with scan := .folder (i + 1) }
    else none
  | _ => none

/-- One round of the `readdir` loop; `file_count` is the number of entries returned before. -/
def readdir (attr : ℕ → StrFolderAttr) (s : StartUp) : Option StartUp :=
  match s.scan with
  | .reading i =>
    let f := s.folders i
    match f.stream with
    | none => none
    | some d =>
      match d.rest with
      -- `readdir` returns null
      | [] => some { s with scan := .folder (i + 1) }
      | ptr :: rest =>
        let stream := some { d with returned := d.returned ++ [ptr], rest := rest }
        if readStops (attr i).limit d.returned.length then
          some { s.setFolder i { f with stream := stream } with scan := .folder (i + 1) }
        else do
          let folder ← readEntry f.folder ptr (some (f.stat ptr.dName))
          some (s.setFolder i { f with folder := folder, stream := stream })
  | _ => none

/-- `pthread_create(&fileMonitorTid, ..)`. -/
def createMonitor (folderNum : ℕ) (s : StartUp) : Option StartUp :=
  if s.scan = .folder folderNum then some { s with scan := .created } else none

/-- The monitor thread registers the next watch. -/
def addWatch (folderNum : ℕ) (s : StartUp) : Option StartUp :=
  if s.scan = .created ∧ s.watches < folderNum then some { s with watches := s.watches + 1 }
  else none

/-- The state after an action; `none` when it cannot be taken. -/
def step (folderNum : ℕ) (attr : ℕ → StrFolderAttr) (s : StartUp) :
    StartAction → Option StartUp
  | .close i name statbuf place seen => s.close i name statbuf place seen
  | .opendir ok => s.opendir folderNum ok
  | .readdir => s.readdir attr
  | .createMonitor => s.createMonitor folderNum
  | .addWatch => s.addWatch folderNum

end StartUp

/-! ## What has been read is listed -/

/-- **The invariant of a folder**: its list names the regular files among the entries the reader
has taken; the stream returns each entry once, and all that was there when it was opened. -/
structure StartFolder.Inv (limit : ℤ) (f : StartFolder) : Prop where
  nodup : (f.entries.map Dirent.dName).Nodup
  dots : ∀ {n : String}, ⟨n, 8⟩ ∈ f.entries → n ≠ "." ∧ n ≠ ".."
  lists : ∃ c : FileCatalogue, f.folder.Lists c ∧
    ∀ n, n ∈ c.names ↔ ∃ d ∈ f.stream, ⟨n, 8⟩ ∈ d.returned.take (readLimit limit)
  streamNodup : ∀ d ∈ f.stream, ((d.returned ++ d.rest).map Dirent.dName).Nodup
  streamSub : ∀ d ∈ f.stream, d.returned ++ d.rest ⊆ f.entries
  opened : ∀ d ∈ f.stream, d.opened ⊆ d.returned ++ d.rest

namespace StartFolder

variable {limit : ℤ} {f : StartFolder}

/-- A file written again keeps its entry. -/
theorem Inv.setStat (hf : f.Inv limit) (g : String → StatBuf) :
    ({ f with stat := g } : StartFolder).Inv limit :=
  ⟨hf.nodup, hf.dots, hf.lists, hf.streamNodup, hf.streamSub, hf.opened⟩

/-- A new file takes its place in the directory. -/
theorem Inv.insert (hf : f.Inv limit) {name : String} (hname : name ∉ f.entries.map Dirent.dName)
    (hdots : name ≠ "." ∧ name ≠ "..") (k : ℕ) (g : String → StatBuf) :
    ({ f with entries := insertAt k ⟨name, 8⟩ f.entries, stat := g } : StartFolder).Inv limit where
  nodup := by
    rw [((insertAt_perm k _ _).map Dirent.dName).nodup_iff]
    exact List.nodup_cons.mpr ⟨hname, hf.nodup⟩
  dots := by
    intro n hn
    rcases List.mem_cons.mp ((insertAt_perm k _ _).mem_iff.mp hn) with he | hn
    · cases he
      exact hdots
    · exact hf.dots hn
  lists := hf.lists
  streamNodup := hf.streamNodup
  streamSub := fun d hd e he =>
    (insertAt_perm k _ _).mem_iff.mpr (List.mem_cons_of_mem _ (hf.streamSub d hd he))
  opened := hf.opened

/-- A new file may turn up in the stream. -/
theorem Inv.offer {name : String} {k : ℕ} {g : String → StatBuf} (hf : f.Inv limit)
    (hname : name ∉ f.entries.map Dirent.dName) (hdots : name ≠ "." ∧ name ≠ "..")
    (seen : Option ℕ) :
    ({ f with
        entries := insertAt k ⟨name, 8⟩ f.entries
        stat := g
        stream := f.stream.map fun d => d.offer ⟨name, 8⟩ seen } : StartFolder).Inv limit := by
  have hins := hf.insert hname hdots k g
  cases seen with
  | none => simpa [DirStream.offer] using hins
  | some m =>
    -- the stream has one entry more, at some place
    have hperm : ∀ d : DirStream, (d.returned ++ insertAt m ⟨name, 8⟩ d.rest).Perm
        (⟨name, 8⟩ :: (d.returned ++ d.rest)) := fun d =>
      ((insertAt_perm m _ _).append_left _).trans List.perm_middle
    refine ⟨hins.nodup, hins.dots, ?_, ?_, ?_, ?_⟩
    · obtain ⟨c, hc, hnames⟩ := hf.lists
      refine ⟨c, hc, fun n => (hnames n).trans ?_⟩
      simp [DirStream.offer]
    · rintro d hd
      obtain ⟨d, hd', rfl⟩ := Option.map_eq_some_iff.mp hd
      show ((d.returned ++ insertAt m ⟨name, 8⟩ d.rest).map Dirent.dName).Nodup
      rw [((hperm d).map Dirent.dName).nodup_iff]
      -- its name is not in the directory yet, so not in the stream
      refine List.nodup_cons.mpr ⟨fun h => hname ?_, hf.streamNodup d hd'⟩
      exact List.map_subset _ (hf.streamSub d hd') h
    · rintro d hd e he
      obtain ⟨d, hd', rfl⟩ := Option.map_eq_some_iff.mp hd
      apply (insertAt_perm k _ _).mem_iff.mpr
      -- an entry of the stream is the new one or was there before
      rcases List.mem_cons.mp ((hperm d).mem_iff.mp he) with rfl | he
      · exact List.mem_cons_self ..
      · exact List.mem_cons_of_mem _ (hf.streamSub d hd' he)
    · rintro d hd e he
      obtain ⟨d, hd', rfl⟩ := Option.map_eq_some_iff.mp hd
      exact (hperm d).mem_iff.mpr (List.mem_cons_of_mem _ (hf.opened d hd' he))

/-- The directory is opened, and the list cleared. -/
theorem Inv.opendir (hf : f.Inv limit) :
    ∃ folder, clearLoop f.folder.heap.brk f.folder = some folder ∧
      ({ f with folder := folder, stream := some ⟨f.entries, [], f.entries⟩ } : StartFolder).Inv
        limit := by
  obtain ⟨c, hc, -⟩ := hf.lists
  obtain ⟨folder, hclear, hfolder⟩ := clearLoop_spec hc hc.length_le_brk
  refine ⟨folder, hclear, hf.nodup, hf.dots, ⟨_, hfolder, by simp [names]⟩, ?_, ?_, ?_⟩
  · rintro _ ⟨⟩
    exact hf.nodup
  · rintro _ ⟨⟩
    exact fun _ he => he
  · rintro _ ⟨⟩
    exact fun _ he => he

/-- The stream after one more entry has been returned. -/
theorem Inv.returned {d : DirStream} {ptr : Dirent} {rest : List Dirent} {folder : StrFolder}
    (hf : f.Inv limit) (hd : f.stream = some d) (hrest : d.rest = ptr :: rest)
    (hlists : ∃ c : FileCatalogue, folder.Lists c ∧
      ∀ n, n ∈ c.names ↔ ⟨n, 8⟩ ∈ (d.returned ++ [ptr]).take (readLimit limit)) :
    ({ f with
        folder := folder
        stream := some { d with returned := d.returned ++ [ptr], rest := rest } } :
      StartFolder).Inv limit := by
  have happend : d.returned ++ [ptr] ++ rest = d.returned ++ d.rest := by simp [hrest]
  obtain ⟨c, hc, hnames⟩ := hlists
  refine ⟨hf.nodup, hf.dots, ⟨c, hc, by simpa using hnames⟩, ?_, ?_, ?_⟩
  · rintro _ ⟨⟩
    rw [happend]
    exact hf.streamNodup d hd
  · rintro _ ⟨⟩
    rw [happend]
    exact hf.streamSub d hd
  · rintro _ ⟨⟩
    rw [happend]
    exact hf.opened d hd

/-- An entry is taken: a regular file is listed. -/
theorem Inv.readEntry {d : DirStream} {ptr : Dirent} {rest : List Dirent} (hf : f.Inv limit)
    (hd : f.stream = some d) (hrest : d.rest = ptr :: rest)
    (hgo : d.returned.length < readLimit limit) :
    ∃ folder, readEntry f.folder ptr (some (f.stat ptr.dName)) = some folder ∧
      ({ f with
          folder := folder
          stream := some { d with returned := d.returned ++ [ptr], rest := rest } } :
        StartFolder).Inv limit := by
  obtain ⟨c, hc, hnames⟩ := hf.lists
  -- the reader has not given up, so it has taken all that was returned
  have htake : d.returned.take (readLimit limit) = d.returned :=
    List.take_of_length_le (Nat.le_of_lt hgo)
  have hnd := hf.streamNodup d hd
  rw [hrest, List.map_append, List.map_cons, List.nodup_append] at hnd
  -- the entry has not been returned before
  have hnew : ptr.dName ∉ c.names := by
    intro hn
    obtain ⟨d', hd', hmem⟩ := (hnames _).mp hn
    obtain rfl : d = d' := Option.some.inj (hd.symm.trans hd')
    rw [htake] at hmem
    exact hnd.2.2 _ (List.mem_map_of_mem hmem) _ (List.mem_cons_self ..) rfl
  obtain ⟨folder, hread, hfolder⟩ := readEntry_spec hc ptr (some (f.stat ptr.dName)) hnew
  refine ⟨folder, hread, hf.returned hd hrest ⟨_, hfolder, fun n => ?_⟩⟩
  have htake' : (d.returned ++ [ptr]).take (readLimit limit) = d.returned ++ [ptr] :=
    List.take_of_length_le (by simpa using Nat.succ_le_of_lt hgo)
  rw [mem_names_insertAll, hnames, htake', or_comm, List.mem_append, List.mem_singleton]
  -- the names listed before, and the entry now taken if it is a regular file
  apply or_congr (by simp [hd, htake])
  have hmem : ptr ∈ f.entries := hf.streamSub d hd (by simp [hrest])
  obtain ⟨name, type⟩ := ptr
  unfold entryFile
  rcases eq_or_ne type 8 with htype | htype
  · subst htype
    rw [if_neg (not_or.mpr (hf.dots hmem)), if_pos rfl]
    simp [newFile]
  · have hne : (⟨n, 8⟩ : Dirent) ≠ ⟨name, type⟩ := fun h => htype (by cases h; rfl)
    simp [htype, hne]

end StartFolder

namespace StartUp

variable {folderNum : ℕ} {attr : ℕ → StrFolderAttr} {s t : StartUp}

/-- **The invariant**: that of every folder; a stream that is not being read any more is at its
end, or the reader has given up on it; and no watch is registered before the last folder is read. -/
structure Inv (attr : ℕ → StrFolderAttr) (s : StartUp) : Prop where
  folders : ∀ i, (s.folders i).Inv (attr i).limit
  finished : ∀ i, s.scan ≠ .reading i → ∀ d ∈ (s.folders i).stream,
    d.rest = [] ∨ readLimit (attr i).limit < d.returned.length
  watches : s.watches = 0 ∨ s.scan = .created

theorem setFolder_same (s : StartUp) (i : ℕ) (f : StartFolder) :
    (s.setFolder i f).folders i = f := Function.update_self ..

theorem setFolder_of_ne (s : StartUp) {i j : ℕ} (f : StartFolder) (hij : j ≠ i) :
    (s.setFolder i f).folders j = s.folders j := Function.update_of_ne hij ..

theorem setFolder_entries (s : StartUp) {i : ℕ} {f : StartFolder}
    (hf : f.entries = (s.folders i).entries) (j : ℕ) :
    ((s.setFolder i f).folders j).entries = (s.folders j).entries := by
  -- the folder changed, and the others
  rcases eq_or_ne j i with rfl | hij
  · rw [setFolder_same, hf]
  · rw [setFolder_of_ne s f hij]

/-- Every folder keeps its invariant when the one that changes does. -/
theorem Inv.setFolder_folders (hs : s.Inv attr) {i : ℕ} {f : StartFolder}
    (hf : f.Inv (attr i).limit) (j : ℕ) : ((s.setFolder i f).folders j).Inv (attr j).limit := by
  rcases eq_or_ne j i with rfl | hij
  · rwa [setFolder_same]
  · rw [setFolder_of_ne s f hij]
    exact hs.folders j

/-- A change of a folder that leaves alone the streams that are not being read. -/
theorem Inv.setFolder (hs : s.Inv attr) {i : ℕ} {f : StartFolder} (hf : f.Inv (attr i).limit)
    (hstream : s.scan ≠ .reading i → f.stream = (s.folders i).stream) :
    (s.setFolder i f).Inv attr where
  folders := hs.setFolder_folders hf
  finished := by
    intro j hj d hd
    rcases eq_or_ne j i with rfl | hij
    · rw [setFolder_same, hstream hj] at hd
      exact hs.finished j hj d hd
    · rw [setFolder_of_ne s f hij] at hd
      exact hs.finished j hj d hd
  watches := hs.watches

/-- The scan thread turns to another folder; what it leaves is finished. -/
theorem Inv.setScan (hs : s.Inv attr) (pc : StartPc) (hw : s.scan ≠ .created)
    (hfinished : ∀ i, s.scan = .reading i → ∀ d ∈ (s.folders i).stream,
      d.rest = [] ∨ readLimit (attr i).limit < d.returned.length) :
    ({ s with scan := pc } : StartUp).Inv attr where
  folders := hs.folders
  finished := by
    intro j _ d hd
    -- the folder that is left, and those left before
    rcases eq_or_ne s.scan (.reading j) with hj | hj
    · exact hfinished j hj d hd
    · exact hs.finished j hj d hd
  watches := Or.inl (hs.watches.resolve_right hw)

theorem Inv.close {i : ℕ} {name : String} {statbuf : StatBuf} {place : ℕ} {seen : Option ℕ}
    (hs : s.Inv attr) (ht : s.close i name statbuf place seen = some t) : t.Inv attr := by
  unfold StartUp.close at ht
  simp only at ht
  -- written again; new and offered to the open stream; new in another folder
  split_ifs at ht with hok hmem hname hread
  · obtain rfl := Option.some.inj ht
    exact hs.setFolder ((hs.folders i).setStat _) fun _ => rfl
  · obtain rfl := Option.some.inj ht
    exact hs.setFolder ((hs.folders i).offer hname (by tauto) seen) fun h => absurd hread h
  · obtain rfl := Option.some.inj ht
    exact hs.setFolder ((hs.folders i).insert hname (by tauto) _ _) fun _ => rfl

theorem Inv.opendir {ok : Bool} (hs : s.Inv attr) (ht : s.opendir folderNum ok = some t) :
    t.Inv attr := by
  unfold StartUp.opendir at ht
  split at ht
  · next i hscan =>
    split_ifs at ht
    · obtain ⟨folder, hclear, hf⟩ := (hs.folders i).opendir
      simp only [hclear, Option.bind_eq_bind, Option.bind_some] at ht
      obtain rfl := Option.some.inj ht
      refine ⟨hs.setFolder_folders hf, fun j hj d hd => ?_, Or.inl ?_⟩
      -- the other streams are not touched
      · have hij : j ≠ i := fun h => hj (h ▸ rfl)
        change d ∈ ((s.setFolder i _).folders j).stream at hd
        rw [setFolder_of_ne s _ hij] at hd
        exact hs.finished j (by simp [hscan]) d hd
      · exact hs.watches.resolve_right (by simp [hscan])
    · obtain rfl := Option.some.inj ht
      exact hs.setScan _ (by simp [hscan]) (by simp [hscan])
  · cases ht

/-- One round of the reader: it never fails, and it either goes on or leaves the folder. -/
theorem Inv.readdir {i : ℕ} (hs : s.Inv attr) (hscan : s.scan = .reading i)
    {d : DirStream} (hd : (s.folders i).stream = some d) :
    ∃ t, s.readdir attr = some t ∧ t.Inv attr ∧ t.watches = s.watches ∧
      (∀ j, (t.folders j).entries = (s.folders j).entries) ∧
      (t.scan = .folder (i + 1) ∨ t.scan = .reading i ∧ ∃ d', (t.folders i).stream = some d' ∧
        d'.rest.length < d.rest.length) := by
  cases hrest : d.rest with
  | nil =>
    -- the stream is at its end
    refine ⟨{ s with scan := .folder (i + 1) }, by simp [StartUp.readdir, hscan, hd, hrest],
      hs.setScan _ (by simp [hscan]) ?_, rfl, fun _ => rfl, Or.inl rfl⟩
    intro j hj d' hd'
    obtain rfl : i = j := by simpa [hscan] using hj
    obtain rfl : d = d' := Option.some.inj (hd.symm.trans hd')
    exact Or.inl hrest
  | cons ptr rest =>
    set stream : Option DirStream := some { d with returned := d.returned ++ [ptr], rest := rest }
    by_cases hstop : readLimit (attr i).limit ≤ d.returned.length
    · -- the reader gives up: the entry was returned, but is not taken
      obtain ⟨c, hc, hnames⟩ := (hs.folders i).lists
      have hf := (hs.folders i).returned hd hrest ⟨c, hc, fun n => by
        rw [hnames, List.take_append_of_le_length hstop]
        simp [hd]⟩
      have hs' := hs.setFolder hf fun h => absurd hscan h
      refine ⟨{ s.setFolder i { s.folders i with stream := stream } with scan := .folder (i + 1) },
        by simp [StartUp.readdir, hscan, hd, hrest, readStops_iff.mpr hstop, stream],
        hs'.setScan _ (by simp [StartUp.setFolder, hscan]) ?_, rfl, setFolder_entries s rfl,
        Or.inl rfl⟩
      intro j hj d' hd'
      obtain rfl : i = j := by simpa [StartUp.setFolder, hscan] using hj
      rw [setFolder_same] at hd'
      obtain rfl := Option.some.inj hd'
      apply Or.inr
      simpa using Nat.lt_succ_of_le hstop
    -- the entry is taken, and the stream is one shorter
    · have hgo : readStops (attr i).limit d.returned.length = false := by
        rw [← Bool.not_eq_true, readStops_iff]
        exact hstop
      obtain ⟨folder, hread, hf⟩ := (hs.folders i).readEntry hd hrest (not_le.mp hstop)
      refine ⟨s.setFolder i { s.folders i with folder := folder, stream := stream },
        by simp [StartUp.readdir, hscan, hd, hrest, hgo, hread, stream],
        hs.setFolder hf fun h => absurd hscan h, rfl, setFolder_entries s rfl,
        Or.inr ⟨hscan, _, by rw [setFolder_same], ?_⟩⟩
      simp

/-- **Every step keeps the invariant.** -/
theorem Inv.step {a : StartAction} (hs : s.Inv attr)
    (ht : s.step folderNum attr a = some t) : t.Inv attr := by
  cases a with
  | close i name statbuf place seen => exact hs.close ht
  | opendir ok => exact hs.opendir ht
  | readdir =>
    cases hscan : s.scan with
    | reading i =>
      cases hd : (s.folders i).stream with
      | none => simp [StartUp.step, StartUp.readdir, hscan, hd] at ht
      | some d =>
        obtain ⟨t', ht', hinv, -⟩ := hs.readdir hscan hd
        obtain rfl := Option.some.inj (ht.symm.trans ht')
        exact hinv
    | folder i => simp [StartUp.step, StartUp.readdir, hscan] at ht
    | created => simp [StartUp.step, StartUp.readdir, hscan] at ht
  | createMonitor =>
    simp only [StartUp.step, StartUp.createMonitor] at ht
    split_ifs at ht with hscan
    obtain rfl := Option.some.inj ht
    exact hs.setScan _ (by simp [hscan]) (by simp [hscan])
  | addWatch =>
    simp only [StartUp.step, StartUp.addWatch] at ht
    split_ifs at ht with hscan
    obtain rfl := Option.some.inj ht
    exact ⟨hs.folders, hs.finished, Or.inr hscan.1⟩

/-- **The scan thread starts**: every list is empty, no directory is open, and the directories hold
whatever they hold. -/
structure Starts (s : StartUp) : Prop where
  scan : s.scan = .folder 0
  watches : s.watches = 0
  folder : ∀ i, (s.folders i).folder = StrFolder.empty
  stream : ∀ i, (s.folders i).stream = none
  nodup : ∀ i, ((s.folders i).entries.map Dirent.dName).Nodup
  dots : ∀ i n, ⟨n, 8⟩ ∈ (s.folders i).entries → n ≠ "." ∧ n ≠ ".."

theorem Starts.inv (hs : s.Starts) : s.Inv attr where
  folders := fun i =>
    { nodup := hs.nodup i
      dots := hs.dots i _
      lists := ⟨_, hs.folder i ▸ empty_lists, by simp [names, hs.stream i]⟩
      streamNodup := by simp [hs.stream i]
      streamSub := by simp [hs.stream i]
      opened := by simp [hs.stream i] }
  finished := by simp [hs.stream]
  watches := Or.inl hs.watches

end StartUp

/-- The steps of a start-up. -/
abbrev startStep (folderNum : ℕ) (attr : ℕ → StrFolderAttr) (s : StartUp) (a : StartAction)
    (t : StartUp) : Prop :=
  s.step folderNum attr a = some t

/-- **What is listed at the watch**: the regular files among the first `limit + 301` entries
returned; and if there were no more, every regular file that was there when the directory was
opened. -/
theorem startUp_lists {folderNum : ℕ} {attr : ℕ → StrFolderAttr} {s t : StartUp}
    {as : List StartAction} (hs : s.Starts) (hrun : Run (startStep folderNum attr) s as t) {i : ℕ}
    (hwatch : i < t.watches) {d : DirStream} (hd : (t.folders i).stream = some d) :
    ∃ c : FileCatalogue, (t.folders i).folder.Lists c ∧
      (∀ n, n ∈ c.names ↔ ⟨n, 8⟩ ∈ d.returned.take (readLimit (attr i).limit)) ∧
      (d.returned.length ≤ readLimit (attr i).limit →
        ∀ n, ⟨n, 8⟩ ∈ d.opened → n ∈ c.names) := by
  have ht : t.Inv attr := hrun.invariant (fun _ _ _ h hstep => h.step hstep) hs.inv
  have hscan : t.scan = .created :=
    ht.watches.resolve_left (Nat.ne_of_gt (Nat.zero_lt_of_lt hwatch))
  obtain ⟨c, hc, hnames⟩ := (ht.folders i).lists
  have hnames' : ∀ n, n ∈ c.names ↔ ⟨n, 8⟩ ∈ d.returned.take (readLimit (attr i).limit) :=
    fun n => (hnames n).trans (by simp [hd])
  refine ⟨c, hc, hnames', fun hlen n hn => (hnames' n).mpr ?_⟩
  -- the reader did not give up, so it came to the end of the stream
  have hrest : d.rest = [] :=
    (ht.finished i (by simp [hscan]) d hd).resolve_right (not_lt.mpr hlen)
  have hopened := (ht.folders i).opened d hd hn
  rwa [hrest, List.append_nil, ← List.take_of_length_le hlen] at hopened

/-- A folder about to be read for the first time. -/
def unread (entries : List Dirent) : StartUp where
  folders := fun _ => ⟨entries, fun _ => ⟨400, 1, 10⟩, StrFolder.empty, none⟩
  scan := .folder 0
  watches := 0

/-- The default quota of 30 percent: the reader takes 331 entries. -/
def quota (_ : ℕ) : StrFolderAttr := ⟨"video0", false, 30⟩

theorem unread_starts {entries : List Dirent} (hnd : (entries.map Dirent.dName).Nodup)
    (hdots : ∀ n, ⟨n, 8⟩ ∈ entries → n ≠ "." ∧ n ≠ "..") : (unread entries).Starts where
  scan := rfl
  watches := rfl
  folder := fun _ => rfl
  stream := fun _ => rfl
  nodup := fun _ => hnd
  dots := fun _ => hdots

theorem startUp_lists_oneFile :
    ∃ t d, Run (startStep 1 quota) (unread [⟨"0900.mp4", 8⟩])
        [.opendir true, .readdir, .close 0 "1000.mp4" ⟨400, 1, 10⟩ 0 none, .readdir,
          .createMonitor, .addWatch] t ∧
      (t.folders 0).stream = some d ∧ ∃ c : FileCatalogue, (t.folders 0).folder.Lists c ∧
        (∀ n, n ∈ c.names ↔ ⟨n, 8⟩ ∈ d.returned.take (readLimit 30)) ∧
        (d.returned.length ≤ readLimit 30 → ∀ n, ⟨n, 8⟩ ∈ d.opened → n ∈ c.names) := by
  obtain ⟨t, d, ht, hw, hd⟩ : ∃ t d, [StartAction.opendir true, .readdir,
      .close 0 "1000.mp4" ⟨400, 1, 10⟩ 0 none, .readdir, .createMonitor, .addWatch].foldlM
        (StartUp.step 1 quota) (unread [⟨"0900.mp4", 8⟩]) = some t ∧ t.watches = 1 ∧
      (t.folders 0).stream = some d := ⟨_, _, rfl, rfl, rfl⟩
  have hrun := Run.of_foldlM ht
  exact ⟨t, d, hrun, hd, startUp_lists (unread_starts (by simp) (by simp)) hrun (by omega) hd⟩

/-- Nothing is missed: the list of folder `i` names every regular file in its directory. -/
def StartUp.NothingMissed (s : StartUp) (i : ℕ) : Prop :=
  ∃ c : FileCatalogue, (s.folders i).folder.Lists c ∧
    ∀ n, ⟨n, 8⟩ ∈ (s.folders i).entries → n ∈ c.names

/-- **A crowded folder is not listed in full**: the reader takes at most `limit + 301` entries, so
with more regular files than that some are missed. -/
theorem startUp_misses {folderNum : ℕ} {attr : ℕ → StrFolderAttr} {s t : StartUp}
    {as : List StartAction} (hs : s.Starts) (hrun : Run (startStep folderNum attr) s as t) {i : ℕ}
    (hmany : readLimit (attr i).limit <
      ((t.folders i).entries.filter fun e => e.dType = 8).length) : ¬ t.NothingMissed i := by
  have ht : t.Inv attr := hrun.invariant (fun _ _ _ h hstep => h.step hstep) hs.inv
  rintro ⟨c, hc, hall⟩
  obtain ⟨c', hc', hnames⟩ := (ht.folders i).lists
  obtain rfl : c = c' := hc.unique hc'
  -- the regular files are distinct, and all among the entries taken
  set files := (t.folders i).entries.filter fun e => e.dType = 8 with hfiles
  have hnd : files.Nodup := (List.Nodup.of_map _ (ht.folders i).nodup).filter _
  have hsub : files ⊆ ((t.folders i).stream.elim [] DirStream.returned).take
      (readLimit (attr i).limit) := by
    rintro ⟨n, type⟩ he
    obtain ⟨he, htype⟩ := List.mem_filter.mp he
    obtain rfl : type = 8 := by simpa using htype
    obtain ⟨d, hd, hmem⟩ := (hnames n).mp (hall n he)
    rw [Option.mem_def] at hd
    rwa [hd]
  have hlen := (hnd.subperm hsub).length_le
  rw [List.length_take] at hlen
  omega

/-! ## A start-up without a recorder -/

/-- The reader comes to the end of the folder. -/
theorem exists_run_readdir (folderNum : ℕ) {attr : ℕ → StrFolderAttr} {k : ℕ} :
    ∀ {s : StartUp} {i : ℕ} {d : DirStream}, s.Inv attr → s.scan = .reading i →
      (s.folders i).stream = some d → d.rest.length ≤ k →
      ∃ as t, Run (startStep folderNum attr) s as t ∧ t.scan = .folder (i + 1) ∧
        t.watches = s.watches ∧ ∀ j, (t.folders j).entries = (s.folders j).entries := by
  induction k with
  | zero =>
    intro s i d hs hscan hd hk
    -- nothing is left in the stream, so the round leaves the folder
    obtain ⟨t, ht, -, hw, hentries, hnext⟩ := hs.readdir hscan hd
    rcases hnext with hnext | ⟨-, d', -, hlt⟩
    · exact ⟨[.readdir], t, .single ht, hnext, hw, hentries⟩
    · omega
  | succ k ih =>
    intro s i d hs hscan hd hk
    -- one round leaves the folder or shortens the stream
    obtain ⟨t, ht, hinv, hw, hentries, hnext⟩ := hs.readdir hscan hd
    have hstep : Run (startStep folderNum attr) s [.readdir] t := .single ht
    rcases hnext with hnext | ⟨hscan', d', hd', hlt⟩
    · exact ⟨_, t, hstep, hnext, hw, hentries⟩
    · obtain ⟨as, u, hrun, hu, hw', hentries'⟩ := ih hinv hscan' hd' (by omega)
      exact ⟨_, u, hstep.append hrun, hu, hw'.trans hw, fun j => (hentries' j).trans (hentries j)⟩

/-- The folders are read one after the other. -/
theorem exists_run_folders (folderNum : ℕ) (attr : ℕ → StrFolderAttr) {k : ℕ} :
    ∀ {s : StartUp} {i : ℕ}, s.Inv attr → s.scan = .folder i → i + k = folderNum →
      ∃ as t, Run (startStep folderNum attr) s as t ∧ t.scan = .folder folderNum ∧
        t.watches = s.watches ∧ ∀ j, (t.folders j).entries = (s.folders j).entries := by
  induction k with
  | zero =>
    intro s i hs hscan hi
    obtain rfl : i = folderNum := hi
    exact ⟨[], s, .nil, hscan, rfl, fun _ => rfl⟩
  | succ k ih =>
    intro s i hs hscan hi
    -- the directory opens, it is read to its end, and the others follow
    obtain ⟨folder, hclear, -⟩ := (hs.folders i).opendir
    have hlt : i < folderNum := by omega
    obtain ⟨s₁, hs₁, hscan₁, hd₁, hw₁, hentries₁⟩ :
        ∃ t, s.opendir folderNum true = some t ∧ t.scan = .reading i ∧
          (∃ d, (t.folders i).stream = some d) ∧ t.watches = s.watches ∧
          ∀ j, (t.folders j).entries = (s.folders j).entries := by
      refine ⟨{ s.setFolder i
          { s.folders i with
            folder := folder
            stream := some ⟨(s.folders i).entries, [], (s.folders i).entries⟩ } with
          scan := .reading i }, by simp [StartUp.opendir, hscan, hlt, hclear], rfl,
        ⟨_, congrArg StartFolder.stream (StartUp.setFolder_same s i _)⟩, rfl,
        StartUp.setFolder_entries s rfl⟩
    obtain ⟨d, hd⟩ := hd₁
    have hinv₁ : s₁.Inv attr := hs.opendir hs₁
    have hrun₁ : Run (startStep folderNum attr) s [.opendir true] s₁ := .single hs₁
    obtain ⟨as, s₂, hrun₂, hscan₂, hw₂, hentries₂⟩ :=
      exists_run_readdir folderNum hinv₁ hscan₁ hd (le_refl _)
    have hinv₂ : s₂.Inv attr := hrun₂.invariant (fun _ _ _ h hstep => h.step hstep) hinv₁
    obtain ⟨bs, t, hrun, ht, hw, hentries⟩ := ih hinv₂ hscan₂ (by omega)
    refine ⟨_, t, (hrun₁.append hrun₂).append hrun, ht, hw.trans (hw₂.trans hw₁), fun j => ?_⟩
    rw [hentries, hentries₂, hentries₁]

/-- The watches are registered one after the other. -/
theorem exists_run_watches (folderNum : ℕ) (attr : ℕ → StrFolderAttr) {k : ℕ} :
    ∀ {s : StartUp}, s.scan = .created → s.watches + k = folderNum →
      ∃ as t, Run (startStep folderNum attr) s as t ∧ t.watches = folderNum ∧
        t.folders = s.folders := by
  induction k with
  | zero => exact fun {s} _ hk => ⟨[], s, .nil, hk, rfl⟩
  | succ k ih =>
    intro s hscan hk
    have hstep : Run (startStep folderNum attr) s [.addWatch]
        { s with watches := s.watches + 1 } :=
      .single (by simp [startStep, StartUp.step, StartUp.addWatch, hscan]; omega)
    obtain ⟨as, t, hrun, ht, hfolders⟩ := ih (s := { s with watches := s.watches + 1 }) hscan
      (by simp only; omega)
    exact ⟨_, t, hstep.append hrun, ht, hfolders⟩

/-- **A start-up without a recorder comes to the watch** of every folder. -/
theorem exists_run_watch (folderNum : ℕ) (attr : ℕ → StrFolderAttr) {s : StartUp}
    (hs : s.Starts) :
    ∃ as t, Run (startStep folderNum attr) s as t ∧ t.watches = folderNum ∧
      ∀ i, (t.folders i).entries = (s.folders i).entries := by
  obtain ⟨as, s₁, hrun₁, hscan₁, hw₁, hentries₁⟩ :=
    exists_run_folders folderNum attr hs.inv hs.scan (Nat.zero_add _)
  have hstep : Run (startStep folderNum attr) s₁ [.createMonitor] { s₁ with scan := .created } :=
    .single (by simp [startStep, StartUp.step, StartUp.createMonitor, hscan₁])
  obtain ⟨bs, t, hrun, ht, hfolders⟩ :=
    exists_run_watches folderNum attr (k := folderNum)
      (s := { s₁ with scan := .created }) rfl (by simp only [hw₁, hs.watches]; omega)
  refine ⟨_, t, (hrun₁.append hstep).append hrun, ht, fun i => ?_⟩
  rw [hfolders]
  exact hentries₁ i

/-! ## Files that are missed -/

/-- The file names `.mp4`, `0.mp4`, `00.mp4`, ... -/
def zeros (k : ℕ) : String := String.ofList (List.replicate k '0') ++ ".mp4"

theorem zeros_injective : Function.Injective zeros := by
  intro j k h
  have h := String.ofList_injective ((String.append_left_inj _).mp h)
  simpa using congrArg List.length h

/-- A folder with one file more. -/
def crowdedFolder : List Dirent := (List.range 332).map fun k => ⟨zeros k, 8⟩

theorem crowdedFolder_starts : (unread crowdedFolder).Starts := by
  refine unread_starts ?_ fun n hn => ?_
  · rw [crowdedFolder, List.map_map]
    exact List.Nodup.map zeros_injective List.nodup_range
  · obtain ⟨k, -, hk⟩ := List.mem_map.mp hn
    obtain rfl : zeros k = n := (Dirent.mk.inj hk).1
    -- no name has one or two characters only
    have hlen : (zeros k).length = k + 4 := by
      rw [zeros, String.length_append, String.length_ofList, List.length_replicate]
      rfl
    constructor
    · intro h
      rw [h, show ".".length = 1 from rfl] at hlen
      omega
    · intro h
      rw [h, show "..".length = 2 from rfl] at hlen
      omega

/-- **Files are missed at start-up**: in a folder with one file more than the reader takes; and when
a file is closed between the reading of its folder and the watch. -/
theorem startUp_misses_files :
    (∃ as t, Run (startStep 1 quota) (unread crowdedFolder) as t ∧ 0 < t.watches ∧
      ¬ t.NothingMissed 0) ∧
    ∃ t, Run (startStep 1 quota) (unread [])
        [.opendir true, .readdir, .close 0 "1000.mp4" ⟨400, 1, 10⟩ 0 none, .createMonitor,
          .addWatch] t ∧ 0 < t.watches ∧ ¬ t.NothingMissed 0 := by
  constructor
  · obtain ⟨as, t, hrun, hw, hentries⟩ := exists_run_watch 1 quota crowdedFolder_starts
    refine ⟨as, t, hrun, by omega, startUp_misses crowdedFolder_starts hrun ?_⟩
    rw [hentries 0]
    have hall : crowdedFolder.filter (fun e => e.dType = 8) = crowdedFolder := by
      simp [crowdedFolder, List.filter_eq_self]
    show readLimit 30 < (crowdedFolder.filter fun e => e.dType = 8).length
    rw [hall, crowdedFolder, List.length_map, List.length_range]
    decide
  -- the file is in the directory, and nothing is listed
  · obtain ⟨t, ht, hw, hnum, hmem⟩ : ∃ t, [StartAction.opendir true, .readdir,
        .close 0 "1000.mp4" ⟨400, 1, 10⟩ 0 none, .createMonitor, .addWatch].foldlM
          (StartUp.step 1 quota) (unread []) = some t ∧ t.watches = 1 ∧
        (t.folders 0).folder.fileNum = 0 ∧ (⟨"1000.mp4", 8⟩ : Dirent) ∈ (t.folders 0).entries :=
      ⟨_, rfl, rfl, rfl, by decide⟩
    refine ⟨t, Run.of_foldlM ht, by omega, ?_⟩
    rintro ⟨c, hc, hall⟩
    have hlen : c.entries.length = 0 := hc.fileNum.symm.trans hnum
    have hn := hall _ hmem
    rw [names, List.length_eq_zero_iff.mp hlen] at hn
    simp at hn

end RkIpc.Storage
