import RkIpc.Storage.FileListSpec
import RkIpc.Transition.Run

/-!
# Runs of a recording folder

The reload of a folder deletes the last file until none is left and then reads the directory.
Mixed in any order with the monitor's additions and with deletions, it keeps the folder listing
a catalogue.

## Main definitions

* `checkAndAdd`: the monitor's addition, made only when the check finds no such name
* `readLimit`, `entryFile`: how many entries the reader takes, and the file an entry adds
* `FolderOp`: the operations on a folder

## Main results

* `clearLoop_spec`, `readdirLoop_spec`, `readFileList_spec`: the reload lists exactly the files
  read
* `folder_run_lists`: after every sequence of operations the list is sorted, without repeated
  names, and agrees with its last pointer and its counters
-/

namespace RkIpc.Storage

open LinkedList Catalogue

/-- As `rkipc_storage_file_monitor_thread` adds a file: only when the check answers `0`. -/
def checkAndAdd (folder : StrFolder) (filename : String) (statbuf : StatBuf) :
    Option StrFolder := do
  if (← fileListCheck folder filename) = 0 then fileListAdd folder filename statbuf
  else some folder

theorem checkAndAdd_spec {s : StrFolder} {c : FileCatalogue} (hs : s.Lists c) (n : String)
    (st : StatBuf) :
    ∃ s', checkAndAdd s n st = some s' ∧ s'.Lists (c.insertNew (newFile n st)) := by
  simp only [checkAndAdd, fileListCheck_spec hs n, Option.bind_eq_bind, Option.bind_some]
  by_cases hn : n ∈ c.names
  -- the check answers one, and nothing happens
  · rw [insertNew_of_mem (x := newFile n st) hn]
    exact ⟨s, by simp [hn], hs⟩
  · obtain ⟨s', he, hs'⟩ := fileListAdd_spec hs hn st
    exact ⟨s', by simp [hn, he], hs'⟩

/-! ## The reload -/

/-- The loop that empties the list: each round removes the oldest file. -/
theorem clearLoop_spec {fuel : ℕ} : ∀ {s : StrFolder} {c : FileCatalogue}, s.Lists c →
    c.entries.length ≤ fuel →
    ∃ s', clearLoop fuel s = some s' ∧ s'.Lists Catalogue.empty := by
  induction fuel with
  | zero =>
    intro s c hs hf
    have hc : c.entries = [] := List.length_eq_zero_iff.mp (Nat.le_zero.mp hf)
    obtain rfl : c = Catalogue.empty := Catalogue.ext hc
    exact ⟨s, by simp [clearLoop, hs.last_eq_none], hs⟩
  | succ fuel ih =>
    intro s c hs hf
    cases hlast : s.fileListLast with
    | none =>
      obtain rfl : c = Catalogue.empty := Catalogue.ext (hs.last_eq_none.mp hlast)
      exact ⟨s, by simp [clearLoop, hlast], hs⟩
    | some a =>
      obtain ⟨n, hn, hx⟩ := hs.load_last hlast
      -- the name of the oldest file occurs once, so one file goes
      obtain ⟨s₁, he₁, hs₁⟩ := fileListDel_spec hs n.val.filename
      rw [erase_getLast hx] at hs₁
      obtain ⟨s₂, he₂, hs₂⟩ := ih hs₁ (by
        rw [keepNewest_entries, List.length_take]
        omega)
      exact ⟨s₂, by simp [clearLoop, hlast, hn, he₁, he₂], hs₂⟩

/-- The number of entries `readdir` returns before the reader gives up. -/
def readLimit (limit : ℤ) : ℕ := (limit + 301).toNat

theorem readStops_iff {limit : ℤ} {k : ℕ} : readStops limit k = true ↔ readLimit limit ≤ k := by
  simp only [readStops, readLimit, decide_eq_true_eq]
  omega

/-- The file an entry adds to the list: a regular file whose `lstat` succeeds. -/
def entryFile (ptr : Dirent) (statbuf : Option StatBuf) : Option StrFile :=
  if ptr.dName = "." ∨ ptr.dName = ".." then none
  else if ptr.dType = 8 then statbuf.map (newFile ptr.dName) else none

theorem entryFile_filename {ptr : Dirent} {st : Option StatBuf} {f : StrFile}
    (hf : entryFile ptr st = some f) : f.filename = ptr.dName := by
  unfold entryFile at hf
  split_ifs at hf
  obtain ⟨st', -, rfl⟩ := Option.map_eq_some_iff.mp hf
  rfl

/-- One entry read: its file is added. -/
theorem readEntry_spec {s : StrFolder} {c : FileCatalogue} (hs : s.Lists c) (ptr : Dirent)
    (st : Option StatBuf) (hn : ptr.dName ∉ c.names) :
    ∃ s', readEntry s ptr st = some s' ∧ s'.Lists (c.insertAll (entryFile ptr st).toList) := by
  unfold readEntry entryFile
  -- `.` and `..`, then a regular file, then any other entry
  split_ifs
  · exact ⟨s, rfl, hs⟩
  · cases st with
    | none => exact ⟨s, rfl, hs⟩
    | some st => exact fileListAdd_spec hs hn st
  · exact ⟨s, rfl, hs⟩

/-- The loop over the directory adds the files of the entries read. -/
theorem readdirLoop_spec (limit : ℤ) (lstat : String → Option StatBuf) {entries : List Dirent} :
    ∀ {k : ℕ} {s : StrFolder} {c : FileCatalogue}, s.Lists c →
      (entries.map Dirent.dName).Nodup → (∀ e ∈ entries, e.dName ∉ c.names) →
      ∃ s', readdirLoop limit lstat k entries s = some s' ∧
        s'.Lists (c.insertAll ((entries.take (readLimit limit - k)).filterMap fun e =>
          entryFile e (lstat e.dName))) := by
  induction entries with
  | nil => exact fun {k s c} hs _ _ => ⟨s, rfl, by simpa using hs⟩
  | cons e es ih =>
    intro k s c hs hnd hc
    by_cases hstop : readLimit limit ≤ k
    -- the reader has given up, and nothing of the rest is listed
    · refine ⟨s, by simp [readdirLoop, readStops_iff.mpr hstop], ?_⟩
      simpa [Nat.sub_eq_zero_of_le hstop] using hs
    · have hgo : readStops limit k = false := by
        rw [← Bool.not_eq_true, readStops_iff]
        exact hstop
      obtain ⟨hne, hnd'⟩ := List.nodup_cons.mp hnd
      obtain ⟨s₁, he₁, hs₁⟩ := readEntry_spec hs e (lstat e.dName) (hc e (List.mem_cons_self ..))
      -- the names still to come are not listed yet: they differ from the one just added
      have hc₁ : ∀ e' ∈ es,
          e'.dName ∉ (c.insertAll (entryFile e (lstat e.dName)).toList).names := by
        intro e' he' h
        rcases mem_names_insertAll.mp h with h | h
        · obtain ⟨f, hf, hfn⟩ := List.mem_map.mp h
          rw [entryFile_filename (Option.mem_toList.mp hf)] at hfn
          exact hne (hfn ▸ List.mem_map_of_mem he')
        · exact hc e' (List.mem_cons_of_mem _ he') h
      obtain ⟨s₂, he₂, hs₂⟩ := ih (k := k + 1) hs₁ hnd' hc₁
      refine ⟨s₂, by simp [readdirLoop, hgo, he₁, he₂], ?_⟩
      obtain ⟨m, hm⟩ : ∃ m, readLimit limit - k = m + 1 := ⟨readLimit limit - k - 1, by omega⟩
      rw [show readLimit limit - (k + 1) = m by omega] at hs₂
      rw [hm, List.take_succ_cons]
      cases hf : entryFile e (lstat e.dName) with
      | none => simpa [hf] using hs₂
      | some f => simpa [hf] using hs₂

/-- **The reload** of a folder whose directory opens lists exactly the files among the entries
read, whatever was listed before. -/
theorem readFileList_spec {s : StrFolder} {c : FileCatalogue} (hs : s.Lists c)
    (attr : StrFolderAttr) {entries : List Dirent} (hnd : (entries.map Dirent.dName).Nodup)
    (lstat : String → Option StatBuf) :
    ∃ s', readFileList s attr (some entries) lstat = some (s', 0) ∧
      s'.Lists (Catalogue.empty.insertAll ((entries.take (readLimit attr.limit)).filterMap
        fun e => entryFile e (lstat e.dName))) := by
  obtain ⟨s₁, he₁, hs₁⟩ := clearLoop_spec hs hs.length_le_brk
  obtain ⟨s₂, he₂, hs₂⟩ := readdirLoop_spec attr.limit lstat (k := 0) hs₁ hnd fun _ _ h => by
    simp [names] at h
  exact ⟨s₂, by simp [readFileList, he₁, he₂], by simpa using hs₂⟩

/-! ## Every sequence of operations -/

/-- A directory as `readdir` returns it: no name twice. -/
structure DirListing where
  entries : List Dirent
  nodup : (entries.map Dirent.dName).Nodup

/-- An operation on a folder: an addition by the monitor, a deletion, a reload. -/
inductive FolderOp
  | add (filename : String) (statbuf : StatBuf)
  | del (filename : String)
  | read (attr : StrFolderAttr) (dir : Option DirListing) (lstat : String → Option StatBuf)

/-- The folder after an operation. -/
def FolderOp.apply (folder : StrFolder) : FolderOp → Option StrFolder
  | .add filename statbuf => checkAndAdd folder filename statbuf
  | .del filename => fileListDel folder filename
  | .read attr dir lstat =>
    (readFileList folder attr (dir.map DirListing.entries) lstat).map Prod.fst

theorem FolderOp.apply_lists {s : StrFolder} (op : FolderOp) (hs : ∃ c, s.Lists c) :
    ∃ s', op.apply s = some s' ∧ ∃ c, s'.Lists c := by
  obtain ⟨c, hs⟩ := hs
  cases op with
  | add n st =>
    obtain ⟨s', he, hs'⟩ := checkAndAdd_spec hs n st
    exact ⟨s', he, _, hs'⟩
  | del n =>
    obtain ⟨s', he, hs'⟩ := fileListDel_spec hs n
    exact ⟨s', he, _, hs'⟩
  | read attr dir lstat =>
    cases dir with
    -- the directory did not open, and the list stays as it is
    | none => exact ⟨s, rfl, c, hs⟩
    | some d =>
      obtain ⟨s', he, hs'⟩ := readFileList_spec hs attr d.nodup lstat
      exact ⟨s', by simp [FolderOp.apply, he], _, hs'⟩

/-- **The list invariant**: every sequence of operations from the empty folder returns, and leaves
a chain of nodes from newest to oldest, without repeated names, whose last node is the last
pointer and whose number and sums are the counters. -/
theorem folder_run_lists (ops : List FolderOp) :
    ∃ s l, ops.foldlM FolderOp.apply StrFolder.empty = some s ∧
      Chain s.heap s.fileListFirst l ∧
      (l.map Prod.snd).Pairwise (fun f g => g.time ≤ f.time) ∧
      ((l.map Prod.snd).map StrFile.filename).Nodup ∧
      s.fileListLast = l.getLast?.map Prod.fst ∧
      (s.fileListLast = none ↔ s.fileListFirst = none) ∧
      s.fileNum = l.length ∧
      s.totalSize = ((l.map Prod.snd).map StrFile.size).sum ∧
      s.totalSpace = ((l.map Prod.snd).map StrFile.space).sum := by
  obtain ⟨s, hrun, c, hs⟩ := Transition.foldlM_total
    (I := fun s : StrFolder => ∃ c, s.Lists c) (fun _ op hs => op.apply_lists hs)
    ops ⟨_, empty_lists⟩
  obtain ⟨l, hl, hm, hlast⟩ := hs.nodes
  have hlen : l.length = c.entries.length := by rw [← hm, List.length_map]
  refine ⟨s, l, hrun, hl, ?_, ?_, hlast, hs.last_eq_none_iff, ?_, ?_, ?_⟩
  · exact hm ▸ c.newestFirst
  · exact hm ▸ c.nodup
  · rw [hlen, hs.fileNum]
  · rw [hm, hs.totalSize]
  · rw [hm, hs.totalSpace]

end RkIpc.Storage
