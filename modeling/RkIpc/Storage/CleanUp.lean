import Mathlib.Algebra.Order.BigOperators.Group.List
import Mathlib.Data.Nat.Find
import RkIpc.Apportion.FloorShare
import RkIpc.Storage.FileListSpec
import RkIpc.Transition.Fuel

/-!
# The clean-up passes of the scan thread

Once a minute `rkipc_storage_file_scan_thread` deletes old files: first by number, in the folders
with `num_limit` set, then, when the card is full, by share of the space, in the others. Both
passes run the same loop: the bound is compared with a value measured before the last deletion,
so the loop deletes one file more than the comparison asks for.

No other thread changes a list during a pass. The share of a folder is a parameter of the pass by
space: `spaceShare` is the share where `off_t` has 64 bits and nothing wraps around.

## Main definitions

* `deleteWhile`: the loop the two passes share
* `numLimitPass`, `spaceLimitPass`, `spaceStage`: the passes over all folders
* `Recordings`, `ListsAll`: the files of each folder, and the folders that list them
* `kept`: the number of files the loop leaves

## Main results

* `deleteWhile_spec`: the loop ends, and keeps the `kept` newest files
* `numLimitPass_yields`, `spaceLimitPass_yields`: what the passes leave and remove
-/

namespace RkIpc.Storage

open LinkedList Catalogue Transition Apportion

/-! ## The passes -/

/-- A folder as a pass sees it: `devAttr.folder_attr[i]` and `pHandle->dev_sta.folder[i]`. -/
structure ScanFolder where
  attr : StrFolderAttr
  folder : StrFolder

/-- `sprintf(file, "%s/%s/%s", ..)`. -/
def filePath (mountPath : String) (attr : StrFolderAttr) (filename : String) : String :=
  mountPath ++ "/" ++ attr.folderPath ++ "/" ++ filename

/-- `while (limit > bound)`: measure again, then delete the last file from the list and from the
directory. The result carries the paths given to `remove`; the bound on the rounds is `fuel`. -/
def deleteWhile (measure : StrFolder → ℤ) (bound : ℤ) (path : String → String) :
    ℕ → ℤ → StrFolder → List String → Option (StrFolder × List String)
  | 0, limit, folder, removed => if limit > bound then none else some (folder, removed)
  | fuel + 1, limit, folder, removed =>
    if limit > bound then
      -- measured again before the deletion: the next test sees the value from before it
      let limit := measure folder
      match folder.fileListLast with
      -- the list is empty: only the value is measured again
      | none => deleteWhile measure bound path fuel limit folder removed
      | some last => do
        let n ← folder.heap.load last
        let file := path n.val.filename
        let folder ← fileListDel folder n.val.filename
        deleteWhile measure bound path fuel limit folder (removed ++ [file])
    else some (folder, removed)

/-- `for (i = 0; i < devAttr.folder_num; i++)`. -/
def eachFolder (body : ScanFolder → Option (StrFolder × List String)) :
    List ScanFolder → Option (List ScanFolder × List String)
  | [] => some ([], [])
  | f :: fs =>
    (body f).bind fun r => (eachFolder body fs).bind fun rs =>
      some ({ f with folder := r.1 } :: rs.1, r.2 ++ rs.2)

/-- One folder of the pass by number. -/
def numLimitFolder (mountPath : String) (fuel : ℕ) (f : ScanFolder) :
    Option (StrFolder × List String) :=
  if f.attr.numLimit = false then some (f.folder, [])
  else deleteWhile (fun s => s.fileNum) f.attr.limit (filePath mountPath f.attr) fuel
    f.folder.fileNum f.folder []

/-- "delete file by num limit". -/
def numLimitPass (mountPath : String) (fuel : ℕ) (fs : List ScanFolder) :
    Option (List ScanFolder × List String) :=
  eachFolder (numLimitFolder mountPath fuel) fs

/-- The sum of `total_space` over the folders without `num_limit`. -/
def totalSpace (fs : List ScanFolder) : ℕ :=
  ((fs.filter fun f => f.attr.numLimit = false).map fun f => f.folder.totalSpace).sum

/-- `folder[i].total_space * 100 / total_space`, in an `off_t` that has room for the product. -/
def spaceShare (total space : ℕ) : ℤ := share 100 total space

/-- One folder of the pass by space; `limit` is computed of its `total_space`. -/
def spaceLimitFolder (mountPath : String) (limit : ℕ → ℤ) (fuel : ℕ) (f : ScanFolder) :
    Option (StrFolder × List String) :=
  if f.attr.numLimit = true then some (f.folder, [])
  else deleteWhile (fun s => limit s.totalSpace) f.attr.limit (filePath mountPath f.attr) fuel
    (limit f.folder.totalSpace) f.folder []

/-- "delete file by space limit": the whole is summed up before the first deletion. -/
def spaceLimitPass (mountPath : String) (fuel : ℕ) (fs : List ScanFolder) :
    Option (List ScanFolder × List String) :=
  -- `if (!total_space)`: the round ends here
  if totalSpace fs = 0 then some (fs, [])
  else eachFolder (spaceLimitFolder mountPath (spaceShare (totalSpace fs)) fuel) fs

/-- The part of a round after the pass by number: nothing while the card has room. -/
def spaceStage (mountPath : String) (freeSizeDelMin freeSize : ℤ) (fuel : ℕ)
    (fs : List ScanFolder) : Option (List ScanFolder × List String) :=
  if freeSize > freeSizeDelMin * 1024 then some (fs, []) else spaceLimitPass mountPath fuel fs

/-! ## The files of the folders -/

/-- The recordings of a folder with its attributes. -/
structure Recordings where
  attr : StrFolderAttr
  files : FileCatalogue

/-- The folder lists the recordings. -/
structure ScanFolder.Lists (f : ScanFolder) (a : Recordings) : Prop where
  attr : f.attr = a.attr
  folder : f.folder.Lists a.files

/-- Every folder lists its recordings. -/
abbrev ListsAll (fs : List ScanFolder) (as : List Recordings) : Prop :=
  List.Forall₂ ScanFolder.Lists fs as

/-- The recordings with the `k` newest files only. -/
def Recordings.keep (a : Recordings) (k : ℕ) : Recordings :=
  { a with files := a.files.keepNewest k }

/-- The paths of the files beyond the `k` newest, oldest first. -/
def Recordings.excess (mountPath : String) (a : Recordings) (k : ℕ) : List String :=
  (a.files.entries.drop k).reverse.map fun x => filePath mountPath a.attr x.filename

/-- The space of the recordings. -/
def Recordings.space (a : Recordings) : ℕ := (a.files.entries.map StrFile.space).sum

/-! ## The loop -/

/-- The number of files the loop leaves: all if the bound is met at once, else one less than the
most that would meet it. -/
def kept (m : FileCatalogue → ℤ) (bound : ℤ) (c : FileCatalogue) : ℕ :=
  if m c ≤ bound then c.entries.length
  else Nat.findGreatest (fun i => m (c.keepNewest i) ≤ bound) c.entries.length - 1

section Loop

variable (measure : StrFolder → ℤ) (m : FileCatalogue → ℤ) {bound : ℤ} (path : String → String)

/-- The loop once it runs: from the `j` newest files, with a value above the bound at hand. -/
theorem deleteWhile_of_gt (hm : ∀ {s c}, s.Lists c → measure s = m c)
    (h0 : m Catalogue.empty ≤ bound) (c : FileCatalogue) {j : ℕ} :
    ∀ {s : StrFolder}, j ≤ c.entries.length → s.Lists (c.keepNewest j) →
      ∃ s' r, r = Nat.findGreatest (fun i => m (c.keepNewest i) ≤ bound) j - 1 ∧
        s'.Lists (c.keepNewest r) ∧
        ∀ {fuel limit} (removed : List String), bound < limit → j + 2 ≤ fuel →
          deleteWhile measure bound path fuel limit s removed = some (s', removed ++
            (((c.entries.take j).drop r).reverse.map fun x => path x.filename)) := by
  -- induction on the number of files left
  induction j with
  | zero =>
    intro s _ hs
    -- the list is empty: one round measures it, and the next test ends the loop
    have hlast : s.fileListLast = none := hs.last_eq_none.mpr (by simp)
    have hms : measure s ≤ bound := by
      rw [hm hs, show c.keepNewest 0 = Catalogue.empty from Catalogue.ext (by simp)]
      exact h0
    refine ⟨s, 0, by simp, hs, fun {fuel limit} removed hlimit hf => ?_⟩
    obtain ⟨fuel, rfl⟩ : ∃ k, fuel = k + 2 := ⟨fuel - 2, by omega⟩
    simp [deleteWhile, hlimit, hlast, not_lt.mpr hms]
  | succ j ih =>
    intro s hj hs
    -- the list is not empty, and its last file is the oldest of `j + 1`
    have hlen : (c.keepNewest (j + 1)).entries.length = j + 1 := by simp [hj]
    obtain ⟨a, ha⟩ : ∃ a, s.fileListLast = some a := by
      apply Option.ne_none_iff_exists'.mp
      intro hnone
      rw [hs.last_eq_none.mp hnone] at hlen
      cases hlen
    obtain ⟨n, hn, hx⟩ := hs.load_last ha
    obtain ⟨s₁, he₁, hs₁⟩ := fileListDel_spec hs n.val.filename
    rw [erase_getLast hx, hlen, Nat.add_sub_cancel, keepNewest_keepNewest _ (Nat.le_succ j)] at hs₁
    have htake : c.entries.take (j + 1) = c.entries.take j ++ [n.val] := take_succ_of_getLast hj hx
    by_cases hmj : m (c.keepNewest (j + 1)) ≤ bound
    · -- the value at hand next time meets the bound, but one more file has gone
      have hms : measure s ≤ bound := by rw [hm hs]; exact hmj
      have hdrop : (c.entries.take (j + 1)).drop j = [n.val] := by
        rw [htake, List.drop_append_of_le_length (by simp [Nat.le_of_succ_le hj]),
          List.drop_of_length_le (by simp), List.nil_append]
      refine ⟨s₁, j, ?_, hs₁, fun {fuel limit} removed hlimit hf => ?_⟩
      · rw [Nat.findGreatest_succ, if_pos hmj, Nat.add_sub_cancel]
      · obtain ⟨fuel, rfl⟩ : ∃ k, fuel = k + 2 := ⟨fuel - 2, by omega⟩
        simp [deleteWhile, hlimit, ha, hn, he₁, not_lt.mpr hms, hdrop]
    -- the value at hand next time is still above the bound: the loop goes on
    · have hms : bound < measure s := by rw [hm hs]; exact not_le.mp hmj
      obtain ⟨s₂, r, hr, hs₂, he₂⟩ := ih (Nat.le_of_succ_le hj) hs₁
      have hrj : r ≤ (c.entries.take j).length := by
        have := Nat.findGreatest_le (P := fun i => m (c.keepNewest i) ≤ bound) j
        rw [List.length_take]
        omega
      refine ⟨s₂, r, ?_, hs₂, fun {fuel limit} removed hlimit hf => ?_⟩
      · rw [Nat.findGreatest_succ, if_neg hmj, hr]
      · obtain ⟨fuel, rfl⟩ : ∃ k, fuel = k + 1 := ⟨fuel - 1, by omega⟩
        have he := he₂ (removed ++ [path n.val.filename]) hms
          (by omega : j + 2 ≤ fuel)
        simp [deleteWhile, hlimit, ha, hn, he₁, he, htake, List.drop_append_of_le_length hrj]

/-- **The loop ends**, keeps the newest files, and removes the others from the oldest on. -/
theorem deleteWhile_spec (hm : ∀ {s c}, s.Lists c → measure s = m c)
    (h0 : m Catalogue.empty ≤ bound) {s : StrFolder} {c : FileCatalogue} (hs : s.Lists c) :
    ∃ s', s'.Lists (c.keepNewest (kept m bound c)) ∧
      Yields (fun fuel => deleteWhile measure bound path fuel (measure s) s [])
        (s', (c.entries.drop (kept m bound c)).reverse.map fun x => path x.filename) := by
  by_cases hle : m c ≤ bound
  -- the first test fails, and nothing is deleted
  · refine ⟨s, ?_, 0, fun fuel _ => ?_⟩
    · rw [kept, if_pos hle, keepNewest_of_length_le (le_refl _)]
      exact hs
    · cases fuel <;> simp [deleteWhile, hm hs, not_lt.mpr hle, kept, hle]
  -- the loop runs, from all the files of the folder
  · have hk : c.keepNewest c.entries.length = c := keepNewest_of_length_le (le_refl _)
    obtain ⟨s', r, hr, hs', he⟩ := deleteWhile_of_gt measure m path hm h0 c (le_refl _)
      (hk.symm ▸ hs)
    have hr' : kept m bound c = r := by rw [kept, if_neg hle, hr]
    rw [hr']
    have hgt : bound < measure s := by rw [hm hs]; exact not_le.mp hle
    exact ⟨s', hs', c.entries.length + 2, fun fuel hf => by simpa using he [] hgt hf⟩

end Loop

theorem kept_le_length (m : FileCatalogue → ℤ) (bound : ℤ) (c : FileCatalogue) :
    kept m bound c ≤ c.entries.length := by
  unfold kept
  split_ifs
  · exact le_refl _
  · exact (Nat.sub_le _ 1).trans (Nat.findGreatest_le _)

/-- By number, the loop leaves one file less than the bound when it deletes at all. -/
theorem kept_length {bound : ℤ} (h0 : 0 ≤ bound) (c : FileCatalogue) :
    kept (fun c => c.entries.length) bound c =
      if (c.entries.length : ℤ) ≤ bound then c.entries.length else bound.toNat - 1 := by
  unfold kept
  split_ifs with hle
  · rfl
  · have hgt : bound < c.entries.length := not_le.mp hle
    congr 1
    -- the most files that meet the bound are as many as the bound
    rw [Nat.findGreatest_eq_iff]
    refine ⟨by omega, fun _ => ?_, fun i hi hin => ?_⟩
    · simp only [keepNewest_entries, List.length_take]
      omega
    · simp only [keepNewest_entries, List.length_take]
      omega

/-- The bound holds of what the loop leaves, if the value only falls with the files. -/
theorem kept_le (m : FileCatalogue → ℤ) {bound : ℤ} (h0 : m Catalogue.empty ≤ bound)
    (hmono : ∀ (c : FileCatalogue) i j, i ≤ j → m (c.keepNewest i) ≤ m (c.keepNewest j))
    (c : FileCatalogue) : m (c.keepNewest (kept m bound c)) ≤ bound := by
  unfold kept
  split_ifs with hle
  · rwa [keepNewest_of_length_le (le_refl _)]
  -- fewer files than the most that meet the bound
  · apply (hmono c _ _ (Nat.sub_le _ 1)).trans
    refine Nat.findGreatest_spec (P := fun i => m (c.keepNewest i) ≤ bound) (Nat.zero_le _) ?_
    rwa [show c.keepNewest 0 = Catalogue.empty from Catalogue.ext (by simp)]

/-- The loop leaves every file exactly when the bound is met from the start. -/
theorem kept_eq_length_iff {m : FileCatalogue → ℤ} {bound : ℤ} (h0 : m Catalogue.empty ≤ bound)
    (c : FileCatalogue) : kept m bound c = c.entries.length ↔ m c ≤ bound := by
  unfold kept
  split_ifs with hle
  · simp [hle]
  -- the empty catalogue meets the bound, so there is a file, and one goes
  · have hne : c.entries.length ≠ 0 := fun h => hle <| by
      rwa [show c = Catalogue.empty from Catalogue.ext (List.length_eq_zero_iff.mp h)]
    have := Nat.findGreatest_le (P := fun i => m (c.keepNewest i) ≤ bound) c.entries.length
    rw [iff_false_intro hle, iff_false]
    omega

/-! ## The passes over all folders -/

/-- A pass over folders each of which keeps its `g` newest recordings keeps them in all, and leaves
alone the folders it leaves alone one by one. -/
theorem eachFolder_yields (body : ℕ → ScanFolder → Option (StrFolder × List String))
    {mountPath : String} {g : Recordings → ℕ} {ok : Recordings → Prop} {skip : ScanFolder → Prop}
    (hbody : ∀ {f a}, f.Lists a → ok a → ∃ s', s'.Lists (a.files.keepNewest (g a)) ∧
      (skip f → s' = f.folder) ∧
      Yields (fun fuel => body fuel f) (s', a.excess mountPath (g a)))
    {fs : List ScanFolder} {as : List Recordings} (hfs : ListsAll fs as) (hok : ∀ a ∈ as, ok a) :
    ∃ fs', ListsAll fs' (as.map fun a => a.keep (g a)) ∧
      List.Forall₂ (fun f f' => skip f → f' = f) fs fs' ∧
      Yields (fun fuel => eachFolder (body fuel) fs)
        (fs', as.flatMap fun a => a.excess mountPath (g a)) := by
  induction hfs with
  | nil => exact ⟨[], .nil, .nil, Yields.pure _⟩
  | @cons f a fs as hf _ ih =>
    obtain ⟨s', hs', hskip, hy⟩ := hbody hf (hok a (List.mem_cons_self ..))
    obtain ⟨fs', hfs', hskips, hys⟩ := ih fun a ha => hok a (List.mem_cons_of_mem _ ha)
    refine ⟨{ f with folder := s' } :: fs', .cons ⟨hf.attr, hs'⟩ hfs',
      .cons (fun h => by rw [hskip h]) hskips, ?_⟩
    -- the folder first, then the others, with the paths removed in this order
    exact hy.bind (g := fun fuel r => (eachFolder (body fuel) fs).bind fun rs =>
      some ({ f with folder := r.1 } :: rs.1, r.2 ++ rs.2)) (hys.bind (Yields.pure _))

/-- The number of files the pass by number leaves in a folder. -/
def numKept (a : Recordings) : ℕ :=
  if a.attr.numLimit = false then a.files.entries.length
  else kept (fun c => c.entries.length) a.attr.limit a.files

/-- The number of files the pass by space leaves in a folder. -/
def spaceKept (limit : ℕ → ℤ) (a : Recordings) : ℕ :=
  if a.attr.numLimit = true then a.files.entries.length
  else kept (fun c => limit (c.entries.map StrFile.space).sum) a.attr.limit a.files

theorem spaceKept_le (limit : ℕ → ℤ) (a : Recordings) :
    spaceKept limit a ≤ a.files.entries.length := by
  unfold spaceKept
  split_ifs
  · exact le_refl _
  · exact kept_le_length _ _ _

/-- The pass by space deletes from a folder if and only if it starts above its quota. -/
theorem spaceKept_lt_iff {limit : ℕ → ℤ} (hzero : limit 0 = 0) {a : Recordings}
    (hnum : a.attr.numLimit = false) (hquota : 0 ≤ a.attr.limit) :
    spaceKept limit a < a.files.entries.length ↔ a.attr.limit < limit a.space := by
  have hempty : limit ((Catalogue.empty : FileCatalogue).entries.map StrFile.space).sum ≤
      a.attr.limit := by
    simpa [hzero] using hquota
  have hkept := kept_eq_length_iff (m := fun c => limit (c.entries.map StrFile.space).sum)
    hempty a.files
  have hle := spaceKept_le limit a
  rw [spaceKept, if_neg (by simp [hnum])] at hle ⊢
  rw [lt_iff_le_and_ne, and_iff_right hle, Ne, hkept]
  exact not_le

/-- The pass by number, when every bound it reads is nonnegative. -/
theorem numLimitPass_yields (mountPath : String) {fs : List ScanFolder} {as : List Recordings}
    (hfs : ListsAll fs as) (hok : ∀ a ∈ as, a.attr.numLimit = true → 0 ≤ a.attr.limit) :
    ∃ fs', ListsAll fs' (as.map fun a => a.keep (numKept a)) ∧
      Yields (fun fuel => numLimitPass mountPath fuel fs)
        (fs', as.flatMap fun a => a.excess mountPath (numKept a)) := by
  have hbody : ∀ {f a}, ScanFolder.Lists f a → (a.attr.numLimit = true → 0 ≤ a.attr.limit) →
      ∃ s', s'.Lists (a.files.keepNewest (numKept a)) ∧ (False → s' = f.folder) ∧
        Yields (fun fuel => numLimitFolder mountPath fuel f)
          (s', a.excess mountPath (numKept a)) := by
    intro f a hf ha
    unfold numLimitFolder numKept
    rw [hf.attr]
    -- `num_limit` is not set: `continue`
    by_cases hnum : a.attr.numLimit = false
    · simp only [if_pos hnum]
      refine ⟨f.folder, ?_, False.elim, ?_⟩
      · rw [keepNewest_of_length_le (le_refl _)]
        exact hf.folder
      · simpa [Recordings.excess] using Yields.pure _
    · simp only [if_neg hnum]
      obtain ⟨s', hs', hy⟩ := deleteWhile_spec (fun s => s.fileNum)
        (fun c => c.entries.length) (filePath mountPath a.attr)
        (fun {s c} hs => by rw [hs.fileNum]) (ha (by simpa using hnum)) hf.folder
      exact ⟨s', hs', False.elim, hy⟩
  obtain ⟨fs', hfs', -, hy⟩ := eachFolder_yields (numLimitFolder mountPath) hbody hfs hok
  exact ⟨fs', hfs', hy⟩

theorem space_keepNewest_mono (c : FileCatalogue) {i j : ℕ} (hij : i ≤ j) :
    ((c.keepNewest i).entries.map StrFile.space).sum ≤
      ((c.keepNewest j).entries.map StrFile.space).sum := by
  rw [← keepNewest_keepNewest c hij]
  exact ((List.take_sublist _ _).map StrFile.space).sum_le_sum fun _ _ => Nat.zero_le _

/-- The sum the pass by space divides by is that of the recordings. -/
theorem totalSpace_eq {fs : List ScanFolder} {as : List Recordings} (hfs : ListsAll fs as) :
    totalSpace fs =
      ((as.filter fun a => a.attr.numLimit = false).map Recordings.space).sum := by
  unfold totalSpace
  induction hfs with
  | nil => rfl
  | @cons f a fs as hf _ ih =>
    rw [List.filter_cons, List.filter_cons, hf.attr]
    -- a folder with `num_limit` counts on neither side
    split_ifs
    · rw [List.map_cons, List.map_cons, List.sum_cons, List.sum_cons, ih, hf.folder.totalSpace]
      rfl
    · exact ih

/-- The folders of the pass by space, when every quota it reads is nonnegative. -/
theorem spaceLimitFolders_yields (mountPath : String) {limit : ℕ → ℤ} (hzero : limit 0 = 0)
    {fs : List ScanFolder} {as : List Recordings} (hfs : ListsAll fs as)
    (hok : ∀ a ∈ as, a.attr.numLimit = false → 0 ≤ a.attr.limit) :
    ∃ fs', ListsAll fs' (as.map fun a => a.keep (spaceKept limit a)) ∧
      List.Forall₂ (fun f f' => f.attr.numLimit = true → f' = f) fs fs' ∧
      Yields (fun fuel => eachFolder (spaceLimitFolder mountPath limit fuel) fs)
        (fs', as.flatMap fun a => a.excess mountPath (spaceKept limit a)) := by
  refine eachFolder_yields (spaceLimitFolder mountPath limit) ?_ hfs hok
  intro f a hf ha
  unfold spaceLimitFolder spaceKept
  rw [hf.attr]
  -- `num_limit` is set: `continue`
  by_cases hnum : a.attr.numLimit = true
  · simp only [if_pos hnum]
    refine ⟨f.folder, ?_, fun _ => rfl, ?_⟩
    · rw [keepNewest_of_length_le (le_refl _)]
      exact hf.folder
    · simpa [Recordings.excess] using Yields.pure _
  · simp only [if_neg hnum]
    obtain ⟨s', hs', hy⟩ := deleteWhile_spec (fun s => limit s.totalSpace)
      (fun c => limit (c.entries.map StrFile.space).sum) (filePath mountPath a.attr)
      (fun {s c} hs => by rw [hs.totalSpace])
      (by simpa [hzero] using ha (by simpa using hnum)) hf.folder
    exact ⟨s', hs', fun h => absurd h hnum, hy⟩

theorem spaceShare_zero (total : ℕ) : spaceShare total 0 = 0 := by simp [spaceShare, share_zero]

/-- The pass by space, when every quota it reads is nonnegative. -/
theorem spaceLimitPass_yields (mountPath : String) {fs : List ScanFolder} {as : List Recordings}
    (hfs : ListsAll fs as) (hok : ∀ a ∈ as, a.attr.numLimit = false → 0 ≤ a.attr.limit)
    (htotal : totalSpace fs ≠ 0) :
    ∃ fs', ListsAll fs' (as.map fun a => a.keep (spaceKept (spaceShare (totalSpace fs)) a)) ∧
      List.Forall₂ (fun f f' => f.attr.numLimit = true → f' = f) fs fs' ∧
      Yields (fun fuel => spaceLimitPass mountPath fuel fs)
        (fs', as.flatMap fun a =>
          a.excess mountPath (spaceKept (spaceShare (totalSpace fs)) a)) := by
  simp only [spaceLimitPass, if_neg htotal]
  exact spaceLimitFolders_yields mountPath (spaceShare_zero _) hfs hok

end RkIpc.Storage
