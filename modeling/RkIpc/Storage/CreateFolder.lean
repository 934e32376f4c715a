import RkIpc.Path.FileSystem

/-!
# A folder is created

The storage makes the folder that it lists, and those above it. It ends the path at each slash with
a null, makes that much of it unless it is found, and puts the slash back. When a directory cannot
be made it returns, and the slash is not put back.

## Main definitions

* `createFolder`: `rkipc_storage_create_folder`
* `AllOrError`: the path is as it was, and all of it is there if the call succeeds

## Main results

* `createFolder_allOrError_iff`: when it is so
* `createFolder_cuts`: a path that is cut off, and a file that is taken for the folder
-/

namespace RkIpc.Storage

open Path Text

variable {σ : Type*}

/-- The file system, the buffer with the path, and whether `g_mkdir_mutex` is held. -/
structure FolderState (σ : Type*) where
  tree : σ
  folder : List UInt8
  gMkdirMutex : Bool

def FolderState.lock (s : FolderState σ) : FolderState σ := { s with gMkdirMutex := true }

def FolderState.unlock (s : FolderState σ) : FolderState σ := { s with gMkdirMutex := false }

/-- The loop over the path from `i` on. The flag says whether it comes to the end. -/
def createLoop (fs : FileSystem σ) : ℕ → ℕ → FolderState σ → FolderState σ × Bool
  | 0, _, s => (s, true)
  | n + 1, i, s =>
    if s.folder[i]? ≠ some slash then createLoop fs n (i + 1) s
    else
      let s := { s with folder := s.folder.set i 0 }
      match fs.make s.tree (cstr s.folder) with
      -- returns from the function, with the path as it is here
      | none => (s.unlock, false)
      | some tree =>
        createLoop fs n (i + 1) { s with tree := tree, folder := s.folder.set i slash }

/-- `rkipc_storage_create_folder` on a path, while no other thread holds the mutex: the state
afterwards, and the return value. -/
def createFolder (fs : FileSystem σ) (tree : σ) (folder : List UInt8) : FolderState σ × ℤ :=
  let s : FolderState σ := ⟨tree, folder, false⟩
  let len := (cstr folder).length
  if len = 0 then (s, -1)
  else
    match createLoop fs (len - 1) 1 s.lock with
    | (s, false) => (s, -1)
    | (s, true) =>
      match fs.make s.tree (cstr s.folder) with
      | none => (s.unlock, -1)
      | some tree => ({ s with tree := tree }.unlock, 0)

/-- **All or error**: the path is as it was; if the call succeeds, the path and its proper prefixes
are directories; and the mutex is released. -/
structure AllOrError (fs : FileSystem σ) (folder : List UInt8) (result : FolderState σ × ℤ) :
    Prop where
  intact : result.1.folder = folder
  made : result.2 = 0 → ∀ q ∈ above (cstr folder) ++ [cstr folder], fs.IsDir result.1.tree q
  released : result.1.gMkdirMutex = false

variable {fs : FileSystem σ} {folder : List UInt8} {i : ℕ}

/-! ## The path in the loop -/

theorem getElem?_cstr (h : i < (cstr folder).length) : (cstr folder)[i]? = folder[i]? := by
  conv_rhs => rw [← List.takeWhile_append_dropWhile (p := (· ≠ 0)) (l := folder)]
  exact (List.getElem?_append_left h).symm

/-- A null ends the path. -/
theorem cstr_set_zero (h : i < (cstr folder).length) :
    cstr (folder.set i 0) = (cstr folder).take i := by
  have hsplit : cstr folder ++ folder.dropWhile (· ≠ 0) = folder :=
    List.takeWhile_append_dropWhile
  have hlen : i < folder.length := by
    rw [← hsplit, List.length_append]
    omega
  have htake : folder.take i = (cstr folder).take i := by
    conv_lhs => rw [← hsplit]
    exact List.take_append_of_le_length h.le
  rw [List.set_eq_take_append_cons_drop, if_pos hlen, htake]
  exact cstr_append_zero fun h0 => zero_notMem_cstr folder (List.mem_of_mem_take h0)

/-- The slash is put back. -/
theorem set_slash (h : folder[i]? = some slash) : (folder.set i 0).set i slash = folder := by
  obtain ⟨hlt, hget⟩ := List.getElem?_eq_some_iff.mp h
  rw [List.set_set, ← hget, List.set_getElem_self]

theorem set_zero_ne (h : folder[i]? = some slash) : folder.set i 0 ≠ folder := by
  intro heq
  obtain ⟨hlt, -⟩ := List.getElem?_eq_some_iff.mp h
  rw [← heq, List.getElem?_set_self hlt] at h
  exact absurd (Option.some.inj h) (by decide)

/-- **The loop comes to the end** if the directories above are made, with the path as it was. -/
theorem createLoop_of_makeAll {n : ℕ} {s : FolderState σ} {t : σ}
    (hlen : i + n ≤ (cstr s.folder).length)
    (h : fs.makeAll s.tree (aboveFrom (cstr s.folder) n i) = some t) :
    createLoop fs n i s = ({ s with tree := t }, true) := by
  induction n generalizing i s with
  | zero =>
    obtain rfl := Option.some.inj h
    rfl
  | succ n ih =>
    have hi : i < (cstr s.folder).length := by omega
    rw [aboveFrom, getElem?_cstr hi] at h
    rw [createLoop]
    by_cases hslash : s.folder[i]? = some slash
    · rw [if_pos hslash] at h
      obtain ⟨u, hu, h⟩ := Option.bind_eq_some_iff.mp h
      rw [if_neg (not_not.mpr hslash)]
      simp only [cstr_set_zero hi, hu, set_slash hslash]
      exact ih (by show _ ≤ (cstr s.folder).length; omega) h
    · rw [if_neg hslash] at h
      rw [if_pos hslash]
      exact ih (by omega) h

/-- **It returns with the path cut off** if one of them cannot be made. -/
theorem createLoop_of_makeAll_none {n : ℕ} {s : FolderState σ}
    (hlen : i + n ≤ (cstr s.folder).length)
    (h : fs.makeAll s.tree (aboveFrom (cstr s.folder) n i) = none) :
    ∃ u, createLoop fs n i s = (u, false) ∧ u.folder ≠ s.folder := by
  induction n generalizing i s with
  | zero => contradiction
  | succ n ih =>
    have hi : i < (cstr s.folder).length := by omega
    rw [aboveFrom, getElem?_cstr hi] at h
    rw [createLoop]
    by_cases hslash : s.folder[i]? = some slash
    · rw [if_pos hslash, FileSystem.makeAll] at h
      rw [if_neg (not_not.mpr hslash)]
      simp only [cstr_set_zero hi, set_slash hslash]
      cases hu : fs.make s.tree ((cstr s.folder).take i) with
      | none => exact ⟨_, rfl, set_zero_ne hslash⟩
      | some t =>
        rw [hu] at h
        exact ih (s := { s with tree := t }) (by show _ ≤ (cstr s.folder).length; omega) h
    · rw [if_neg hslash] at h
      rw [if_pos hslash]
      exact ih (by omega) h

/-- A path to a directory is there with all that is above it. -/
theorem isDir_of_mem {t : σ} (h : fs.IsDir t (cstr folder)) :
    ∀ q ∈ above (cstr folder) ++ [cstr folder], fs.IsDir t q := by
  intro q hq
  rcases List.mem_append.mp hq with hq | hq
  · exact fs.isDir_above h hq
  · rw [List.mem_singleton.mp hq]
    exact h

/-- **Folder creation is all or error** if and only if the directories above can be made one after
the other, unless they are found, and what is then found under the path is a directory. -/
theorem createFolder_allOrError_iff (fs : FileSystem σ) (tree : σ) (folder : List UInt8) :
    AllOrError fs folder (createFolder fs tree folder) ↔
      (cstr folder ≠ [] → ∃ t, fs.makeAll tree (above (cstr folder)) = some t ∧
        (fs.access t (cstr folder) → fs.IsDir t (cstr folder))) := by
  rw [createFolder]
  by_cases hlen : (cstr folder).length = 0
  · -- an invalid path
    have hnil : cstr folder = [] := List.length_eq_zero_iff.mp hlen
    simp only [if_pos hlen]
    refine iff_of_true ⟨rfl, fun h : (-1 : ℤ) = 0 => ?_, rfl⟩ fun h => absurd hnil h
    exact absurd h (by decide)
  have hne : cstr folder ≠ [] := fun hnil => hlen (by rw [hnil]; rfl)
  have hloop : 1 + ((cstr folder).length - 1) ≤ (cstr folder).length := by omega
  rw [forall_prop_of_true hne]
  simp only [if_neg hlen]
  cases hall : fs.makeAll tree (above (cstr folder)) with
  | none =>
    obtain ⟨u, hu, hcut⟩ :=
      createLoop_of_makeAll_none (s := (⟨tree, folder, false⟩ : FolderState σ).lock) hloop hall
    rw [hu]
    refine iff_of_false (fun h => hcut h.intact) ?_
    rintro ⟨t, ht, -⟩
    contradiction
  | some t =>
    rw [createLoop_of_makeAll (s := (⟨tree, folder, false⟩ : FolderState σ).lock) hloop hall]
    simp only [Option.some.injEq, exists_eq_left']
    show AllOrError fs folder (match fs.make t (cstr folder) with
      | none => (⟨t, folder, false⟩, -1)
      | some u => (⟨u, folder, false⟩, 0)) ↔ _
    by_cases hfound : fs.access t (cstr folder) = true
    · -- what is found is taken for the folder
      have hmake : fs.make t (cstr folder) = some t := if_pos hfound
      rw [hmake, forall_prop_of_true hfound]
      constructor
      · intro h
        exact h.made rfl _ (List.mem_append_right _ (List.mem_singleton_self _))
      · intro h
        exact ⟨rfl, fun _ => isDir_of_mem h, rfl⟩
    · have hmake : fs.make t (cstr folder) = fs.mkdir t (cstr folder) := if_neg hfound
      refine iff_of_true ?_ fun h => absurd h hfound
      cases hmade : fs.mkdir t (cstr folder) with
      | none =>
        rw [hmake, hmade]
        exact ⟨rfl, fun h : (-1 : ℤ) = 0 => absurd h (by decide), rfl⟩
      | some u =>
        rw [hmake, hmade]
        exact ⟨rfl, fun _ => isDir_of_mem (fs.isDir_mkdir hmade), rfl⟩

/-- The root, and a card mounted at `/mnt` with a file in it. -/
def cardTree : Tree where
  kind l :=
    if l = [] ∨ l = [lit "mnt"] then some .dir
    else if l = [lit "mnt", lit "video"] then some .file else none
  cwd := []

/-- The calls on a card on which no directory can be made. -/
def readOnly : FileSystem Tree := Tree.fileSystem (fun _ => false) fun _ => true

/-- The calls, which fail only as the tree makes them. -/
def unhindered : FileSystem Tree := Tree.fileSystem (fun _ => false) fun _ => false

/-- **It is not all or error.** On a card on which no directory can be made the call fails, and the
path of the folder is cut off. And a file in the place of the folder is taken for it: the call
succeeds, and there is no such directory. -/
theorem createFolder_cuts :
    ((createFolder readOnly cardTree (lit "/mnt/rec/0")).2 = -1 ∧
      cstr (createFolder readOnly cardTree (lit "/mnt/rec/0")).1.folder = lit "/mnt/rec" ∧
      ¬ AllOrError readOnly (lit "/mnt/rec/0")
        (createFolder readOnly cardTree (lit "/mnt/rec/0"))) ∧
    ((createFolder unhindered cardTree (lit "/mnt/video")).2 = 0 ∧
      ¬ AllOrError unhindered (lit "/mnt/video")
        (createFolder unhindered cardTree (lit "/mnt/video"))) := by
  refine ⟨⟨by decide, by decide +kernel, fun h => ?_⟩, by decide +kernel, fun h => ?_⟩
  · have hcut : (createFolder readOnly cardTree (lit "/mnt/rec/0")).1.folder ≠
        lit "/mnt/rec/0" := by
      decide
    exact hcut h.intact
  · -- the tree is as it was, with the file
    have hpath : cstr (lit "/mnt/video") = lit "/mnt/video" := by decide
    have hfile : (cardTree.lookup (lit "/mnt/video")).bind cardTree.kind = some .file := by
      decide
    obtain ⟨l, hl, hdir⟩ : cardTree.IsDir (cstr (lit "/mnt/video")) :=
      h.made (by decide) _ (List.mem_append_right _ (List.mem_singleton_self _))
    rw [hpath] at hl
    rw [hl, Option.bind_some, hdir] at hfile
    contradiction

end RkIpc.Storage
