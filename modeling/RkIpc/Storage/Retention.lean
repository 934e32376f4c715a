import RkIpc.Storage.CleanUp

/-!
# What the clean-up keeps

The pass by number is meant to keep the newest `limit` files of each folder. It compares the
bound with a count read before the last deletion, so it keeps one file less whenever it deletes
at all, unless the bound is zero. The pass by space leaves every folder within its quota, and on
a full card it deletes something as soon as the quotas leave room for the rounding of the shares.
The shares are those of an `off_t` of 64 bits.

## Main definitions

* `KeepsNewest`: the pass by number keeps exactly the newest files up to the limits
* `managed`, `RoomForRounding`: the folders that hold space, and quotas for them

## Main results

* `keepsNewest_iff`: the pass does so exactly when no folder with a positive limit exceeds it
* `spaceLimitPass_within_quota`: the pass by space deletes old files only, and meets the quotas
* `exists_above_quota`: then some folder is above its quota
* `spaceStage_deletes`: on a full card the pass by space deletes a file
-/

namespace RkIpc.Storage

open LinkedList Catalogue Transition Apportion

theorem ListsAll.unique {fs : List ScanFolder} {as bs : List Recordings} (ha : ListsAll fs as)
    (hb : ListsAll fs bs) : as = bs := by
  induction ha generalizing bs with
  | nil =>
    cases hb
    rfl
  | @cons f a fs as hf _ ih =>
    cases hb with
    | @cons _ b _ bs hfb hbs =>
      rw [ih hbs]
      obtain ⟨attr, files⟩ := a
      obtain ⟨attr', files'⟩ := b
      -- both describe the folder at hand
      obtain rfl : attr = attr' := hf.attr.symm.trans hfb.attr
      obtain rfl : files = files' := hf.folder.unique hfb.folder
      rfl

/-! ## By number -/

/-- The number of files the pass by number is meant to leave in a folder. -/
def numWanted (a : Recordings) : ℕ :=
  if a.attr.numLimit = false then a.files.entries.length
  else min a.files.entries.length a.attr.limit.toNat

/-- **The purpose of the pass by number**: it ends, keeps the newest files of each folder up to its
limit, and removes the others. -/
def KeepsNewest (mountPath : String) (fs : List ScanFolder) (as : List Recordings) : Prop :=
  ∃ fs', ListsAll fs' (as.map fun a => a.keep (numWanted a)) ∧
    Yields (fun fuel => numLimitPass mountPath fuel fs)
      (fs', as.flatMap fun a => a.excess mountPath (numWanted a))

theorem numKept_le (a : Recordings) : numKept a ≤ a.files.entries.length := by
  unfold numKept
  split_ifs
  · exact le_refl _
  · exact kept_le_length _ _ _

/-- The pass keeps what it is meant to keep exactly when no limit is exceeded, or it is zero. -/
theorem numKept_eq_numWanted_iff {a : Recordings}
    (hlimit : a.attr.numLimit = true → 0 ≤ a.attr.limit) :
    numKept a = numWanted a ↔ (a.attr.numLimit = true →
      (a.files.entries.length : ℤ) ≤ a.attr.limit ∨ a.attr.limit = 0) := by
  by_cases hnum : a.attr.numLimit = true
  · have h0 := hlimit hnum
    have hne : ¬ a.attr.numLimit = false := by simp [hnum]
    rw [numKept, numWanted, if_neg hne, if_neg hne, kept_length h0]
    -- within the limit both keep all; above it one file less goes only at zero
    split_ifs with hle
    · simp only [hnum, true_imp_iff, hle, true_or, iff_true]
      omega
    · simp only [hnum, true_imp_iff, hle, false_or]
      omega
  · have hf : a.attr.numLimit = false := by simpa using hnum
    simp [numKept, numWanted, hf]

theorem keepsNewest_iff_numKept (mountPath : String) {fs : List ScanFolder}
    {as : List Recordings} (hfs : ListsAll fs as)
    (hlimit : ∀ a ∈ as, a.attr.numLimit = true → 0 ≤ a.attr.limit) :
    KeepsNewest mountPath fs as ↔ ∀ a ∈ as, numKept a = numWanted a := by
  obtain ⟨fs₁, hfs₁, hy₁⟩ := numLimitPass_yields mountPath hfs hlimit
  constructor
  · rintro ⟨fs₂, hfs₂, hy₂⟩ a ha
    -- the run is determined, so both descriptions are of the same folders
    obtain ⟨rfl, -⟩ := Prod.mk.inj (hy₁.unique hy₂)
    have hkeep := List.map_inj_left.mp (hfs₁.unique hfs₂) a ha
    have hlen := congrArg (fun b : Recordings => b.files.entries.length) hkeep
    have hle := numKept_le a
    have hle' : numWanted a ≤ a.files.entries.length := by
      unfold numWanted
      split_ifs <;> omega
    -- two numbers up to the length that keep equally many files are equal
    simp only [Recordings.keep, keepNewest_entries, List.length_take] at hlen
    omega
  · intro h
    have hkeep : (as.map fun a => a.keep (numKept a)) = as.map fun a => a.keep (numWanted a) :=
      List.map_congr_left fun a ha => by rw [h a ha]
    have hexcess : (as.flatMap fun a => a.excess mountPath (numKept a)) =
        as.flatMap fun a => a.excess mountPath (numWanted a) :=
      List.flatMap_congr fun a ha => by rw [h a ha]
    exact ⟨fs₁, hkeep ▸ hfs₁, hexcess ▸ hy₁⟩

/-- **The pass by number keeps exactly the newest files** if and only if no folder exceeds its
limit, or the limits that are exceeded are zero. -/
theorem keepsNewest_iff (mountPath : String) {fs : List ScanFolder} {as : List Recordings}
    (hfs : ListsAll fs as) (hlimit : ∀ a ∈ as, a.attr.numLimit = true → 0 ≤ a.attr.limit) :
    KeepsNewest mountPath fs as ↔ ∀ a ∈ as, a.attr.numLimit = true →
      (a.files.entries.length : ℤ) ≤ a.attr.limit ∨ a.attr.limit = 0 := by
  rw [keepsNewest_iff_numKept mountPath hfs hlimit]
  exact forall₂_congr fun a ha => numKept_eq_numWanted_iff (hlimit a ha)

/-- A folder with two files of one block each. -/
def twoFiles : StrFolder where
  fileNum := 2
  totalSize := 600
  totalSpace := 1024
  fileListFirst := some 1
  fileListLast := some 0
  heap := ((Heap.empty.malloc ⟨⟨"0900.mp4", 9, 200, 512⟩, none⟩).2.malloc
    ⟨⟨"1000.mp4", 10, 400, 512⟩, some 0⟩).2

/-- Its recordings. -/
def twoRecordings : FileCatalogue where
  entries := [⟨"1000.mp4", 10, 400, 512⟩, ⟨"0900.mp4", 9, 200, 512⟩]
  newestFirst := by decide
  nodup := by decide

theorem twoFiles_lists : twoFiles.Lists twoRecordings where
  nodes := ⟨[(1, ⟨"1000.mp4", 10, 400, 512⟩), (0, ⟨"0900.mp4", 9, 200, 512⟩)],
    ⟨rfl, some 0, rfl, rfl, none, rfl, rfl⟩, rfl, rfl⟩
  fileNum := rfl
  totalSize := rfl
  totalSpace := rfl

/-- With a limit of one file the pass removes both. -/
theorem numLimitPass_overshoots :
    (numLimitPass "/mnt/sdcard" 4 [⟨⟨"video0", true, 1⟩, twoFiles⟩]).map Prod.snd =
        some ["/mnt/sdcard/video0/0900.mp4", "/mnt/sdcard/video0/1000.mp4"] ∧
      ¬ KeepsNewest "/mnt/sdcard" [⟨⟨"video0", true, 1⟩, twoFiles⟩]
        [⟨⟨"video0", true, 1⟩, twoRecordings⟩] := by
  refine ⟨by decide, ?_⟩
  rw [keepsNewest_iff_numKept _ (.cons ⟨rfl, twoFiles_lists⟩ .nil) (by simp)]
  intro h
  have := h _ (List.mem_singleton.mpr rfl)
  rw [numKept_eq_numWanted_iff (by simp)] at this
  exact absurd (this rfl) (by decide)

theorem keepsNewest_iff_twoFiles :
    KeepsNewest "/mnt/sdcard" [⟨⟨"video0", true, 2⟩, twoFiles⟩]
        [⟨⟨"video0", true, 2⟩, twoRecordings⟩] ↔
      ∀ a ∈ [(⟨⟨"video0", true, 2⟩, twoRecordings⟩ : Recordings)], a.attr.numLimit = true →
        (a.files.entries.length : ℤ) ≤ a.attr.limit ∨ a.attr.limit = 0 :=
  keepsNewest_iff "/mnt/sdcard" (.cons ⟨rfl, twoFiles_lists⟩ .nil) (by simp)

/-! ## By space -/

theorem share_space_mono (total : ℕ) (c : FileCatalogue) {i j : ℕ} (hij : i ≤ j) :
    (share 100 total ((c.keepNewest i).entries.map StrFile.space).sum : ℤ) ≤
      share 100 total ((c.keepNewest j).entries.map StrFile.space).sum :=
  Int.ofNat_le.mpr (share_mono (space_keepNewest_mono c hij))

/-- **The pass by space is sound**: it ends; each folder keeps its newest files, and nothing it
loses is newer than anything it keeps; folders with `num_limit` are left alone; and every other
folder is within its quota of the space summed up before the pass. -/
theorem spaceLimitPass_within_quota (mountPath : String) {fs : List ScanFolder}
    {as : List Recordings} (hfs : ListsAll fs as)
    (hquota : ∀ a ∈ as, a.attr.numLimit = false → 0 ≤ a.attr.limit)
    (htotal : 0 < totalSpace fs) :
    ∃ (fs' : List ScanFolder) (k : Recordings → ℕ),
      Yields (fun fuel => spaceLimitPass mountPath fuel fs)
        (fs', as.flatMap fun a => a.excess mountPath (k a)) ∧
      ListsAll fs' (as.map fun a => a.keep (k a)) ∧
      List.Forall₂ (fun f f' => f.attr.numLimit = true → f' = f) fs fs' ∧
      ∀ a ∈ as,
        (∀ x ∈ a.files.entries.drop (k a), ∀ y ∈ (a.keep (k a)).files.entries,
          x.time ≤ y.time) ∧
        (a.attr.numLimit = true → k a = a.files.entries.length) ∧
        (a.attr.numLimit = false →
          ((a.keep (k a)).space * 100 / totalSpace fs : ℕ) ≤ a.attr.limit) := by
  obtain ⟨fs', hfs', hskip, hy⟩ := spaceLimitPass_yields mountPath hfs hquota
    (Nat.ne_of_gt htotal)
  refine ⟨fs', spaceKept (spaceShare (totalSpace fs)), hy, hfs', hskip,
    fun a ha => ⟨?_, ?_, ?_⟩⟩
  · exact fun x hx y hy => time_le_of_mem_drop hx hy
  · intro hnum
    rw [spaceKept, if_pos hnum]
  · intro hnum
    -- the share only falls with the files, so what is left meets the quota
    have h := kept_le (fun c => share 100 (totalSpace fs) (c.entries.map StrFile.space).sum)
      (by simpa [share_zero] using hquota a ha hnum)
      (fun c i j => share_space_mono _ c) a.files
    rw [spaceKept, if_neg (by simp [hnum])]
    exact h

theorem spaceLimitPass_within_quota_twoFiles :
    ∃ (fs' : List ScanFolder) (k : Recordings → ℕ),
      Yields (fun fuel => spaceLimitPass "/mnt/sdcard" fuel [⟨⟨"video0", false, 60⟩, twoFiles⟩])
        (fs', [(⟨⟨"video0", false, 60⟩, twoRecordings⟩ : Recordings)].flatMap fun a =>
          a.excess "/mnt/sdcard" (k a)) ∧
      ListsAll fs' ([(⟨⟨"video0", false, 60⟩, twoRecordings⟩ : Recordings)].map fun a =>
        a.keep (k a)) ∧
      List.Forall₂ (fun f f' => f.attr.numLimit = true → f' = f)
        [⟨⟨"video0", false, 60⟩, twoFiles⟩] fs' ∧
      ∀ a ∈ [(⟨⟨"video0", false, 60⟩, twoRecordings⟩ : Recordings)],
        (∀ x ∈ a.files.entries.drop (k a), ∀ y ∈ (a.keep (k a)).files.entries,
          x.time ≤ y.time) ∧
        (a.attr.numLimit = true → k a = a.files.entries.length) ∧
        (a.attr.numLimit = false → ((a.keep (k a)).space * 100 /
          totalSpace [⟨⟨"video0", false, 60⟩, twoFiles⟩] : ℕ) ≤ a.attr.limit) :=
  spaceLimitPass_within_quota "/mnt/sdcard" (.cons ⟨rfl, twoFiles_lists⟩ .nil) (by simp)
    (by decide)

/-- The folders without `num_limit` that hold space. -/
def managed (as : List Recordings) : List Recordings :=
  (as.filter fun a => a.attr.numLimit = false).filter fun a => 0 < a.space

theorem mem_managed {as : List Recordings} {a : Recordings} :
    a ∈ managed as ↔ a ∈ as ∧ a.attr.numLimit = false ∧ 0 < a.space := by
  simp only [managed, List.mem_filter, decide_eq_true_eq, and_assoc]

/-- **The quotas leave room for the rounding** of the shares: they are nonnegative, and those of the
`k` managed folders add up to less than `100 - (k - 1)`. -/
structure RoomForRounding (as : List Recordings) : Prop where
  nonneg : ∀ a ∈ as, a.attr.numLimit = false → 0 ≤ a.attr.limit
  sum : ((managed as).map fun a => a.attr.limit).sum < 100 - (((managed as).length : ℤ) - 1)

/-- Where every folder is within its quota, so are the sums: an empty folder has no share. -/
theorem sum_share_le_sum_limit {total : ℕ} {as : List Recordings}
    (h : ∀ a ∈ as, 0 < a.space → (share 100 total a.space : ℤ) ≤ a.attr.limit) :
    ((((as.map Recordings.space).map (share 100 total)).sum : ℕ) : ℤ) ≤
      ((as.filter fun a => 0 < a.space).map fun a => a.attr.limit).sum := by
  induction as with
  | nil => simp
  | cons a as ih =>
    have ih := ih fun b hb => h b (List.mem_cons_of_mem _ hb)
    simp only [List.map_cons, List.sum_cons, Nat.cast_add, List.filter_cons]
    by_cases hpos : 0 < a.space
    · rw [if_pos (by simpa using hpos), List.map_cons, List.sum_cons]
      exact add_le_add (h a List.mem_cons_self hpos) ih
    -- no space, no share: the folder is not among those counted
    · have hzero : a.space = 0 := Nat.eq_zero_of_not_pos hpos
      rw [if_neg (by simpa using hpos), hzero, share_zero]
      simpa using ih

/-- The positive amounts are those of the managed folders. -/
theorem countPos_space (as : List Recordings) :
    countPos ((as.filter fun a => a.attr.numLimit = false).map Recordings.space) =
      (managed as).length := by
  rw [countPos, List.countP_map, List.countP_eq_length_filter]
  rfl

/-- **Some folder is above its quota** when the quotas leave room for the rounding. -/
theorem exists_above_quota {fs : List ScanFolder} {as : List Recordings} (hfs : ListsAll fs as)
    (hroom : RoomForRounding as) (htotal : 0 < totalSpace fs) :
    ∃ a ∈ managed as, a.attr.limit < spaceShare (totalSpace fs) a.space := by
  have hT := totalSpace_eq hfs
  -- otherwise the shares add up to at most the quotas, and the rounding loses too little
  by_contra hnone
  push Not at hnone
  have hwithin : ∀ a ∈ as.filter fun a => a.attr.numLimit = false, 0 < a.space →
      (share 100 (totalSpace fs) a.space : ℤ) ≤ a.attr.limit := by
    intro a ha hpos
    exact hnone a (List.mem_filter.mpr ⟨ha, decide_eq_true hpos⟩)
  have hlt := lt_sum_share_add_count 100 (hT ▸ htotal)
  have hle := sum_share_le_sum_limit hwithin
  have hsum := hroom.sum
  rw [countPos_space, ← hT] at hlt
  rw [managed] at hsum hlt
  omega

/-- **A full card is relieved**: when the free space is at most the minimum, some folder without
`num_limit` holds space, and the quotas of those that do leave room for the rounding of their
shares, the pass by space removes a file. -/
theorem spaceStage_deletes (mountPath : String) {freeSizeDelMin freeSize : ℤ}
    {fs : List ScanFolder} {as : List Recordings} (hfs : ListsAll fs as)
    (hroom : RoomForRounding as) (hfree : freeSize ≤ freeSizeDelMin * 1024)
    (htotal : 0 < totalSpace fs) :
    ∃ (fs' : List ScanFolder) (k : Recordings → ℕ),
      Yields (fun fuel => spaceStage mountPath freeSizeDelMin freeSize fuel fs)
        (fs', as.flatMap fun a => a.excess mountPath (k a)) ∧
      ListsAll fs' (as.map fun a => a.keep (k a)) ∧
      ∃ a ∈ as, k a < a.files.entries.length := by
  obtain ⟨fs', hfs', -, hy⟩ :=
    spaceLimitPass_yields mountPath hfs hroom.nonneg (Nat.ne_of_gt htotal)
  obtain ⟨a, ha, habove⟩ := exists_above_quota hfs hroom htotal
  obtain ⟨ha, hnum, -⟩ := mem_managed.mp ha
  refine ⟨fs', spaceKept (spaceShare (totalSpace fs)), ?_, hfs', a, ha, ?_⟩
  · simpa only [spaceStage, if_neg (not_lt.mpr hfree)] using hy
  · exact (spaceKept_lt_iff (spaceShare_zero _) hnum (hroom.nonneg a ha hnum)).mpr habove

end RkIpc.Storage
