import Mathlib.Algebra.BigOperators.Ring.Finset
import RkIpc.Storage.DiskSize
import RkIpc.Storage.Retention

/-!
# The relief of a full card

On the 32-bit targets the share of a folder is computed in words of 32 bits: its space times one
hundred wraps around from about 20 MB on, and then a folder that holds most of the recordings may
seem to hold none. The pass by space goes by these shares.

## Main definitions

* `Word.spaceShare`, `Word.spaceLimitPass`, `Word.spaceStage`: the pass by space in words
* `Relieves`: the pass removes a file
* `Relieved`: it does so on every full card, whatever the quotas

## Main results

* `relieved_iff`: it does if no product wraps around, and for up to ten folders only then
* `full_card_kept`: one folder of 30 MB, and nothing is removed
-/

namespace RkIpc.Storage

open LinkedList Catalogue Transition Apportion Wire

/-! ## The pass in words -/

namespace Word

/-- `folder[i].total_space * 100 / total_space`, of the words that hold them. -/
def spaceShare (total : Int32) (space : ℕ) : ℤ := (limit total (Int32.ofNat space)).toInt

/-- `total_space += folder[i].total_space` over the folders without `num_limit`. -/
def sumSpace (fs : List ScanFolder) : Int32 :=
  ((fs.filter fun f => f.attr.numLimit = false).map fun f =>
    Int32.ofNat f.folder.totalSpace).foldl (· + ·) 0

/-- "delete file by space limit". -/
def spaceLimitPass (mountPath : String) (fuel : ℕ) (fs : List ScanFolder) :
    Option (List ScanFolder × List String) :=
  -- `if (!total_space)`: the round ends here
  if sumSpace fs = 0 then some (fs, [])
  else eachFolder (spaceLimitFolder mountPath (spaceShare (sumSpace fs)) fuel) fs

/-- The part of a round after the pass by number: nothing while the card has room. -/
def spaceStage (mountPath : String) (freeSizeDelMin : Int32) (size : DiskSize) (fuel : ℕ)
    (fs : List ScanFolder) : Option (List ScanFolder × List String) :=
  if hasRoom size freeSizeDelMin then some (fs, []) else spaceLimitPass mountPath fuel fs

end Word

/-- The pass removes a file: it keeps the newest files of each folder, and not all of them. -/
def Relieves (mountPath : String) (freeSizeDelMin : Int32) (size : DiskSize)
    (fs : List ScanFolder) (as : List Recordings) : Prop :=
  ∃ (fs' : List ScanFolder) (k : Recordings → ℕ),
    Yields (fun fuel => Word.spaceStage mountPath freeSizeDelMin size fuel fs)
      (fs', as.flatMap fun a => a.excess mountPath (k a)) ∧
    ListsAll fs' (as.map fun a => a.keep (k a)) ∧
    ∃ a ∈ as, k a < a.files.entries.length

/-- The recordings with another quota. -/
def Recordings.withLimit (a : Recordings) (limit : ℤ) : Recordings :=
  { a with attr := { a.attr with limit := limit } }

/-- **A full card with these recordings is relieved**, whatever the quotas, if they leave room for
the rounding of the shares. -/
def Relieved (mountPath : String) (as : List Recordings) : Prop :=
  ∀ (bs : List Recordings) (fs : List ScanFolder) (freeSizeDelMin : Int32) (size : DiskSize),
    List.Forall₂ (fun a b => ∃ limit, b = a.withLimit limit) as bs → ListsAll fs bs →
    Word.hasRoom size freeSizeDelMin = false → RoomForRounding bs →
    Relieves mountPath freeSizeDelMin size fs bs

/-! ## The words -/

section Words

variable {total : Int32} {space : ℕ}

theorem toInt_ofNat (h : space < 2 ^ 31) : (Int32.ofNat space).toInt = space :=
  Int32.toInt_ofNat_of_lt h

/-- Nothing has no share. -/
theorem Word.spaceShare_zero (total : Int32) : Word.spaceShare total 0 = 0 := by
  have hzero : (Int32.ofNat 0) * 100 = 0 := by decide
  rw [Word.spaceShare, Word.limit, hzero, Int32.zero_div]
  rfl

/-- The share is that of what is left of the product, rounded towards zero. -/
theorem Word.spaceShare_eq (htotal : 0 < total.toInt) (hspace : space < 2 ^ 31) :
    Word.spaceShare total space = ((space * 100 : ℤ).bmod (2 ^ 32)).tdiv total.toInt := by
  have h100 : (100 : Int32).toInt = 100 := by decide
  rw [Word.spaceShare, Word.limit, toInt_div_of_pos htotal, Int32.toInt_mul, toInt_ofNat hspace,
    h100]

/-- The share is the one meant, if the product is in range. -/
theorem Word.spaceShare_eq_share (htotal : 0 < total.toInt) (hspace : space * 100 < 2 ^ 31) :
    Word.spaceShare total space = Storage.spaceShare total.toInt.toNat space := by
  have hrange : InRange (space * 100 : ℤ) := ⟨by omega, by omega⟩
  rw [Word.spaceShare_eq htotal (by omega), bmod_eq_self_iff.mpr hrange,
    Int.tdiv_eq_ediv_of_nonneg (by omega), Storage.spaceShare, share]
  push_cast
  rw [Int.toNat_of_nonneg htotal.le]

/-- In multiples the share has at most what is left of the product. -/
theorem Word.spaceShare_mul_le (htotal : 0 < total.toInt) (hspace : space < 2 ^ 31) :
    ((Word.spaceShare total space).toNat : ℤ) * total.toInt ≤
      max 0 ((space * 100 : ℤ).bmod (2 ^ 32)) := by
  rw [Word.spaceShare_eq htotal hspace]
  generalize (space * 100 : ℤ).bmod (2 ^ 32) = w
  rcases le_or_gt 0 w with hw | hw
  · rw [Int.tdiv_eq_ediv_of_nonneg hw, Int.toNat_of_nonneg (Int.ediv_nonneg hw htotal.le),
      max_eq_right hw]
    exact Int.ediv_mul_le w htotal.ne'
  -- a negative rest has no positive share
  · have hneg : w.tdiv total.toInt ≤ 0 := by
      have h := Int.tdiv_nonneg (a := -w) (by omega) htotal.le
      rw [Int.neg_tdiv] at h
      omega
    rw [Int.toNat_of_nonpos hneg, max_eq_left hw.le]
    simp

/-- What is left of a product: never more than it, never as much as `2 ^ 31`, and less by that much
once it has wrapped around. -/
theorem bmod_bounds {v : ℤ} (hv : 0 ≤ v) :
    v.bmod (2 ^ 32) ≤ v ∧ v.bmod (2 ^ 32) < 2 ^ 31 ∧
      (2 ^ 31 ≤ v → max 0 (v.bmod (2 ^ 32)) + 2 ^ 31 ≤ v) := by
  rw [Int.bmod_def]
  split <;> omega

end Words

/-! ## The quotas and the shares -/

section Shares

variable {fs : List ScanFolder} {as : List Recordings}

/-- The word for the whole is exact, if the whole is in range. -/
theorem toInt_sumSpace (hwhole : totalSpace fs < 2 ^ 31) :
    (Word.sumSpace fs).toInt = totalSpace fs := by
  unfold Word.sumSpace
  unfold totalSpace at hwhole ⊢
  generalize (fs.filter fun f => f.attr.numLimit = false) = gs at hwhole ⊢
  have hmap : (gs.map fun f => Int32.ofNat f.folder.totalSpace).map Int32.toInt =
      (gs.map fun f => f.folder.totalSpace).map fun n : ℕ => (n : ℤ) := by
    rw [List.map_map, List.map_map]
    refine List.map_congr_left fun f hf => ?_
    have hle := List.single_le_sum (fun _ _ => Nat.zero_le _) _
      (List.mem_map_of_mem (f := fun f : ScanFolder => f.folder.totalSpace) hf)
    exact toInt_ofNat (by omega)
  have hsum : ((gs.map fun f => Int32.ofNat f.folder.totalSpace).map Int32.toInt).sum =
      ((gs.map fun f => f.folder.totalSpace).sum : ℕ) := by
    rw [hmap, ← Nat.cast_list_sum]
  rw [toInt_sum_eq_iff.mpr, hsum]
  rw [hsum]
  exact ⟨by omega, by exact_mod_cast hwhole⟩

/-- **The pass on a full card** removes a file if and only if some folder is above its quota, by
the shares in words. -/
theorem relieves_iff (mountPath : String) {freeSizeDelMin : Int32} {size : DiskSize}
    (hfs : ListsAll fs as) (hfull : Word.hasRoom size freeSizeDelMin = false)
    (hne : Word.sumSpace fs ≠ 0)
    (hquota : ∀ a ∈ as, a.attr.numLimit = false → 0 ≤ a.attr.limit) :
    Relieves mountPath freeSizeDelMin size fs as ↔
      ∃ a ∈ as, a.attr.numLimit = false ∧
        a.attr.limit < Word.spaceShare (Word.sumSpace fs) a.space := by
  set limit := Word.spaceShare (Word.sumSpace fs) with hlimit
  have hzero : limit 0 = 0 := Word.spaceShare_zero _
  obtain ⟨fs', hfs', -, hy⟩ := spaceLimitFolders_yields mountPath hzero hfs hquota
  have hstage : Yields (fun fuel => Word.spaceStage mountPath freeSizeDelMin size fuel fs)
      (fs', as.flatMap fun a => a.excess mountPath (spaceKept limit a)) := by
    simpa only [Word.spaceStage, hfull, Word.spaceLimitPass, if_neg hne, Bool.false_eq_true,
      if_false] using hy
  constructor
  · rintro ⟨fs'', k, hy', hfs'', a, ha, hlt⟩
    -- the run is determined, so it keeps as many files as the shares say
    obtain ⟨rfl, -⟩ := Prod.mk.inj (hstage.unique hy')
    have hkeep := List.map_inj_left.mp (hfs'.unique hfs'') a ha
    have hlen := congrArg (fun b : Recordings => b.files.entries.length) hkeep
    simp only [Recordings.keep, keepNewest_entries, List.length_take] at hlen
    have hless : spaceKept limit a < a.files.entries.length := by omega
    have hnum : a.attr.numLimit = false := by
      by_contra hnum
      rw [spaceKept, if_pos (by simpa using hnum)] at hless
      exact lt_irrefl _ hless
    exact ⟨a, ha, hnum, (spaceKept_lt_iff hzero hnum (hquota a ha hnum)).mp hless⟩
  · rintro ⟨a, ha, hnum, habove⟩
    exact ⟨fs', spaceKept limit, hstage, hfs', a, ha,
      (spaceKept_lt_iff hzero hnum (hquota a ha hnum)).mpr habove⟩

/-- Under other quotas the same space is managed. -/
theorem spaces_of_withLimit {bs : List Recordings}
    (h : List.Forall₂ (fun a b => ∃ limit, b = a.withLimit limit) as bs) :
    (bs.filter fun b => b.attr.numLimit = false).map Recordings.space =
      (as.filter fun a => a.attr.numLimit = false).map Recordings.space := by
  induction h with
  | nil => rfl
  | @cons a b as bs hab _ ih =>
    obtain ⟨limit, rfl⟩ := hab
    have hnum : (a.withLimit limit).attr.numLimit = a.attr.numLimit := rfl
    have hspace : (a.withLimit limit).space = a.space := rfl
    rw [List.filter_cons, List.filter_cons, hnum]
    split_ifs
    · rw [List.map_cons, List.map_cons, ih, hspace]
    · exact ih

/-- **While no product wraps around** the card is relieved. -/
theorem relieved_of_fits (mountPath : String) (hfs : ListsAll fs as) (htotal : 0 < totalSpace fs)
    (hwhole : totalSpace fs < 2 ^ 31) (hfits : ∀ a ∈ managed as, a.space * 100 < 2 ^ 31) :
    Relieved mountPath as := by
  intro bs gs freeSizeDelMin size hbs hgs hfull hroom
  have hspaces := spaces_of_withLimit hbs
  have hsame : totalSpace gs = totalSpace fs := by
    rw [totalSpace_eq hfs, totalSpace_eq hgs, hspaces]
  have hsum : (Word.sumSpace gs).toInt = totalSpace gs := toInt_sumSpace (hsame ▸ hwhole)
  have hpos : 0 < (Word.sumSpace gs).toInt := by
    rw [hsum, hsame]
    exact_mod_cast htotal
  have hne : Word.sumSpace gs ≠ 0 := by
    intro h
    rw [h] at hpos
    exact absurd hpos (by decide)
  -- some folder is above its quota, and its share in words is the same
  obtain ⟨b, hb, habove⟩ := exists_above_quota hgs hroom (hsame ▸ htotal)
  obtain ⟨hmem, hnum, hbpos⟩ := mem_managed.mp hb
  obtain ⟨a, ha, hspace⟩ : ∃ a ∈ as.filter fun a => a.attr.numLimit = false,
      a.space = b.space := by
    rw [← List.mem_map, ← hspaces]
    exact List.mem_map_of_mem (List.mem_filter.mpr ⟨hmem, decide_eq_true hnum⟩)
  have hfit : b.space * 100 < 2 ^ 31 := by
    rw [← hspace]
    exact hfits a (List.mem_filter.mpr ⟨ha, decide_eq_true (by omega)⟩)
  refine (relieves_iff mountPath hgs hfull hne hroom.nonneg).mpr ⟨b, hmem, hnum, ?_⟩
  rw [Word.spaceShare_eq_share hpos hfit, hsum, Int.toNat_natCast]
  exact habove

/-- The quota that a folder just meets. -/
def quotaOf (total : Int32) (space : ℕ) : ℕ := (Word.spaceShare total space).toNat

/-- **Where a product wraps around** among ten folders or fewer, the quotas that they just meet
leave room for the rounding. -/
theorem sum_quotaOf_add_le (hfs : ListsAll fs as) (htotal : 0 < totalSpace fs)
    (hwhole : totalSpace fs < 2 ^ 31) (hfew : (managed as).length ≤ 10) {a : Recordings}
    (ha : a ∈ managed as) (hwraps : 2 ^ 31 ≤ a.space * 100) :
    ((managed as).map fun a => quotaOf (Word.sumSpace fs) a.space).sum +
      (managed as).length ≤ 100 := by
  have hsum := toInt_sumSpace hwhole
  have hpos : 0 < (Word.sumSpace fs).toInt := by
    rw [hsum]
    exact_mod_cast htotal
  generalize Word.sumSpace fs = total at hsum hpos
  set xs := (as.filter fun a => a.attr.numLimit = false).map Recordings.space with hxs
  have hT : totalSpace fs = xs.sum := totalSpace_eq hfs
  have hmul : ∀ x ∈ xs, ((quotaOf total x * xs.sum : ℕ) : ℤ) ≤
      max 0 ((x * 100 : ℤ).bmod (2 ^ 32)) := by
    intro x hx
    have hle := List.single_le_sum (fun _ _ => Nat.zero_le _) x hx
    have h := Word.spaceShare_mul_le hpos (show x < 2 ^ 31 by omega)
    rwa [hsum, hT, ← Nat.cast_mul] at h
  have hle : ∀ x ∈ xs, quotaOf total x * xs.sum ≤ x * 100 := by
    intro x hx
    have h := hmul x hx
    have hb := bmod_bounds (v := x * 100) (by omega)
    omega
  have hlt : ∀ x ∈ xs, quotaOf total x * xs.sum < 2 ^ 31 := by
    intro x hx
    have h := hmul x hx
    have hb := bmod_bounds (v := x * 100) (by omega)
    omega
  obtain ⟨hmem, hnum, -⟩ := mem_managed.mp ha
  have hax : a.space ∈ xs :=
    List.mem_map_of_mem (List.mem_filter.mpr ⟨hmem, decide_eq_true hnum⟩)
  have hlost : quotaOf total a.space * xs.sum + 2 ^ 31 ≤ a.space * 100 := by
    have h := hmul _ hax
    have hb := (bmod_bounds (v := a.space * 100) (by omega)).2.2 (by exact_mod_cast hwraps)
    omega
  have hzero : quotaOf total 0 = 0 := by rw [quotaOf, Word.spaceShare_zero]; rfl
  have hsquare : countPos xs * countPos xs ≤ 100 := by
    rw [hxs, countPos_space]
    exact Nat.mul_le_mul hfew hfew
  have hall := sum_add_count_le (by omega) hle hlt ⟨_, hax, hlost⟩ hzero hsquare
  rw [hxs, countPos_space, List.map_map] at hall
  -- the folders without space have no share in words either
  have hsub : ((managed as).map fun a => quotaOf total a.space).sum ≤
      ((as.filter fun a => a.attr.numLimit = false).map (quotaOf total ∘ Recordings.space)).sum :=
    (List.filter_sublist.map _).sum_le_sum fun _ _ => Nat.zero_le _
  omega

/-- **Then the card is not relieved** under these quotas. -/
theorem fits_of_relieved (mountPath : String) (hfs : ListsAll fs as) (htotal : 0 < totalSpace fs)
    (hwhole : totalSpace fs < 2 ^ 31) (hfew : (managed as).length ≤ 10)
    (hrelieved : Relieved mountPath as) : ∀ a ∈ managed as, a.space * 100 < 2 ^ 31 := by
  intro a ha
  by_contra hwraps
  have hquotas := sum_quotaOf_add_le hfs htotal hwhole hfew ha (not_lt.mp hwraps)
  set quota := quotaOf (Word.sumSpace fs) with hquota
  -- the same recordings, each folder with the quota that it just meets
  let bs := as.map fun a => a.withLimit (quota a.space)
  let gs := fs.map fun f : ScanFolder =>
    { f with attr := { f.attr with limit := (quota f.folder.totalSpace : ℤ) } }
  have hbs : List.Forall₂ (fun a b => ∃ limit, b = a.withLimit limit) as bs := by
    rw [List.forall₂_map_right_iff]
    exact List.forall₂_same.mpr fun a _ => ⟨_, rfl⟩
  have hgs : ListsAll gs bs := by
    rw [ListsAll, List.forall₂_map_left_iff, List.forall₂_map_right_iff]
    refine List.Forall₂.imp (fun f a hf => ⟨?_, hf.folder⟩) hfs
    have hspace : f.folder.totalSpace = a.space := hf.folder.totalSpace
    rw [Recordings.withLimit, hf.attr, hspace]
  have hsame : totalSpace gs = totalSpace fs := by
    rw [totalSpace_eq hfs, totalSpace_eq hgs, spaces_of_withLimit hbs]
  have htotals : Word.sumSpace gs = Word.sumSpace fs := by
    rw [← Int32.toInt_inj, toInt_sumSpace hwhole, toInt_sumSpace (hsame ▸ hwhole), hsame]
  have hne : Word.sumSpace gs ≠ 0 := by
    intro h
    have hsum := toInt_sumSpace hwhole
    rw [← htotals, h, Int32.toInt_zero] at hsum
    omega
  have hmanaged : managed bs = (managed as).map fun a => a.withLimit (quota a.space) := by
    simp only [managed, bs, List.filter_map]
    rfl
  have hroom : RoomForRounding bs := by
    refine ⟨?_, ?_⟩
    · intro b hb _
      obtain ⟨a, -, rfl⟩ := List.mem_map.mp hb
      exact Int.natCast_nonneg _
    · rw [hmanaged, List.length_map, List.map_map]
      have hcast : ((managed as).map ((fun b : Recordings => b.attr.limit) ∘
          fun a => a.withLimit (quota a.space))).sum =
            (((managed as).map fun a => quota a.space).sum : ℕ) := by
        rw [Nat.cast_list_sum, List.map_map]
        rfl
      rw [hcast]
      omega
  have hfull : Word.hasRoom ⟨0, 0⟩ 0 = false := by decide
  obtain ⟨b, hb, -, habove⟩ := (relieves_iff mountPath hgs hfull hne hroom.nonneg).mp
    (hrelieved bs gs 0 ⟨0, 0⟩ hbs hgs hfull hroom)
  obtain ⟨a', -, rfl⟩ := List.mem_map.mp hb
  rw [htotals] at habove
  exact absurd habove (not_lt.mpr (Int.self_le_toNat _))

/-- **A full card is relieved** while no product wraps around; and for up to ten managed folders
(there are three) it is relieved under all quotas only then. -/
theorem relieved_iff (mountPath : String) (hfs : ListsAll fs as) (htotal : 0 < totalSpace fs)
    (hwhole : totalSpace fs < 2 ^ 31) :
    ((∀ a ∈ managed as, a.space * 100 < 2 ^ 31) → Relieved mountPath as) ∧
      ((managed as).length ≤ 10 →
        (Relieved mountPath as ↔ ∀ a ∈ managed as, a.space * 100 < 2 ^ 31)) :=
  ⟨relieved_of_fits mountPath hfs htotal hwhole, fun hfew =>
    ⟨fits_of_relieved mountPath hfs htotal hwhole hfew,
      relieved_of_fits mountPath hfs htotal hwhole⟩⟩

end Shares

theorem relieved_iff_twoFiles :
    Relieved "/mnt/sdcard" [⟨⟨"video0", false, 60⟩, twoRecordings⟩] := by
  have hlists : ListsAll [⟨⟨"video0", false, 60⟩, twoFiles⟩]
      [⟨⟨"video0", false, 60⟩, twoRecordings⟩] := .cons ⟨rfl, twoFiles_lists⟩ .nil
  exact (relieved_iff "/mnt/sdcard" hlists (by decide) (by decide)).1 (by decide)

/-- A folder with one file of 30 MB. -/
def largeFile : StrFolder where
  fileNum := 1
  totalSize := 30000000
  totalSpace := 30003200
  fileListFirst := some 0
  fileListLast := some 0
  heap := (Heap.empty.malloc ⟨⟨"1000.mp4", 10, 30000000, 30003200⟩, none⟩).2

/-- Its recording. -/
def largeRecording : FileCatalogue where
  entries := [⟨"1000.mp4", 10, 30000000, 30003200⟩]
  newestFirst := by decide
  nodup := by decide

theorem largeFile_lists : largeFile.Lists largeRecording where
  nodes := ⟨[(0, ⟨"1000.mp4", 10, 30000000, 30003200⟩)], ⟨rfl, none, rfl, rfl⟩, rfl, rfl⟩
  fileNum := rfl
  totalSize := rfl
  totalSpace := rfl

/-- **A full card is kept as it is**: the one folder has a share of -43, and a quota of 30. -/
theorem full_card_kept :
    Word.hasRoom ⟨31250, 100⟩ 200 = false ∧
      ListsAll [⟨⟨"video0", false, 30⟩, largeFile⟩] [⟨⟨"video0", false, 30⟩, largeRecording⟩] ∧
      RoomForRounding [⟨⟨"video0", false, 30⟩, largeRecording⟩] ∧
      Word.spaceShare 30003200 30003200 = -43 ∧
      ¬ Relieves "/mnt/sdcard" 200 ⟨31250, 100⟩ [⟨⟨"video0", false, 30⟩, largeFile⟩]
        [⟨⟨"video0", false, 30⟩, largeRecording⟩] := by
  have hfull : Word.hasRoom ⟨31250, 100⟩ 200 = false := by decide
  have hlists : ListsAll [⟨⟨"video0", false, 30⟩, largeFile⟩]
      [⟨⟨"video0", false, 30⟩, largeRecording⟩] := .cons ⟨rfl, largeFile_lists⟩ .nil
  have hroom : RoomForRounding [⟨⟨"video0", false, 30⟩, largeRecording⟩] := ⟨by simp, by decide⟩
  refine ⟨hfull, hlists, hroom, by decide, ?_⟩
  rw [relieves_iff "/mnt/sdcard" hlists hfull (by decide) hroom.nonneg]
  rintro ⟨a, ha, -, habove⟩
  obtain rfl := List.mem_singleton.mp ha
  exact absurd habove (by decide)

end RkIpc.Storage
