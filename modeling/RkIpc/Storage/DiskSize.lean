import RkIpc.Storage.CleanUp
import RkIpc.Wire.Arithmetic

/-!
# The arithmetic of the clean-up

On the 32-bit targets `int`, `long` and `off_t` are words of 32 bits. The size of the card is a
product of words before it is shifted, the room to keep free is one, and so is the space of a folder
before it is divided by the whole.

A folder is given by the words that the clean-up reads of it.

## Main definitions

* `Word.getDiskSize`, `Word.hasRoom`, `Word.totalSpace`, `Word.limit`: the words that are computed
* `DiskExact`: they are the numbers meant

## Main results

* `diskExact_iff`: when they are
* `DiskExact.hasRoom_iff`, `DiskExact.limit_eq_share`: then a round decides on the numbers
-/

namespace RkIpc.Storage

open Apportion Wire

/-- `struct statfs`: the size of a block, and the number of blocks and of those free. -/
structure Statfs where
  fBsize : UInt32
  fBlocks : UInt32
  fBfree : UInt32

/-- The sizes of the card that are kept, in KiB. -/
structure DiskSize where
  totalSize : Int32
  freeSize : Int32
deriving DecidableEq

/-- What the clean-up reads of a folder. -/
structure FolderSpace where
  numLimit : Bool
  totalSpace : Int32
  nonneg : 0 ≤ totalSpace.toInt

namespace Word

/-- `rkipc_storage_get_disk_size`, by what `statfs` answers: the sizes, and the return value. -/
def getDiskSize (statfs : Option Statfs) (size : DiskSize) : DiskSize × ℤ :=
  match statfs with
  | none => (size, -1)
  | some diskInfo =>
    -- `unsigned long`, and then `int`
    ({ totalSize := ((diskInfo.fBsize * diskInfo.fBlocks) >>> 10).toInt32
       freeSize := ((diskInfo.fBfree * diskInfo.fBsize) >>> 10).toInt32 }, 0)

/-- `free_size_del_min * 1024`. -/
def roomToKeep (freeSizeDelMin : Int32) : Int32 := freeSizeDelMin * 1024

/-- The card has room: `free_size > free_size_del_min * 1024`. -/
def hasRoom (size : DiskSize) (freeSizeDelMin : Int32) : Bool :=
  size.freeSize > roomToKeep freeSizeDelMin

/-- The totals of the folders without `num_limit`. -/
def spaces (fs : List FolderSpace) : List Int32 :=
  (fs.filter fun f => f.numLimit = false).map FolderSpace.totalSpace

/-- `total_space += folder[i].total_space` over these folders. -/
def totalSpace (fs : List FolderSpace) : Int32 := (spaces fs).foldl (· + ·) 0

/-- `folder[i].total_space * 100 / total_space`. -/
def limit (total space : Int32) : Int32 := space * 100 / total

end Word

/-- The space of these folders together. -/
def wholeSpace (fs : List FolderSpace) : ℤ := ((Word.spaces fs).map Int32.toInt).sum

/-- **The disk arithmetic is exact**: the sizes kept are those of the card in KiB, nothing wraps
around in the room to keep and in the whole, and what is left of a folder has its share, while its
files are deleted. -/
structure DiskExact (diskInfo : Statfs) (freeSizeDelMin : Int32) (fs : List FolderSpace) :
    Prop where
  totalSize : ∀ size, (Word.getDiskSize (some diskInfo) size).1.totalSize.toInt =
    (diskInfo.fBsize.toNat * diskInfo.fBlocks.toNat / 1024 : ℕ)
  freeSize : ∀ size, (Word.getDiskSize (some diskInfo) size).1.freeSize.toInt =
    (diskInfo.fBfree.toNat * diskInfo.fBsize.toNat / 1024 : ℕ)
  roomToKeep : (Word.roomToKeep freeSizeDelMin).toInt = freeSizeDelMin.toInt * 1024
  totalSpace : (Word.totalSpace fs).toInt = wholeSpace fs
  limit : Word.totalSpace fs ≠ 0 → ∀ f ∈ fs, f.numLimit = false → ∀ space : Int32,
    0 ≤ space.toInt → space.toInt ≤ f.totalSpace.toInt →
      (Word.limit (Word.totalSpace fs) space).toInt = space.toInt * 100 / wholeSpace fs

/-! ## The whole -/

variable {fs : List FolderSpace} {f : FolderSpace}

theorem mem_spaces (hf : f ∈ fs) (hnum : f.numLimit = false) : f.totalSpace ∈ Word.spaces fs :=
  List.mem_map_of_mem (List.mem_filter.mpr ⟨hf, decide_eq_true hnum⟩)

theorem nonneg_of_mem_spaces {v : ℤ} (hv : v ∈ (Word.spaces fs).map Int32.toInt) : 0 ≤ v := by
  obtain ⟨_, hspace, rfl⟩ := List.mem_map.mp hv
  obtain ⟨f, -, rfl⟩ := List.mem_map.mp hspace
  exact f.nonneg

theorem wholeSpace_nonneg (fs : List FolderSpace) : 0 ≤ wholeSpace fs :=
  List.sum_nonneg fun _ => nonneg_of_mem_spaces

/-- No folder has more than the whole. -/
theorem le_wholeSpace (hf : f ∈ fs) (hnum : f.numLimit = false) :
    f.totalSpace.toInt ≤ wholeSpace fs :=
  List.single_le_sum (fun _ => nonneg_of_mem_spaces) _ (List.mem_map_of_mem (mem_spaces hf hnum))

theorem totalSpace_pos (hsum : (Word.totalSpace fs).toInt = wholeSpace fs)
    (hne : Word.totalSpace fs ≠ 0) : 0 < (Word.totalSpace fs).toInt := by
  have hnonneg := wholeSpace_nonneg fs
  have hzero : (Word.totalSpace fs).toInt ≠ 0 := fun h => hne (Int32.toInt_inj.mp h)
  omega

/-! ## The sizes -/

/-- A size of the card is exact if and only if it has fewer than `2 ^ 32` bytes. -/
theorem kib_eq_iff {x y : UInt32} :
    ((x * y) >>> 10).toInt32.toInt = (x.toNat * y.toNat / 1024 : ℕ) ↔
      x.toNat * y.toNat < 2 ^ 32 := by
  have hlt : ((x * y) >>> 10).toNat < 2 ^ 31 := by
    have h := (x * y).toNat_lt
    rw [UInt32.toNat_shiftRight]
    show (x * y).toNat >>> 10 < _
    rw [Nat.shiftRight_eq_div_pow]
    omega
  rw [toInt_toInt32 hlt, Int.natCast_inj, toNat_mul_shiftRight_eq_iff]

/-- A share is exact if and only if its product is in range. -/
theorem limit_eq_iff {total space : Int32} (hspace : 0 ≤ space.toInt) (htotal : 0 < total.toInt) :
    (Word.limit total space).toInt = space.toInt * 100 / total.toInt ↔
      space.toInt * 100 < 2 ^ 31 := by
  have hprod : 0 ≤ space.toInt * (100 : Int32).toInt := Int.mul_nonneg hspace (by decide)
  have h100 : (100 : Int32).toInt = 100 := by decide
  have h := toInt_mul_div_eq_iff hprod htotal
  rw [h100] at h hprod
  rw [Word.limit, h, InRange]
  omega

/-- **The disk arithmetic is exact** if and only if the card and its free blocks have fewer than
`2 ^ 32` bytes, the room to keep fewer than `2 ^ 21` MiB, the folders together fewer than `2 ^ 31`
bytes, and each of them fewer than a hundredth of that. -/
theorem diskExact_iff (diskInfo : Statfs) (freeSizeDelMin : Int32) (fs : List FolderSpace) :
    DiskExact diskInfo freeSizeDelMin fs ↔
      diskInfo.fBsize.toNat * diskInfo.fBlocks.toNat < 2 ^ 32 ∧
      diskInfo.fBfree.toNat * diskInfo.fBsize.toNat < 2 ^ 32 ∧
      (-2 ^ 21 ≤ freeSizeDelMin.toInt ∧ freeSizeDelMin.toInt < 2 ^ 21) ∧
      wholeSpace fs < 2 ^ 31 ∧
      ∀ f ∈ fs, f.numLimit = false → f.totalSpace.toInt * 100 < 2 ^ 31 := by
  have hroom : (Word.roomToKeep freeSizeDelMin).toInt = freeSizeDelMin.toInt * 1024 ↔
      -2 ^ 21 ≤ freeSizeDelMin.toInt ∧ freeSizeDelMin.toInt < 2 ^ 21 := by
    have h1024 : (1024 : Int32).toInt = 1024 := by decide
    have h := toInt_mul_eq_iff (x := freeSizeDelMin) (y := 1024)
    rw [h1024] at h
    rw [Word.roomToKeep, h, InRange]
    omega
  have hwhole : (Word.totalSpace fs).toInt = wholeSpace fs ↔ wholeSpace fs < 2 ^ 31 := by
    have h := wholeSpace_nonneg fs
    rw [Word.totalSpace, wholeSpace, toInt_sum_eq_iff, InRange, ← wholeSpace]
    omega
  constructor
  · intro h
    refine ⟨kib_eq_iff.mp (h.totalSize ⟨0, 0⟩), kib_eq_iff.mp (h.freeSize ⟨0, 0⟩),
      hroom.mp h.roomToKeep, hwhole.mp h.totalSpace, ?_⟩
    intro f hf hnum
    rcases eq_or_ne (Word.totalSpace fs) 0 with hzero | hne
    · -- there is nothing in the folders
      have hsum := h.totalSpace
      have hle := le_wholeSpace hf hnum
      rw [hzero, Int32.toInt_zero] at hsum
      omega
    · have hshare := h.limit hne f hf hnum f.totalSpace f.nonneg le_rfl
      rw [← h.totalSpace] at hshare
      exact (limit_eq_iff f.nonneg (totalSpace_pos h.totalSpace hne)).mp hshare
  · rintro ⟨htotal, hfree, hmin, hsum, hshare⟩
    refine ⟨fun _ => kib_eq_iff.mpr htotal, fun _ => kib_eq_iff.mpr hfree, hroom.mpr hmin,
      hwhole.mpr hsum, ?_⟩
    intro hne f hf hnum space hspace hle
    have hf100 := hshare f hf hnum
    rw [← hwhole.mpr hsum]
    exact (limit_eq_iff hspace (totalSpace_pos (hwhole.mpr hsum) hne)).mpr (by omega)

/-! ## The decisions of a round -/

/-- The sizes are compared as numbers. -/
theorem DiskExact.hasRoom_iff {diskInfo : Statfs} {freeSizeDelMin : Int32}
    (h : DiskExact diskInfo freeSizeDelMin fs) (size : DiskSize) :
    Word.hasRoom (Word.getDiskSize (some diskInfo) size).1 freeSizeDelMin ↔
      ((diskInfo.fBfree.toNat * diskInfo.fBsize.toNat / 1024 : ℕ) : ℤ) >
        freeSizeDelMin.toInt * 1024 := by
  rw [Word.hasRoom, decide_eq_true_iff, gt_iff_lt, Int32.lt_iff_toInt_lt, h.roomToKeep, h.freeSize]

/-- The share of a folder is the one by which the clean-up measures it. -/
theorem DiskExact.limit_eq_share {diskInfo : Statfs} {freeSizeDelMin : Int32}
    (h : DiskExact diskInfo freeSizeDelMin fs) (hne : Word.totalSpace fs ≠ 0) (hf : f ∈ fs)
    (hnum : f.numLimit = false) {s : StrFolder} {space : Int32}
    (hspace : space.toInt = s.totalSpace) (hle : space.toInt ≤ f.totalSpace.toInt) :
    (Word.limit (Word.totalSpace fs) space).toInt =
      spaceShare (wholeSpace fs).toNat s.totalSpace := by
  have hnat : ((wholeSpace fs).toNat : ℤ) = wholeSpace fs :=
    Int.toNat_of_nonneg (wholeSpace_nonneg fs)
  rw [h.limit hne f hf hnum space (by omega) hle, spaceShare, share, hspace]
  push_cast
  rw [hnat]

/-- A card of 64 GiB in blocks of 32 KiB, half of it free. -/
def card64 : Statfs := ⟨32768, 2097152, 1048576⟩

/-- A card of 1 GiB in blocks of 4 KiB, half of it free. -/
def card1 : Statfs := ⟨4096, 262144, 131072⟩

/-- A folder with 30 MB of recordings. -/
def folder30 : FolderSpace := ⟨false, 30000000, by decide⟩

/-- **The disk arithmetic wraps around**: a card of 64 GiB has neither size nor free space, so that
it has to be cleaned up while half of it is free; there is room on every card if 2 TiB are to be
kept; and a folder that has the whole of 30 MB to itself has a negative share, and is not cleaned
up. -/
theorem diskExact_fails :
    (Word.getDiskSize (some card64) ⟨0, 0⟩ = (⟨0, 0⟩, 0) ∧
      card64.fBsize.toNat * card64.fBlocks.toNat / 1024 = 67108864 ∧
      Word.hasRoom ⟨0, 0⟩ 500 = false ∧ ¬ DiskExact card64 500 []) ∧
    ((Word.roomToKeep 2097152).toInt = -2147483648 ∧ Word.hasRoom ⟨0, 0⟩ 2097152 = true ∧
      ¬ DiskExact card1 2097152 []) ∧
    ((Word.limit (Word.totalSpace [folder30]) folder30.totalSpace).toInt = -43 ∧
      ¬ DiskExact card1 500 [folder30]) := by
  refine ⟨⟨by decide +kernel, by decide +kernel, by decide +kernel, fun h => ?_⟩,
    ⟨by decide +kernel, by decide +kernel, fun h => ?_⟩, by decide +kernel, fun h => ?_⟩
  · exact absurd (h.totalSize ⟨0, 0⟩) (by decide +kernel)
  · exact absurd h.roomToKeep (by decide +kernel)
  · have hne : Word.totalSpace [folder30] ≠ 0 := by decide +kernel
    have hshare := h.limit hne folder30 (List.mem_singleton_self _) rfl folder30.totalSpace
      folder30.nonneg le_rfl
    exact absurd hshare (by decide +kernel)

end RkIpc.Storage
