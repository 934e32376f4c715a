import Mathlib.Algebra.Group.Nat.Defs
import Mathlib.Data.Int.Notation
import RkIpc.LinkedList.Heap

/-!
# The recording file list

`common/storage/storage.c` keeps, for each recording folder, a singly linked list of the files
in it, with pointers to its first and last node and three counters. The functions here follow
the source statement by statement over a heap of nodes: a result `none` is a dangling pointer
or a walk that does not end. A walk along `next` gets as many rounds as addresses were handed
out; one that needs more has met a node twice.

Off_t and counter values are natural numbers and times are integers; allocation succeeds.

## Main definitions

* `StrFile`, `StrFolder`: `rkipc_str_file` and `rkipc_str_folder`
* `fileListCheck`, `fileListAdd`, `fileListDel`: the operations under the folder mutex
* `readFileList`: the reload of a folder from its directory
-/

namespace RkIpc.Storage

open LinkedList

/-- `rkipc_str_file`; the `next` link is in the heap. -/
structure StrFile where
  filename : String
  time : ℤ
  size : ℕ
  space : ℕ
deriving DecidableEq, Repr

/-- The fields of `struct stat` the file list reads. -/
structure StatBuf where
  stSize : ℕ
  stBlocks : ℕ
  stMtime : ℤ
deriving DecidableEq, Repr

/-- `rkipc_str_folder`, with the heap its nodes live in. -/
structure StrFolder where
  fileNum : ℕ
  totalSize : ℕ
  totalSpace : ℕ
  fileListFirst : Option ℕ
  fileListLast : Option ℕ
  heap : Heap StrFile

/-- A folder after `memset(.., 0, ..)`. -/
def StrFolder.empty : StrFolder where
  fileNum := 0
  totalSize := 0
  totalSpace := 0
  fileListFirst := none
  fileListLast := none
  heap := Heap.empty

/-! ## `rkipc_storage_file_list_check` -/

/-- `while (tmp->next)`: compare the name of the next node. -/
def checkLoop (h : Heap StrFile) (filename : String) : ℕ → ℕ → Option ℤ
  | 0, _ => none
  | fuel + 1, tmp => do
    let n ← h.load tmp
    match n.next with
    | none => some 0
    | some next => do
      let m ← h.load next
      if m.val.filename = filename then some 1 else checkLoop h filename fuel next

/-- `rkipc_storage_file_list_check`: `1` if the name is listed, else `0`. -/
def fileListCheck (folder : StrFolder) (filename : String) : Option ℤ :=
  match folder.fileListFirst with
  | none => some 0
  | some tmp => do
    let n ← folder.heap.load tmp
    -- the head is compared before the walk, which compares the next node only
    if n.val.filename = filename then some 1
    else checkLoop folder.heap filename folder.heap.brk tmp

/-! ## `rkipc_storage_file_list_add` -/

/-- The node `rkipc_storage_file_list_add` fills in. -/
def newFile (filename : String) (statbuf : StatBuf) : StrFile where
  filename := filename
  time := statbuf.stMtime
  size := statbuf.stSize
  space := statbuf.stBlocks * 2 ^ 9

/-- `while (tmp->next)`: link `tmp_1` in before the first node that is not newer, and stop. The
result is the heap and the `tmp` the loop stopped at. -/
def addLoop (tmp1 : ℕ) (time : ℤ) : ℕ → Heap StrFile → ℕ → Option (Heap StrFile × ℕ)
  | 0, _, _ => none
  | fuel + 1, h, tmp => do
    let n ← h.load tmp
    match n.next with
    | none => some (h, tmp)
    | some next => do
      let m ← h.load next
      -- equal times: the new node goes first
      if time ≥ m.val.time then do
        let h ← h.setNext tmp1 (some next)
        let h ← h.setNext tmp (some tmp1)
        some (h, tmp)
      else addLoop tmp1 time fuel h next

/-- The links `rkipc_storage_file_list_add` makes for the new node `tmp_1`. -/
def addLink (folder : StrFolder) (tmp1 : ℕ) (time : ℤ) : Option StrFolder :=
  match folder.fileListFirst with
  | some tmp => do
    let n ← folder.heap.load tmp
    -- newest of all, or as new: a new head
    if time ≥ n.val.time then do
      let h ← folder.heap.setNext tmp1 (some tmp)
      some { folder with heap := h, fileListFirst := some tmp1 }
    else do
      let (h, tmp) ← addLoop tmp1 time folder.heap.brk folder.heap tmp
      let n ← h.load tmp
      -- no node was older: append
      if n.next = none then do
        let h ← h.setNext tmp (some tmp1)
        some { folder with heap := h, fileListLast := some tmp1 }
      else some { folder with heap := h }
  | none => some { folder with fileListFirst := some tmp1, fileListLast := some tmp1 }

/-- `rkipc_storage_file_list_add`. -/
def fileListAdd (folder : StrFolder) (filename : String) (statbuf : StatBuf) :
    Option StrFolder := do
  let file := newFile filename statbuf
  let (tmp1, h) := folder.heap.malloc ⟨file, none⟩
  let folder ← addLink { folder with heap := h } tmp1 file.time
  some
    { folder with
      totalSize := folder.totalSize + file.size
      totalSpace := folder.totalSpace + file.space
      fileNum := folder.fileNum + 1 }

/-! ## `rkipc_storage_file_list_del` -/

/-- `again:`: drop nodes of this name from the head of the list. -/
def delHead (filename : String) : ℕ → StrFolder → Option StrFolder
  | 0, folder => if folder.fileListFirst = none then some folder else none
  | fuel + 1, folder =>
    match folder.fileListFirst with
    | none => some folder
    | some tmp => do
      let n ← folder.heap.load tmp
      -- `goto again`
      if n.val.filename = filename then do
        let h ← folder.heap.free tmp
        delHead filename fuel
          { folder with
            heap := h
            fileListFirst := n.next
            fileListLast := if n.next = none then none else folder.fileListLast }
      else some folder

/-- The counters `rkipc_storage_file_list_del` recomputes on its way. -/
structure Recount where
  fileNum : ℕ
  totalSize : ℕ
  totalSpace : ℕ

/-- Count one more file. -/
def Recount.add (c : Recount) (f : StrFile) : Recount where
  fileNum := c.fileNum + 1
  totalSize := c.totalSize + f.size
  totalSpace := c.totalSpace + f.space

/-- `while (tmp)`: count `tmp`, and unlink the node after it if it has this name; `tmp` then
moves on without comparing the node that has come up behind it. -/
def delLoop (filename : String) :
    ℕ → StrFolder → Recount → Option ℕ → Option (StrFolder × Recount)
  | _, folder, c, none => some (folder, c)
  | 0, _, _, some _ => none
  | fuel + 1, folder, c, some tmp => do
    let n ← folder.heap.load tmp
    match n.next with
    -- `break`: the last node has been counted
    | none => some ({ folder with fileListLast := some tmp }, c.add n.val)
    | some next => do
      let m ← folder.heap.load next
      if m.val.filename = filename then do
        let h ← folder.heap.setNext tmp m.next
        let h ← h.free next
        delLoop filename fuel
          { folder with
            heap := h
            fileListLast := if m.next = none then some tmp else folder.fileListLast }
          (c.add n.val) m.next
      else delLoop filename fuel folder (c.add n.val) (some next)

/-- `rkipc_storage_file_list_del`. -/
def fileListDel (folder : StrFolder) (filename : String) : Option StrFolder := do
  -- the counters are computed anew from the nodes that stay
  let folder ← delHead filename folder.heap.brk folder
  let (folder, c) ← delLoop filename folder.heap.brk folder ⟨0, 0, 0⟩ folder.fileListFirst
  some
    { folder with
      fileNum := c.fileNum
      totalSize := c.totalSize
      totalSpace := c.totalSpace }

/-! ## `rkipc_storage_read_file_list` -/

/-- `rkipc_str_folder_attr`; `sort_cond` decides nothing and is left out. -/
structure StrFolderAttr where
  folderPath : String
  numLimit : Bool
  limit : ℤ
deriving DecidableEq, Repr

/-- `struct dirent`: the name and the type (`8` is a regular file). -/
structure Dirent where
  dName : String
  dType : ℕ
deriving DecidableEq, Repr

/-- `while (folder->file_list_last)`: delete the last file of the list. -/
def clearLoop : ℕ → StrFolder → Option StrFolder
  | 0, folder => if folder.fileListLast = none then some folder else none
  | fuel + 1, folder =>
    match folder.fileListLast with
    | none => some folder
    | some last => do
      let n ← folder.heap.load last
      let folder ← fileListDel folder n.val.filename
      clearLoop fuel folder

/-- `file_count++ > (folder_attr->limit + 300)`: the reader gives up. -/
def readStops (limit : ℤ) (fileCount : ℕ) : Bool := (fileCount : ℤ) > limit + 300

/-- The body of the `readdir` loop for one entry, given what `lstat` answers for it. -/
def readEntry (folder : StrFolder) (ptr : Dirent) (statbuf : Option StatBuf) :
    Option StrFolder :=
  if ptr.dName = "." ∨ ptr.dName = ".." then some folder
  else if ptr.dType = 8 then
    match statbuf with
    | none => some folder
    | some st => fileListAdd folder ptr.dName st
  else some folder

/-- `while ((ptr = readdir(dir)) != NULL)`. -/
def readdirLoop (limit : ℤ) (lstat : String → Option StatBuf) :
    ℕ → List Dirent → StrFolder → Option StrFolder
  | _, [], folder => some folder
  | fileCount, ptr :: rest, folder =>
    -- the entry has been taken from the stream, and is dropped
    if readStops limit fileCount then some folder
    else do
      let folder ← readEntry folder ptr (lstat ptr.dName)
      readdirLoop limit lstat (fileCount + 1) rest folder

/-- `rkipc_storage_read_file_list`: `-1` if the directory does not open, else reload the list
from the entries `readdir` returns. -/
def readFileList (folder : StrFolder) (attr : StrFolderAttr) (dir : Option (List Dirent))
    (lstat : String → Option StatBuf) : Option (StrFolder × ℤ) :=
  match dir with
  | none => some (folder, -1)
  | some entries => do
    -- the list is cleared once instead of checking every name
    let folder ← clearLoop folder.heap.brk folder
    let folder ← readdirLoop attr.limit lstat 0 entries folder
    some (folder, 0)

end RkIpc.Storage
