import Mathlib.Algebra.BigOperators.Group.List.Basic
import Mathlib.Algebra.Order.Ring.Nat
import RkIpc.Catalogue.Catalogue
import RkIpc.Storage.FileList

/-!
# What the file list operations do

A folder lists a catalogue when its chain of nodes holds the catalogue's files in order, its
last pointer is the last node, and its counters are the sums. Each operation of the file list
returns on such a folder and lists the catalogue the operation stands for: the walks are
inductions along the chain, and a node they touch lies in the chain or is the new one.

## Main definitions

* `FileCatalogue`: recordings by name and time
* `StrFolder.Lists`: the folder lists the catalogue

## Main results

* `fileListCheck_spec`, `fileListAdd_spec`, `fileListDel_spec`: the three operations
* `StrFolder.Lists.load_last`: the last pointer reads the oldest file
-/

namespace RkIpc.Storage

open LinkedList Catalogue

/-- Recordings by name, from newest to oldest. -/
abbrev FileCatalogue := Catalogue StrFile.filename StrFile.time

/-- **The folder lists the catalogue**: the chain from the first pointer holds the files in order,
the last pointer is its last node, and the counters are the number of files and their sums. -/
structure StrFolder.Lists (s : StrFolder) (c : FileCatalogue) : Prop where
  nodes : ∃ l, Chain s.heap s.fileListFirst l ∧ l.map Prod.snd = c.entries ∧
    s.fileListLast = l.getLast?.map Prod.fst
  fileNum : s.fileNum = c.entries.length
  totalSize : s.totalSize = (c.entries.map StrFile.size).sum
  totalSpace : s.totalSpace = (c.entries.map StrFile.space).sum

theorem empty_lists : StrFolder.empty.Lists Catalogue.empty where
  nodes := ⟨[], rfl, rfl, rfl⟩
  fileNum := rfl
  totalSize := rfl
  totalSpace := rfl

/-- A folder lists one catalogue only. -/
theorem StrFolder.Lists.unique {s : StrFolder} {c d : FileCatalogue} (hc : s.Lists c)
    (hd : s.Lists d) : c = d := by
  -- both catalogues are read off the one chain from the first pointer
  obtain ⟨l, hl, hm, -⟩ := hc.nodes
  obtain ⟨l', hl', hm', -⟩ := hd.nodes
  exact Catalogue.ext (by rw [← hm, ← hm', hl.unique hl'])

/-- The first and the last pointer are null together. -/
theorem StrFolder.Lists.last_eq_none_iff {s : StrFolder} {c : FileCatalogue} (hs : s.Lists c) :
    s.fileListLast = none ↔ s.fileListFirst = none := by
  obtain ⟨l, hl, -, hlast⟩ := hs.nodes
  cases l with
  | nil => simpa [hlast] using hl
  | cons b l =>
    obtain ⟨b, x⟩ := b
    obtain ⟨hfirst, -⟩ := Chain.cons_iff.mp hl
    simp [hlast, hfirst]

/-- The last pointer is null exactly on an empty catalogue. -/
theorem StrFolder.Lists.last_eq_none {s : StrFolder} {c : FileCatalogue} (hs : s.Lists c) :
    s.fileListLast = none ↔ c.entries = [] := by
  obtain ⟨l, -, hm, hlast⟩ := hs.nodes
  rw [hlast, ← hm]
  simp

/-- Every file listed has an address. -/
theorem StrFolder.Lists.length_le_brk {s : StrFolder} {c : FileCatalogue} (hs : s.Lists c) :
    c.entries.length ≤ s.heap.brk := by
  obtain ⟨l, hl, hm, -⟩ := hs.nodes
  rw [← hm, List.length_map]
  exact hl.length_le_brk

/-- The last pointer reads the oldest file. -/
theorem StrFolder.Lists.load_last {s : StrFolder} {c : FileCatalogue} (hs : s.Lists c) {a : ℕ}
    (ha : s.fileListLast = some a) :
    ∃ n, s.heap.load a = some n ∧ c.entries.getLast? = some n.val := by
  obtain ⟨l, hl, hm, hlast⟩ := hs.nodes
  rw [ha] at hlast
  obtain ⟨⟨a', x⟩, hx, rfl⟩ := Option.map_eq_some_iff.mp hlast.symm
  -- the last node lies on the chain, so it is live
  obtain ⟨q, hq⟩ := hl.load_of_mem (List.mem_of_getLast? hx)
  exact ⟨⟨x, q⟩, hq, by rw [← hm, List.getLast?_map, hx]; rfl⟩

/-! ## The check -/

theorem checkLoop_eq {h : Heap StrFile} {n : String} {l : List (ℕ × StrFile)} :
    ∀ {fuel a x}, Chain h (some a) ((a, x) :: l) → l.length < fuel →
      checkLoop h n fuel a = some (if n ∈ (l.map Prod.snd).map StrFile.filename then 1 else 0) := by
  induction l with
  | nil =>
    -- no node follows: the walk ends without having found the name
    intro fuel a x hl hf
    obtain ⟨-, q, hq, hc⟩ := Chain.cons_iff.mp hl
    obtain ⟨fuel, rfl⟩ := Nat.exists_eq_succ_of_ne_zero (Nat.ne_of_gt hf)
    simp [checkLoop, hq, Chain.nil_iff.mp hc]
  | cons b l ih =>
    intro fuel a x hl hf
    obtain ⟨b, y⟩ := b
    obtain ⟨-, q, hq, hc⟩ := Chain.cons_iff.mp hl
    obtain ⟨rfl, q', hq', -⟩ := Chain.cons_iff.mp hc
    obtain ⟨fuel, rfl⟩ := Nat.exists_eq_succ_of_ne_zero (Nat.ne_of_gt (Nat.zero_lt_of_lt hf))
    simp only [checkLoop, hq, hq', Option.bind_eq_bind, Option.bind_some]
    -- the node after `a` has the name, or the walk goes on from it
    rcases eq_or_ne y.filename n with hn | hn
    · simp [hn]
    · rw [if_neg hn, ih hc (by simpa using hf)]
      simp only [List.map_cons, List.mem_cons, Ne.symm hn, false_or]

/-- **The check** answers whether the name is listed. -/
theorem fileListCheck_spec {s : StrFolder} {c : FileCatalogue} (hs : s.Lists c) (n : String) :
    fileListCheck s n = some (if n ∈ c.names then 1 else 0) := by
  obtain ⟨l, hl, hm, -⟩ := hs.nodes
  rw [Catalogue.names, ← hm]
  cases l with
  | nil => simp [fileListCheck, Chain.nil_iff.mp hl]
  | cons b l =>
    obtain ⟨b, y⟩ := b
    obtain ⟨hfirst, q, hq, -⟩ := Chain.cons_iff.mp hl
    rw [hfirst] at hl
    simp only [fileListCheck, hfirst, hq, Option.bind_eq_bind, Option.bind_some]
    -- the head is compared first, the walk compares the others
    rcases eq_or_ne y.filename n with hn | hn
    · simp [hn]
    · rw [if_neg hn, checkLoop_eq hl hl.length_le_brk]
      simp only [List.map_cons, List.mem_cons, Ne.symm hn, false_or]

/-! ## The insertion -/

/-- The order of the nodes by the time of their files. -/
abbrev NodeNoOlder (p q : ℕ × StrFile) : Prop := NoOlder StrFile.time p.2 q.2

/-- The walk for the place of the new node `t`, together with the append that follows when no node
was older: the new node is in its place, and the last node is new only after an append. -/
theorem addLoop_spec {t : ℕ} {v : StrFile} {l : List (ℕ × StrFile)} :
    ∀ {k : ℕ} {h : Heap StrFile} {a : ℕ} {x : StrFile},
      Chain h (some a) ((a, x) :: l) → h.load t = some ⟨v, none⟩ →
      t ∉ ((a, x) :: l).map Prod.fst → l.length < k →
      ∃ h₁ b n h₂, addLoop t v.time k h a = some (h₁, b) ∧ h₁.load b = some n ∧
        (if n.next = none then h₁.setNext b (some t) else some h₁) = some h₂ ∧
        Chain h₂ (some a) ((a, x) :: l.orderedInsert NodeNoOlder (t, v)) ∧
        (∀ d, d ≠ t → d ∉ ((a, x) :: l).map Prod.fst → h₂.load d = h.load d) ∧
        ((a, x) :: l.orderedInsert NodeNoOlder (t, v)).getLast?.map Prod.fst =
          if n.next = none then some t else ((a, x) :: l).getLast?.map Prod.fst := by
  induction l with
  | nil =>
    intro fuel h a x hl ht hta hf
    obtain ⟨-, q, hq, hc⟩ := Chain.cons_iff.mp hl
    obtain rfl := Chain.nil_iff.mp hc
    obtain ⟨fuel, rfl⟩ := Nat.exists_eq_succ_of_ne_zero (Nat.ne_of_gt hf)
    -- the walk stops at the last node, and the new one is appended to it
    have htc : Chain h (some t) [(t, v)] := Chain.cons_iff.mpr ⟨rfl, none, ht, rfl⟩
    obtain ⟨h₂, he, hframe, hch⟩ := Chain.setNext_head hq htc (by simpa [eq_comm] using hta)
    refine ⟨h, a, ⟨x, none⟩, h₂, by simp [addLoop, hq], hq, by simpa using he, by simpa using hch,
      ?_, by simp⟩
    intro d _ hd
    exact hframe d (by simpa using hd)
  | cons b l ih =>
    intro fuel h a x hl ht hta hf
    obtain ⟨b, y⟩ := b
    obtain ⟨-, q, hq, hc⟩ := Chain.cons_iff.mp hl
    obtain ⟨rfl, q', hq', -⟩ := Chain.cons_iff.mp hc
    obtain ⟨fuel, rfl⟩ := Nat.exists_eq_succ_of_ne_zero (Nat.ne_of_gt (Nat.zero_lt_of_lt hf))
    by_cases hle : y.time ≤ v.time
    · -- the new node goes between `a` and `b`
      have horder : ((b, y) :: l).orderedInsert NodeNoOlder (t, v) = (t, v) :: (b, y) :: l :=
        List.orderedInsert_cons_of_le NodeNoOlder _ (show NodeNoOlder (t, v) (b, y) from hle)
      obtain ⟨h₁, h₂, he₁, he₂, hf₂, hq₂, hch₂⟩ := hl.insert_next hq ht hta
      refine ⟨h₂, a, ⟨x, some t⟩, h₂, ?_, hq₂, by simp, ?_, ?_, ?_⟩
      · simp [addLoop, hq, hq', hle, he₁, he₂]
      · rw [horder]
        exact Chain.cons_iff.mpr ⟨rfl, some t, hq₂, hch₂⟩
      · exact fun d hdt hd => hf₂ d hdt fun hda => hd (hda ▸ List.mem_cons_self ..)
      · rw [horder]
        simp
    · -- the walk goes on from `b`; what it does there leaves `a` alone
      have horder : ((b, y) :: l).orderedInsert NodeNoOlder (t, v) =
          (b, y) :: l.orderedInsert NodeNoOlder (t, v) :=
        List.orderedInsert_of_not_le NodeNoOlder _ (show ¬ NodeNoOlder (t, v) (b, y) from hle)
      have htail : t ∉ ((b, y) :: l).map Prod.fst := fun h => hta (List.mem_cons_of_mem _ h)
      obtain ⟨h₁, e, n, h₂, hloop, hload, hset, hch, hframe, hlast⟩ :=
        ih (k := fuel) hc ht htail (by simpa using hf)
      refine ⟨h₁, e, n, h₂, ?_, hload, hset, ?_, ?_, ?_⟩
      · simp [addLoop, hq, hq', hle, hloop]
      · rw [horder]
        refine Chain.cons_iff.mpr ⟨rfl, some b, ?_, hch⟩
        have hat : a ≠ t := fun h => hta (h ▸ List.mem_cons_self ..)
        rw [hframe a hat hl.notMem_tail, hq]
      · intro d hdt hd
        exact hframe d hdt fun hd' => hd (List.mem_cons_of_mem _ hd')
      · rw [horder, List.getLast?_cons_cons, List.getLast?_cons_cons]
        exact hlast

/-- The links `rkipc_storage_file_list_add` makes put the new node at its place by time. -/
theorem addLink_spec {s : StrFolder} {t : ℕ} {v : StrFile} {l : List (ℕ × StrFile)}
    (hl : Chain s.heap s.fileListFirst l) (hlast : s.fileListLast = l.getLast?.map Prod.fst)
    (ht : s.heap.load t = some ⟨v, none⟩) (htl : t ∉ l.map Prod.fst) :
    ∃ s₁, addLink s t v.time = some s₁ ∧
      (s₁.fileNum = s.fileNum ∧ s₁.totalSize = s.totalSize ∧ s₁.totalSpace = s.totalSpace) ∧
      Chain s₁.heap s₁.fileListFirst (l.orderedInsert NodeNoOlder (t, v)) ∧
      s₁.fileListLast = (l.orderedInsert NodeNoOlder (t, v)).getLast?.map Prod.fst := by
  cases l with
  | nil =>
    -- the first file of the folder
    obtain hfirst : s.fileListFirst = none := Chain.nil_iff.mp hl
    refine ⟨{ s with fileListFirst := some t, fileListLast := some t }, ?_, ⟨rfl, rfl, rfl⟩,
      Chain.cons_iff.mpr ⟨rfl, none, ht, rfl⟩, rfl⟩
    simp only [addLink, hfirst]
  | cons b l =>
    obtain ⟨b, y⟩ := b
    obtain ⟨hfirst, q, hq, -⟩ := Chain.cons_iff.mp hl
    rw [hfirst] at hl
    by_cases hle : y.time ≤ v.time
    · -- newest of all: a new head
      obtain ⟨h₁, he, -, hch⟩ := Chain.setNext_head ht hl htl
      have horder := List.orderedInsert_cons_of_le NodeNoOlder l
        (show NodeNoOlder (t, v) (b, y) from hle)
      refine ⟨{ s with heap := h₁, fileListFirst := some t }, ?_, ⟨rfl, rfl, rfl⟩, ?_, ?_⟩
      · simp [addLink, hfirst, hq, hle, he]
      · exact horder ▸ hch
      · rw [horder, List.getLast?_cons_cons]
        exact hlast
    -- the walk finds the place, and the append follows it if need be
    · obtain ⟨h₁, e, n, h₂, hloop, hload, hset, hch, -, hlast'⟩ :=
        addLoop_spec hl ht htl (Nat.lt_of_lt_of_le (Nat.lt_succ_self _) hl.length_le_brk)
      have horder := List.orderedInsert_of_not_le NodeNoOlder l
        (show ¬ NodeNoOlder (t, v) (b, y) from hle)
      refine ⟨{ s with
          heap := h₂
          fileListLast := if n.next = none then some t else s.fileListLast },
        ?_, ⟨rfl, rfl, rfl⟩, ?_, ?_⟩
      · rcases eq_or_ne n.next none with hnx | hnx
        · simp only [hnx, if_true] at hset
          simp [addLink, hfirst, hq, hle, hloop, hload, hnx, hset]
        · simp only [hnx, if_false, Option.some.injEq] at hset
          subst hset
          simp [addLink, hfirst, hq, hle, hloop, hload, hnx]
      · rw [horder]
        exact hfirst.symm ▸ hch
      · rw [horder, hlast', hlast]

/-- **The insertion** of a name that is not listed puts the file at its place by time. -/
theorem fileListAdd_spec {s : StrFolder} {c : FileCatalogue} (hs : s.Lists c) {n : String}
    (hn : n ∉ c.names) (st : StatBuf) :
    ∃ s', fileListAdd s n st = some s' ∧ s'.Lists (c.insertNew (newFile n st)) := by
  obtain ⟨l, hl, hm, hlast⟩ := hs.nodes
  -- the address handed out is on no chain
  have htl : s.heap.brk ∉ l.map Prod.fst := fun h =>
    absurd (hl.lt_brk _ h) (Nat.lt_irrefl _)
  obtain ⟨s₁, he, ⟨hnum, hsize, hspace⟩, hch, hlast'⟩ :=
    addLink_spec (s := { s with heap := (s.heap.malloc ⟨newFile n st, none⟩).2 })
      (hl.malloc _) hlast (s.heap.load_malloc_self _) htl
  -- the sums do not depend on the place of the new file
  have hperm := insertNew_perm (c := c) (x := newFile n st) hn
  refine ⟨{ s₁ with
      totalSize := s₁.totalSize + (newFile n st).size
      totalSpace := s₁.totalSpace + (newFile n st).space
      fileNum := s₁.fileNum + 1 },
    by simp [fileListAdd, he], ⟨_, hch, ?_, hlast'⟩, ?_, ?_, ?_⟩
  · rw [insertNew_entries (x := newFile n st) hn, ← hm]
    exact List.map_orderedInsert NodeNoOlder (NoOlder StrFile.time) Prod.snd l _
      (fun _ _ => Iff.rfl) fun _ _ => Iff.rfl
  · simp [hnum, hs.fileNum, hperm.length_eq]
  · rw [(hperm.map StrFile.size).sum_eq, List.map_cons, List.sum_cons, ← hs.totalSize, hsize]
    exact Nat.add_comm _ _
  · rw [(hperm.map StrFile.space).sum_eq, List.map_cons, List.sum_cons, ← hs.totalSpace, hspace]
    exact Nat.add_comm _ _

/-! ## The deletion -/

/-- Count the files in order. -/
def Recount.addAll (c : Recount) (fs : List StrFile) : Recount := fs.foldl Recount.add c

theorem Recount.addAll_eq (c : Recount) (fs : List StrFile) :
    c.addAll fs = ⟨c.fileNum + fs.length, c.totalSize + (fs.map StrFile.size).sum,
      c.totalSpace + (fs.map StrFile.space).sum⟩ := by
  induction fs generalizing c with
  | nil => rfl
  | cons f fs ih =>
    rw [Recount.addAll, List.foldl_cons, ← Recount.addAll, ih]
    simp [Recount.add, Nat.add_assoc, Nat.add_comm 1]

/-- The nodes without those of a name. -/
abbrev without (n : String) (l : List (ℕ × StrFile)) : List (ℕ × StrFile) :=
  l.filter fun p => p.2.filename ≠ n

theorem without_eq_self {n : String} {l : List (ℕ × StrFile)}
    (hn : n ∉ (l.map Prod.snd).map StrFile.filename) : without n l = l := by
  apply List.filter_eq_self.mpr
  intro p hp
  apply decide_eq_true
  exact fun he => hn (List.mem_map.mpr ⟨p.2, List.mem_map_of_mem hp, he⟩)

/-- Dropping the head nodes of the name leaves a list that starts with another name. -/
theorem delHead_spec {n : String} {l : List (ℕ × StrFile)} :
    ∀ {k : ℕ} {s : StrFolder}, Chain s.heap s.fileListFirst l →
      s.fileListLast = l.getLast?.map Prod.fst →
      ((l.map Prod.snd).map StrFile.filename).Nodup → l.length ≤ k →
      ∃ s' l', delHead n k s = some s' ∧ s'.heap.brk = s.heap.brk ∧
        Chain s'.heap s'.fileListFirst l' ∧ s'.fileListLast = l'.getLast?.map Prod.fst ∧
        l'.Sublist l ∧ without n l' = without n l ∧ ∀ p ∈ l'.head?, p.2.filename ≠ n := by
  induction l with
  | nil =>
    intro fuel s hl hlast _ _
    have hfirst : s.fileListFirst = none := Chain.nil_iff.mp hl
    refine ⟨s, [], ?_, rfl, hl, hlast, List.Sublist.refl _, rfl, by simp⟩
    cases fuel <;> simp [delHead, hfirst]
  | cons b l ih =>
    intro fuel s hl hlast hnd hf
    obtain ⟨b, y⟩ := b
    obtain ⟨hfirst, q, hq, hc⟩ := Chain.cons_iff.mp hl
    obtain ⟨fuel, rfl⟩ := Nat.exists_eq_succ_of_ne_zero (Nat.ne_of_gt (Nat.lt_of_lt_of_le
      (Nat.succ_pos _) hf))
    rcases eq_or_ne y.filename n with hy | hy
    -- the head goes; the last pointer is cleared if it was the only node
    · obtain ⟨h₁, hfree, hbrk, -, hc₁⟩ := hc.free hq hl.notMem_tail
      have hlast₁ : (if q = none then none else s.fileListLast) = l.getLast?.map Prod.fst := by
        cases l with
        | nil => simp [Chain.nil_iff.mp hc]
        | cons d l =>
          obtain ⟨rfl, -⟩ := Chain.cons_iff.mp hc
          simpa using hlast
      obtain ⟨s', l', he, hb', hch, hlast', hsub, hw, hhead⟩ :=
        ih (k := fuel) (s := { s with
          heap := h₁
          fileListFirst := q
          fileListLast := if q = none then none else s.fileListLast }) hc₁ hlast₁
          (List.nodup_cons.mp hnd).2 (Nat.le_of_succ_le_succ hf)
      refine ⟨s', l', ?_, hb'.trans hbrk, hch, hlast', hsub.cons _, ?_, hhead⟩
      · simpa [delHead, hfirst, hq, hy, hfree] using he
      · rw [hw]
        simp [without, hy]
    -- the head has another name, and `again` is not taken
    · refine ⟨s, (b, y) :: l, ?_, rfl, hl, hlast, List.Sublist.refl _, rfl, by simpa using hy⟩
      simp [delHead, hfirst, hq, hy]

/-- The nodes the walk of the deletion leaves: it never compares the node it starts from. -/
def afterHead (n : String) : List (ℕ × StrFile) → List (ℕ × StrFile)
  | [] => []
  | p :: l => p :: without n l

theorem afterHead_eq_self {n : String} {l : List (ℕ × StrFile)}
    (hn : n ∉ (l.map Prod.snd).map StrFile.filename) : afterHead n l = l := by
  cases l with
  | nil => rfl
  | cons p l => rw [afterHead, without_eq_self fun h => hn (List.mem_cons_of_mem _ h)]

/-- The walk of the deletion, from a node on: it unlinks the name behind that node, counts the
files it leaves, and ends with the last pointer on the last node. -/
theorem delLoop_spec {n : String} {fuel : ℕ} :
    ∀ {s : StrFolder} {c : Recount} {p : Option ℕ} {l : List (ℕ × StrFile)},
      Chain s.heap p l → ((l.map Prod.snd).map StrFile.filename).Nodup → l.length ≤ fuel →
      ∃ s', delLoop n fuel s c p = some (s', c.addAll ((afterHead n l).map Prod.snd)) ∧
        s'.fileListFirst = s.fileListFirst ∧ Chain s'.heap p (afterHead n l) ∧
        (∀ d, d ∉ l.map Prod.fst → s'.heap.load d = s.heap.load d) ∧
        s'.fileListLast =
          if l = [] then s.fileListLast else (afterHead n l).getLast?.map Prod.fst := by
  induction fuel with
  | zero =>
    intro s c p l hl _ hf
    obtain rfl : l = [] := List.length_eq_zero_iff.mp (Nat.le_zero.mp hf)
    obtain rfl := Chain.nil_iff.mp hl
    exact ⟨s, by simp [delLoop, afterHead, Recount.addAll], rfl, rfl, fun _ _ => rfl, rfl⟩
  | succ fuel ih =>
    intro s c p l hl hnd hf
    -- one round counts one node, and moves on by one or over the node taken out
    match l with
    | [] =>
      obtain rfl := Chain.nil_iff.mp hl
      exact ⟨s, by simp [delLoop, afterHead, Recount.addAll], rfl, rfl, fun _ _ => rfl, rfl⟩
    | [(a, x)] =>
      obtain ⟨rfl, q, hq, hc⟩ := Chain.cons_iff.mp hl
      obtain rfl := Chain.nil_iff.mp hc
      refine ⟨{ s with fileListLast := some a }, ?_, rfl, hl, fun _ _ => rfl, rfl⟩
      simp [delLoop, hq, afterHead, Recount.addAll]
    | (a, x) :: (b, y) :: l =>
      obtain ⟨rfl, q, hq, hc⟩ := Chain.cons_iff.mp hl
      obtain ⟨rfl, q', hq', hc'⟩ := Chain.cons_iff.mp hc
      have hnd' := (List.nodup_cons.mp hnd).2
      rcases eq_or_ne y.filename n with hy | hy
      · -- unlink `b`; what comes up behind it has another name
        have hnl : n ∉ (l.map Prod.snd).map StrFile.filename :=
          hy ▸ (List.nodup_cons.mp hnd').1
        have hal : a ∉ l.map Prod.fst := fun h => hl.notMem_tail (List.mem_cons_of_mem _ h)
        obtain ⟨h₁, h₂, he₁, he₂, hf₂, hq₂, hcq₂⟩ := hl.remove_next hq'
        obtain ⟨s', he, hfirst, hch, hframe, hlast⟩ :=
          ih (s := { s with
            heap := h₂
            fileListLast := if q' = none then some a else s.fileListLast })
            (c := c.add x) hcq₂ (List.nodup_cons.mp hnd').2 (by simp at hf; omega)
        rw [afterHead_eq_self hnl] at he hch hlast
        have hafter : afterHead n ((a, x) :: (b, y) :: l) = (a, x) :: l := by
          have := without_eq_self hnl
          simpa [afterHead, without, hy] using this
        rw [hafter]
        refine ⟨s', ?_, hfirst, ?_, ?_, ?_⟩
        · simpa [delLoop, hq, hq', hy, he₁, he₂, Recount.addAll] using he
        · exact Chain.cons_iff.mpr ⟨rfl, q', by rw [hframe a hal, hq₂], hch⟩
        · intro d hd
          simp only [List.map_cons, List.mem_cons, not_or] at hd
          rw [hframe d hd.2.2, hf₂ d hd.1 hd.2.1]
        · cases l with
          | nil => simp [hlast, Chain.nil_iff.mp hc']
          | cons d l => simp [hlast]
      -- the next node stays, and the walk moves on to it
      · obtain ⟨s', he, hfirst, hch, hframe, hlast⟩ :=
          ih (c := c.add x) hc hnd' (Nat.le_of_succ_le_succ hf)
        have hafter : afterHead n ((a, x) :: (b, y) :: l) =
            (a, x) :: afterHead n ((b, y) :: l) := by
          simp [afterHead, without, hy]
        rw [hafter]
        refine ⟨s', ?_, hfirst, ?_, ?_, ?_⟩
        · simpa [delLoop, hq, hq', hy, Recount.addAll] using he
        · exact Chain.cons_iff.mpr ⟨rfl, some b, by rw [hframe a hl.notMem_tail, hq], hch⟩
        · exact fun d hd => hframe d fun h => hd (List.mem_cons_of_mem _ h)
        · simpa [afterHead] using hlast

/-- **The deletion** removes the name from the catalogue, listed or not. -/
theorem fileListDel_spec {s : StrFolder} {c : FileCatalogue} (hs : s.Lists c) (n : String) :
    ∃ s', fileListDel s n = some s' ∧ s'.Lists (c.erase n) := by
  obtain ⟨l, hl, hm, hlast⟩ := hs.nodes
  have hnd : ((l.map Prod.snd).map StrFile.filename).Nodup := hm ▸ c.nodup
  obtain ⟨s₁, l₁, he₁, hbrk, hch₁, hlast₁, hsub, hw, hhead⟩ :=
    delHead_spec hl hlast hnd hl.length_le_brk
  obtain ⟨s₂, he₂, hfirst, hch₂, -, hlast₂⟩ :=
    delLoop_spec (n := n) (c := ⟨0, 0, 0⟩) hch₁
      (hnd.sublist ((hsub.map Prod.snd).map StrFile.filename)) hch₁.length_le_brk
  -- the head has another name by now, so the walk leaves the nodes of other names
  have hafter : afterHead n l₁ = without n l := by
    rw [← hw]
    cases l₁ with
    | nil => rfl
    | cons p l₁ => simp [afterHead, without, hhead p rfl]
  have hentries : (without n l).map Prod.snd = (c.erase n).entries := by
    rw [erase_entries, ← hm, List.filter_map]
    rfl
  rw [hafter] at he₂ hch₂ hlast₂
  have hl₁ : s₂.fileListLast = (without n l).getLast?.map Prod.fst := by
    rw [hlast₂]
    -- no node is left: the last pointer was cleared with the last head
    split_ifs with h
    · rw [hlast₁, h, ← hw, h]
      rfl
    · rfl
  rw [Recount.addAll_eq, hentries] at he₂
  simp only [Nat.zero_add] at he₂
  rw [hbrk] at he₂
  refine ⟨{ s₂ with
      fileNum := (c.erase n).entries.length
      totalSize := ((c.erase n).entries.map StrFile.size).sum
      totalSpace := ((c.erase n).entries.map StrFile.space).sum }, ?_, ?_⟩
  · simp only [fileListDel, he₁, he₂, hbrk, Option.bind_eq_bind, Option.bind_some]
  · exact ⟨⟨without n l, hfirst ▸ hch₂, hentries, hl₁⟩, rfl, rfl, rfl⟩

end RkIpc.Storage
