import Mathlib.Data.List.Nodup
import Mathlib.Data.List.Perm.Subperm

/-!
# Heaps of list nodes

A heap maps the address of a node to its value and to the address of its successor; `none` is
the null pointer. Reading, writing or freeing a node that is not live is stuck (`none`), so a
program that returns has not followed a dangling pointer. `malloc` never hands out an address
twice, so a stale pointer never becomes valid again.

## Main definitions

* `Heap α`: the live nodes, and the bound of the addresses handed out so far
* `Heap.load`, `Heap.malloc`, `Heap.setNext`, `Heap.free`: the operations
* `Chain h p l`: the nodes `l` are read by following `next` from `p` to the null pointer

## Main results

* `Chain.unique`, `Chain.nodup`, `Chain.length_le_brk`: a chain is determined by its head, meets
  no address twice, and is no longer than the heap
* `Chain.frame`: a chain survives changes outside its addresses
* `Chain.setNext_head`, `Chain.insert_next`, `Chain.remove_next`: the chains made by relinking a
  node, by linking a node in, and by taking one out
-/

namespace LinkedList

/-- A node: its value and the address of its successor. -/
structure Node (α : Type*) where
  val : α
  next : Option ℕ
deriving DecidableEq, Repr

/-- The live nodes by address. Every address in use is below `brk`. -/
structure Heap (α : Type*) where
  cell : ℕ → Option (Node α)
  brk : ℕ
  fresh : ∀ a, brk ≤ a → cell a = none

namespace Heap

variable {α : Type*}

/-- The heap without nodes. -/
def empty : Heap α := ⟨fun _ => none, 0, fun _ _ => rfl⟩

/-- Read a live node. -/
def load (h : Heap α) (a : ℕ) : Option (Node α) := h.cell a

/-- The heap with the live address `a` holding `n`, or freed. -/
def write (h : Heap α) (a : ℕ) (n : Option (Node α)) (ha : a < h.brk) : Heap α where
  cell := Function.update h.cell a n
  brk := h.brk
  fresh b hb := by
    -- an address from `brk` on is not `a`
    rw [Function.update_of_ne (by omega)]
    exact h.fresh b hb

theorem lt_brk_of_load {h : Heap α} {a : ℕ} {n : Node α} (ha : h.load a = some n) :
    a < h.brk := by
  by_contra hn
  have := h.fresh a (by omega)
  simp [load, this] at ha

/-- Allocate a node: its address and the extended heap. -/
def malloc (h : Heap α) (n : Node α) : ℕ × Heap α :=
  (h.brk,
    { cell := Function.update h.cell h.brk (some n)
      brk := h.brk + 1
      fresh := fun a ha => by
        -- an address from `brk + 1` on is not the new one
        rw [Function.update_of_ne (by omega)]
        exact h.fresh a (by omega) })

/-- `a->next = p`. -/
def setNext (h : Heap α) (a : ℕ) (p : Option ℕ) : Option (Heap α) :=
  match hl : h.load a with
  | none => none
  | some n => some (h.write a (some ⟨n.val, p⟩) (lt_brk_of_load hl))

/-- `free(a)`. -/
def free (h : Heap α) (a : ℕ) : Option (Heap α) :=
  match hl : h.load a with
  | none => none
  | some _ => some (h.write a none (lt_brk_of_load hl))

@[simp] theorem malloc_fst (h : Heap α) (n : Node α) : (h.malloc n).1 = h.brk := rfl

@[simp] theorem load_malloc_self (h : Heap α) (n : Node α) :
    (h.malloc n).2.load h.brk = some n := by
  simp [malloc, load]

theorem load_malloc_of_ne (h : Heap α) (n : Node α) {a : ℕ} (ha : a ≠ h.brk) :
    (h.malloc n).2.load a = h.load a := by
  simp [malloc, load, ha]

/-- Relinking a live node succeeds; it changes that node's link only. -/
theorem exists_setNext {h : Heap α} {a : ℕ} {n : Node α} (ha : h.load a = some n)
    (p : Option ℕ) :
    ∃ h', h.setNext a p = some h' ∧ h'.brk = h.brk ∧ h'.load a = some ⟨n.val, p⟩ ∧
      ∀ b, b ≠ a → h'.load b = h.load b := by
  refine ⟨h.write a (some ⟨n.val, p⟩) (lt_brk_of_load ha), ?_, rfl, ?_, ?_⟩
  · unfold setNext
    -- the node is live, so only the second case of the match arises
    split
    · rename_i hl
      simp [ha] at hl
    · rename_i m hl
      obtain rfl : m = n := by simpa [ha] using hl.symm
      rfl
  · simp [write, load]
  · intro b hb
    simp [write, load, hb]

/-- Freeing a live node succeeds; it removes that node only. -/
theorem exists_free {h : Heap α} {a : ℕ} {n : Node α} (ha : h.load a = some n) :
    ∃ h', h.free a = some h' ∧ h'.brk = h.brk ∧ h'.load a = none ∧
      ∀ b, b ≠ a → h'.load b = h.load b := by
  refine ⟨h.write a none (lt_brk_of_load ha), ?_, rfl, ?_, ?_⟩
  · unfold free
    -- the node is live, so only the second case of the match arises
    split
    · rename_i hl
      simp [ha] at hl
    · rfl
  · simp [write, load]
  · intro b hb
    simp [write, load, hb]

end Heap

variable {α : Type*}

/-- **A chain**: following `next` from `p` reads the nodes `l`, with their addresses, and ends at
the null pointer. -/
def Chain (h : Heap α) : Option ℕ → List (ℕ × α) → Prop
  | p, [] => p = none
  | p, (a, x) :: l => p = some a ∧ ∃ q, h.load a = some ⟨x, q⟩ ∧ Chain h q l

namespace Chain

variable {h h' : Heap α} {p q : Option ℕ} {a : ℕ} {x : α} {l l' : List (ℕ × α)}

@[simp] theorem nil_iff : Chain h p [] ↔ p = none := Iff.rfl

theorem cons_iff :
    Chain h p ((a, x) :: l) ↔ p = some a ∧ ∃ q, h.load a = some ⟨x, q⟩ ∧ Chain h q l := Iff.rfl

/-- The chain from a pointer is determined. -/
theorem unique (hl : Chain h p l) (hl' : Chain h p l') : l = l' := by
  induction l generalizing p l' with
  | nil =>
    -- one of the chains ends where the other goes on: the pointer is null and is not
    cases l' with
    | nil => rfl
    | cons b l' => cases hl; cases hl'.1
  | cons b l ih =>
    obtain ⟨rfl, q, hq, hc⟩ := hl
    cases l' with
    | nil => cases hl'
    | cons b' l' =>
      obtain ⟨hb, q', hq', hc'⟩ := hl'
      obtain ⟨b, x⟩ := b
      obtain ⟨b', x'⟩ := b'
      obtain rfl := Option.some.inj hb
      -- both read the node at the same address, so they agree on its value and its successor
      obtain ⟨rfl, rfl⟩ : x = x' ∧ q = q' := by simpa [hq] using hq'
      rw [ih hc hc']

/-- A chain passes through each of its nodes. -/
theorem suffix (hl : Chain h p (l ++ (a, x) :: l')) : Chain h (some a) ((a, x) :: l') := by
  induction l generalizing p with
  | nil =>
    -- the chain starts with the node asked for
    obtain ⟨rfl, -⟩ := cons_iff.mp hl
    exact hl
  | cons b l ih =>
    obtain ⟨b, y⟩ := b
    obtain ⟨-, q, -, hc⟩ := cons_iff.mp hl
    exact ih hc

theorem load_of_mem (hl : Chain h p l) (hm : (a, x) ∈ l) : ∃ q, h.load a = some ⟨x, q⟩ := by
  obtain ⟨l₁, l₂, rfl⟩ := List.append_of_mem hm
  obtain ⟨-, q, hq, -⟩ := cons_iff.mp hl.suffix
  exact ⟨q, hq⟩

/-- A chain meets no address twice: from the second visit on it would repeat for ever. -/
theorem nodup (hl : Chain h p l) : (l.map Prod.fst).Nodup := by
  induction l generalizing p with
  | nil => exact List.nodup_nil
  | cons b l ih =>
    obtain ⟨b, x⟩ := b
    obtain ⟨-, q, hq, hc⟩ := cons_iff.mp hl
    refine List.nodup_cons.mpr ⟨fun hb => ?_, ih hc⟩
    -- the chain comes back to its head later on ...
    obtain ⟨⟨b', y⟩, hm, rfl⟩ := List.mem_map.mp hb
    obtain ⟨l₁, l₂, rfl⟩ := List.append_of_mem hm
    have hs : Chain h (some b') ((b', y) :: l₂) := hc.suffix
    -- ... where it is the same chain again, and yet shorter
    have he := congrArg List.length (unique (cons_iff.mpr ⟨rfl, q, hq, hc⟩) hs)
    simp at he
    omega

theorem notMem_tail (hl : Chain h p ((a, x) :: l)) : a ∉ l.map Prod.fst :=
  (List.nodup_cons.mp hl.nodup).1

theorem lt_brk (hl : Chain h p l) : ∀ b ∈ l.map Prod.fst, b < h.brk := by
  intro b hb
  obtain ⟨⟨b, x⟩, hm, rfl⟩ := List.mem_map.mp hb
  obtain ⟨q, hq⟩ := hl.load_of_mem hm
  exact Heap.lt_brk_of_load hq

/-- A chain is no longer than the number of addresses handed out. -/
theorem length_le_brk (hl : Chain h p l) : l.length ≤ h.brk := by
  -- its addresses are distinct and all below `brk`
  have hs : (l.map Prod.fst).Subperm (List.range h.brk) :=
    hl.nodup.subperm fun b hb => List.mem_range.mpr (hl.lt_brk b hb)
  simpa using hs.length_le

/-- A chain survives changes outside its addresses. -/
theorem frame (hl : Chain h p l) (hf : ∀ b ∈ l.map Prod.fst, h'.load b = h.load b) :
    Chain h' p l := by
  induction l generalizing p with
  | nil => exact hl
  | cons b l ih =>
    obtain ⟨b, x⟩ := b
    obtain ⟨rfl, q, hq, hc⟩ := cons_iff.mp hl
    -- the head is read as before, and the addresses of the tail are among those of the chain
    refine cons_iff.mpr ⟨rfl, q, ?_, ih hc fun c hc' => hf c ?_⟩
    · rw [hf b (by simp), hq]
    · simp only [List.map_cons, List.mem_cons]
      exact Or.inr hc'

/-- Allocation leaves a chain as it is. -/
theorem malloc (hl : Chain h p l) (n : Node α) : Chain (h.malloc n).2 p l :=
  hl.frame fun b hb => h.load_malloc_of_ne n (Nat.ne_of_lt (hl.lt_brk b hb))

/-- A node relinked to a chain that does not pass through it heads that chain. -/
theorem setNext_head (ha : h.load a = some ⟨x, p⟩) (hl : Chain h q l) (hal : a ∉ l.map Prod.fst) :
    ∃ h₁, h.setNext a q = some h₁ ∧ (∀ b, b ≠ a → h₁.load b = h.load b) ∧
      Chain h₁ (some a) ((a, x) :: l) := by
  obtain ⟨h₁, he, -, hload, hframe⟩ := Heap.exists_setNext ha q
  refine ⟨h₁, he, hframe, cons_iff.mpr ⟨rfl, q, hload, hl.frame fun b hb => ?_⟩⟩
  -- the write is at `a`, which the chain does not pass through
  exact hframe b fun hba => hal (hba ▸ hb)

/-- Freeing a node outside a chain leaves the chain as it is. -/
theorem free (hl : Chain h p l) {n : Node α} (hn : h.load a = some n)
    (ha : a ∉ l.map Prod.fst) :
    ∃ h₁, h.free a = some h₁ ∧ h₁.brk = h.brk ∧ (∀ b, b ≠ a → h₁.load b = h.load b) ∧
      Chain h₁ p l := by
  obtain ⟨h₁, he, hb, -, hframe⟩ := Heap.exists_free hn
  exact ⟨h₁, he, hb, hframe, hl.frame fun b hb => hframe b fun hba => ha (hba ▸ hb)⟩

/-- A node linked in behind the head: first to what follows, then from the head. -/
theorem insert_next {t : ℕ} {v : α} {r : Option ℕ} (hl : Chain h (some a) ((a, x) :: l))
    (ha : h.load a = some ⟨x, q⟩) (ht : h.load t = some ⟨v, r⟩)
    (htl : t ∉ ((a, x) :: l).map Prod.fst) :
    ∃ h₁ h₂, h.setNext t q = some h₁ ∧ h₁.setNext a (some t) = some h₂ ∧
      (∀ d, d ≠ t → d ≠ a → h₂.load d = h.load d) ∧
      h₂.load a = some ⟨x, some t⟩ ∧ Chain h₂ (some t) ((t, v) :: l) := by
  obtain ⟨-, q', hq, hc⟩ := cons_iff.mp hl
  obtain rfl : q' = q := by simpa [ha] using hq.symm
  simp only [List.map_cons, List.mem_cons, not_or] at htl
  obtain ⟨hta, htl⟩ := htl
  obtain ⟨h₁, he₁, hf₁, hc₁⟩ := setNext_head ht hc htl
  -- the head is still as it was, and the chain of the new node does not pass through it
  have ha₁ : h₁.load a = some ⟨x, q'⟩ := by rw [hf₁ a (Ne.symm hta), ha]
  have hal : a ∉ ((t, v) :: l).map Prod.fst := by
    simp only [List.map_cons, List.mem_cons, not_or]
    exact ⟨Ne.symm hta, hl.notMem_tail⟩
  obtain ⟨h₂, he₂, hf₂, hc₂⟩ := setNext_head ha₁ hc₁ hal
  obtain ⟨-, q₂, hq₂, hc₂⟩ := cons_iff.mp hc₂
  obtain ⟨rfl, -⟩ := cons_iff.mp hc₂
  exact ⟨h₁, h₂, he₁, he₂, fun d hdt hda => by rw [hf₂ d hda, hf₁ d hdt], hq₂, hc₂⟩

/-- The node behind the head unlinked and freed. -/
theorem remove_next {b : ℕ} {y : α} (hl : Chain h (some a) ((a, x) :: (b, y) :: l))
    (hb : h.load b = some ⟨y, q⟩) :
    ∃ h₁ h₂, h.setNext a q = some h₁ ∧ h₁.free b = some h₂ ∧
      (∀ d, d ≠ a → d ≠ b → h₂.load d = h.load d) ∧
      h₂.load a = some ⟨x, q⟩ ∧ Chain h₂ q l := by
  obtain ⟨-, p, hp, hc⟩ := cons_iff.mp hl
  obtain ⟨rfl, q', hq, hc'⟩ := cons_iff.mp hc
  obtain rfl : q' = q := by simpa [hb] using hq.symm
  have hal : a ∉ ((b, y) :: l).map Prod.fst := hl.notMem_tail
  simp only [List.map_cons, List.mem_cons, not_or] at hal
  obtain ⟨h₁, he₁, -, ha₁, hf₁⟩ := Heap.exists_setNext hp q'
  have hb₁ : h₁.load b = some ⟨y, q'⟩ := by rw [hf₁ b (Ne.symm hal.1), hb]
  -- neither the relinked head nor the node freed is on the rest of the chain
  have hc₁ : Chain h₁ q' l := hc'.frame fun d hd => hf₁ d fun hda => hal.2 (hda ▸ hd)
  obtain ⟨h₂, he₂, -, hf₂, hc₂⟩ := hc₁.free hb₁ hc.notMem_tail
  refine ⟨h₁, h₂, he₁, he₂, fun d hda hdb => by rw [hf₂ d hdb, hf₁ d hda], ?_, hc₂⟩
  rw [hf₂ a hal.1, ha₁]

end Chain

end LinkedList
