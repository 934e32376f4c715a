import Mathlib.Data.Int.Notation
import RkIpc.LinkedList.Heap

/-!
# A linked stack with its size

A stack keeps the address of its top node and a count. Its nodes are on a heap, and the newest one
has the highest address.

## Main definitions

* `Stack`, `Stack.push`, `Stack.pop`, `Stack.clear`: the stack, and its operations on the heap
* `Stack.Holds`: the nodes from the top on, and their number

## Main results

* `Stack.Holds.push`, `Stack.Holds.pop_cons`: what the operations leave
* `Stack.Holds.exists_clear`: all nodes can be freed
-/

namespace LinkedList

/-- A stack: its count, and the address of its top node. -/
structure Stack where
  size : ℤ
  top : Option ℕ
deriving DecidableEq, Repr

namespace Stack

variable {α : Type*}

/-- The stack without nodes. -/
def empty : Stack := ⟨0, none⟩

/-- A new node on top: its address, the heap, and the stack. -/
def push (s : Stack) (h : Heap α) (x : α) : ℕ × Heap α × Stack :=
  let (a, h) := h.malloc ⟨x, s.top⟩
  (a, h, ⟨s.size + 1, some a⟩)

/-- The top node is taken off and freed, if there is one. -/
def pop (s : Stack) (h : Heap α) : Option (Option (ℕ × α) × Heap α × Stack) :=
  match s.top with
  | none => some (none, h, s)
  | some a => do
    let n ← h.load a
    let h ← h.free a
    some (some (a, n.val), h, ⟨s.size - 1, n.next⟩)

/-- All nodes are freed, from the top on; the first argument bounds their number. -/
def clear : ℕ → Option ℕ → Heap α → Option (Heap α)
  | _, none, h => some h
  | 0, some _, _ => none
  | n + 1, some a, h => do
    let node ← h.load a
    let h ← h.free a
    clear n node.next h

/-- **The stack holds** the nodes `l`, the newest first. -/
structure Holds (s : Stack) (h : Heap α) (l : List (ℕ × α)) : Prop where
  chain : Chain h s.top l
  size : s.size = l.length

variable {s : Stack} {h : Heap α} {l : List (ℕ × α)} {a : ℕ} {x : α}

theorem holds_empty : empty.Holds h [] := ⟨rfl, rfl⟩

theorem Holds.push (hs : s.Holds h l) (x : α) :
    (s.push h x).2.2.Holds (s.push h x).2.1 ((h.brk, x) :: l) where
  chain := Chain.cons_iff.mpr ⟨rfl, s.top, h.load_malloc_self _, hs.chain.malloc _⟩
  size := by
    have hsize := hs.size
    change s.size + 1 = (l.length + 1 : ℕ)
    omega

theorem Holds.top_eq_none_iff (hs : s.Holds h l) : s.top = none ↔ l = [] := by
  cases l with
  | nil => exact iff_of_true hs.chain rfl
  | cons b l =>
    obtain ⟨htop, -⟩ := Chain.cons_iff.mp hs.chain
    rw [htop]
    exact iff_of_false nofun nofun

theorem Holds.pop_nil (hs : s.Holds h []) : s.pop h = some (none, h, s) := by
  rw [Stack.pop, hs.top_eq_none_iff.mpr rfl]

/-- **The newest node** is taken off. -/
theorem Holds.pop_cons (hs : s.Holds h ((a, x) :: l)) :
    ∃ h' s', s.pop h = some (some (a, x), h', s') ∧ s'.Holds h' l ∧ s'.size = s.size - 1 := by
  obtain ⟨htop, q, hload, hrest⟩ := Chain.cons_iff.mp hs.chain
  obtain ⟨h', hfree, -, -, hchain⟩ := hrest.free hload hs.chain.notMem_tail
  refine ⟨h', ⟨s.size - 1, q⟩, ?_, ⟨hchain, ?_⟩, rfl⟩
  · simp only [Stack.pop, htop, hload, hfree, Option.bind_eq_bind, Option.bind_some]
  · have hsize := hs.size
    rw [List.length_cons] at hsize
    change s.size - 1 = l.length
    omega

/-- All nodes of a chain can be freed. -/
theorem exists_clear {p : Option ℕ} {n : ℕ} (hl : Chain h p l) (hn : l.length ≤ n) :
    ∃ h', clear n p h = some h' := by
  -- induction on the nodes, the heap changing with each of them
  induction l generalizing p n h with
  | nil =>
    obtain rfl := Chain.nil_iff.mp hl
    exact ⟨h, by cases n <;> rfl⟩
  | cons b l ih =>
    obtain ⟨b, x⟩ := b
    obtain ⟨rfl, q, hload, hrest⟩ := Chain.cons_iff.mp hl
    obtain ⟨h₁, hfree, -, -, hchain⟩ := hrest.free hload hl.notMem_tail
    cases n with
    | zero => cases hn
    | succ n =>
      obtain ⟨h₂, hclear⟩ := ih hchain (Nat.le_of_succ_le_succ hn)
      refine ⟨h₂, ?_⟩
      simp only [clear, hload, hfree, Option.bind_eq_bind, Option.bind_some]
      exact hclear

theorem Holds.exists_clear (hs : s.Holds h l) : ∃ h', clear h.brk s.top h = some h' :=
  Stack.exists_clear hs.chain hs.chain.length_le_brk

end Stack

end LinkedList
