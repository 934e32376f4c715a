import Mathlib.Data.List.Infix

/-!
# First in, first out

A queue with the history of what went in and of what came out. What went in is what came out
followed by what is still pending, so nothing is lost, doubled or overtaken.

## Main definitions

* `Fifo`: a queue with its two histories
* `Fifo.push`, `Fifo.pop`, `Fifo.Step`: the operations

## Main results

* `Fifo.delivered_prefix`: what came out is a prefix of what went in
-/

namespace Queue

variable {α : Type*}

/-- **A queue**: what was accepted is what was delivered, followed by what is pending. -/
structure Fifo (α : Type*) where
  accepted : List α
  delivered : List α
  pending : List α
  accepted_eq : accepted = delivered ++ pending

namespace Fifo

/-- The queue nothing has entered. -/
def empty : Fifo α := ⟨[], [], [], rfl⟩

/-- `x` enters. -/
def push (q : Fifo α) (x : α) : Fifo α where
  accepted := q.accepted ++ [x]
  delivered := q.delivered
  pending := q.pending ++ [x]
  accepted_eq := by rw [q.accepted_eq, List.append_assoc]

/-- The one that has been pending longest, `x`, leaves. -/
def pop (q : Fifo α) {x : α} {rest : List α} (h : q.pending = x :: rest) : Fifo α where
  accepted := q.accepted
  delivered := q.delivered ++ [x]
  pending := rest
  accepted_eq := by rw [q.accepted_eq, h, List.append_assoc, List.singleton_append]

/-- One operation, or none. -/
inductive Step (q : Fifo α) : Fifo α → Prop
  | stay : Step q q
  | push (x : α) : Step q (q.push x)
  | pop {x : α} {rest : List α} (h : q.pending = x :: rest) : Step q (q.pop h)

/-- **Lossless**: what was delivered is a prefix of what was accepted. -/
theorem delivered_prefix (q : Fifo α) : q.delivered <+: q.accepted :=
  ⟨q.pending, q.accepted_eq.symm⟩

end Fifo

end Queue
