import Mathlib.Data.Nat.Notation
import Mathlib.Logic.Function.Basic

/-!
# Threads of one kind under one thread id

Threads are numbered as they are created, each stands somewhere, and one place is the end. The
thread id of the last one is kept in a variable, and only this one can be joined. A thread created
while all others are over is the sole one, and once it has been joined all of them are over.

## Main definitions

* `Workers`, `Workers.spawn`, `Workers.move`: the threads, a new one, and one that goes on
* `Workers.All`: what holds of each thread, by where it stands
* `Workers.Over`, `Workers.Sole`: all threads have ended; all but the one whose id is kept

## Main results

* `Workers.Over.spawn`: a thread created while all others are over is the sole one
* `Workers.Sole.over`: once it has ended, all threads are over
* `Workers.Sole.unique`: there are no two threads that have not ended
-/

namespace Resource

/-- Threads of one kind: how many were created so far, and where each of them stands. -/
structure Workers (π : Type*) where
  created : ℕ
  place : ℕ → π

namespace Workers

variable {π : Type*}

/-- No thread has been created. -/
def unborn (p : π) : Workers π := ⟨0, fun _ => p⟩

/-- A new thread is created, and stands at `p`. -/
def spawn (w : Workers π) (p : π) : Workers π :=
  ⟨w.created + 1, Function.update w.place w.created p⟩

/-- Thread `k` goes to `p`. -/
def move (w : Workers π) (k : ℕ) (p : π) : Workers π :=
  { w with place := Function.update w.place k p }

/-- What holds of each thread, by where it stands. -/
def All (P : ℕ → π → Prop) (w : Workers π) : Prop := ∀ k < w.created, P k (w.place k)

instance (P : ℕ → π → Prop) [∀ k p, Decidable (P k p)] (w : Workers π) : Decidable (w.All P) :=
  inferInstanceAs (Decidable (∀ k < w.created, P k (w.place k)))

@[simp] theorem created_spawn (w : Workers π) (p : π) : (w.spawn p).created = w.created + 1 := rfl

@[simp] theorem created_move (w : Workers π) (k : ℕ) (p : π) :
    (w.move k p).created = w.created := rfl

@[simp] theorem place_spawn_self (w : Workers π) (p : π) : (w.spawn p).place w.created = p :=
  Function.update_self ..

theorem place_spawn_of_lt (w : Workers π) {k : ℕ} (h : k < w.created) (p : π) :
    (w.spawn p).place k = w.place k := Function.update_of_ne (Nat.ne_of_lt h) ..

@[simp] theorem place_move_self (w : Workers π) (k : ℕ) (p : π) : (w.move k p).place k = p :=
  Function.update_self ..

@[simp] theorem place_move_of_ne (w : Workers π) {j k : ℕ} (h : j ≠ k) (p : π) :
    (w.move k p).place j = w.place j := Function.update_of_ne h ..

variable {P Q : ℕ → π → Prop} {w : Workers π} {k : ℕ} {p : π}

theorem all_unborn : All P (unborn p) := fun k hk => absurd hk (Nat.not_lt_zero k)

theorem All.imp (h : All P w) (himp : ∀ k p, P k p → Q k p) : All Q w := fun k hk =>
  himp k _ (h k hk)

theorem All.spawn (h : All P w) (hp : P w.created p) : All P (w.spawn p) := by
  intro j hj
  rcases Nat.lt_succ_iff_lt_or_eq.mp hj with hlt | rfl
  · rw [place_spawn_of_lt w hlt]
    exact h j hlt
  · rw [place_spawn_self]
    exact hp

theorem All.move (h : All P w) (hp : P k p) : All P (w.move k p) := by
  intro j hj
  rcases eq_or_ne j k with rfl | hne
  · rw [place_move_self]
    exact hp
  · rw [place_move_of_ne w hne]
    exact h j hj

/-! ## Threads that end -/

variable {ended : π} {tid : Option ℕ}

/-- All threads have ended. -/
def Over (ended : π) (w : Workers π) : Prop := w.All fun _ p => p = ended

instance [DecidableEq π] (ended : π) (w : Workers π) : Decidable (w.Over ended) :=
  inferInstanceAs (Decidable (w.All fun _ p => p = ended))

/-- All threads have ended but the one whose id is kept. -/
def Sole (ended : π) (tid : Option ℕ) (w : Workers π) : Prop :=
  w.All fun k p => p ≠ ended → tid = some k

/-- What holds at the end holds of threads that are over. -/
theorem Over.all (h : w.Over ended) (hP : ∀ k, P k ended) : All P w := by
  intro k hk
  rw [h k hk]
  exact hP k

theorem Over.sole (h : w.Over ended) : w.Sole ended tid := fun k hk hne => absurd (h k hk) hne

/-- **A thread created while all others are over** is the sole one. -/
theorem Over.spawn (h : w.Over ended) : (w.spawn p).Sole ended (some w.created) :=
  All.spawn h.sole fun _ => rfl

/-- A thread that has not ended goes on. -/
theorem Sole.move (h : w.Sole ended tid) (hk : k < w.created) (hne : w.place k ≠ ended) :
    (w.move k p).Sole ended tid :=
  All.move h fun _ => h k hk hne

/-- **Once the thread whose id is kept has ended**, all threads are over. -/
theorem Sole.over (h : w.Sole ended tid) (hjoin : ∀ k ∈ tid, w.place k = ended) :
    w.Over ended := by
  intro k hk
  by_contra hne
  exact hne (hjoin k (h k hk hne))

/-- **There are no two threads** that have not ended. -/
theorem Sole.unique (h : w.Sole ended tid) {j : ℕ} (hj : j < w.created) (hk : k < w.created)
    (hjne : w.place j ≠ ended) (hkne : w.place k ≠ ended) : j = k :=
  Option.some.inj ((h j hj hjne).symm.trans (h k hk hkne))

end Workers

end Resource
