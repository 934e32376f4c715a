import Mathlib.Logic.Function.Basic
import RkIpc.Transition.Run

/-!
# Critical sections under one mutex

Threads run programs whose every access to the shared state is in a critical section, a list of
commands executed one at a time while the thread holds the mutex. A property of the shared state
that every section restores holds whenever the mutex is free; inside a section it holds of what
the rest of the section will make of the state.

## Main definitions

* `finish exec cs s`: the shared state after the commands `cs`
* `Threads`, `Threads.Step`: the programs still to be run, the holder of the mutex, and its steps
* `Threads.outlook`: the shared state once the mutex is free again

## Main results

* `Threads.outlook_invariant`: what every section restores holds of the outlook in every run
-/

namespace Mutex

variable {ι σ α : Type*}

/-- The shared state after the commands, one after the other. -/
def finish (exec : α → σ → σ) (cs : List α) (s : σ) : σ := cs.foldl (fun s c => exec c s) s

@[simp] theorem finish_nil (exec : α → σ → σ) (s : σ) : finish exec [] s = s := rfl

@[simp] theorem finish_cons (exec : α → σ → σ) (c : α) (cs : List α) (s : σ) :
    finish exec (c :: cs) s = finish exec cs (exec c s) := rfl

/-- Threads with the sections they have still to run, the shared state, and the thread that holds
the mutex with the rest of its section. -/
structure Threads (ι σ α : Type*) where
  programs : ι → List (List α)
  shared : σ
  owner : Option (ι × List α)

namespace Threads

/-- One step of thread `i`: it takes the free mutex, runs a command, or gives the mutex back. -/
inductive Step [DecidableEq ι] (exec : α → σ → σ) (s : Threads ι σ α) (i : ι) :
    Threads ι σ α → Prop
  | lock {section' : List α} {rest : List (List α)} :
      s.owner = none → s.programs i = section' :: rest →
      Step exec s i
        { s with programs := Function.update s.programs i rest, owner := some (i, section') }
  | run {c : α} {cs : List α} :
      s.owner = some (i, c :: cs) →
      Step exec s i { s with shared := exec c s.shared, owner := some (i, cs) }
  | unlock :
      s.owner = some (i, []) → Step exec s i { s with owner := none }

/-- The shared state once the mutex is free again. -/
def outlook (exec : α → σ → σ) (s : Threads ι σ α) : σ :=
  match s.owner with
  | none => s.shared
  | some (_, cs) => finish exec cs s.shared

theorem outlook_of_free {exec : α → σ → σ} {s : Threads ι σ α} (h : s.owner = none) :
    s.outlook exec = s.shared := by
  rw [outlook, h]

variable [DecidableEq ι] {exec : α → σ → σ} {R : σ → Prop} {s t : Threads ι σ α}

/-- What every section still to be run restores. -/
def Restores (exec : α → σ → σ) (R : σ → Prop) (s : Threads ι σ α) : Prop :=
  ∀ i, ∀ cs ∈ s.programs i, ∀ x, R x → R (finish exec cs x)

/-- **A step keeps the outlook**: taking the mutex opens a section, a command and its end leave the
outlook as it is. -/
theorem Step.outlook {i : ι} (hstep : Step exec s i t) (hs : s.Restores exec R)
    (hR : R (s.outlook exec)) : t.Restores exec R ∧ R (t.outlook exec) := by
  cases hstep with
  | @lock cs rest hfree hprog =>
    -- the section taken is one of those still to be run, so it restores the property
    have hmem : cs ∈ s.programs i := hprog ▸ List.mem_cons_self ..
    rw [outlook_of_free hfree] at hR
    refine ⟨fun j ds hds => ?_, hs i cs hmem s.shared hR⟩
    change ds ∈ Function.update s.programs i rest j at hds
    rcases eq_or_ne j i with rfl | hne
    · rw [Function.update_self] at hds
      exact hs j ds (hprog ▸ List.mem_cons_of_mem _ hds)
    · rw [Function.update_of_ne hne] at hds
      exact hs j ds hds
  | @run c cs hown =>
    -- the command moves from the rest of the section into the state
    rw [Threads.outlook, hown] at hR
    exact ⟨hs, hR⟩
  | unlock hown =>
    -- nothing was left of the section
    rw [Threads.outlook, hown] at hR
    exact ⟨hs, hR⟩

/-- **What every section restores** holds of the outlook in every run. -/
theorem outlook_invariant {is : List ι} (hrun : Transition.Run (Step exec) s is t)
    (hs : s.Restores exec R) (hR : R (s.outlook exec)) : R (t.outlook exec) :=
  (hrun.invariant (I := fun s => s.Restores exec R ∧ R (s.outlook exec))
    (fun _ _ _ h hstep => hstep.outlook h.1 h.2) ⟨hs, hR⟩).2

end Threads

end Mutex
