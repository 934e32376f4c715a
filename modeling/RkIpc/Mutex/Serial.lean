import RkIpc.Mutex.Sections

/-!
# Critical sections in the order of the mutex

The commands of different threads alternate, but never inside of a critical section. A run of the
threads therefore comes to what the sections make of the state one after the other, in the order in
which they took the mutex, and this order keeps the order of every program.

## Main definitions

* `serially`, `ofThread`: sections one after the other, and what one thread did
* `Threads.Serial`: an order of sections that a run comes to

## Main results

* `Threads.exists_serial`: every run has such an order
* `Threads.Serial.append`: the orders of two runs, one after the other
-/

namespace Mutex

variable {ι σ α : Type*}

/-- The shared state after whole sections, one after the other. -/
def serially (exec : α → σ → σ) (order : List (ι × List α)) (x : σ) : σ :=
  order.foldl (fun x p => finish exec p.2 x) x

@[simp] theorem serially_nil (exec : α → σ → σ) (x : σ) :
    serially exec ([] : List (ι × List α)) x = x := rfl

theorem serially_append (exec : α → σ → σ) (l l' : List (ι × List α)) (x : σ) :
    serially exec (l ++ l') x = serially exec l' (serially exec l x) := List.foldl_append ..

theorem serially_concat (exec : α → σ → σ) (l : List (ι × List α)) (p : ι × List α) (x : σ) :
    serially exec (l ++ [p]) x = finish exec p.2 (serially exec l x) := serially_append ..

/-- What every section keeps, sections keep one after the other. -/
theorem serially_invariant {exec : α → σ → σ} {R : σ → Prop} {order : List (ι × List α)} {x : σ}
    (hkeep : ∀ p ∈ order, ∀ x, R x → R (finish exec p.2 x)) (hx : R x) :
    R (serially exec order x) := by
  induction order generalizing x with
  | nil => exact hx
  | cons p order ih =>
    obtain ⟨hp, horder⟩ := List.forall_mem_cons.mp hkeep
    exact ih horder (hp x hx)

variable [DecidableEq ι]

section OfThread

variable {β : Type*} {i j : ι}

/-- What one thread did. -/
def ofThread (i : ι) (l : List (ι × β)) : List β := (l.filter fun p => p.1 = i).map Prod.snd

@[simp] theorem ofThread_nil : ofThread i ([] : List (ι × β)) = [] := rfl

theorem ofThread_append (l l' : List (ι × β)) :
    ofThread i (l ++ l') = ofThread i l ++ ofThread i l' := by
  rw [ofThread, List.filter_append, List.map_append]
  rfl

theorem ofThread_self (b : β) : ofThread i [(i, b)] = [b] := by
  simp [ofThread]

theorem ofThread_of_ne (h : i ≠ j) (b : β) : ofThread j [(i, b)] = [] := by
  simp [ofThread, h]

theorem mem_ofThread {l : List (ι × β)} {b : β} : b ∈ ofThread i l ↔ (i, b) ∈ l := by
  simp [ofThread]

/-- What only one thread did. -/
theorem filterMap_ofThread {γ : Type*} {g : β → Option γ} {l : List (ι × β)}
    (h : ∀ p ∈ l, p.1 ≠ i → g p.2 = none) :
    (ofThread i l).filterMap g = (l.map Prod.snd).filterMap g := by
  induction l with
  | nil => rfl
  | cons p l ih =>
    obtain ⟨hp, hl⟩ := List.forall_mem_cons.mp h
    rw [List.map_cons, ← List.singleton_append, ofThread_append, List.filterMap_append, ih hl,
      List.filterMap_cons]
    rcases eq_or_ne p.1 i with rfl | hne
    · rw [ofThread_self p.2, List.filterMap_cons]
      split <;> rfl
    · rw [ofThread_of_ne hne, hp hne]
      rfl

end OfThread

namespace Threads

/-- **A run comes to the sections in this order**: the outlook is what they make one after the
other, and what is left of each program comes after its sections. -/
structure Serial (exec : α → σ → σ) (s t : Threads ι σ α) (order : List (ι × List α)) : Prop where
  outlook : t.outlook exec = serially exec order (s.outlook exec)
  programs : ∀ i, s.programs i = ofThread i order ++ t.programs i

variable {exec : α → σ → σ} {s t u : Threads ι σ α} {order order' : List (ι × List α)}

theorem Serial.refl (exec : α → σ → σ) (s : Threads ι σ α) : Serial exec s s [] :=
  ⟨rfl, fun _ => rfl⟩

/-- The orders of two runs, one after the other. -/
theorem Serial.append (h : Serial exec s t order) (h' : Serial exec t u order') :
    Serial exec s u (order ++ order') where
  outlook := by
    rw [h'.outlook, h.outlook, serially_append]
  programs := by
    intro i
    rw [h.programs, h'.programs, ofThread_append, List.append_assoc]

/-- **A step comes to a section or to none**: the section is the one whose mutex is taken. -/
theorem Step.exists_serial {i : ι} (hstep : Step exec s i t) : ∃ order, Serial exec s t order := by
  cases hstep with
  | @lock cs rest hfree hprog =>
    refine ⟨[(i, cs)], ?_, fun j => ?_⟩
    · rw [outlook_of_free hfree]
      rfl
    · change s.programs j = _ ++ Function.update s.programs i rest j
      rcases eq_or_ne j i with rfl | hne
      · rw [Function.update_self, ofThread_self, hprog, List.singleton_append]
      · rw [Function.update_of_ne hne, ofThread_of_ne hne.symm, List.nil_append]
  | run hown =>
    -- the command was in the outlook before
    refine ⟨[], ?_, fun j => rfl⟩
    rw [Threads.outlook, Threads.outlook, hown]
    rfl
  | unlock hown =>
    refine ⟨[], ?_, fun j => rfl⟩
    rw [Threads.outlook, Threads.outlook, hown]
    rfl

/-- **Every run comes to its sections**, in the order in which they took the mutex. -/
theorem exists_serial {is : List ι} (hrun : Transition.Run (Step exec) s is t) :
    ∃ order, Serial exec s t order := by
  induction hrun with
  | nil => exact ⟨[], .refl exec s⟩
  | snoc _ hstep ih =>
    obtain ⟨order, horder⟩ := ih
    obtain ⟨order', horder'⟩ := hstep.exists_serial
    exact ⟨order ++ order', horder.append horder'⟩

/-- The sections of an order were to be run. -/
theorem Serial.mem_programs (h : Serial exec s t order) {p : ι × List α} (hp : p ∈ order) :
    p.2 ∈ s.programs p.1 := by
  rw [h.programs p.1]
  refine List.mem_append_left _ (List.mem_map.mpr ⟨p, ?_, rfl⟩)
  exact List.mem_filter.mpr ⟨hp, decide_eq_true rfl⟩

end Threads

end Mutex
