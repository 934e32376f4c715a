import Mathlib.Data.List.Basic
import RkIpc.Imperative.Program

/-!
# What a program adds to a log

A state may have a log that statements only append to. Whether everything that is appended has a
property follows from the statements of a program, whether it goes on, returns or blocks.

## Main definitions

* `Program.get`, `Program.modify`, `Program.ofOption`: statements
* `Added`: a log goes on with entries of a kind
* `Program.Appends`: everything that a statement appends is of a kind

## Main results

* `Program.Appends.bind`, `Program.Appends.call`, `Program.Appends.ite`, `Program.Appends.forM`:
  the rules
-/

namespace Imperative

variable {σ ρ ρ' α β τ : Type}

/-- **The log goes on** from `l` with entries in `Q`. -/
def Added (Q : τ → Prop) (l l' : List τ) : Prop := ∃ new, l' = l ++ new ∧ ∀ a ∈ new, Q a

namespace Added

variable {Q R : τ → Prop} {l l₁ l₂ : List τ}

theorem refl (Q : τ → Prop) (l : List τ) : Added Q l l := ⟨[], (List.append_nil l).symm, nofun⟩

theorem trans (h₁ : Added Q l l₁) (h₂ : Added Q l₁ l₂) : Added Q l l₂ := by
  obtain ⟨new₁, rfl, hnew₁⟩ := h₁
  obtain ⟨new₂, rfl, hnew₂⟩ := h₂
  refine ⟨new₁ ++ new₂, List.append_assoc .., fun a ha => ?_⟩
  exact (List.mem_append.mp ha).elim (hnew₁ a) (hnew₂ a)

theorem singleton {a : τ} (h : Q a) (l : List τ) : Added Q l (l ++ [a]) :=
  ⟨[a], rfl, fun b hb => by rwa [List.mem_singleton.mp hb]⟩

theorem mono (h : Added Q l l₁) (hQR : ∀ a, Q a → R a) : Added R l l₁ := by
  obtain ⟨new, rfl, hnew⟩ := h
  exact ⟨new, rfl, fun a ha => hQR a (hnew a ha)⟩

/-- What was in the log stays. -/
theorem mem (h : Added Q l l₁) {a : τ} (ha : a ∈ l) : a ∈ l₁ := by
  obtain ⟨new, rfl, -⟩ := h
  exact List.mem_append_left _ ha

/-- Everything in a log that was empty is in `Q`. -/
theorem forall_mem (h : Added Q [] l) : ∀ a ∈ l, Q a := by
  obtain ⟨new, rfl, hnew⟩ := h
  exact hnew

end Added

namespace Program

/-- The state. -/
def get : Program σ ρ σ := fun s => (.value s, s)

/-- The state is changed. -/
def modify (f : σ → σ) : Program σ ρ Unit := fun s => (.value (), f s)

/-- A value, if there is one. -/
def ofOption (o : Option α) : Program σ ρ α := fun s =>
  match o with
  | some a => (.value a, s)
  | none => (.blocked, s)

/-- **Everything that a statement appends is in `Q`.** -/
def Appends (log : σ → List τ) (Q : τ → Prop) (x : Program σ ρ α) : Prop :=
  ∀ s, Added Q (log s) (log (x s).2)

namespace Appends

variable {log : σ → List τ} {Q R : τ → Prop} {x : Program σ ρ α}

theorem pure (a : α) : Appends log Q (Pure.pure a : Program σ ρ α) := fun s => .refl Q (log s)

theorem get : Appends log Q (Program.get : Program σ ρ σ) := fun s => .refl Q (log s)

theorem exit (r : ρ) : Appends log Q (Program.exit r : Program σ ρ α) := fun s => .refl Q (log s)

theorem ofOption (o : Option α) : Appends log Q (Program.ofOption o : Program σ ρ α) := by
  intro s
  cases o <;> exact .refl Q (log s)

/-- A change of something else. -/
theorem modify {f : σ → σ} (h : ∀ s, log (f s) = log s) :
    Appends log Q (Program.modify f : Program σ ρ Unit) := by
  intro s
  change Added Q (log s) (log (f s))
  rw [h s]
  exact .refl Q (log s)

/-- An entry is appended. -/
theorem append {f : σ → σ} {a : τ} (hf : ∀ s, log (f s) = log s ++ [a]) (ha : Q a) :
    Appends log Q (Program.modify f : Program σ ρ Unit) := by
  intro s
  change Added Q (log s) (log (f s))
  rw [hf s]
  exact .singleton ha (log s)

theorem bind {f : α → Program σ ρ β} (hx : Appends log Q x) (hf : ∀ a, Appends log Q (f a)) :
    Appends log Q (x >>= f) := by
  intro s
  have h := hx s
  simp only [Bind.bind]
  generalize x s = o at h ⊢
  rcases o with ⟨a | _ | _, t⟩
  · exact h.trans (hf a t)
  · exact h
  · exact h

theorem call {x : Program σ ρ ρ} (hx : Appends log Q x) :
    Appends log Q (Program.call x : Program σ ρ' ρ) := by
  intro s
  have h := hx s
  simp only [Program.call]
  generalize x s = o at h ⊢
  rcases o with ⟨_ | _ | _, t⟩ <;> exact h

theorem ite {c : Prop} [Decidable c] {y : Program σ ρ α} (hx : Appends log Q x)
    (hy : Appends log Q y) : Appends log Q (if c then x else y) := by
  split
  · exact hx
  · exact hy

theorem mono (hx : Appends log Q x) (h : ∀ a, Q a → R a) : Appends log R x :=
  fun s => (hx s).mono h

/-- A loop over a list. -/
theorem forM {f : β → Program σ ρ PUnit} {l : List β} (hf : ∀ b ∈ l, Appends log Q (f b)) :
    Appends log Q (l.forM f) := by
  induction l with
  | nil => exact .pure _
  | cons b l ih =>
    obtain ⟨hb, hl⟩ := List.forall_mem_cons.mp hf
    exact bind hb fun _ => ih hl

end Appends

/-- The first statement goes on. -/
theorem bind_of_value {x : Program σ ρ α} {f : α → Program σ ρ β} {a : α} {s t : σ}
    (hx : x s = (.value a, t)) : (x >>= f) s = f a t := by
  simp only [Bind.bind, hx]

end Program

end Imperative
