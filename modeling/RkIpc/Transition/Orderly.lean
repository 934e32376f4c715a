import Mathlib.Data.List.Basic

/-!
# Commands in order

A command changes a state, and is in order in some states only. A list of commands is in order if
each of them is, where the ones before have been executed.

## Main definitions

* `InOrder allows exec s as`: the commands `as` are in order from `s` on
* `Leads allows exec P as Q`: they are from where `P` holds, and `Q` holds in the end

## Main results

* `inOrder_append_iff`, `inOrder_concat_iff`: commands one after the other
* `inOrder_iff_forall`: each command is in order after the ones before
* `inOrder_and_iff`: commands in order by two conditions
* `InOrder.invariant`: what commands in order keep
* `inOrder_filter_iff`: commands that have nothing to do with a part of the state
-/

namespace Transition

variable {σ α : Type*}

/-- **The commands are in order** from `s` on. -/
def InOrder (allows : σ → α → Prop) (exec : σ → α → σ) : σ → List α → Prop
  | _, [] => True
  | s, a :: as => allows s a ∧ InOrder allows exec (exec s a) as

variable {allows : σ → α → Prop} {exec : σ → α → σ} {s : σ} {a : α} {as bs : List α}

@[simp] theorem inOrder_nil : InOrder allows exec s [] := trivial

theorem inOrder_cons_iff :
    InOrder allows exec s (a :: as) ↔ allows s a ∧ InOrder allows exec (exec s a) as := Iff.rfl

instance [∀ s a, Decidable (allows s a)] : ∀ s (as : List α), Decidable (InOrder allows exec s as)
  | _, [] => inferInstanceAs (Decidable True)
  | s, a :: as =>
    have := instDecidableInOrder (exec s a) as
    inferInstanceAs (Decidable (allows s a ∧ InOrder allows exec (exec s a) as))

theorem inOrder_append_iff :
    InOrder allows exec s (as ++ bs) ↔
      InOrder allows exec s as ∧ InOrder allows exec (as.foldl exec s) bs := by
  induction as generalizing s with
  | nil => simp
  | cons a as ih => rw [List.cons_append, inOrder_cons_iff, inOrder_cons_iff, ih, and_assoc,
      List.foldl_cons]

theorem inOrder_concat_iff :
    InOrder allows exec s (as ++ [a]) ↔
      InOrder allows exec s as ∧ allows (as.foldl exec s) a := by
  rw [inOrder_append_iff, inOrder_cons_iff, and_iff_left inOrder_nil]

/-- **Each command is in order** after the ones before. -/
theorem inOrder_iff_forall : InOrder allows exec s as ↔
    ∀ pre a post, as = pre ++ a :: post → allows (pre.foldl exec s) a := by
  constructor
  · rintro h pre a post rfl
    exact (inOrder_append_iff.mp h).2.1
  · intro h
    induction as generalizing s with
    | nil => exact inOrder_nil
    | cons a as ih =>
      refine ⟨h [] a as rfl, ih fun pre b post hpost => ?_⟩
      exact h (a :: pre) b post (by rw [hpost, List.cons_append])

/-- Commands that are in order everywhere. -/
theorem inOrder_of_forall (h : ∀ a ∈ as, ∀ s, allows s a) : InOrder allows exec s as := by
  refine inOrder_iff_forall.mpr fun pre a post hpre => h a ?_ _
  rw [hpre]
  exact List.mem_append_right _ List.mem_cons_self

/-- Commands in order by two conditions. -/
theorem inOrder_and_iff {allows' : σ → α → Prop} :
    InOrder (fun s a => allows s a ∧ allows' s a) exec s as ↔
      InOrder allows exec s as ∧ InOrder allows' exec s as := by
  simp only [inOrder_iff_forall, ← forall_and]

/-- **What commands in order keep** holds after them. -/
theorem InOrder.invariant {I : σ → Prop} (h : InOrder allows exec s as)
    (hkeep : ∀ s a, I s → allows s a → I (exec s a)) (hs : I s) : I (as.foldl exec s) := by
  induction as generalizing s with
  | nil => exact hs
  | cons a as ih => exact ih h.2 (hkeep s a hs h.1)

/-! ## From one state to another -/

/-- **Commands lead** from where `P` holds to where `Q` holds, and are in order. -/
def Leads (allows : σ → α → Prop) (exec : σ → α → σ) (P : σ → Prop) (as : List α)
    (Q : σ → Prop) : Prop :=
  ∀ s, P s → InOrder allows exec s as ∧ Q (as.foldl exec s)

section

variable {P Q R : σ → Prop}

theorem Leads.nil (h : ∀ s, P s → Q s) : Leads allows exec P [] Q := fun s hs => ⟨trivial, h s hs⟩

theorem Leads.cons (h : ∀ s, P s → allows s a ∧ Q (exec s a)) (has : Leads allows exec Q as R) :
    Leads allows exec P (a :: as) R := by
  intro s hs
  obtain ⟨ha, hq⟩ := h s hs
  obtain ⟨horder, hr⟩ := has _ hq
  exact ⟨⟨ha, horder⟩, hr⟩

theorem Leads.single (h : ∀ s, P s → allows s a ∧ Q (exec s a)) :
    Leads allows exec P [a] Q := .cons h (.nil fun _ => id)

theorem Leads.append (has : Leads allows exec P as Q) (hbs : Leads allows exec Q bs R) :
    Leads allows exec P (as ++ bs) R := by
  intro s hs
  obtain ⟨hleft, hq⟩ := has s hs
  obtain ⟨hright, hr⟩ := hbs _ hq
  rw [List.foldl_append]
  exact ⟨inOrder_append_iff.mpr ⟨hleft, hright⟩, hr⟩

/-- Commands each of which is in order and keeps what holds. -/
theorem Leads.of_forall (h : ∀ a ∈ as, ∀ s, P s → allows s a ∧ P (exec s a)) :
    Leads allows exec P as P := by
  induction as with
  | nil => exact .nil fun _ => id
  | cons a as ih =>
    obtain ⟨ha, has⟩ := List.forall_mem_cons.mp h
    exact .cons ha (ih has)

end

/-! ## Parts of the state -/

section Part

variable {τ : Type*} {part : σ → τ} {concerns : α → Bool}

/-- The part of the state after the commands that concern it. -/
theorem part_foldl_filter (hkeep : ∀ s a, concerns a = false → part (exec s a) = part s)
    (hexec : ∀ s t a, part s = part t → part (exec s a) = part (exec t a)) {t : σ}
    (hst : part s = part t) :
    part (as.foldl exec s) = part ((as.filter concerns).foldl exec t) := by
  induction as generalizing s t with
  | nil => exact hst
  | cons a as ih =>
    rw [List.foldl_cons, List.filter_cons]
    split
    · rw [List.foldl_cons]
      exact ih (hexec s t a hst)
    · next ha => exact ih ((hkeep s a (by simpa using ha)).trans hst)

/-- **Commands that do not concern a part** of the state make no difference to what is in order by
this part. -/
theorem inOrder_filter_iff (hkeep : ∀ s a, concerns a = false → part (exec s a) = part s)
    (hexec : ∀ s t a, part s = part t → part (exec s a) = part (exec t a))
    (hallows : ∀ s t a, part s = part t → (allows s a ↔ allows t a))
    (hother : ∀ s a, concerns a = false → allows s a) {t : σ} (hst : part s = part t) :
    InOrder allows exec s as ↔ InOrder allows exec t (as.filter concerns) := by
  induction as generalizing s t with
  | nil => exact iff_of_true inOrder_nil inOrder_nil
  | cons a as ih =>
    rw [List.filter_cons, inOrder_cons_iff]
    split
    · rw [inOrder_cons_iff, hallows s t a hst, ih (hexec s t a hst)]
    · next ha =>
      have ha : concerns a = false := by simpa using ha
      rw [and_iff_right (hother s a ha)]
      exact ih ((hkeep s a ha).trans hst)

end Part

end Transition
