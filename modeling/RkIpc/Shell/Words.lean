import Mathlib.Data.List.Basic
import Mathlib.Data.List.Forall2

/-!
# The words of a shell command

A POSIX shell takes a simple command apart into words at blanks, and removes the backslashes and
quotes that kept a character from having a meaning of its own. A command with an operator, an
expansion, a pattern or a comment outside of quotes is more than its words, and is not read here.

## Main definitions

* `Reader`, `Reader.step`: reading a command byte by byte
* `words`: the words of a command
* `escape`: every byte with a backslash before it
* `Spells`: a text that is read as a part of a word

## Main results

* `Spells.append`, `spells_escape`, `spells_plain`: what a text is read as
* `words_intercalate`: texts with single blanks between them are one word each
-/

namespace Shell

/-- What a byte is read as. -/
inductive Mode
  | plain
  | escaped
  | single
  | double
  | doubleEscaped
deriving DecidableEq, Repr

/-- **The reading of a command**: the words that are complete, the one that is being read, and what
the next byte is read as. -/
structure Reader where
  words : List (List UInt8)
  word : Option (List UInt8)
  mode : Mode
deriving DecidableEq, Repr

/-- Bytes that begin or end a command, an expansion, a pattern or a comment:
`|`, `&`, `;`, `<`, `>`, `(`, `)`, `$`, a backquote, `*`, `?`, `[`, `#`, `~` and a newline. -/
def special : List UInt8 := [124, 38, 59, 60, 62, 40, 41, 36, 96, 42, 63, 91, 35, 126, 10]

/-- A blank. -/
def blank : UInt8 := 32

/-- A backslash. -/
def backslash : UInt8 := 92

namespace Reader

/-- Nothing is read yet. -/
def start : Reader := ⟨[], none, .plain⟩

/-- The word goes on, or begins. -/
def push (r : Reader) (cs : List UInt8) : Reader := { r with word := some (r.word.getD [] ++ cs) }

/-- The word ends, if there is one. -/
def close (r : Reader) : Reader := { r with words := r.words ++ r.word.toList, word := none }

/-- **A byte is read.** -/
def step (r : Reader) (c : UInt8) : Option Reader :=
  match r.mode with
  | .plain =>
    if c = blank ∨ c = 9 then some r.close
    else if c = backslash then some { r with mode := .escaped }
    else if c = 39 then some { r.push [] with mode := .single }
    else if c = 34 then some { r.push [] with mode := .double }
    else if c ∈ special then none
    else some (r.push [c])
  | .escaped =>
    -- a backslash before a newline goes on with the next line
    if c = 10 then some { r with mode := .plain } else some { r.push [c] with mode := .plain }
  | .single => if c = 39 then some { r with mode := .plain } else some (r.push [c])
  | .double =>
    if c = 34 then some { r with mode := .plain }
    else if c = backslash then some { r with mode := .doubleEscaped }
    else if c = 36 ∨ c = 96 then none
    else some (r.push [c])
  | .doubleEscaped =>
    if c = 10 then some { r with mode := .double }
    else if c = 36 ∨ c = 96 ∨ c = 34 ∨ c = backslash then some { r.push [c] with mode := .double }
    else some { r.push [backslash, c] with mode := .double }

/-- The words, if no quote is open. -/
def finish (r : Reader) : Option (List (List UInt8)) :=
  if r.mode = .plain then some r.close.words else none

variable (r : Reader) (cs ds : List UInt8)

@[simp] theorem mode_push : (r.push cs).mode = r.mode := rfl

@[simp] theorem words_push : (r.push cs).words = r.words := rfl

@[simp] theorem push_push : (r.push cs).push ds = r.push (cs ++ ds) := by
  simp [push, List.append_assoc]

end Reader

/-- **The words of a command.** -/
def words (cmd : List UInt8) : Option (List (List UInt8)) :=
  (cmd.foldlM Reader.step .start).bind Reader.finish

/-! ## What a text is read as -/

/-- **The text is read as `w`**: outside of quotes, the word goes on with it. -/
def Spells (text w : List UInt8) : Prop :=
  ∀ r : Reader, r.mode = .plain → text.foldlM Reader.step r = some (r.push w)

/-- A byte that stands for itself. -/
def Plain (c : UInt8) : Prop :=
  c ≠ blank ∧ c ≠ 9 ∧ c ≠ backslash ∧ c ≠ 39 ∧ c ≠ 34 ∧ c ∉ special

instance (c : UInt8) : Decidable (Plain c) := inferInstanceAs (Decidable (_ ∧ _ ∧ _ ∧ _ ∧ _ ∧ _))

/-- Every byte with a backslash before it. -/
def escape (cs : List UInt8) : List UInt8 := cs.flatMap fun c => [backslash, c]

section

variable {text text' w w' cs : List UInt8} {c : UInt8} {texts ws : List (List UInt8)}

theorem Spells.append (h : Spells text w) (h' : Spells text' w') :
    Spells (text ++ text') (w ++ w') := by
  intro r hr
  rw [List.foldlM_append, h r hr, ← Reader.push_push]
  exact h' (r.push w) hr

/-- Texts that are read byte by byte, or in groups. -/
theorem Spells.flatMap {f : UInt8 → List UInt8} (hne : cs ≠ [])
    (h : ∀ c ∈ cs, Spells (f c) [c]) : Spells (cs.flatMap f) cs := by
  induction cs with
  | nil => exact absurd rfl hne
  | cons c cs ih =>
    have hhead := h c List.mem_cons_self
    rcases List.eq_nil_or_concat' cs with rfl | ⟨_, _, hcs⟩
    · rwa [List.flatMap_cons, List.flatMap_nil, List.append_nil]
    · refine hhead.append (ih ?_ fun d hd => h d (List.mem_cons_of_mem c hd))
      rw [hcs]
      exact List.append_ne_nil_of_right_ne_nil _ (List.cons_ne_nil _ _)

theorem spells_byte (h : Plain c) : Spells [c] [c] := by
  intro r hr
  obtain ⟨hblank, htab, hbackslash, hsingle, hdouble, hspecial⟩ := h
  simp [Reader.step, hr, hblank, htab, hbackslash, hsingle, hdouble, hspecial]

/-- **Bytes that stand for themselves.** -/
theorem spells_plain (hne : cs ≠ []) (h : ∀ c ∈ cs, Plain c) : Spells cs cs := by
  have hspells : Spells (cs.flatMap fun c => [c]) cs :=
    Spells.flatMap hne fun c hc => spells_byte (h c hc)
  rwa [List.flatMap_singleton'] at hspells

theorem spells_escaped (h : c ≠ 10) : Spells [backslash, c] [c] := by
  intro r hr
  simp [Reader.step, hr, h, backslash, blank, Reader.push]

/-- **A backslash before every byte** keeps what the bytes mean from the shell. -/
theorem spells_escape (hne : cs ≠ []) (h : 10 ∉ cs) : Spells (escape cs) cs :=
  Spells.flatMap hne fun _ hc => spells_escaped (ne_of_mem_of_not_mem hc h)

/-- **One blank between the texts**, and each is a word. -/
theorem words_intercalate (h : List.Forall₂ Spells texts ws) :
    words ([blank].intercalate texts) = some ws := by
  have hall : ∀ r : Reader, r.mode = .plain → r.word = none →
      (([blank].intercalate texts).foldlM Reader.step r).bind Reader.finish =
        some (r.words ++ ws) := by
    induction h with
    | nil =>
      intro r hmode hword
      simp [List.intercalate_nil, Reader.finish, Reader.close, hmode, hword]
    | @cons text w texts ws htext hrest ih =>
      intro r hmode hword
      cases hrest with
      | nil =>
        rw [List.intercalate_singleton, htext r hmode, Option.bind_some, Reader.finish,
          Reader.mode_push, if_pos hmode]
        simp [Reader.close, Reader.push, hword]
      | @cons text' w' texts ws htext' hrest =>
        -- the blank behind the text ends the word
        have hblank : Reader.step (r.push w) blank = some ⟨r.words ++ [w], none, .plain⟩ := by
          simp [Reader.step, Reader.close, Reader.push, hmode, hword]
        rw [List.intercalate_cons_cons, List.append_assoc, List.foldlM_append, htext r hmode,
          Option.bind_eq_bind, Option.bind_some, List.singleton_append, List.foldlM_cons, hblank,
          Option.bind_eq_bind, Option.bind_some, ih _ rfl rfl, List.append_assoc,
          List.singleton_append]
  exact hall .start rfl rfl

end

end Shell
