import RkIpc.Text.Scan

/-!
# Paths and directories

A file system answers for paths: which of them lead to a directory, which can be accessed, and what
becomes of it when a directory is made. A path to a directory goes through directories. A tree of
directories and files, with a current directory, and with the calls that fail for reasons of their
own, is one.

## Main definitions

* `FileSystem`: what is known of the calls
* `FileSystem.makeAll`: paths that are made one after the other unless they are there
* `Tree`, `Tree.fileSystem`: directories and files by their locations, and the calls on them

## Main results

* `Tree.isDir_of_slash`: a path to a directory goes through directories
* `Tree.isDir_mkdir`: a directory that is made is there
-/

namespace Path

open Text

/-- `/`. -/
def slash : UInt8 := 47

/-- **A file system**, by the states it can be in. -/
structure FileSystem (σ : Type*) where
  /-- the path leads to a directory -/
  IsDir : σ → Str → Prop
  /-- `access` finds the path -/
  access : σ → Str → Bool
  /-- `mkdir` makes the path a directory, unless it fails -/
  mkdir : σ → Str → Option σ
  isDir_of_slash : ∀ {s q r}, q ≠ [] → IsDir s (q ++ slash :: r) → IsDir s q
  isDir_mkdir : ∀ {s p t}, mkdir s p = some t → IsDir t p

namespace FileSystem

variable {σ : Type*} (fs : FileSystem σ)

/-- The path is made if it is not found. -/
def make (s : σ) (p : Str) : Option σ := if fs.access s p then some s else fs.mkdir s p

/-- **Each path is made if it is not found**, one after the other. -/
def makeAll (s : σ) : List Str → Option σ
  | [] => some s
  | p :: ps => (fs.make s p).bind fun t => makeAll t ps

end FileSystem

/-- **The places before the slashes of a path**, from `i` on. -/
def aboveFrom (p : Str) : ℕ → ℕ → List Str
  | 0, _ => []
  | n + 1, i =>
    if p[i]? = some slash then p.take i :: aboveFrom p n (i + 1) else aboveFrom p n (i + 1)

/-- **The proper prefixes of a path**: all but the root. -/
def above (p : Str) : List Str := aboveFrom p (p.length - 1) 1

theorem mem_aboveFrom {p q : Str} {n i : ℕ} (h : q ∈ aboveFrom p n i) :
    ∃ j, i ≤ j ∧ p[j]? = some slash ∧ q = p.take j := by
  induction n generalizing i with
  | zero => exact absurd h List.not_mem_nil
  | succ n ih =>
    rw [aboveFrom] at h
    split_ifs at h with hi
    · rcases List.mem_cons.mp h with rfl | h
      · exact ⟨i, le_rfl, hi, rfl⟩
      · obtain ⟨j, hj, hq⟩ := ih h
        exact ⟨j, by omega, hq⟩
    · obtain ⟨j, hj, hq⟩ := ih h
      exact ⟨j, by omega, hq⟩

/-- **What is above a directory** is a directory. -/
theorem FileSystem.isDir_above {σ : Type*} (fs : FileSystem σ) {s : σ} {p q : Str}
    (hp : fs.IsDir s p) (hq : q ∈ above p) : fs.IsDir s q := by
  obtain ⟨j, hj, hslash, rfl⟩ := mem_aboveFrom hq
  obtain ⟨hlt, hget⟩ := List.getElem?_eq_some_iff.mp hslash
  have hsplit : p = p.take j ++ slash :: p.drop (j + 1) := by
    rw [← hget, List.getElem_cons_drop, List.take_append_drop]
  have hne : p.take j ≠ [] := by
    apply List.ne_nil_of_length_pos
    rw [List.length_take]
    omega
  apply fs.isDir_of_slash hne
  rw [← hsplit]
  exact hp

/-! ## Trees -/

/-- The components of a path, between its slashes. -/
def components : Str → List Str
  | [] => [[]]
  | c :: cs => if c = slash then [] :: components cs else (components cs).modifyHead (c :: ·)

theorem components_ne_nil (p : Str) : components p ≠ [] := by
  induction p with
  | nil => exact List.cons_ne_nil _ _
  | cons c cs ih =>
    rw [components]
    split_ifs
    · exact List.cons_ne_nil _ _
    · obtain ⟨d, ds, hds⟩ := List.exists_cons_of_ne_nil ih
      rw [hds]
      exact List.cons_ne_nil _ _

/-- A slash separates the components. -/
theorem components_append_slash (q r : Str) :
    components (q ++ slash :: r) = components q ++ components r := by
  induction q with
  | nil => exact if_pos rfl
  | cons c cs ih =>
    rw [List.cons_append, components, components, ih]
    split_ifs
    · rfl
    · obtain ⟨d, ds, hds⟩ := List.exists_cons_of_ne_nil (components_ne_nil cs)
      rw [hds]
      rfl

/-- What stands at a location. -/
inductive Kind
  | dir
  | file
deriving DecidableEq, Repr

/-- **A tree** of directories and files, by their locations under the root, and the current
directory. -/
structure Tree where
  kind : List Str → Option Kind
  cwd : List Str

namespace Tree

variable {t u : Tree} {l m : List Str} {c : Str}

/-- The component names what is in the directory. -/
def IsName (c : Str) : Prop := c ≠ [] ∧ c ≠ lit "." ∧ c ≠ lit ".."

instance (c : Str) : Decidable (IsName c) := inferInstanceAs (Decidable (_ ∧ _ ∧ _))

/-- One component leads from a directory to a location. -/
def step (t : Tree) (l : List Str) (c : Str) : Option (List Str) :=
  if t.kind l ≠ some .dir then none
  else if IsName c then if (t.kind (l ++ [c])).isSome then some (l ++ [c]) else none
  else some (if c = lit ".." then l.dropLast else l)

/-- The location to which a path leads from another. -/
def walk (t : Tree) : List Str → List Str → Option (List Str)
  | l, [] => some l
  | l, c :: cs => (t.step l c).bind fun m => walk t m cs

/-- Where a path begins. -/
def origin (t : Tree) (p : Str) : List Str := if p.head? = some slash then [] else t.cwd

/-- The location of a path. -/
def lookup (t : Tree) (p : Str) : Option (List Str) := t.walk (t.origin p) (components p)

/-- The path leads to a directory. -/
def IsDir (t : Tree) (p : Str) : Prop := ∃ l, t.lookup p = some l ∧ t.kind l = some .dir

/-- A directory at a location. -/
def insertDir (t : Tree) (l : List Str) : Tree :=
  { t with kind := Function.update t.kind l (some .dir) }

/-- A path is made a directory: its last component has to name what is not there, in a directory
that is. Slashes at the end do not matter. -/
def mkdir (t : Tree) (p : Str) : Option Tree :=
  let cs := (components p).rdropWhile (· = [])
  match cs.getLast? with
  | none => none
  | some c => (t.walk (t.origin p) cs.dropLast).bind fun l =>
      if t.kind l = some .dir ∧ IsName c ∧ t.kind (l ++ [c]) = none then
        some (t.insertDir (l ++ [c]))
      else none

theorem walk_append (t : Tree) (l : List Str) (cs ds : List Str) :
    t.walk l (cs ++ ds) = (t.walk l cs).bind fun m => t.walk m ds := by
  induction cs generalizing l with
  | nil => rfl
  | cons c cs ih =>
    rw [List.cons_append, walk, walk, Option.bind_assoc]
    exact congrArg _ (funext fun m => ih m)

theorem kind_of_step (h : t.step l c = some m) : t.kind l = some .dir := by
  rw [step] at h
  split_ifs at h with hdir <;> exact not_not.mp hdir

/-- **A path to a directory** goes through directories. -/
theorem isDir_of_slash {q r : Str} (hq : q ≠ []) (h : t.IsDir (q ++ slash :: r)) : t.IsDir q := by
  obtain ⟨l, hl, -⟩ := h
  have horigin : t.origin (q ++ slash :: r) = t.origin q := by
    rw [origin, origin, List.head?_append_of_ne_nil q hq]
  rw [lookup, horigin, components_append_slash, walk_append] at hl
  obtain ⟨m, hm, hrest⟩ := Option.bind_eq_some_iff.mp hl
  refine ⟨m, hm, ?_⟩
  obtain ⟨d, ds, hds⟩ := List.exists_cons_of_ne_nil (components_ne_nil r)
  rw [hds, walk] at hrest
  obtain ⟨_, hstep, -⟩ := Option.bind_eq_some_iff.mp hrest
  exact kind_of_step hstep

theorem kind_insertDir_of_ne (h : m ≠ l) : (t.insertDir l).kind m = t.kind m :=
  Function.update_of_ne h ..

theorem kind_insertDir_self (t : Tree) (l : List Str) : (t.insertDir l).kind l = some .dir :=
  Function.update_self ..

/-- A directory where nothing is leaves the other locations as they are. -/
theorem step_insertDir (h : t.step l c = some m) {n : List Str} (hn : t.kind n = none) :
    (t.insertDir n).step l c = some m := by
  have hne : ∀ k, t.kind k ≠ none → (t.insertDir n).kind k = t.kind k := fun k hk =>
    kind_insertDir_of_ne fun heq => hk (heq ▸ hn)
  have hl := kind_of_step h
  have hl' : (t.insertDir n).kind l = some .dir := by
    rw [hne l (by rw [hl]; exact Option.some_ne_none _), hl]
  rw [step, if_neg (not_not.mpr hl)] at h
  rw [step, if_neg (not_not.mpr hl')]
  by_cases hname : IsName c
  · rw [if_pos hname] at h ⊢
    split_ifs at h with hsome
    rw [hne _ (Option.isSome_iff_ne_none.mp hsome), if_pos hsome]
    exact h
  · rw [if_neg hname] at h ⊢
    exact h

theorem walk_insertDir {cs : List Str} (h : t.walk l cs = some m) {n : List Str}
    (hn : t.kind n = none) : (t.insertDir n).walk l cs = some m := by
  induction cs generalizing l with
  | nil => exact h
  | cons c cs ih =>
    obtain ⟨k, hk, h⟩ := Option.bind_eq_some_iff.mp h
    rw [walk, step_insertDir hk hn]
    exact ih h

/-- Empty components lead nowhere else. -/
theorem walk_empty (hl : t.kind l = some .dir) {cs : List Str} (hcs : ∀ c ∈ cs, c = []) :
    t.walk l cs = some l := by
  induction cs with
  | nil => rfl
  | cons c cs ih =>
    obtain rfl := hcs c (List.mem_cons_self ..)
    have hstep : t.step l [] = some l := by
      rw [step, if_neg (not_not.mpr hl), if_neg fun h => h.1 rfl]
      exact congrArg some (if_neg (by decide))
    rw [walk, hstep]
    exact ih fun c hc => hcs c (List.mem_cons_of_mem _ hc)

/-- **A directory that is made** is there. -/
theorem isDir_mkdir {p : Str} (h : t.mkdir p = some u) : u.IsDir p := by
  rw [mkdir] at h
  set cs := (components p).rdropWhile (· = []) with hcs
  cases hlast : cs.getLast? with
  | none => rw [hlast] at h; contradiction
  | some c =>
    rw [hlast] at h
    obtain ⟨l, hl, h⟩ := Option.bind_eq_some_iff.mp h
    split_ifs at h with hcan
    obtain ⟨hdir, hname, hnone⟩ := hcan
    obtain rfl := Option.some.inj h
    refine ⟨l ++ [c], ?_, kind_insertDir_self ..⟩
    -- the components are those of the directory, the name, and empty ones
    have hsplit : cs.dropLast ++ [c] = cs := List.dropLast_append_getLast? c hlast
    have hall : cs ++ (components p).rtakeWhile (· = []) = components p :=
      List.rdropWhile_append_rtakeWhile
    have hempty : ∀ d ∈ (components p).rtakeWhile (· = []), d = [] := fun d hd => by
      simpa using List.mem_rtakeWhile_imp hd
    have hstep : (t.insertDir (l ++ [c])).step l c = some (l ++ [c]) := by
      have hl' : (t.insertDir (l ++ [c])).kind l = some .dir := by
        rw [kind_insertDir_of_ne fun heq => ?_, hdir]
        simpa using congrArg List.length heq
      rw [step, if_neg (not_not.mpr hl'), if_pos hname, kind_insertDir_self]
      rfl
    have hwalk := walk_insertDir hl hnone
    rw [lookup, ← hall, ← hsplit, List.append_assoc, walk_append]
    show ((t.insertDir (l ++ [c])).walk (t.origin p) cs.dropLast).bind _ = _
    rw [hwalk, Option.bind_some, List.cons_append, List.nil_append, walk, hstep,
      Option.bind_some]
    exact walk_empty (kind_insertDir_self ..) hempty

/-- **The calls on a tree**, which fail also for the paths given: those that may not be accessed,
and those of which no directory may be made. -/
def fileSystem (denied refused : Str → Bool) : FileSystem Tree where
  IsDir := IsDir
  access t p := (t.lookup p).isSome && !denied p
  mkdir t p := if refused p then none else t.mkdir p
  isDir_of_slash := isDir_of_slash
  isDir_mkdir := fun h => by
    split_ifs at h
    exact isDir_mkdir h

end Tree

end Path
