import RkIpc.Param.Store
import RkIpc.Transition.Run

/-!
# The life of the dictionary

`g_ini_d_` is set by `rk_param_init` and `rk_param_reload`, and freed by `rk_param_reload`,
`rk_param_deinit` and a `rk_param_save` that cannot open its file. A call that fails leaves a null
pointer where entries were, and `rk_param_deinit` leaves the pointer to what it has freed.

## Main definitions

* `rkParamDeinit`, `rkParamGetDouble`: the operations that are not in the store yet
* `Call`, `Call.run`: the calls, with what the file system answers in them
* `Call.Kept`: a call that leaves a null pointer or a dictionary, and the entries if it fails
* `Call.Harmless`: the condition on a call

## Main results

* `Call.run_cases`: what a call does to `g_ini_d_`
* `Call.kept_iff`: one call
* `along_kept_iff`: a sequence of calls
* `entries_lost`: a sequence that loses the entries, and one that keeps what was freed
-/

namespace RkIpc.Param

open Text Transition

/-- `if (g_ini_d_) iniparser_freedict(g_ini_d_)`. -/
def Store.freedict (p : Store) : Option Store :=
  match p.iniD with
  | .null => some p
  | .live _ => some { p with iniD := .freed }
  | .freed => none

/-- **`rk_param_deinit`**, which does not set `g_ini_d_` to a null pointer. -/
def rkParamDeinit (opened : Bool) (p : Store) : Option (ℤ × Store) :=
  match p.iniD with
  | .null => some (0, p)
  | .live _ | .freed => do
    let (_, p) ← rkParamSave opened p
    let p ← p.freedict
    some (0, p)

/-- `rk_param_get_double`, which keeps the number in an `int`; `atof` reads a text as that. -/
def rkParamGetDouble (atof : Str → ℤ) (p : Store) (entry : Str) (default : ℤ) : Option ℤ :=
  match p.iniD with
  | .null => some default
  | .live d =>
    match d.lookup (strlwc entry (asciiLineSz + 1)) with
    | none => some default
    | some none => none
    | some (some s) => some (atof s)
  | .freed => none

/-- **A call**, with what is at `g_ini_path_` and at `/tmp/rkipc-factory-config.ini` when they are
loaded, and whether `fopen` succeeds. Deleting a user calls `iniparser_unset`. -/
inductive Call where
  | init (file factory : Option (List UInt8))
  | reload (file : Option (List UInt8))
  | save (opened : Bool)
  | deinit (opened : Bool)
  | getInt (entry : Str) (default : ℤ)
  | getDouble (atof : Str → ℤ) (entry : Str) (default : ℤ)
  | getString (entry : Str) (default : Option Str)
  | setInt (entry : Str) (val : ℤ)
  | setString (entry : Str) (val : Option Str)
  | unset (entry : Str)

/-- A call, and whether it succeeds. -/
def Call.run (p : Store) : Call → Option (Bool × Store)
  | .init file factory => (rkParamInit factory { p with file }).map fun r => (r.1 == 0, r.2)
  | .reload file => (rkParamReload { p with file }).map fun r => (r.1 == 0, r.2)
  | .save opened => (rkParamSave opened p).map fun r => (r.1 == 0, r.2)
  | .deinit opened => (rkParamDeinit opened p).map fun r => (r.1 == 0, r.2)
  | .getInt entry default => (rkParamGetInt p entry default).map fun _ => (true, p)
  | .getDouble atof entry default =>
    (rkParamGetDouble atof p entry default).map fun _ => (true, p)
  | .getString entry default => (rkParamGetString p entry default).map fun _ => (true, p)
  | .setInt entry val => (rkParamSetInt p entry val).map fun p => (true, p)
  | .setString entry val => (rkParamSetString p entry val).map fun p => (true, p)
  | .unset entry => (p.unset entry).map fun p => (true, p)

/-- A call returns. -/
def Call.Step (p : Store) (c : Call) (p' : Store) : Prop := ∃ ok, c.run p = some (ok, p')

/-- **Nothing is lost in a call**: it leaves a null pointer or a dictionary that is not freed, and
the entries as they were if it fails. -/
def Call.Kept (p : Store) (c : Call) (p' : Store) : Prop :=
  p'.iniD ≠ .freed ∧ (c.run p = some (false, p') → ∀ d, p.iniD = .live d → p'.iniD = .live d)

/-- **The condition on a call**: with a dictionary in use, loading and saving succeed, and
`rk_param_deinit` is called only when its own saving fails. -/
def Call.Harmless (p : Store) : Call → Prop
  | .init file factory =>
    p.Live → (iniparserLoad file).isSome ∨ (iniparserLoad (factory.or file)).isSome
  | .reload file => p.Live → (iniparserLoad file).isSome
  | .save opened => p.Live → opened = true
  | .deinit opened => p.Live → opened = false
  | .getInt .. | .getDouble .. | .getString .. | .setInt .. | .setString .. | .unset .. => True

/-! ## One call -/

section OneCall

variable {p p' : Store} {c : Call} {ok : Bool} {r : ℤ}

theorem Store.use_eq_some {d : Dictionary} (h : p.use d = some (r, p')) :
    r = 0 ∧ p'.iniD = .live d := by
  unfold Store.use at h
  obtain ⟨_, _, he⟩ := Option.map_eq_some_iff.mp h
  obtain ⟨rfl, rfl⟩ := Prod.mk.inj he
  exact ⟨rfl, rfl⟩

/-- `rk_param_init` leaves the dictionary that it has loaded, at the first or the second try. -/
theorem rkParamInit_cases {factory : Option (List UInt8)}
    (h : rkParamInit factory p = some (r, p')) :
    (((iniparserLoad p.file).isSome ∨ (iniparserLoad (factory.or p.file)).isSome) ∧
      r = 0 ∧ p'.Live) ∨
    (iniparserLoad p.file = none ∧ iniparserLoad (factory.or p.file) = none ∧
      r = -1 ∧ p'.iniD = .null) := by
  unfold rkParamInit at h
  cases hfirst : iniparserLoad p.file with
  | some d =>
    rw [hfirst] at h
    obtain ⟨hr, hd⟩ := Store.use_eq_some h
    exact Or.inl ⟨Or.inl rfl, hr, d, hd⟩
  | none =>
    rw [hfirst] at h
    dsimp only at h
    cases hsecond : iniparserLoad (factory.or p.file) with
    | some d =>
      rw [hsecond] at h
      obtain ⟨hr, hd⟩ := Store.use_eq_some h
      exact Or.inl ⟨Or.inr rfl, hr, d, hd⟩
    | none =>
      rw [hsecond] at h
      obtain ⟨rfl, rfl⟩ := Prod.mk.inj (Option.some.inj h)
      exact Or.inr ⟨rfl, rfl, rfl, rfl⟩

/-- `rk_param_reload` leaves the dictionary that it has loaded. -/
theorem rkParamReload_cases (h : rkParamReload p = some (r, p')) :
    ((iniparserLoad p.file).isSome ∧ r = 0 ∧ p'.Live) ∨
    (iniparserLoad p.file = none ∧ r = -1 ∧ p'.iniD = .null) := by
  unfold rkParamReload at h
  -- a dictionary that is not freed is freed first, and then it does not matter which it was
  have hfreed : p.iniD ≠ .freed := by
    intro hd
    rw [hd] at h
    cases h
  cases hfile : iniparserLoad p.file with
  | some d =>
    have huse : p.use d = some (r, p') := by
      rw [hfile] at h
      cases hd : p.iniD with
      | null => rwa [hd] at h
      | live => rwa [hd] at h
      | freed => exact absurd hd hfreed
    obtain ⟨hr, hd⟩ := Store.use_eq_some huse
    exact Or.inl ⟨rfl, hr, d, hd⟩
  | none =>
    have hnull : ((-1 : ℤ), { p with iniD := .null }) = (r, p') := by
      rw [hfile] at h
      cases hd : p.iniD with
      | null =>
        rw [hd] at h
        exact Option.some.inj h
      | live =>
        rw [hd] at h
        exact Option.some.inj h
      | freed => exact absurd hd hfreed
    obtain ⟨rfl, rfl⟩ := Prod.mk.inj hnull
    exact Or.inr ⟨rfl, rfl, rfl⟩

/-- `rk_param_save` leaves the dictionary if it can open the file. -/
theorem rkParamSave_cases {opened : Bool} (h : rkParamSave opened p = some (r, p')) :
    p.iniD ≠ .freed ∧
      ((opened = true ∧ r = 0 ∧ p'.iniD = p.iniD) ∨
        (opened = false ∧ r = -1 ∧ p'.iniD = .null)) := by
  unfold rkParamSave at h
  cases hd : p.iniD with
  | freed =>
    rw [hd] at h
    cases h
  | null | live =>
    rw [hd] at h
    refine ⟨nofun, ?_⟩
    cases opened with
    | true =>
      obtain ⟨rfl, rfl⟩ := Prod.mk.inj (Option.some.inj h)
      exact Or.inl ⟨rfl, rfl, rfl⟩
    | false =>
      obtain ⟨rfl, rfl⟩ := Prod.mk.inj (Option.some.inj h)
      exact Or.inr ⟨rfl, rfl, rfl⟩

/-- `rk_param_deinit` leaves a null pointer, or the pointer to what it has freed. -/
theorem rkParamDeinit_cases {opened : Bool} (h : rkParamDeinit opened p = some (r, p')) :
    r = 0 ∧ ((p.iniD = .null ∧ p'.iniD = .null) ∨
      (p.Live ∧ opened = true ∧ p'.iniD = .freed) ∨
      (p.Live ∧ opened = false ∧ p'.iniD = .null)) := by
  unfold rkParamDeinit at h
  cases hd : p.iniD with
  | null =>
    rw [hd] at h
    obtain ⟨rfl, rfl⟩ := Prod.mk.inj (Option.some.inj h)
    exact ⟨rfl, Or.inl ⟨rfl, hd⟩⟩
  | live d =>
    rw [hd] at h
    obtain ⟨⟨r₁, p₁⟩, hsave, h⟩ := Option.bind_eq_some_iff.mp h
    obtain ⟨p₂, hfree, h⟩ := Option.bind_eq_some_iff.mp h
    obtain ⟨rfl, rfl⟩ := Prod.mk.inj (Option.some.inj h)
    refine ⟨rfl, Or.inr ?_⟩
    -- what `rk_param_save` has left is freed, unless it is a null pointer
    unfold Store.freedict at hfree
    obtain ⟨-, ⟨hopened, -, hd₁⟩ | ⟨hopened, -, hd₁⟩⟩ := rkParamSave_cases hsave
    · rw [hd₁, hd] at hfree
      exact Or.inl ⟨⟨d, hd⟩, hopened, Option.some.inj hfree ▸ rfl⟩
    · rw [hd₁] at hfree
      exact Or.inr ⟨⟨d, hd⟩, hopened, Option.some.inj hfree ▸ hd₁⟩
  | freed =>
    rw [hd] at h
    obtain ⟨⟨r₁, p₁⟩, hsave, -⟩ := Option.bind_eq_some_iff.mp h
    exact absurd hd (rkParamSave_cases hsave).1

/-- Setting and unsetting leave a null pointer or a dictionary. -/
theorem Store.set_ne_freed {entry : Str} {val : Option Str} (h : p.set entry val = some p') :
    p'.iniD ≠ .freed := by
  unfold Store.set at h
  split at h
  · next hd =>
    rw [← Option.some.inj h, hd]
    nofun
  · rw [← Option.some.inj h]
    nofun
  · cases h

theorem Store.unset_ne_freed {entry : Str} (h : p.unset entry = some p') : p'.iniD ≠ .freed := by
  unfold Store.unset at h
  split at h
  · next hd =>
    rw [← Option.some.inj h, hd]
    nofun
  · rw [← Option.some.inj h]
    nofun
  · cases h

/-- A call that cannot fail and leaves what is no freed dictionary. -/
theorem Call.kept_of_ok (hrun : c.run p = some (true, p')) (hne : p'.iniD ≠ .freed) :
    c.Kept p p' := by
  refine ⟨hne, fun hfail => ?_⟩
  rw [hrun] at hfail
  cases hfail

/-- A call that fails with a null pointer has lost the entries, if there were any. -/
theorem Call.kept_iff_of_null (hrun : c.run p = some (false, p')) (hnull : p'.iniD = .null) :
    c.Kept p p' ↔ ¬ p.Live := by
  rw [Call.Kept, hnull]
  constructor
  · rintro ⟨-, hkeep⟩ ⟨d, hd⟩
    exact absurd (hkeep hrun d hd) nofun
  · exact fun hlive => ⟨nofun, fun _ d hd => absurd ⟨d, hd⟩ hlive⟩

theorem Store.Live.ne_freed (hp : p.Live) : p.iniD ≠ .freed := by
  obtain ⟨d, hd⟩ := hp
  rw [hd]
  nofun

/-- A function that returned, by whether it returned `0`. -/
theorem exists_of_status {f : Option (ℤ × Store)} {ok : Bool}
    (h : f.map (fun r => (r.1 == 0, r.2)) = some (ok, p')) :
    ∃ r, f = some (r, p') ∧ (r == 0) = ok := by
  obtain ⟨⟨r, q⟩, hf, he⟩ := Option.map_eq_some_iff.mp h
  obtain ⟨hok, rfl⟩ := Prod.mk.inj he
  exact ⟨r, hf, hok⟩

theorem Call.init_kept_iff {file factory : Option (List UInt8)}
    (hstep : (Call.init file factory).Step p p') :
    (Call.init file factory).Kept p p' ↔ (Call.init file factory).Harmless p := by
  obtain ⟨ok, hrun⟩ := hstep
  obtain ⟨r, hcall, rfl⟩ := exists_of_status hrun
  rcases rkParamInit_cases hcall with ⟨hload, rfl, hlive⟩ | ⟨hfirst, hsecond, rfl, hnull⟩
  · exact iff_of_true (Call.kept_of_ok hrun hlive.ne_freed) fun _ => hload
  · rw [Call.kept_iff_of_null hrun hnull, Call.Harmless]
    refine forall_congr' fun _ => ?_
    rw [show iniparserLoad file = none from hfirst,
      show iniparserLoad (factory.or file) = none from hsecond]
    simp

theorem Call.reload_kept_iff {file : Option (List UInt8)} (hstep : (Call.reload file).Step p p') :
    (Call.reload file).Kept p p' ↔ (Call.reload file).Harmless p := by
  obtain ⟨ok, hrun⟩ := hstep
  obtain ⟨r, hcall, rfl⟩ := exists_of_status hrun
  rcases rkParamReload_cases hcall with ⟨hload, rfl, hlive⟩ | ⟨hload, rfl, hnull⟩
  · exact iff_of_true (Call.kept_of_ok hrun hlive.ne_freed) fun _ => hload
  · rw [Call.kept_iff_of_null hrun hnull, Call.Harmless]
    refine forall_congr' fun _ => ?_
    rw [show iniparserLoad file = none from hload]
    simp

theorem Call.save_kept_iff {opened : Bool} (hp : p.iniD ≠ .freed)
    (hstep : (Call.save opened).Step p p') :
    (Call.save opened).Kept p p' ↔ (Call.save opened).Harmless p := by
  obtain ⟨ok, hrun⟩ := hstep
  obtain ⟨r, hcall, rfl⟩ := exists_of_status hrun
  obtain ⟨-, ⟨hopened, rfl, hd⟩ | ⟨hopened, rfl, hnull⟩⟩ := rkParamSave_cases hcall
  · exact iff_of_true (Call.kept_of_ok hrun (hd ▸ hp)) fun _ => hopened
  · rw [Call.kept_iff_of_null hrun hnull, Call.Harmless, hopened]
    simp

theorem Call.deinit_kept_iff {opened : Bool} (hstep : (Call.deinit opened).Step p p') :
    (Call.deinit opened).Kept p p' ↔ (Call.deinit opened).Harmless p := by
  obtain ⟨ok, hrun⟩ := hstep
  obtain ⟨r, hcall, rfl⟩ := exists_of_status hrun
  obtain ⟨rfl, ⟨hd, hnull⟩ | ⟨hlive, hopened, hfreed⟩ | ⟨hlive, hopened, hnull⟩⟩ :=
    rkParamDeinit_cases hcall
  · refine iff_of_true (Call.kept_of_ok hrun (hnull ▸ nofun)) fun hlive => ?_
    obtain ⟨d, hd'⟩ := hlive
    rw [hd] at hd'
    cases hd'
  · -- the dictionary has been saved, and is freed without being forgotten
    refine iff_of_false (fun hkept => hkept.1 hfreed) fun hharm => ?_
    rw [hharm hlive] at hopened
    cases hopened
  · exact iff_of_true (Call.kept_of_ok hrun (hnull ▸ nofun)) fun _ => hopened

/-- **One call** loses nothing if and only if it meets the condition. -/
theorem Call.kept_iff (hp : p.iniD ≠ .freed) (hstep : c.Step p p') :
    c.Kept p p' ↔ c.Harmless p := by
  obtain ⟨ok, hrun⟩ := hstep
  have hrun' := hrun
  cases c with
  | init file factory => exact Call.init_kept_iff ⟨ok, hrun⟩
  | reload file => exact Call.reload_kept_iff ⟨ok, hrun⟩
  | save opened => exact Call.save_kept_iff hp ⟨ok, hrun⟩
  | deinit opened => exact Call.deinit_kept_iff ⟨ok, hrun⟩
  | getInt | getDouble | getString =>
    obtain ⟨_, _, he⟩ := Option.map_eq_some_iff.mp hrun'
    obtain ⟨rfl, rfl⟩ := Prod.mk.inj he
    exact iff_of_true (Call.kept_of_ok hrun hp) trivial
  | setInt =>
    obtain ⟨q, hset, he⟩ := Option.map_eq_some_iff.mp hrun'
    obtain ⟨rfl, rfl⟩ := Prod.mk.inj he
    exact iff_of_true
      (Call.kept_of_ok hrun (Store.set_ne_freed (rkParamSetInt_eq_some_iff.mp hset).2)) trivial
  | setString =>
    obtain ⟨q, hset, he⟩ := Option.map_eq_some_iff.mp hrun'
    obtain ⟨rfl, rfl⟩ := Prod.mk.inj he
    exact iff_of_true (Call.kept_of_ok hrun (Store.set_ne_freed hset)) trivial
  | unset =>
    obtain ⟨q, hset, he⟩ := Option.map_eq_some_iff.mp hrun'
    obtain ⟨rfl, rfl⟩ := Prod.mk.inj he
    exact iff_of_true (Call.kept_of_ok hrun (Store.unset_ne_freed hset)) trivial

end OneCall

/-! ## Sequences of calls -/

/-- **The life of the dictionary**: from the start of the program, a sequence of calls leaves a null
pointer or a dictionary that is not freed after each of them, and the entries as they were after
each that fails, if and only if every call of the sequence meets the condition. -/
theorem along_kept_iff (file : Option (List UInt8)) (calls : List Call) :
    Along Call.Step ⟨file, .null⟩ calls Call.Kept ↔
      Along Call.Step ⟨file, .null⟩ calls (fun p c _ => c.Harmless p) :=
  along_iff (I := fun p => p.iniD ≠ .freed) (fun _ _ _ hp hstep => Call.kept_iff hp hstep)
    (fun _ _ _ _ _ hkept => hkept.1) nofun

/-- An ini file with one entry. -/
def oneEntry : List UInt8 := lit "[s]\nk=1\n"

/-- It is loaded. -/
theorem init_oneEntry : ∃ p : Store, p.Live ∧
    Call.Step ⟨none, .null⟩ (.init (some oneEntry) none) p := by
  have hload : ((iniparserLoad (some oneEntry)).bind rkParamDump).isSome := by decide +kernel
  obtain ⟨u, hu⟩ := Option.isSome_iff_exists.mp hload
  obtain ⟨d, hd, hdump⟩ := Option.bind_eq_some_iff.mp hu
  refine ⟨⟨some oneEntry, .live d⟩, ⟨d, rfl⟩, true, ?_⟩
  simp only [Call.run, rkParamInit, hd, Store.use, hdump]
  rfl

/-- A sequence that **loses the entries**, and one that **keeps the pointer to what it freed**. -/
theorem entries_lost :
    ¬ Along Call.Step ⟨none, .null⟩ [.init (some oneEntry) none, .save false] Call.Kept ∧
    ¬ Along Call.Step ⟨none, .null⟩ [.init (some oneEntry) none, .deinit true] Call.Kept := by
  obtain ⟨p, ⟨d, hd⟩, hinit⟩ := init_oneEntry
  have hr : Run Call.Step ⟨none, .null⟩ [.init (some oneEntry) none] p := Run.single hinit
  constructor
  · intro h
    have hsave : Call.run p (.save false) = some (false, { p with iniD := .null }) := by
      simp only [Call.run, rkParamSave, hd]
      rfl
    have hkept := h _ _ [] p _ rfl hr ⟨false, hsave⟩
    exact absurd (hkept.2 hsave d hd) nofun
  · intro h
    have hdeinit : ∃ q : Store, q.iniD = .freed ∧ Call.run p (.deinit true) = some (true, q) := by
      refine ⟨⟨some (iniparserDumpIni d), .freed⟩, rfl, ?_⟩
      simp only [Call.run, rkParamDeinit, rkParamSave, hd]
      rfl
    obtain ⟨q, hfreed, hrun⟩ := hdeinit
    exact (h _ _ [] p q rfl hr ⟨true, hrun⟩).1 hfreed

end RkIpc.Param
