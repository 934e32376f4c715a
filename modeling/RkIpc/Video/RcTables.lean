import RkIpc.Memory.Block
import RkIpc.Network.ScanList
import RkIpc.Param.Store
import RkIpc.Text.Token

/-!
# The tables of the rate control

`rkipc_set_advanced_venc_params` reads four tables of 16 numbers from the parameters, each a text
with commas, and hands them to the encoder. A loop goes through the items of a text and stores their
numbers one after the other; it does not look at the end of the table.

## Main definitions

* `RcTable`, `RcParam2`: the tables
* `fillTable`: the loop
* `setTable`, `setRcParam2`: one table, and all of them
* `Takes`, `Filled`: a table has the numbers of the items
* `FitsTables`: no text has too many items

## Main results

* `fillTable_eq`: the loop as one write
* `filled_iff`: when the tables are filled inside their bounds
-/

namespace RkIpc.Video

open Text Param Memory

/-- The tables. -/
inductive RcTable
  | thrdI
  | thrdP
  | aqStepI
  | aqStepP
deriving DecidableEq, Repr

/-- The end of the name of a parameter. -/
def RcTable.suffix : RcTable → Str
  | .thrdI => lit ":thrd_i"
  | .thrdP => lit ":thrd_p"
  | .aqStepI => lit ":aq_step_i"
  | .aqStepP => lit ":aq_step_p"

/-- `snprintf(entry, 127, "video.%d:thrd_i", venc_chn_id)`. -/
def RcTable.entry (k : RcTable) (vencChnId : Int32) : Str :=
  lit "video." ++ decimal vencChnId.toInt ++ k.suffix

/-- The default. -/
def RcTable.default : RcTable → Str
  | .thrdI | .thrdP => lit "0,0,0,0,3,3,5,5,8,8,8,15,15,20,25,25"
  | .aqStepI | .aqStepP => lit "-8,-7,-6,-5,-4,-3,-2,-1,0,1,2,3,4,7,8,9"

/-- `strings`. -/
def RcTable.strings (k : RcTable) (p : Store) (vencChnId : Int32) : Option (Option Str) :=
  rkParamGetString p (k.entry vencChnId) (some k.default)

/-- **`VENC_RC_PARAM2_S`.** -/
structure RcParam2 where
  u32ThrdI : List UInt32
  u32ThrdP : List UInt32
  s32AqStepI : List Int32
  s32AqStepP : List Int32
deriving DecidableEq, Repr

/-- The length of the tables. -/
def rcTableSize : ℕ := 16

/-- Every table has its length. -/
structure RcParam2.Sized (v : RcParam2) : Prop where
  thrdI : v.u32ThrdI.length = rcTableSize
  thrdP : v.u32ThrdP.length = rcTableSize
  aqStepI : v.s32AqStepI.length = rcTableSize
  aqStepP : v.s32AqStepP.length = rcTableSize

/-- A comma. -/
def comma : UInt8 := 44

/-- **`while (token != NULL)`**: the table gets `atoi(token)` at `i`, and the next token is taken.
Nothing is said about what is behind the table. -/
def fillTable {α : Type} (conv : ℤ → α) (token tmp : Option Str) (i : ℕ) (table : List α) :
    Option (List α) :=
  match token with
  | none => some table
  | some token =>
    (write table i [conv (Network.atoi token)]).bind fun table =>
      fillTable conv (strsep comma tmp).1 (strsep comma tmp).2 (i + 1) table
termination_by (tokens comma tmp).length + token.toList.length
decreasing_by
  rw [strsep_fst, tokens_strsep]
  cases tokens comma tmp <;> simp

/-- One table, if there is a text; `dup` is whether `strdup` finds the memory for it. -/
def setTable {α : Type} (dup : Bool) (conv : ℤ → α) (strings : Option Str) (table : List α) :
    Option (List α) :=
  match strings with
  | none => some table
  | some s =>
    if dup then
      let str := some (cstr s)
      fillTable conv (strsep comma str).1 (strsep comma str).2 0 table
    else some table

/-- **The tables that are read** in `rkipc_set_advanced_venc_params`; the encoder has filled in `v`
before. -/
def setRcParam2 (dup : RcTable → Bool) (p : Store) (vencChnId : Int32) (v : RcParam2) :
    Option RcParam2 := do
  let strings ← RcTable.thrdI.strings p vencChnId
  let thrdI ← setTable (dup .thrdI) UInt32.ofInt strings v.u32ThrdI
  let strings ← RcTable.thrdP.strings p vencChnId
  let thrdP ← setTable (dup .thrdP) UInt32.ofInt strings v.u32ThrdP
  let strings ← RcTable.aqStepI.strings p vencChnId
  let aqStepI ← setTable (dup .aqStepI) Int32.ofInt strings v.s32AqStepI
  let strings ← RcTable.aqStepP.strings p vencChnId
  let aqStepP ← setTable (dup .aqStepP) Int32.ofInt strings v.s32AqStepP
  pure ⟨thrdI, thrdP, aqStepI, aqStepP⟩

/-! ## The loop -/

/-- The items of a text: what stands between the commas. -/
def items (dup : Bool) : Option Str → List Str
  | none => []
  | some s => if dup then (cstr s).splitOn comma else []

section

variable {α : Type} {conv : ℤ → α} {table table' : List α} {dup : Bool} {strings : Option Str}

theorem fillTable_none (tmp : Option Str) (i : ℕ) :
    fillTable conv none tmp i table = some table := by
  rw [fillTable]

theorem fillTable_some (token : Str) (tmp : Option Str) (i : ℕ) :
    fillTable conv (some token) tmp i table =
      (write table i [conv (Network.atoi token)]).bind fun table =>
        fillTable conv (strsep comma tmp).1 (strsep comma tmp).2 (i + 1) table := by
  rw [fillTable]

/-- A write of nothing. -/
theorem write_nil {i : ℕ} (hi : i ≤ table.length) : write table i [] = some table := by
  rw [write, if_pos (by simpa using hi), List.append_nil, List.length_nil, Nat.add_zero,
    List.take_append_drop]

/-- **The loop is one write** of the numbers of the tokens that are left. -/
theorem fillTable_eq {ts : List Str} {token tmp : Option Str} {i : ℕ} (htoken : token = ts.head?)
    (htmp : tokens comma tmp = ts.tail) (hi : i ≤ table.length) :
    fillTable conv token tmp i table =
      write table i (ts.map fun t => conv (Network.atoi t)) := by
  induction ts generalizing token tmp i table with
  | nil =>
    rw [htoken, List.head?_nil, fillTable_none, List.map_nil, write_nil hi]
  | cons t ts ih =>
    rw [htoken, List.head?_cons, fillTable_some, List.map_cons]
    refine Eq.trans ?_ (write_write [conv (Network.atoi t)] _)
    refine Option.bind_congr fun table₁ hwrite => ?_
    apply ih
    · rw [strsep_fst, htmp, List.tail_cons]
    · rw [tokens_strsep, htmp, List.tail_cons]
    · have hroom := write_isSome_iff.mp (Option.isSome_iff_exists.mpr ⟨table₁, hwrite⟩)
      rwa [length_write hwrite]

theorem setTable_eq : setTable dup conv strings table =
    write table 0 ((items dup strings).map fun t => conv (Network.atoi t)) := by
  have hnone : some table = write table 0 [] := (write_nil (Nat.zero_le _)).symm
  cases strings with
  | none => exact hnone
  | some s =>
    cases dup with
    | false => exact hnone
    | true =>
      apply fillTable_eq
      · exact strsep_fst _
      · exact tokens_strsep _
      · exact Nat.zero_le _

/-- **The table has the numbers of the items**: element `j` is the number of the item `j`, if there
is one, and is left as it was otherwise. -/
structure Takes (conv : ℤ → α) (items : List Str) (table table' : List α) : Prop where
  size : table'.length = table.length
  element : ∀ j : ℕ, table'[j]? =
    ((items[j]?).map fun t => conv (Network.atoi t)).or table[j]?

theorem takes_of_setTable (h : setTable dup conv strings table = some table') :
    Takes conv (items dup strings) table table' := by
  rw [setTable_eq] at h
  refine ⟨length_write h, fun j => ?_⟩
  rw [getElem?_write_zero h, List.getElem?_map]

theorem exists_setTable_iff :
    (∃ table', setTable dup conv strings table = some table') ↔
      (items dup strings).length ≤ table.length := by
  rw [setTable_eq, ← Option.isSome_iff_exists, write_isSome_iff, Nat.zero_add, List.length_map]

/-- Sixteen items have fifteen commas. -/
theorem length_items_le_iff (s : Str) :
    (items true (some s)).length ≤ rcTableSize ↔ (cstr s).count comma ≤ 15 := by
  rw [items, if_pos rfl, length_splitOn, rcTableSize]
  omega

end

/-! ## The tables -/

section

variable {α : Type} {conv : ℤ → α} {table table' : List α} {dup : RcTable → Bool} {p : Store}
  {vencChnId : Int32} {v v' : RcParam2} {k : RcTable}

/-- The items of a table, if its parameter can be read. -/
def RcTable.items (k : RcTable) (dup : RcTable → Bool) (p : Store) (vencChnId : Int32) :
    Option (List Str) :=
  (k.strings p vencChnId).map (Video.items (dup k))

/-- A table is read. -/
def Reads (dup : RcTable → Bool) (p : Store) (vencChnId : Int32) (k : RcTable) (conv : ℤ → α)
    (table table' : List α) : Prop :=
  ∃ strings, k.strings p vencChnId = some strings ∧
    setTable (dup k) conv strings table = some table'

/-- **A table is filled**: it has the numbers of its items. -/
def FillsTable (dup : RcTable → Bool) (p : Store) (vencChnId : Int32) (k : RcTable)
    (conv : ℤ → α) (table table' : List α) : Prop :=
  ∃ ts, k.items dup p vencChnId = some ts ∧ Takes conv ts table table'

theorem Reads.fills (h : Reads dup p vencChnId k conv table table') :
    FillsTable dup p vencChnId k conv table table' := by
  obtain ⟨strings, hstrings, hset⟩ := h
  exact ⟨_, congrArg (Option.map _) hstrings, takes_of_setTable hset⟩

theorem exists_reads_iff : (∃ table', Reads dup p vencChnId k conv table table') ↔
    ∃ ts, k.items dup p vencChnId = some ts ∧ ts.length ≤ table.length := by
  constructor
  · rintro ⟨table', strings, hstrings, hset⟩
    exact ⟨_, congrArg (Option.map _) hstrings, exists_setTable_iff.mp ⟨table', hset⟩⟩
  · rintro ⟨ts, hts, hlen⟩
    obtain ⟨strings, hstrings, rfl⟩ := Option.map_eq_some_iff.mp hts
    have hexists : ∃ table', setTable (dup k) conv strings table = some table' :=
      exists_setTable_iff.mpr hlen
    obtain ⟨table', hset⟩ := hexists
    exact ⟨table', strings, hstrings, hset⟩

/-- **The tables are filled**, all four of them. -/
structure Filled (dup : RcTable → Bool) (p : Store) (vencChnId : Int32) (v v' : RcParam2) :
    Prop where
  sized : v'.Sized
  thrdI : FillsTable dup p vencChnId .thrdI UInt32.ofInt v.u32ThrdI v'.u32ThrdI
  thrdP : FillsTable dup p vencChnId .thrdP UInt32.ofInt v.u32ThrdP v'.u32ThrdP
  aqStepI : FillsTable dup p vencChnId .aqStepI Int32.ofInt v.s32AqStepI v'.s32AqStepI
  aqStepP : FillsTable dup p vencChnId .aqStepP Int32.ofInt v.s32AqStepP v'.s32AqStepP

/-- **No text has more items** than its table has elements. -/
def FitsTables (dup : RcTable → Bool) (p : Store) (vencChnId : Int32) : Prop :=
  ∀ k : RcTable, ∃ ts, k.items dup p vencChnId = some ts ∧ ts.length ≤ rcTableSize

theorem setRcParam2_eq_some_iff : setRcParam2 dup p vencChnId v = some v' ↔
    Reads dup p vencChnId .thrdI UInt32.ofInt v.u32ThrdI v'.u32ThrdI ∧
      Reads dup p vencChnId .thrdP UInt32.ofInt v.u32ThrdP v'.u32ThrdP ∧
      Reads dup p vencChnId .aqStepI Int32.ofInt v.s32AqStepI v'.s32AqStepI ∧
      Reads dup p vencChnId .aqStepP Int32.ofInt v.s32AqStepP v'.s32AqStepP := by
  simp only [setRcParam2, Reads, Option.bind_eq_bind, Option.bind_eq_some_iff, Option.pure_def,
    Option.some.injEq]
  constructor
  · rintro ⟨s₁, hs₁, t₁, ht₁, s₂, hs₂, t₂, ht₂, s₃, hs₃, t₃, ht₃, s₄, hs₄, t₄, ht₄, rfl⟩
    exact ⟨⟨s₁, hs₁, ht₁⟩, ⟨s₂, hs₂, ht₂⟩, ⟨s₃, hs₃, ht₃⟩, ⟨s₄, hs₄, ht₄⟩⟩
  · rintro ⟨⟨s₁, hs₁, ht₁⟩, ⟨s₂, hs₂, ht₂⟩, ⟨s₃, hs₃, ht₃⟩, ⟨s₄, hs₄, ht₄⟩⟩
    exact ⟨s₁, hs₁, _, ht₁, s₂, hs₂, _, ht₂, s₃, hs₃, _, ht₃, s₄, hs₄, _, ht₄, rfl⟩

/-- What is read is filled. -/
theorem filled_of_setRcParam2 (hv : v.Sized) (h : setRcParam2 dup p vencChnId v = some v') :
    Filled dup p vencChnId v v' := by
  obtain ⟨hthrdI, hthrdP, haqStepI, haqStepP⟩ := setRcParam2_eq_some_iff.mp h
  obtain ⟨_, _, htI⟩ := hthrdI.fills
  obtain ⟨_, _, htP⟩ := hthrdP.fills
  obtain ⟨_, _, haI⟩ := haqStepI.fills
  obtain ⟨_, _, haP⟩ := haqStepP.fills
  exact {
    sized := ⟨htI.size.trans hv.thrdI, htP.size.trans hv.thrdP, haI.size.trans hv.aqStepI,
      haP.size.trans hv.aqStepP⟩
    thrdI := hthrdI.fills
    thrdP := hthrdP.fills
    aqStepI := haqStepI.fills
    aqStepP := haqStepP.fills }

/-- The tables can be read if and only if no text has too many items. -/
theorem exists_setRcParam2_iff (hv : v.Sized) :
    (∃ v', setRcParam2 dup p vencChnId v = some v') ↔ FitsTables dup p vencChnId := by
  constructor
  · rintro ⟨v', h⟩ k
    obtain ⟨hthrdI, hthrdP, haqStepI, haqStepP⟩ := setRcParam2_eq_some_iff.mp h
    cases k with
    | thrdI => exact hv.thrdI ▸ exists_reads_iff.mp ⟨_, hthrdI⟩
    | thrdP => exact hv.thrdP ▸ exists_reads_iff.mp ⟨_, hthrdP⟩
    | aqStepI => exact hv.aqStepI ▸ exists_reads_iff.mp ⟨_, haqStepI⟩
    | aqStepP => exact hv.aqStepP ▸ exists_reads_iff.mp ⟨_, haqStepP⟩
  · intro h
    obtain ⟨tI, htI⟩ := exists_reads_iff.mpr (hv.thrdI.symm ▸ h .thrdI)
    obtain ⟨tP, htP⟩ := exists_reads_iff.mpr (hv.thrdP.symm ▸ h .thrdP)
    obtain ⟨aI, haI⟩ := exists_reads_iff.mpr (hv.aqStepI.symm ▸ h .aqStepI)
    obtain ⟨aP, haP⟩ := exists_reads_iff.mpr (hv.aqStepP.symm ▸ h .aqStepP)
    exact ⟨⟨tI, tP, aI, aP⟩, setRcParam2_eq_some_iff.mpr ⟨htI, htP, haI, haP⟩⟩

/-- Tables of zeros. -/
def zeroTables : RcParam2 where
  u32ThrdI := List.replicate rcTableSize 0
  u32ThrdP := List.replicate rcTableSize 0
  s32AqStepI := List.replicate rcTableSize 0
  s32AqStepP := List.replicate rcTableSize 0

theorem zeroTables_sized : zeroTables.Sized := by
  constructor <;> exact List.length_replicate

/-- **The tables are filled inside their bounds**, whatever the encoder has in them, if and only if
no text has more items than its table has elements. -/
theorem filled_iff (dup : RcTable → Bool) (p : Store) (vencChnId : Int32) :
    (∀ v : RcParam2, v.Sized →
        ∃ v', setRcParam2 dup p vencChnId v = some v' ∧ Filled dup p vencChnId v v') ↔
      FitsTables dup p vencChnId := by
  constructor
  · intro h
    obtain ⟨v', hset, -⟩ := h zeroTables zeroTables_sized
    exact (exists_setRcParam2_iff zeroTables_sized).mp ⟨v', hset⟩
  · intro h v hv
    obtain ⟨v', hset⟩ := (exists_setRcParam2_iff hv).mpr h
    exact ⟨v', hset, filled_of_setRcParam2 hv hset⟩

end

/-- **The defaults fit**: where no text is stored, every element of every table is set. -/
theorem items_default {p : Store} {vencChnId : Int32} {k : RcTable}
    (h : k.strings p vencChnId = some (some k.default)) :
    ∃ ts, k.items (fun _ => true) p vencChnId = some ts ∧ ts.length = rcTableSize := by
  refine ⟨items true (some k.default), congrArg (Option.map _) h, ?_⟩
  cases k <;> decide +kernel

/-- Seventeen items are stored for a table. -/
def seventeenItems : Store :=
  ⟨none, .live (iniparserSet dictionaryNew (RcTable.thrdI.entry 0)
    (some (lit "0,0,0,0,3,3,5,5,8,8,8,15,15,20,25,25,25")))⟩

/-- **A text with seventeen items** is stored beyond the table. -/
theorem not_filled_seventeen :
    ¬ ∀ (dup : RcTable → Bool) (p : Store) (vencChnId : Int32) (v : RcParam2), v.Sized →
      ∃ v', setRcParam2 dup p vencChnId v = some v' ∧ Filled dup p vencChnId v v' := by
  intro h
  obtain ⟨v', hset, -⟩ := h (fun _ => true) seventeenItems 0 zeroTables zeroTables_sized
  obtain ⟨ts, hts, hlen⟩ := (exists_setRcParam2_iff zeroTables_sized).mp ⟨v', hset⟩ .thrdI
  have hitems : (RcTable.thrdI.items (fun _ => true) seventeenItems 0).map List.length =
      some 17 := by decide +kernel
  rw [hts, Option.map_some, Option.some.injEq] at hitems
  exact absurd (hitems ▸ hlen) (by decide)

end RkIpc.Video
