import RkIpc.Network.ScanList

/-!
# Names in the list of networks

The loop of `RK_wifi_scan_r_sec` goes over the lines as `fgets` reads them. Of each line that has
one, the fifth column goes into the list and into the names that are kept for later; whether the
network is open comes from the column before.

## Main definitions

* `scanLines`, `ScanR.line`: the lines, and the body of the loop
* `Found`, `found`, `foundNames`: what a line says about the name of its network
* `Names.see`: the names that are kept, with one more

## Main results

* `scanLoop_eq`: the loop is a fold over the lines
* `ssidText_eq_some`, `names_of_scanLine`: what a name, and a line, leave behind
* `names_rkWifiScanRSec`: the names that are kept are those of the lines
-/

namespace RkIpc.Network

open Text Param

/-! ## The lines -/

/-- The lines as they are read; a line that is too long is read in pieces. -/
def scanLines : ℕ → List UInt8 → List Str
  | 0, _ => []
  | fuel + 1, file =>
    if file = [] then [] else cstr (fgets 254 file).1 :: scanLines fuel (fgets 254 file).2

/-- The body of the loop over the lines. -/
def ScanR.line (table : GbkTable) (cols : ℕ) (s : ScanR) (line : Str) : Option ScanR := do
  let (item, names) ← scanLine table cols s.names line
  { s with names }.append item

/-- **The loop is a fold over the lines.** -/
theorem scanLoop_eq (table : GbkTable) (cols fuel : ℕ) (file : List UInt8) (s : ScanR) :
    scanLoop table cols fuel file s = (scanLines fuel file).foldlM (ScanR.line table cols) s := by
  induction fuel generalizing file s with
  | zero => rfl
  | succ fuel ih =>
    rw [scanLoop, scanLines]
    split
    · rfl
    · rw [List.foldlM_cons, ScanR.line]
      cases scanLine table cols s.names (cstr (fgets 254 file).1) with
      | none => rfl
      | some r =>
        simp only [Option.bind_eq_bind, Option.bind_some]
        cases ScanR.append { s with names := r.2 } r.1 with
        | none => rfl
        | some s' => exact ih _ s'

/-! ## Names that are found -/

/-- **What a line says about the name** of its network: whether the network is open, and the fifth
column. -/
structure Found where
  isNonpsk : Bool
  token : Str
deriving DecidableEq

/-- The name that is looked at, if there is one. -/
def found (cols : ℕ) (line : Str) : Option Found :=
  if cols.testBit 4 then
    match strtok line with
    | _ :: _ :: _ :: flags :: ssid :: _ =>
      some ⟨decide (¬ lit "WPA" <:+: chomp flags ∧ ¬ lit "WEP" <:+: chomp flags), chomp ssid⟩
    | _ => none
  else none

/-- **The names in `/tmp/scan_r.tmp`**, without the heading. -/
def foundNames (cols : ℕ) (file : List UInt8) : List Found :=
  (scanLines (fgets 255 file).2.length (fgets 255 file).2).filterMap (found cols)

namespace Found

/-- `dst`: the column without the escapes in hexadecimal. -/
def decoded (f : Found) : Str := cstr ((specCharConvers f.token).getD [])

/-- `dst_noescape`. -/
def original (f : Found) : Str := removeEscapeCharacter f.decoded

/-- The name is converted. -/
def isGbk (f : Found) : Bool := !rkEncodeIsUtf8 f.decoded

/-- `utf8`. -/
def converted (table : GbkTable) (f : Found) : Str :=
  if f.isGbk then gbkToUtf8 table f.decoded else f.decoded

/-- `utf8_noescape`. -/
def shown (table : GbkTable) (f : Found) : Str := removeEscapeCharacter (f.converted table)

end Found

/-- **The names that are kept**, with one more. -/
def Names.see (table : GbkTable) (names : Names) (f : Found) : Names where
  gbk := if f.isGbk then encodeGbkInsert names.gbk f.original (f.shown table) else names.gbk
  nonpsk :=
    if f.isNonpsk then encodeGbkInsert names.nonpsk f.original (f.shown table) else names.nonpsk

/-! ## What a name leaves behind -/

namespace Found

variable {f : Found}

theorem isGbk_of_test {b : Bool} (h : rkEncodeIsUtf8 f.decoded = b) : f.isGbk = !b :=
  congrArg not h

theorem converted_of_gbk (table : GbkTable) (h : f.isGbk = true) :
    f.converted table = gbkToUtf8 table f.decoded := if_pos h

theorem converted_of_not_gbk (table : GbkTable) (h : f.isGbk = false) :
    f.converted table = f.decoded := by
  rw [converted, h]
  rfl

theorem shown_of_not_gbk (table : GbkTable) (h : f.isGbk = false) :
    f.shown table = f.original := by
  rw [shown, converted_of_not_gbk table h, original]

end Found

theorem encodeGbkInsert_nil (head : List (Str × Str)) (utf8 : Str) :
    encodeGbkInsert head [] utf8 = head := if_pos (.inl rfl)

section See

variable {table : GbkTable} {f : Found} {names names' : Names} {t : Str}

theorem Names.see_of_gbk (h : f.isGbk = true) : names.see table f =
    ⟨encodeGbkInsert names.gbk f.original (f.shown table),
      if f.isNonpsk then encodeGbkInsert names.nonpsk f.original (f.shown table)
      else names.nonpsk⟩ := by
  rw [Names.see, h]
  rfl

theorem Names.see_of_not_gbk (h : f.isGbk = false) : names.see table f =
    ⟨names.gbk, if f.isNonpsk then encodeGbkInsert names.nonpsk f.original f.original
      else names.nonpsk⟩ := by
  rw [Names.see, h, Found.shown_of_not_gbk table h]
  rfl

/-- A hidden network leaves nothing behind. -/
theorem Names.see_of_nil (table : GbkTable) (names : Names) (h : f.token = []) :
    names.see table f = names ∧ f.converted table = [] := by
  have hdecoded : f.decoded = [] := by
    rw [Found.decoded, h]
    rfl
  have hgbk : f.isGbk = false := by
    rw [Found.isGbk, hdecoded]
    rfl
  have horiginal : f.original = [] := by
    rw [Found.original, hdecoded]
    rfl
  rw [Names.see_of_not_gbk hgbk, horiginal, encodeGbkInsert_nil, ite_self,
    Found.converted_of_not_gbk table hgbk]
  exact ⟨rfl, hdecoded⟩

/-- **A name that has a result**: the text that is sent, and the names that are kept. -/
theorem ssidText_eq_some (h : ssidText table f.isNonpsk names f.token = some (t, names')) :
    (∃ dst, specCharConvers f.token = some dst) ∧ t = f.converted table ∧
      names' = names.see table f := by
  unfold ssidText at h
  split at h
  · next hnil =>
    obtain ⟨hsee, hconverted⟩ := Names.see_of_nil table names hnil
    obtain ⟨rfl, rfl⟩ := Prod.mk.inj (Option.some.inj h)
    exact ⟨⟨[], by rw [hnil]; rfl⟩, hconverted.symm, hsee.symm⟩
  · obtain ⟨dst, hdst, h⟩ := Option.bind_eq_some_iff.mp h
    obtain ⟨dst', hspec, hdst⟩ := Option.bind_eq_some_iff.mp hdst
    obtain ⟨-, rfl⟩ := inArray_eq_some hdst
    obtain ⟨dstNoescape, hdstNoescape, h⟩ := Option.bind_eq_some_iff.mp h
    obtain ⟨-, rfl⟩ := inArray_eq_some hdstNoescape
    have hdecoded : cstr dst' = f.decoded := by
      rw [Found.decoded, hspec]
      rfl
    rw [hdecoded] at h
    refine ⟨⟨dst', hspec⟩, ?_⟩
    split at h
    · next htest =>
      have hgbk := Found.isGbk_of_test htest
      obtain ⟨rfl, rfl⟩ := Prod.mk.inj (Option.some.inj h)
      refine ⟨(Found.converted_of_not_gbk table hgbk).symm, ?_⟩
      rw [Names.see_of_not_gbk hgbk, Found.original]
      split <;> rfl
    · next htest =>
      have hgbk := Found.isGbk_of_test (Bool.eq_false_of_not_eq_true htest)
      have hconverted := Found.converted_of_gbk table hgbk
      obtain ⟨utf8, hutf8, h⟩ := Option.bind_eq_some_iff.mp h
      obtain ⟨-, rfl⟩ := inArray_eq_some hutf8
      obtain ⟨utf8Noescape, hutf8Noescape, h⟩ := Option.bind_eq_some_iff.mp h
      obtain ⟨-, rfl⟩ := inArray_eq_some hutf8Noescape
      split at h
      · obtain ⟨rfl, rfl⟩ := Prod.mk.inj (Option.some.inj h)
        refine ⟨hconverted.symm, ?_⟩
        rw [Names.see_of_gbk hgbk, Found.shown, hconverted, Found.original]
        split <;> rfl
      · cases h

end See

/-! ## What a line leaves behind -/

section Line

variable {table : GbkTable} {cols index : ℕ} {row row' : Row}

theorem Row.add_eq_some {text : Str} (h : row.add text = some row') :
    row'.item = row.item ++ text.take 127 ∧ row'.isNonpsk = row.isNonpsk ∧
      row'.names = row.names := by
  obtain ⟨item, hitem, rfl⟩ := Option.map_eq_some_iff.mp h
  obtain ⟨-, rfl⟩ := inArray_eq_some hitem
  exact ⟨rfl, rfl, rfl⟩

/-- **A column other than the fifth** leaves the names as they are. -/
theorem names_of_column {token : Str} (h4 : index ≠ 4 ∨ ¬ cols.testBit 4)
    (h : column table cols row index token = some row') :
    row'.names = row.names ∧ (index ≠ 3 → row'.isNonpsk = row.isNonpsk) := by
  unfold column at h
  split at h
  · obtain rfl := Option.some.inj h
    exact ⟨rfl, fun _ => rfl⟩
  · next hlooked =>
    split at h
    · exact ⟨(Row.add_eq_some h).2.2, fun _ => (Row.add_eq_some h).2.1⟩
    · exact ⟨(Row.add_eq_some h).2.2, fun _ => (Row.add_eq_some h).2.1⟩
    · exact ⟨(Row.add_eq_some h).2.2, fun _ => (Row.add_eq_some h).2.1⟩
    · exact ⟨(Row.add_eq_some h).2.2, fun h3 => absurd rfl h3⟩
    · exact absurd ⟨h4.resolve_left fun h => h rfl, by decide⟩ hlooked
    · exact ⟨(Row.add_eq_some h).2.2, fun _ => (Row.add_eq_some h).2.1⟩

/-- The fourth column tells whether the network is open. -/
theorem isNonpsk_of_column {token : Str} (h : column table cols row 3 token = some row') :
    row'.isNonpsk = (row.isNonpsk ||
      decide (¬ lit "WPA" <:+: token ∧ ¬ lit "WEP" <:+: token)) := by
  unfold column at h
  rw [if_neg fun hskip => hskip.2 rfl] at h
  exact (Row.add_eq_some h).2.1

/-- The fifth column. -/
theorem column_four (h : cols.testBit 4) (token : Str) :
    column table cols row 4 token = (ssidText table row.isNonpsk row.names token).bind fun r =>
      Row.add ⟨row.item, row.isNonpsk, r.2⟩ (memberText "ssid" (quote r.1)) :=
  if_neg fun hskip => hskip.1 h

theorem columns_cons (token : Str) (tokens : List Str) :
    columns table cols index (token :: tokens) row =
      (column table cols row index (chomp token)).bind (columns table cols (index + 1) tokens) :=
  rfl

/-- Columns before the fifth or behind it, or a fifth one that is not looked at. -/
theorem names_of_columns {tokens : List Str}
    (hindex : index + tokens.length ≤ 4 ∨ 5 ≤ index ∨ ¬ cols.testBit 4)
    (h : columns table cols index tokens row = some row') : row'.names = row.names := by
  induction tokens generalizing index row with
  | nil =>
    obtain rfl := Option.some.inj h
    rfl
  | cons token tokens ih =>
    rw [List.length_cons] at hindex
    obtain ⟨row₁, hrow₁, h⟩ := Option.bind_eq_some_iff.mp h
    have hrest : index + 1 + tokens.length ≤ 4 ∨ 5 ≤ index + 1 ∨ ¬ cols.testBit 4 :=
      hindex.imp (fun h => by omega) (Or.imp_left fun h => by omega)
    have hfirst : index ≠ 4 ∨ ¬ cols.testBit 4 :=
      hindex.elim (fun h => .inl (by omega)) (Or.imp_left fun h => by omega)
    rw [ih hrest h]
    exact (names_of_column hfirst hrow₁).1

/-- A name is found, or the line has no fifth column that is looked at. -/
theorem found_cases (cols : ℕ) (line : Str) :
    (found cols line = none ∧ ((strtok line).length ≤ 4 ∨ ¬ cols.testBit 4)) ∨
      ∃ a b c flags ssid rest, strtok line = a :: b :: c :: flags :: ssid :: rest ∧
        cols.testBit 4 ∧ found cols line = some
          ⟨decide (¬ lit "WPA" <:+: chomp flags ∧ ¬ lit "WEP" <:+: chomp flags), chomp ssid⟩ := by
  unfold found
  split
  · next hbit =>
    split
    · next a b c flags ssid rest hline => exact .inr ⟨a, b, c, flags, ssid, rest, hline, hbit, rfl⟩
    · next hline =>
      refine .inl ⟨rfl, .inl (Nat.le_of_lt_succ (not_le.mp fun hlen => ?_))⟩
      rcases hs : strtok line with _ | ⟨a, _ | ⟨b, _ | ⟨c, _ | ⟨d, _ | ⟨e, rest⟩⟩⟩⟩⟩
      all_goals rw [hs] at hlen
      · simp at hlen
      · simp at hlen
      · simp at hlen
      · simp at hlen
      · simp at hlen
      · exact hline _ _ _ _ _ _ hs
  · next hbit => exact .inl ⟨rfl, .inr hbit⟩

/-- **A line**: the name that is found is kept, and it has a result. -/
theorem names_of_scanLine {names names' : Names} {line item : Str}
    (h : scanLine table cols names line = some (item, names')) :
    names' = (found cols line).elim names (names.see table) ∧
      ∀ f, found cols line = some f → ∃ dst, specCharConvers f.token = some dst := by
  obtain ⟨row, hrow, h⟩ := Option.bind_eq_some_iff.mp h
  obtain ⟨text, -, h⟩ := Option.bind_eq_some_iff.mp h
  obtain ⟨-, rfl⟩ := Prod.mk.inj (Option.some.inj h)
  rcases found_cases cols line with ⟨hnone, hfew⟩ | ⟨a, b, c, flags, ssid, rest, hs, hbit, hsome⟩
  · rw [hnone]
    refine ⟨names_of_columns ?_ hrow, nofun⟩
    rw [Nat.zero_add]
    exact hfew.imp_right .inr
  · -- column by column
    rw [hs] at hrow
    obtain ⟨row₁, hrow₁, hrow⟩ := Option.bind_eq_some_iff.mp hrow
    obtain ⟨row₂, hrow₂, hrow⟩ := Option.bind_eq_some_iff.mp hrow
    obtain ⟨row₃, hrow₃, hrow⟩ := Option.bind_eq_some_iff.mp hrow
    obtain ⟨row₄, hrow₄, hrow⟩ := Option.bind_eq_some_iff.mp hrow
    obtain ⟨row₅, hrow₅, hrow⟩ := Option.bind_eq_some_iff.mp hrow
    obtain ⟨hnames₁, hopen₁⟩ := names_of_column (.inl (by decide)) hrow₁
    obtain ⟨hnames₂, hopen₂⟩ := names_of_column (.inl (by decide)) hrow₂
    obtain ⟨hnames₃, hopen₃⟩ := names_of_column (.inl (by decide)) hrow₃
    obtain ⟨hnames₄, -⟩ := names_of_column (.inl (by decide)) hrow₄
    have hopen₄ := isNonpsk_of_column hrow₄
    rw [column_four hbit] at hrow₅
    obtain ⟨⟨t, names'⟩, hssid, hrow₅⟩ := Option.bind_eq_some_iff.mp hrow₅
    obtain ⟨-, -, hnames₅⟩ := Row.add_eq_some hrow₅
    rw [hopen₄, hopen₃ (by decide), hopen₂ (by decide), hopen₁ (by decide), Bool.false_or,
      hnames₄, hnames₃, hnames₂, hnames₁] at hssid
    obtain ⟨hspec, -, rfl⟩ := ssidText_eq_some (f := ⟨_, _⟩) hssid
    rw [hsome]
    refine ⟨(names_of_columns (.inr (.inl le_rfl)) hrow).trans hnames₅, fun f hf => ?_⟩
    obtain rfl := Option.some.inj hf
    exact hspec

end Line

/-! ## What the list leaves behind -/

section Run

variable {table : GbkTable} {cols : ℕ}

theorem names_of_line {s s' : ScanR} {line : Str} (h : s.line table cols line = some s') :
    s'.names = (found cols line).elim s.names (s.names.see table) ∧
      ∀ f, found cols line = some f → ∃ dst, specCharConvers f.token = some dst := by
  obtain ⟨⟨item, names⟩, hline, h⟩ := Option.bind_eq_some_iff.mp h
  obtain ⟨scanR, -, rfl⟩ := Option.map_eq_some_iff.mp h
  exact names_of_scanLine hline

/-- **The loop over the lines** keeps the names that are found, and all of them have results. -/
theorem names_of_foldlM {lines : List Str} {s s' : ScanR}
    (h : lines.foldlM (ScanR.line table cols) s = some s') :
    s'.names = (lines.filterMap (found cols)).foldl (Names.see table) s.names ∧
      ∀ f ∈ lines.filterMap (found cols), ∃ dst, specCharConvers f.token = some dst := by
  induction lines generalizing s with
  | nil =>
    obtain rfl := Option.some.inj h
    exact ⟨rfl, nofun⟩
  | cons line lines ih =>
    obtain ⟨s₁, hline, h⟩ := Option.bind_eq_some_iff.mp h
    obtain ⟨hnames₁, hspec₁⟩ := names_of_line hline
    obtain ⟨hnames, hspec⟩ := ih h
    cases hfound : found cols line with
    | none =>
      rw [hfound] at hnames₁
      rw [List.filterMap_cons_none hfound, hnames, hnames₁]
      exact ⟨rfl, hspec⟩
    | some f =>
      rw [hfound] at hnames₁
      rw [List.filterMap_cons_some hfound, hnames, hnames₁]
      exact ⟨rfl, List.forall_mem_cons.mpr ⟨hspec₁ f hfound, hspec⟩⟩

/-- **The names that are kept** are those of the lines, and all of them have results. -/
theorem names_rkWifiScanRSec {names₀ names : Names} {file : List UInt8} {scanR : Option Str}
    (hcols : cols &&& 0x1F ≠ 0)
    (h : rkWifiScanRSec table cols names₀ (some file) = some (scanR, names)) :
    names = (foundNames cols file).foldl (Names.see table) ⟨[], []⟩ ∧
      ∀ f ∈ foundNames cols file, ∃ dst, specCharConvers f.token = some dst := by
  unfold rkWifiScanRSec at h
  rw [if_neg hcols] at h
  obtain ⟨s, hs, h⟩ := Option.bind_eq_some_iff.mp h
  obtain ⟨text, -, h⟩ := Option.bind_eq_some_iff.mp h
  obtain ⟨-, rfl⟩ := Prod.mk.inj (Option.some.inj h)
  rw [scanLoop_eq] at hs
  exact names_of_foldlM hs

end Run

end RkIpc.Network
