import Mathlib.Algebra.Order.BigOperators.Group.List
import Mathlib.Data.Bool.AllAny
import RkIpc.Network.ScanLines
import RkIpc.Network.ScanReport
import RkIpc.Text.Token
import RkIpc.Transition.Run

/-!
# The list of networks comes to its end

The loop over the columns comes back to a column if a name that was converted is not UTF-8, which is
never the case. An escape in hexadecimal takes four bytes of the line, and two bytes become a
character of three at most, so that no name grows beyond the column it was read from. What the
wrappers of the columns add to a line fits the arrays.

A line that is too long is read in pieces, and the end of a piece may tear an escape. The bytes
behind the end of the line are taken for the rest of it then.

## Main definitions

* `ScanText`: printable text, in which every `\x` has its two digits
* `Torn`: an escape without its digits at the end of a column
* `cost`, `overhead`: what a byte of a name takes in the line, and what the wrappers add

## Main results

* `isUtf8_gbkToUtf8`: what is converted is UTF-8
* `length_gbkToUtf8_le`: a name does not grow beyond its column
* `scanLine_total`, `scanned_of_not_torn`: a line, and a file, from which no escape is torn
* `scan_ends_iff`: the loops come to their end exactly if no escape is torn
* `scan_fits`: lines that are short enough
* `long_line_torn`: a line that is not
-/

namespace RkIpc.Network

open Text Param Transition

/-! ## Text -/

/-- `isxdigit`. -/
def IsXDigit (c : UInt8) : Prop := (48 ≤ c ∧ c ≤ 57) ∨ (65 ≤ c ∧ c ≤ 70) ∨ (97 ≤ c ∧ c ≤ 102)

instance (c : UInt8) : Decidable (IsXDigit c) :=
  inferInstanceAs (Decidable ((_ ∧ _) ∨ (_ ∧ _) ∨ (_ ∧ _)))

/-- An escape at the beginning has its two digits. -/
def HexEscaped (s : Str) : Prop :=
  s.take 2 = [92, 120] → 4 ≤ s.length ∧ ∀ c ∈ (s.drop 2).take 2, IsXDigit c

instance (s : Str) : Decidable (HexEscaped s) := inferInstanceAs (Decidable (_ → _))

/-- **The text of `wpa_cli`**: lines of printable bytes and tabs, and two digits behind every
`\x`. -/
structure ScanText (file : List UInt8) : Prop where
  bytes : ∀ c ∈ file, c = 10 ∨ c = 9 ∨ IsPrint c
  escapes : ∀ s ∈ file.tails, HexEscaped s

/-- **An escape is torn**: the column ends in `\x`, or one byte behind it. -/
def Torn (token : Str) : Prop := [92, 120] <:+ token ∨ ∃ d, [92, 120, d] <:+ token

namespace ScanText

variable {file : List UInt8}

theorem suffix {p : List UInt8} (h : ScanText (p ++ file)) : ScanText file where
  bytes := fun c hc => h.bytes c (List.mem_append_right p hc)
  escapes := fun s hs => h.escapes s ((List.mem_tails _ _).mpr
    (((List.mem_tails _ _).mp hs).trans (List.suffix_append p file)))

theorem ascii (h : ScanText file) : ∀ c ∈ file, c < 128 := fun c hc => by
  rcases h.bytes c hc with rfl | rfl | hprint
  · decide
  · decide
  · exact UInt8.lt_of_le_of_lt hprint.2 (by decide)

theorem zero_notMem (h : ScanText file) : 0 ∉ file := fun h0 => by
  rcases h.bytes 0 h0 with h | h | h
  · cases h
  · cases h
  · exact absurd h (by decide)

/-- What stands behind an escape. -/
theorem digits {p s : List UInt8} (h : ScanText (p ++ 92 :: 120 :: s)) :
    ∃ a b t, s = a :: b :: t ∧ IsXDigit a ∧ IsXDigit b := by
  obtain ⟨hlen, hdigits⟩ := h.escapes (92 :: 120 :: s)
    ((List.mem_tails _ _).mpr (List.suffix_append p _)) rfl
  rcases s with _ | ⟨a, _ | ⟨b, t⟩⟩
  · simp at hlen
  · simp at hlen
  · exact ⟨a, b, t, rfl, hdigits a List.mem_cons_self,
      hdigits b (List.mem_cons_of_mem _ List.mem_cons_self)⟩

end ScanText

/-! ## What is converted -/

section Conversion

variable (table : GbkTable)

theorem isUtf8_unicodeToUtf8_ascii {c : UInt8} (hc : c < 128) :
    IsUtf8 (unicodeToUtf8 c.toNat) ∧ (unicodeToUtf8 c.toNat).length ≤ 1 := by
  by_cases h0 : c = 0
  · subst h0
    exact ⟨.nil, Nat.zero_le 1⟩
  · rw [unicodeToUtf8_ascii hc h0]
    exact ⟨isUtf8_of_lt hc, le_refl 1⟩

theorem isUtf8_unicodeToUtf8_pair (c d : UInt8) :
    IsUtf8 (unicodeToUtf8 (gbkToUnicode table c d).toNat) := by
  rcases unicodeToUtf8_gbkToUnicode table c d with h | ⟨ch, -, h⟩
  · rw [h]
    exact isUtf8_of_lt (by decide)
  · rw [h]
    exact isUtf8_utf8EncodeChar ch

/-- **What is converted is UTF-8**, whatever it was. -/
theorem isUtf8_gbkToUtf8 (s : Str) : IsUtf8 (gbkToUtf8 table s) := by
  fun_induction gbkToUtf8 table s with
  | case1 => exact .nil
  | case2 c hc => exact (isUtf8_unicodeToUtf8_ascii hc).1
  | case3 c hc => exact isUtf8_unicodeToUtf8_pair table c 0
  | case4 c d src hc ih => exact (isUtf8_unicodeToUtf8_ascii hc).1.append ih
  | case5 c d src hc ih => exact (isUtf8_unicodeToUtf8_pair table c d).append ih

/-- What a byte of a name takes in the line: bytes beyond ASCII are escaped. -/
def cost (c : UInt8) : ℕ := if c < 128 then 1 else 4

/-- A character of three bytes is converted from one that takes four. -/
theorem length_gbkToUtf8_le_cost (s : Str) : (gbkToUtf8 table s).length ≤ (s.map cost).sum := by
  have hpair : ∀ c d, (unicodeToUtf8 (gbkToUnicode table c d).toNat).length ≤ 3 := fun c d =>
    length_unicodeToUtf8_le (gbkToUnicode table c d).toNat_lt
  fun_induction gbkToUtf8 table s with
  | case1 => exact le_refl 0
  | case2 c hc =>
    rw [List.map_singleton, List.sum_singleton, cost, if_pos hc]
    exact (isUtf8_unicodeToUtf8_ascii hc).2
  | case3 c hc =>
    rw [List.map_singleton, List.sum_singleton, cost, if_neg hc]
    exact (hpair c 0).trans (by decide)
  | case4 c d src hc ih =>
    have hone := (isUtf8_unicodeToUtf8_ascii hc).2
    rw [List.length_append, List.map_cons, List.sum_cons, cost, if_pos hc]
    omega
  | case5 c d src hc ih =>
    have hthree := hpair c d
    rw [List.length_append, List.map_cons, List.sum_cons, cost, if_neg hc, List.map_cons,
      List.sum_cons]
    omega

/-- **The bytes of a name are in its column.** -/
theorem cost_specCharConvers_le {token : Str} (hascii : ∀ c ∈ token, c < 128) {dst : List UInt8}
    (h : specCharConvers token = some dst) : (dst.map cost).sum ≤ token.length := by
  have hcost : ∀ c, cost c ≤ 4 := fun c => by
    unfold cost
    split <;> decide
  fun_induction specCharConvers token generalizing dst with
  | case1 a b buf ih =>
    obtain ⟨t, ht, rfl⟩ := Option.map_eq_some_iff.mp h
    have htail := ih (fun c hc => hascii c (by simp [hc])) ht
    have hbyte := hcost (UInt8.ofNat (readDigits 16 0 [a, b]))
    simp only [List.map_cons, List.sum_cons, List.length_cons]
    omega
  | case2 => cases h
  | case3 c buf _ _ ih =>
    obtain ⟨t, ht, rfl⟩ := Option.map_eq_some_iff.mp h
    obtain ⟨hc, hascii⟩ := List.forall_mem_cons.mp hascii
    have htail := ih hascii ht
    rw [List.map_cons, List.sum_cons, cost, if_pos hc, List.length_cons]
    omega
  | case4 =>
    obtain rfl := Option.some.inj h
    exact le_refl 0

/-- **A name does not grow beyond its column.** -/
theorem length_gbkToUtf8_le {token : Str} (hascii : ∀ c ∈ token, c < 128) {dst : List UInt8}
    (h : specCharConvers token = some dst) :
    (gbkToUtf8 table (cstr dst)).length ≤ token.length := by
  have hcut : ((cstr dst).map cost).sum ≤ (dst.map cost).sum :=
    ((List.takeWhile_sublist _).map cost).sum_le_sum fun _ _ => Nat.zero_le _
  exact (length_gbkToUtf8_le_cost table _).trans (hcut.trans (cost_specCharConvers_le hascii h))

end Conversion

/-! ## Escapes that are torn -/

/-- A column that cannot be decoded ends within an escape. -/
theorem torn_of_none {token : Str} (h : specCharConvers token = none) : Torn token := by
  have hcons : ∀ c s, Torn s → Torn (c :: s) := fun c s hs =>
    hs.imp (fun h => h.trans (List.suffix_cons c s)) fun ⟨d, h⟩ =>
      ⟨d, h.trans (List.suffix_cons c s)⟩
  fun_induction specCharConvers token with
  | case1 a b buf ih =>
    exact hcons _ _ (hcons _ _ (hcons _ _ (hcons _ _ (ih (Option.map_eq_none_iff.mp h)))))
  | case2 rest hrest =>
    rcases rest with _ | ⟨a, _ | ⟨b, rest⟩⟩
    · exact .inl (List.suffix_refl _)
    · exact .inr ⟨a, List.suffix_refl _⟩
    · exact absurd rfl (hrest a b rest)
  | case3 c buf _ _ ih => exact hcons c buf (ih (Option.map_eq_none_iff.mp h))
  | case4 => cases h

/-- Two digits behind every escape that is not at the end. -/
def Digits (token : Str) : Prop :=
  ∀ p a b q, token = p ++ 92 :: 120 :: a :: b :: q → IsXDigit a ∧ IsXDigit b

theorem Digits.suffix {p token : Str} (h : Digits (p ++ token)) : Digits token :=
  fun p' a b q hq => h (p ++ p') a b q (by rw [hq, List.append_assoc])

/-- **A column that ends within an escape cannot be decoded.** -/
theorem none_of_torn {token : Str} (hdigits : Digits token) (h : Torn token) :
    specCharConvers token = none := by
  have h92 : ¬ IsXDigit 92 := by decide
  have h120 : ¬ IsXDigit 120 := by decide
  fun_induction specCharConvers token with
  | case1 a b buf ih =>
    obtain ⟨ha, hb⟩ := hdigits [] a b buf rfl
    have hne : a ≠ 92 ∧ a ≠ 120 ∧ b ≠ 92 ∧ b ≠ 120 :=
      ⟨fun h => h92 (h ▸ ha), fun h => h120 (h ▸ ha), fun h => h92 (h ▸ hb),
        fun h => h120 (h ▸ hb)⟩
    have hbuf : Torn buf := by
      rcases h with h | ⟨d, h⟩
      · refine .inl ?_
        simp only [List.suffix_cons_iff, List.cons.injEq] at h
        grind
      · refine .inr ⟨d, ?_⟩
        simp only [List.suffix_cons_iff, List.cons.injEq] at h
        grind
    rw [ih (hdigits.suffix (p := [92, 120, a, b])) hbuf]
    rfl
  | case2 => rfl
  | case3 c buf hfour htwo ih =>
    have hbuf : Torn buf := by
      rcases h with h | ⟨d, h⟩
      · rcases List.suffix_cons_iff.mp h with h | h
        · obtain ⟨rfl, rfl⟩ := List.cons.inj h
          exact absurd rfl (htwo [] rfl)
        · exact .inl h
      · rcases List.suffix_cons_iff.mp h with h | h
        · obtain ⟨rfl, rfl⟩ := List.cons.inj h
          exact absurd rfl (htwo [d] rfl)
        · exact .inr ⟨d, h⟩
    rw [ih (hdigits.suffix (p := [c])) hbuf]
    rfl
  | case4 =>
    rcases h with h | ⟨d, h⟩
    · exact absurd (List.suffix_nil.mp h) (by decide)
    · exact absurd (List.suffix_nil.mp h) (List.cons_ne_nil _ _)

/-! ## Where a column stands -/

section Column

variable {cols : ℕ} {file : List UInt8} {f : Found}

/-- What is read ends with the line, or with the file, or is as long as it may be. -/
theorem fgets_cases (limit : ℕ) (file : List UInt8) : ∃ t, 10 ∉ t ∧
    ((fgets limit file).1 = t ++ [10] ∨
      (fgets limit file).1 = t ∧ ((fgets limit file).2 = [] ∨ t.length = limit)) := by
  fun_induction fgets limit file with
  | case1 file => exact ⟨[], List.not_mem_nil, .inr ⟨rfl, .inr rfl⟩⟩
  | case2 => exact ⟨[], List.not_mem_nil, .inr ⟨rfl, .inl rfl⟩⟩
  | case3 => exact ⟨[], List.not_mem_nil, .inl rfl⟩
  | case4 limit c file hc ih =>
    obtain ⟨t, ht, hread⟩ := ih
    refine ⟨c :: t, fun hmem => (List.mem_cons.mp hmem).elim (Ne.symm hc) ht, ?_⟩
    rcases hread with hread | ⟨hread, hend⟩
    · exact .inl (congrArg (c :: ·) hread)
    · exact .inr ⟨congrArg (c :: ·) hread, hend.imp_right fun h => congrArg (· + 1) h⟩

/-- **A line that is read** stands in the file. -/
theorem mem_scanLines (h0 : 0 ∉ file) {fuel : ℕ} {line : Str} (h : line ∈ scanLines fuel file) :
    ∃ p rest, file = p ++ rest ∧ line = (fgets 254 rest).1 := by
  induction fuel generalizing file with
  | zero => cases h
  | succ fuel ih =>
    have hsplit := fgets_append 254 file
    rw [scanLines] at h
    split at h
    · cases h
    · rcases List.mem_cons.mp h with rfl | h
      · refine ⟨[], file, rfl, cstr_eq_self fun hmem => h0 ?_⟩
        rw [← hsplit]
        exact List.mem_append_left _ hmem
      · obtain ⟨p, rest, hrest, hline⟩ := ih (fun hmem => h0 (by
          rw [← hsplit]
          exact List.mem_append_right _ hmem)) h
        refine ⟨(fgets 254 file).1 ++ p, rest, ?_, hline⟩
        rw [List.append_assoc, ← hrest, hsplit]

theorem chomp_cases (s : Str) : s = chomp s ∧ s.getLast? ≠ some 10 ∨ s = chomp s ++ [10] := by
  unfold chomp
  split
  · next h => exact .inr (List.dropLast_append_getLast? 10 h).symm
  · next h => exact .inl ⟨rfl, h⟩

theorem token_of_found {line : Str} (h : found cols line = some f) :
    ∃ ssid ∈ strtok line, f.token = chomp ssid := by
  rcases found_cases cols line with ⟨hnone, -⟩ | ⟨a, b, c, flags, ssid, rest, hs, -, hsome⟩
  · rw [hnone] at h
    cases h
  · rw [hsome] at h
    obtain rfl := Option.some.inj h
    exact ⟨ssid, by simp [hs], rfl⟩

/-- What is read without a newline at its end has one behind it, if no line is too long. -/
theorem newline_behind {before rest : Str}
    (hlines : ∀ line ∈ (before ++ rest).splitOn 10, line.length < 255)
    (hlast : (fgets 254 rest).1.getLast? ≠ some 10) : ∀ c ∈ (fgets 254 rest).2.head?, c = 10 := by
  intro c hc
  obtain ⟨t, ht, hread | ⟨hread, hend | hlen⟩⟩ := fgets_cases 254 rest
  · rw [hread, List.getLast?_concat] at hlast
    exact absurd rfl hlast
  · rw [hend] at hc
    cases hc
  · -- the line would be too long
    by_contra hc10
    obtain ⟨next, hnext⟩ := List.head?_eq_some_iff.mp hc
    have hpart : before ++ rest = before ++ (t ++ [c]) ++ next := by
      have happend := fgets_append 254 rest
      rw [hread, hnext] at happend
      simpa using happend.symm
    have hlt := length_lt_of_splitOn hlines hpart fun hmem =>
      (List.mem_append.mp hmem).elim ht fun h => hc10 (List.mem_singleton.mp h).symm
    rw [List.length_append, hlen, List.length_singleton] at hlt
    omega

/-- **A column that is found** stands in the file. If no line is too long, the next byte is a tab or
a newline. -/
theorem token_stands (h0 : 0 ∉ file) (hf : f ∈ foundNames cols file) :
    ∃ p r, file = p ++ f.token ++ r ∧
      ((∀ line ∈ file.splitOn 10, line.length < 255) → ∀ c ∈ r.head?, c = 9 ∨ c = 10) := by
  obtain ⟨line, hline, hfound⟩ := List.mem_filterMap.mp hf
  obtain ⟨ssid, hssid, htoken⟩ := token_of_found hfound
  obtain ⟨hsplit, hne⟩ := List.mem_filter.mp hssid
  have hne : ssid ≠ [] := by simpa using hne
  obtain ⟨p, q, hpq, hq⟩ := eq_append_of_mem_splitOn hsplit
  -- the heading, the lines before, the line and the lines behind
  have hheading := fgets_append 255 file
  have h0' : 0 ∉ (fgets 255 file).2 := fun hmem => h0 (hheading ▸ List.mem_append_right _ hmem)
  obtain ⟨before, rest, hrest, rfl⟩ := mem_scanLines h0' hline
  have hfile : file = ((fgets 255 file).1 ++ before) ++ rest := by
    rw [List.append_assoc, ← hrest, hheading]
  have hread := fgets_append 254 rest
  rw [hpq] at hread
  rcases chomp_cases ssid with ⟨hchomp, hlast⟩ | hchomp
  · refine ⟨(fgets 255 file).1 ++ before ++ p, q ++ (fgets 254 rest).2, ?_, fun hlines => ?_⟩
    · rw [htoken, ← hchomp]
      conv_lhs => rw [hfile, ← hread]
      simp
    · intro c hc
      cases q with
      | cons d q => exact .inl (hq c hc)
      | nil =>
        -- the newline would be the last byte of the column
        have hend : (fgets 254 rest).1.getLast? ≠ some 10 := by
          rw [hpq, List.append_nil, List.getLast?_append_of_ne_nil _ hne]
          exact hlast
        rw [hfile] at hlines
        exact .inr (newline_behind hlines hend c hc)
  · refine ⟨(fgets 255 file).1 ++ before ++ p, 10 :: q ++ (fgets 254 rest).2, ?_, fun _ c hc => ?_⟩
    · rw [hchomp] at hread
      rw [htoken]
      conv_lhs => rw [hfile, ← hread]
      simp
    · exact .inr (Option.some.inj hc).symm

end Column

namespace ScanText

variable {p token r : List UInt8}

theorem digits_token (h : ScanText (p ++ token ++ r)) : Digits token := by
  rintro p' a b q rfl
  have hfile : p ++ (p' ++ 92 :: 120 :: a :: b :: q) ++ r =
      (p ++ p') ++ 92 :: 120 :: (a :: b :: (q ++ r)) := by simp
  rw [hfile] at h
  obtain ⟨a', b', t, hs, ha, hb⟩ := h.digits
  obtain ⟨haa, hs⟩ := List.cons.inj hs
  obtain ⟨hbb, -⟩ := List.cons.inj hs
  exact ⟨haa ▸ ha, hbb ▸ hb⟩

/-- An escape is not torn by a tab or by the end of the line. -/
theorem not_torn (h : ScanText (p ++ token ++ r)) (hr : ∀ c ∈ r.head?, c = 9 ∨ c = 10) :
    ¬ Torn token := by
  have hnext : ∀ a t, r = a :: t → ¬ IsXDigit a := fun a t hat => by
    rcases hr a (by rw [hat]; rfl) with rfl | rfl
    · decide
    · decide
  rintro (⟨s, rfl⟩ | ⟨d, s, rfl⟩)
  · have hfile : p ++ (s ++ [92, 120]) ++ r = (p ++ s) ++ 92 :: 120 :: r := by simp
    rw [hfile] at h
    obtain ⟨a, b, t, hs, ha, -⟩ := h.digits
    exact hnext a _ hs ha
  · have hfile : p ++ (s ++ [92, 120, d]) ++ r = (p ++ s) ++ 92 :: 120 :: (d :: r) := by simp
    rw [hfile] at h
    obtain ⟨a, b, t, hs, -, hb⟩ := h.digits
    exact hnext b t (List.cons.inj hs).2 hb

end ScanText

/-! ## What the wrappers add -/

/-- What the columns from `index` on add to what they contain. -/
def overhead : ℕ → ℕ
  | 0 => 75
  | 1 => 64
  | 2 => 40
  | 3 => 21
  | 4 => 10
  | _ => 0

section Total

variable {table : GbkTable} {cols index : ℕ} {row : Row}

theorem length_decimal_atoi (token : Str) : (decimal (atoi token)).length ≤ 11 := by
  unfold atoi
  cases h : scanInt token with
  | none => decide
  | some r => exact length_decimal_le_eleven (inRange_scanInt h)

theorem chomp_sublist (s : Str) : (chomp s).Sublist s := by
  unfold chomp
  split
  · exact List.dropLast_sublist s
  · exact List.Sublist.refl s

/-- **A name has a result**, which is no longer than its column. -/
theorem ssidText_total (table : GbkTable) {f : Found} (hascii : ∀ c ∈ f.token, c < 128)
    (names : Names) (hspec : ∃ dst, specCharConvers f.token = some dst) :
    ∃ names', ssidText table f.isNonpsk names f.token = some (f.converted table, names') ∧
      (f.converted table).length ≤ f.token.length := by
  obtain ⟨dst, hdst⟩ := hspec
  have hdecoded : f.decoded = cstr dst := by
    rw [Found.decoded, hdst]
    rfl
  have hdst_le := length_specCharConvers hdst
  have hcut : (cstr dst).length ≤ dst.length := (List.takeWhile_sublist _).length_le
  have hescape := length_removeEscapeCharacter_le (cstr dst)
  have hutf8 := length_gbkToUtf8_le table hascii hdst
  have hutf8escape := length_removeEscapeCharacter_le (gbkToUtf8 table (cstr dst))
  have hconverted : (f.converted table).length ≤ f.token.length := by
    unfold Found.converted
    split
    · rw [hdecoded]
      exact hutf8
    · rw [hdecoded]
      omega
  have hsome : (ssidText table f.isNonpsk names f.token).isSome = true := by
    by_cases hnil : f.token = []
    · rw [ssidText, if_pos hnil]
      rfl
    · rw [ssidText, if_neg hnil, hdst, Option.bind_some, inArray_eq (by omega)]
      simp only [Option.bind_eq_bind, Option.bind_some]
      rw [inArray_eq (by omega), Option.bind_some]
      split
      · rfl
      · rw [inArray_eq (by omega), Option.bind_some, inArray_eq (by omega), Option.bind_some,
          if_pos (rkEncodeIsUtf8_of_isUtf8 (isUtf8_gbkToUtf8 table _))]
        rfl
  obtain ⟨⟨t, names'⟩, hresult⟩ := Option.isSome_iff_exists.mp hsome
  obtain ⟨-, rfl, -⟩ := ssidText_eq_some hresult
  exact ⟨names', hresult, hconverted⟩

theorem Row.add_total (row : Row) (text : Str) (h : row.item.length + text.length ≤ 383) :
    ∃ row', row.add text = some row' ∧ row'.item.length ≤ row.item.length + text.length := by
  have htake : (text.take 127).length ≤ text.length := List.length_take_le' 127 text
  have hlen : (row.item ++ text.take 127).length ≤ row.item.length + text.length := by
    rw [List.length_append]
    omega
  rw [Row.add, inArray_eq (by omega)]
  exact ⟨_, rfl, hlen⟩

theorem overhead_succ_le : ∀ index, overhead (index + 1) ≤ overhead index
  | 0 | 1 | 2 | 3 | 4 => by decide
  | _ + 5 => le_refl 0

/-- A member, with its wrapper. -/
theorem Row.add_member (row : Row) {name : String} {text token : Str}
    (hwrapper : (lit name).length + text.length + 4 + overhead (index + 1) ≤
      overhead index + token.length)
    (hroom : row.item.length + overhead index + token.length ≤ 383) :
    ∃ row', row.add (memberText name text) = some row' ∧
      row'.item.length + overhead (index + 1) ≤
        row.item.length + overhead index + token.length := by
  have hlen := AccessPoint.length_memberText name text
  obtain ⟨row', hrow, hitem⟩ :=
    Row.add_total row (memberText name text) (by omega)
  exact ⟨row', hrow, by omega⟩

/-- **A column has a result**, and adds no more than what it contains and its wrapper. -/
theorem column_total (table : GbkTable) {token : Str} (hascii : ∀ c ∈ token, c < 128)
    (hname : index = 4 → cols.testBit 4 → ∃ dst, specCharConvers token = some dst)
    (hroom : row.item.length + overhead index + token.length ≤ 383) :
    ∃ row', column table cols row index token = some row' ∧
      row'.item.length + overhead (index + 1) ≤
        row.item.length + overhead index + token.length := by
  have hquote : ∀ s, (quote s).length = s.length + 2 := fun s => by simp [quote]
  have hatoi := length_decimal_atoi token
  -- the wrappers, column by column
  have h0 : (lit "bssid").length = 5 ∧ overhead 0 = 75 ∧ overhead (0 + 1) = 64 := ⟨rfl, rfl, rfl⟩
  have h1 : (lit "frequency").length = 9 ∧ overhead 1 = 64 ∧ overhead (1 + 1) = 40 :=
    ⟨rfl, rfl, rfl⟩
  have h2 : (lit "rssi").length = 4 ∧ overhead 2 = 40 ∧ overhead (2 + 1) = 21 := ⟨rfl, rfl, rfl⟩
  have h3 : (lit "flags").length = 5 ∧ overhead 3 = 21 ∧ overhead (3 + 1) = 10 := ⟨rfl, rfl, rfl⟩
  have h4 : (lit "ssid").length = 4 ∧ overhead 4 = 10 ∧ overhead (4 + 1) = 0 := ⟨rfl, rfl, rfl⟩
  unfold column
  split
  · have := overhead_succ_le index
    exact ⟨row, rfl, by omega⟩
  · next hlooked =>
    split
    · exact Row.add_member row (by rw [hquote]; omega) hroom
    · exact Row.add_member row (by omega) hroom
    · exact Row.add_member row (by omega) hroom
    · dsimp only
      split
      · exact Row.add_member ⟨row.item, _, row.names⟩ (by rw [hquote]; omega) hroom
      · obtain ⟨row', hrow, hitem⟩ := Row.add_total ⟨row.item, row.isNonpsk ||
          decide (¬ lit "WPA" <:+: token ∧ ¬ lit "WEP" <:+: token), row.names⟩ []
          (show row.item.length + 0 ≤ 383 by omega)
        have hitem : row'.item.length ≤ row.item.length + 0 := hitem
        exact ⟨row', hrow, by omega⟩
    · have hbit : cols.testBit 4 := by
        by_contra h
        exact hlooked ⟨h, by decide⟩
      obtain ⟨names', hssid, hlen⟩ := ssidText_total table (f := ⟨row.isNonpsk, token⟩) hascii
        row.names (hname rfl hbit)
      dsimp only at hssid hlen
      rw [hssid]
      exact Row.add_member ⟨row.item, row.isNonpsk, names'⟩ (by rw [hquote]; omega) hroom
    · obtain ⟨row', hrow, hitem⟩ := Row.add_total row []
        (show row.item.length + 0 ≤ 383 by omega)
      have hless := overhead_succ_le index
      rw [List.length_nil] at hitem
      exact ⟨row', hrow, by omega⟩

/-- **The columns** have a result, which is no longer than all they contain and their wrappers. -/
theorem columns_total (table : GbkTable) {tokens : List Str}
    (hascii : ∀ token ∈ tokens, ∀ c ∈ token, c < 128)
    (hname : ∀ i token, tokens[i]? = some token → index + i = 4 → cols.testBit 4 →
      ∃ dst, specCharConvers (chomp token) = some dst)
    (hroom : row.item.length + overhead index + (tokens.map List.length).sum ≤ 383) :
    ∃ row', columns table cols index tokens row = some row' ∧
      row'.item.length ≤ row.item.length + overhead index + (tokens.map List.length).sum := by
  induction tokens generalizing index row with
  | nil => exact ⟨row, rfl, by omega⟩
  | cons token tokens ih =>
    obtain ⟨htoken, hascii⟩ := List.forall_mem_cons.mp hascii
    have hchomp := (chomp_sublist token).length_le
    rw [List.map_cons, List.sum_cons] at hroom ⊢
    have hfirst : index = 4 → cols.testBit 4 → ∃ dst, specCharConvers (chomp token) = some dst :=
      hname 0 token rfl
    have hroom₁ : row.item.length + overhead index + (chomp token).length ≤ 383 := by omega
    obtain ⟨row₁, hrow₁, hitem₁⟩ := column_total table
      (fun c hc => htoken c ((chomp_sublist token).subset hc)) hfirst hroom₁
    have hroom' : row₁.item.length + overhead (index + 1) + (tokens.map List.length).sum ≤ 383 := by
      omega
    obtain ⟨row', hrow', hitem'⟩ :=
      ih hascii (fun i t ht hi => hname (i + 1) t ht (by omega)) hroom'
    exact ⟨row', by rw [columns_cons, hrow₁]; exact hrow', by omega⟩

/-- **A line has a result**, which fits the array. -/
theorem scanLine_total (table : GbkTable) {line : Str} (hlen : line.length ≤ 254)
    (hascii : ∀ c ∈ line, c < 128)
    (hname : ∀ f, found cols line = some f → ∃ dst, specCharConvers f.token = some dst)
    (names : Names) :
    ∃ item names', scanLine table cols names line = some (item, names') ∧ item.length ≤ 383 := by
  have hsum : ((strtok line).map List.length).sum ≤ line.length :=
    (((List.filter_sublist).map List.length).sum_le_sum fun _ _ => Nat.zero_le _).trans
      (sum_length_splitOn_le 9 line)
  have hmem : ∀ token ∈ strtok line, ∀ c ∈ token, c < 128 := fun token htoken c hc => by
    obtain ⟨p, q, hline, -⟩ := eq_append_of_mem_splitOn (List.mem_of_mem_filter htoken)
    exact hascii c (by simp [hline, hc])
  have hspec : ∀ i token, (strtok line)[i]? = some token → 0 + i = 4 → cols.testBit 4 →
      ∃ dst, specCharConvers (chomp token) = some dst := by
    rintro i token htoken hi hbit
    obtain rfl : i = 4 := by omega
    rcases found_cases cols line with ⟨-, hfew | hfew⟩ | ⟨a, b, c, flags, ssid, rest, hs, -, hsome⟩
    · exact absurd (List.getElem?_eq_some_iff.mp htoken).1 (Nat.not_lt.mpr hfew)
    · exact absurd hbit hfew
    · rw [hs] at htoken
      obtain rfl := Option.some.inj htoken
      exact hname _ hsome
  have hroom : (Row.mk [123] false names).item.length + overhead 0 +
      ((strtok line).map List.length).sum ≤ 383 := by
    have hwrappers : (Row.mk [123] false names).item.length + overhead 0 = 76 := rfl
    omega
  obtain ⟨row, hrow, hitem⟩ := columns_total table hmem hspec hroom
  have hcomma := length_dropComma_le row.item
  have hclosed : (dropComma row.item ++ [125, 44]).length ≤ 383 := by
    have hwrappers : (Row.mk [123] false names).item.length + overhead 0 = 76 := rfl
    rw [List.length_append]
    change _ + 2 ≤ 383
    omega
  rw [scanLine, hrow]
  simp only [Option.bind_eq_bind, Option.bind_some]
  rw [inArray_eq (Nat.succ_le_succ hclosed)]
  exact ⟨_, _, rfl, hclosed⟩

end Total

/-! ## The list -/

section Scan

variable {cols : ℕ} {file : List UInt8}

/-- The block at the beginning. -/
def ScanR.start : ScanR := ⟨512, [91], ⟨[], []⟩⟩

theorem ScanR.fits_start : ScanR.start.Fits := show 1 + 3 < 512 by decide

/-- **A line is appended**, to a block with room for it. -/
theorem ScanR.line_total (table : GbkTable) {s : ScanR} (hs : s.Fits) {line : Str}
    (hlen : line.length ≤ 254) (hascii : ∀ c ∈ line, c < 128)
    (hname : ∀ f, found cols line = some f → ∃ dst, specCharConvers f.token = some dst) :
    ∃ item names s', scanLine table cols s.names line = some (item, names) ∧ item.length < 384 ∧
      s.line table cols line = some s' ∧ s'.scanR = s.scanR ++ item ∧ s'.Fits := by
  obtain ⟨item, names, hitem, hlen⟩ := scanLine_total table hlen hascii hname s.names
  obtain ⟨s', hs', hfits, hscanR, -⟩ := ScanR.Fits.append (s := { s with names }) hs hlen
  refine ⟨item, names, s', hitem, Nat.lt_succ_of_le hlen, ?_, hscanR, hfits⟩
  rw [ScanR.line, hitem]
  exact hs'

/-- The lines of a file in which no escape is torn. -/
theorem ScanText.lines (h : ScanText file) (htorn : ∀ f ∈ foundNames cols file, ¬ Torn f.token) :
    ∀ line ∈ scanLines (fgets 255 file).2.length (fgets 255 file).2,
      line.length ≤ 254 ∧ (∀ c ∈ line, c < 128) ∧
        ∀ f, found cols line = some f → ∃ dst, specCharConvers f.token = some dst := by
  intro line hline
  have hheading := fgets_append 255 file
  have hbody : ScanText (fgets 255 file).2 := ScanText.suffix (hheading.symm ▸ h)
  obtain ⟨p, rest, hrest, rfl⟩ := mem_scanLines hbody.zero_notMem hline
  have hread := fgets_append 254 rest
  refine ⟨length_fgets_le 254 rest, fun c hc => hbody.ascii c ?_, fun f hf => ?_⟩
  · rw [hrest, ← hread]
    exact List.mem_append_right _ (List.mem_append_left _ hc)
  · cases hspec : specCharConvers f.token with
    | some dst => exact ⟨dst, rfl⟩
    | none => exact absurd (torn_of_none hspec) (htorn f (List.mem_filterMap.mpr ⟨_, hline, hf⟩))

/-- **What the loop over the lines has appended** fits the block, after each line. -/
theorem foldlM_fits (table : GbkTable) {lines : List Str}
    (h : ∀ line ∈ lines, line.length ≤ 254 ∧ (∀ c ∈ line, c < 128) ∧
      ∀ f, found cols line = some f → ∃ dst, specCharConvers f.token = some dst) :
    ∃ s, lines.foldlM (ScanR.line table cols) ScanR.start = some s ∧ s.Fits := by
  refine foldlM_total_of_mem (fun s line hline hs => ?_) ScanR.fits_start
  obtain ⟨hlen, hascii, hname⟩ := h line hline
  obtain ⟨_, _, s', -, -, hs', -, hfits⟩ := ScanR.line_total table hs hlen hascii hname
  exact ⟨s', hs', hfits⟩

/-- **The list is made** if no escape is torn. -/
theorem scanned_of_not_torn (table : GbkTable) (h : ScanText file) (names : Names)
    (htorn : ∀ f ∈ foundNames cols file, ¬ Torn f.token) :
    ∃ scanR names', rkWifiScanRSec table cols names (some file) = some (some scanR, names') := by
  unfold rkWifiScanRSec
  split
  · exact ⟨_, _, rfl⟩
  · obtain ⟨s, hs, hfits⟩ := foldlM_fits table (h.lines htorn)
    have hcomma := length_dropComma_le s.scanR
    have hroom : (dropComma s.scanR ++ [93]).length + 1 ≤ s.size := by
      unfold ScanR.Fits at hfits
      rw [List.length_append, List.length_singleton]
      omega
    dsimp only
    rw [scanLoop_eq, ← ScanR.start, hs]
    simp only [Option.bind_eq_bind, Option.bind_some]
    rw [inArray_eq hroom]
    exact ⟨_, _, rfl⟩

/-- A name is found only if columns are looked at. -/
theorem cols_ne_zero_of_found {f : Found} (hf : f ∈ foundNames cols file) : cols &&& 0x1F ≠ 0 := by
  obtain ⟨line, -, hfound⟩ := List.mem_filterMap.mp hf
  have hbit : cols.testBit 4 = true := by
    by_contra h
    rw [found, if_neg h] at hfound
    cases hfound
  intro hzero
  have hfour := congrArg (Nat.testBit · 4) hzero
  rw [Nat.testBit_and, hbit] at hfour
  cases hfour

/-- **The loops come to their end** exactly if no escape is torn: what is converted is UTF-8, and
fits where it is converted to. -/
theorem scan_ends_iff (table : GbkTable) (h : ScanText file) (cols : ℕ) (names : Names) :
    (∀ s, rkEncodeIsUtf8 (gbkToUtf8 table s) = true) ∧
      (∀ f ∈ foundNames cols file, ∀ dst, specCharConvers f.token = some dst →
        (gbkToUtf8 table (cstr dst)).length + 1 ≤ f.token.length + 1) ∧
      ((∃ r, rkWifiScanRSec table cols names (some file) = some r) ↔
        ∀ f ∈ foundNames cols file, ¬ Torn f.token) := by
  refine ⟨fun s => rkEncodeIsUtf8_of_isUtf8 (isUtf8_gbkToUtf8 table s), fun f hf dst hdst => ?_,
    fun ⟨r, hr⟩ f hf htorn => ?_, fun htorn => ?_⟩
  · obtain ⟨p, r, hfile, -⟩ := token_stands h.zero_notMem hf
    have hascii : ∀ c ∈ f.token, c < 128 := fun c hc => h.ascii c (by simp [hfile, hc])
    exact Nat.succ_le_succ (length_gbkToUtf8_le table hascii hdst)
  · obtain ⟨p, q, hfile, -⟩ := token_stands h.zero_notMem hf
    obtain ⟨dst, hdst⟩ := (names_rkWifiScanRSec (cols_ne_zero_of_found hf) hr).2 f hf
    rw [none_of_torn (hfile ▸ h).digits_token htorn] at hdst
    cases hdst
  · obtain ⟨scanR, names', hscan⟩ := scanned_of_not_torn table h names htorn
    exact ⟨_, hscan⟩

/-- **Lines that are short enough fit**: every object, the list behind each of them, and the list
with its bracket. -/
theorem scan_fits (table : GbkTable) (h : ScanText file)
    (hlines : ∀ line ∈ file.splitOn 10, line.length < 255) (cols : ℕ) (names : Names) :
    (∀ before line behind,
        scanLines (fgets 255 file).2.length (fgets 255 file).2 = before ++ line :: behind →
        ∃ s item names' s', before.foldlM (ScanR.line table cols) ScanR.start = some s ∧
          scanLine table cols s.names line = some (item, names') ∧ item.length < 384 ∧
          s.line table cols line = some s' ∧ s'.scanR = s.scanR ++ item ∧
          s'.scanR.length + 1 ≤ s'.size) ∧
      (∃ s, (scanLines (fgets 255 file).2.length (fgets 255 file).2).foldlM
          (ScanR.line table cols) ScanR.start = some s ∧
        (dropComma s.scanR ++ [93]).length + 1 ≤ s.size) ∧
      ∃ scanR names', rkWifiScanRSec table cols names (some file) = some (some scanR, names') := by
  have htorn : ∀ f ∈ foundNames cols file, ¬ Torn f.token := fun f hf => by
    obtain ⟨p, r, hfile, hnext⟩ := token_stands h.zero_notMem hf
    exact (hfile ▸ h).not_torn (hnext hlines)
  have hall := h.lines htorn
  refine ⟨fun before line behind hsplit => ?_, ?_, scanned_of_not_torn table h names htorn⟩
  · rw [hsplit] at hall
    obtain ⟨s, hs, hfits⟩ := foldlM_fits table fun l hl => hall l (List.mem_append_left _ hl)
    obtain ⟨hlen, hascii, hname⟩ := hall line (List.mem_append_right _ List.mem_cons_self)
    obtain ⟨item, names', s', hitem, hshort, hs', hscanR, hfits'⟩ :=
      ScanR.line_total table hfits hlen hascii hname
    unfold ScanR.Fits at hfits'
    exact ⟨s, item, names', s', hs, hitem, hshort, hs', hscanR, by omega⟩
  · obtain ⟨s, hs, hfits⟩ := foldlM_fits table hall
    have hcomma := length_dropComma_le s.scanR
    unfold ScanR.Fits at hfits
    refine ⟨s, hs, ?_⟩
    rw [List.length_append, List.length_singleton]
    omega

end Scan

theorem scanText_twoNetworks : ScanText (scanFile twoNetworks) :=
  ⟨List.all_iff_forall_prop.mp (rfl), by decide +kernel⟩

theorem scan_ends_iff_two : ∃ r,
    rkWifiScanRSec oneCharacter 0x1F ⟨[], []⟩ (some (scanFile twoNetworks)) = some r := by
  have h := scanText_twoNetworks
  refine (scan_ends_iff oneCharacter h 0x1F ⟨[], []⟩).2.2.mpr fun f hf => ?_
  obtain ⟨p, r, hfile, hnext⟩ := token_stands h.zero_notMem hf
  exact (hfile ▸ h).not_torn (hnext (by decide))

theorem scan_fits_two : ∃ scanR names,
    rkWifiScanRSec oneCharacter 0x1F ⟨[], []⟩ (some (scanFile twoNetworks)) =
      some (some scanR, names) :=
  (scan_fits oneCharacter scanText_twoNetworks (by decide +kernel) 0x1F ⟨[], []⟩).2.2

/-- A network with a line that is too long. -/
def longNetwork : AccessPoint where
  bssid := [2, 0, 0, 0, 0, 1]
  frequency := 2412
  level := -40
  flags := lit "[WPA-EAP-CCMP+TKIP][WPA2-EAP+EAP-SHA256+FT/EAP-CCMP+TKIP][WPA3-SAE+FT/SAE-CCMP]" ++
    lit "[WPS][ESS][P2P][HS20]"
  ssid := List.replicate 32 0xD6

/-- **An escape is torn** where the line is cut: the name ends in `\x`, and what stands behind its
terminator is read. -/
theorem long_line_torn : ScanText (scanFile [longNetwork]) ∧
    (∃ f ∈ foundNames 0x1F (scanFile [longNetwork]), specCharConvers f.token = none) ∧
    rkWifiScanRSec oneCharacter 0x1F ⟨[], []⟩ (some (scanFile [longNetwork])) = none := by
  refine ⟨⟨List.all_iff_forall_prop.mp ?_, by decide +kernel⟩, by decide +kernel, ?_⟩
  · decide +kernel
  · have hnone : (rkWifiScanRSec oneCharacter 0x1F ⟨[], []⟩
        (some (scanFile [longNetwork]))).isNone = true := by
      decide +kernel
    exact Option.isNone_iff_eq_none.mp hnone

end RkIpc.Network
