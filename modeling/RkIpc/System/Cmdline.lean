import RkIpc.Text.Number
import RkIpc.Text.Search

/-!
# The command line of the kernel

`get_cmd_val` reads the command line once, into a static array of 1024 bytes, and looks for a key in
it. It puts the key and an equals sign together but looks for the key only, so that it finds it
within other keys and values as well, and it reads a number one byte behind. A command line that
fills the array has no terminator in it.

The file with the command line can be read, and ends with a newline. A search in an array without
terminator reads on behind it.

## Main definitions

* `CommandLine`, `Key`: what is looked for, and where
* `CmdStatic`, `getCmdVal`: the static variables, and the function
* `LooksUp`: what is expected
* `BeginsNumber`: an occurrence of the key is that of a token with a number
* `Unmistaken`: there is room for the command line, and the key occurs first as that of a token

## Main results

* `getCmdVal_eq`: what is read
* `LooksUp.length_le`: the result is as expected only if there is room for the command line
* `looksUp_of_unmistaken`: and it is if the key is not mistaken
* `mistaken_key`: a command line for which it is not
-/

namespace RkIpc.System

open Text

/-! ## The function -/

/-- **A command line**, without terminator. -/
structure CommandLine where
  chars : Str
  noNul : 0 ∉ chars

/-- **A key** has no white space. -/
structure Key where
  chars : Str
  noNul : 0 ∉ chars
  noSpace : ∀ c ∈ chars, isSpace c = false

/-- `sizeof(cmdline)`. -/
def cmdlineSize : ℕ := 1024

/-- The content of `/proc/cmdline`. -/
def CommandLine.file (line : CommandLine) : List UInt8 := line.chars ++ [10]

/-- **`read_cmdline_to_buf`**. -/
def readCmdlineToBuf (file : List UInt8) (len : ℕ) : List UInt8 :=
  file.take len ++ List.replicate (len - file.length) 0

/-- The static variables of `get_cmd_val`. -/
structure CmdStatic where
  cmdInit : Bool
  cmdline : List UInt8
deriving DecidableEq, Repr

/-- Before the first call. -/
def CmdStatic.start : CmdStatic := ⟨false, List.replicate cmdlineSize 0⟩

/-- `strstr` in an array, as an index into it; it needs a terminator. -/
def strstrIn (array : List UInt8) (pat : Str) : Option (Option ℕ) :=
  if 0 ∈ array then some ((firstAt pat (cstr array)).map fun q => (cstr array).length - q.length)
  else none

/-- `strtol` in an array, from an index on; it needs a terminator. -/
def strtolAt (array : List UInt8) (i base : ℕ) : Option ℤ :=
  if 0 ∈ array.drop i then some (strtolBase base (cstr (array.drop i))) else none

/-- **`get_cmd_val`**: its result, if nothing is read outside the array, and the static variables
then. -/
def getCmdVal (file : List UInt8) (s : CmdStatic) (string : Str) (len : ℕ) : Option ℤ × CmdStatic :=
  let s := if s.cmdInit then s else ⟨true, readCmdlineToBuf file cmdlineSize⟩
  -- `key_equal` is not looked at again
  let value := (strstrIn s.cmdline string).bind fun addr =>
    match addr with
    | none => some 0
    | some addr => strtolAt s.cmdline (addr + string.length + 1) len
  (value, s)

/-- The static variables after some calls. -/
def afterCalls (file : List UInt8) (calls : List (Str × ℕ)) : CmdStatic :=
  calls.foldl (fun s call => (getCmdVal file s call.1 call.2).2) CmdStatic.start

/-! ## What is expected -/

/-- The tokens. -/
def CommandLine.tokens (line : CommandLine) : List Str := line.chars.splitOnP isSpace

/-- What stands behind the equals sign of a token with this key. -/
def value? (key : Key) (token : Str) : Option Str :=
  if key.chars ++ [61] <+: token then some (token.drop (key.chars.length + 1)) else none

/-- The number of a token of the form `key=number`. -/
def number? (key : Key) (base : ℕ) (token : Str) : Option ℤ :=
  (value? key token).bind (numeral? base)

/-- A token has exactly this key. -/
def HasKey (key : Key) (token : Str) : Prop := token = key.chars ∨ key.chars ++ [61] <+: token

/-- **The number of the first token** of the form `key=number` is returned, zero if no token has the
key, and nothing is read outside the array, whatever was asked for before. -/
structure LooksUp (line : CommandLine) (key : Key) (base : ℕ) : Prop where
  found : ∀ calls n, line.tokens.findSome? (number? key base) = some n →
    (getCmdVal line.file (afterCalls line.file calls) key.chars base).1 = some n
  absent : ∀ calls, (∀ token ∈ line.tokens, ¬ HasKey key token) →
    (getCmdVal line.file (afterCalls line.file calls) key.chars base).1 = some 0
  inside : ∀ calls, ((getCmdVal line.file (afterCalls line.file calls) key.chars base).1).isSome

/-! ## What is read -/

/-- The array is filled once. -/
theorem getCmdVal_afterCalls (file : List UInt8) (calls : List (Str × ℕ)) (string : Str) (len : ℕ) :
    (getCmdVal file (afterCalls file calls) string len).1 =
      (getCmdVal file CmdStatic.start string len).1 := by
  have hfilled : afterCalls file calls = CmdStatic.start ∨
      afterCalls file calls = ⟨true, readCmdlineToBuf file cmdlineSize⟩ := by
    induction calls using List.reverseRecOn with
    | nil => exact .inl rfl
    | append_singleton calls call ih =>
      rw [afterCalls, List.foldl_append, ← afterCalls]
      rcases ih with h | h <;> rw [h] <;> exact .inr rfl
  rcases hfilled with h | h <;> rw [h]
  rfl

/-- An array without terminator. -/
theorem zero_mem_readCmdlineToBuf_iff {file : List UInt8} (h : 0 ∉ file) (len : ℕ) :
    0 ∈ readCmdlineToBuf file len ↔ file.length < len := by
  rw [readCmdlineToBuf, List.mem_append, List.mem_replicate]
  constructor
  · rintro (h0 | h0)
    · exact absurd (List.mem_of_mem_take h0) h
    · omega
  · intro hlt
    exact .inr ⟨by omega, rfl⟩

theorem CommandLine.zero_notMem_file (line : CommandLine) : 0 ∉ line.file := by
  simp [CommandLine.file, line.noNul]

/-- A newline behind a text is no part of an occurrence. -/
theorem firstAt_append_newline {pat s : Str} (h : 10 ∉ pat) :
    firstAt pat (s ++ [10]) = (firstAt pat s).map (· ++ [10]) := by
  have hpre : ∀ t : Str, pat <+: t ++ [10] ↔ pat <+: t := fun t => by
    rw [List.prefix_concat_iff]
    refine or_iff_right ?_
    rintro rfl
    exact h (by simp)
  induction s with
  | nil =>
    have hnil := hpre []
    rw [List.nil_append, List.prefix_nil] at hnil
    rw [List.nil_append, firstAt, firstAt]
    by_cases hpat : pat = []
    · subst hpat
      rfl
    · rw [if_neg (mt hnil.1 hpat), if_neg hpat, firstAt, if_neg hpat, Option.map_none]
  | cons c s ih =>
    rw [List.cons_append, firstAt, firstAt, ih, ← List.cons_append]
    by_cases hpat : pat <+: c :: s
    · rw [if_pos hpat, if_pos ((hpre _).2 hpat), Option.map_some]
    · rw [if_neg hpat, if_neg (mt (hpre _).1 hpat)]

/-- What stands one byte behind the key, from its occurrence on. -/
def behind (key : Key) (q : Str) : Str := (q ++ [10]).drop (key.chars.length + 1)

theorem Key.newline_notMem (key : Key) : 10 ∉ key.chars := fun h =>
  absurd (key.noSpace 10 h) (by decide)

/-- **What is read**: the number one byte behind the first occurrence of the key. -/
theorem getCmdVal_eq (line : CommandLine) (key : Key) (base : ℕ) :
    (getCmdVal line.file CmdStatic.start key.chars base).1 =
      if line.chars.length ≤ 1022 then
        some (((firstAt key.chars line.chars).map fun q => strtolBase base (behind key q)).getD 0)
      else none := by
  have hzero := line.zero_notMem_file
  have hlen : line.file.length = line.chars.length + 1 := by simp [CommandLine.file]
  have hmem := zero_mem_readCmdlineToBuf_iff hzero cmdlineSize
  simp only [getCmdVal, CmdStatic.start, Bool.false_eq_true, if_false]
  by_cases hfits : line.chars.length ≤ 1022
  · have hlt : line.file.length < cmdlineSize := by unfold cmdlineSize; omega
    obtain ⟨k, hk⟩ := Nat.exists_eq_add_of_lt hlt
    -- what is read ends within the array, with zeros behind it
    have harray : readCmdlineToBuf line.file cmdlineSize =
        line.file ++ 0 :: List.replicate k 0 := by
      rw [readCmdlineToBuf, List.take_of_length_le hlt.le, hk, ← List.replicate_succ]
      congr 2
      omega
    rw [if_pos hfits, strstrIn, if_pos (hmem.2 hlt), Option.bind_some, harray,
      cstr_append_zero hzero, CommandLine.file, firstAt_append_newline key.newline_notMem]
    cases hq : firstAt key.chars line.chars with
    | none => rfl
    | some q =>
      -- `pre` is in front of the occurrence, and `t` behind the key
      obtain ⟨⟨t, rfl⟩, ⟨pre, hpre⟩⟩ := prefix_and_suffix_of_firstAt hq
      have hbehind : behind key (key.chars ++ t) = (t ++ [10]).drop 1 := by
        rw [behind, List.append_assoc, List.drop_length_add_append]
      have hindex : (line.chars ++ [10]).length - (key.chars ++ t ++ [10]).length = pre.length := by
        simp only [← hpre, List.length_append]
        omega
      have hdrop : (line.chars ++ [10] ++ 0 :: List.replicate k 0).drop
          (pre.length + key.chars.length + 1) = (t ++ [10]).drop 1 ++ 0 :: List.replicate k 0 := by
        rw [← List.length_append, ← hpre, ← List.append_assoc pre, List.append_assoc (pre ++ _),
          List.append_assoc (pre ++ _), List.drop_length_add_append,
          List.drop_append_of_le_length (by simp)]
      have htail : 0 ∉ (t ++ [10]).drop 1 := fun h0 => by
        refine hzero (List.mem_of_mem_drop (i := (pre ++ key.chars).length) ?_)
        rw [CommandLine.file, ← hpre, ← List.append_assoc pre, List.append_assoc (pre ++ _),
          List.drop_left]
        exact List.mem_of_mem_drop h0
      simp only [Option.map_some, hindex, strtolAt, hdrop, hbehind, Option.getD_some]
      rw [if_pos (by simp), cstr_append_zero htail]
  · -- no terminator is in the array
    rw [if_neg hfits, strstrIn, if_neg (mt hmem.1 (by unfold cmdlineSize; omega)), Option.bind_none]

/-! ## Tokens -/

theorem prefix_and_infix_of_splitOnP (p : UInt8 → Bool) (s : Str) :
    (∀ token ∈ (s.splitOnP p).head?, token <+: s) ∧ ∀ token ∈ s.splitOnP p, token <:+: s := by
  induction s with
  | nil => simp [List.splitOnP_nil]
  | cons c s ih =>
    obtain ⟨hhead, hall⟩ := ih
    rw [List.splitOnP_cons_eq_if_modifyHead]
    by_cases hc : p c
    · rw [if_pos hc]
      refine ⟨by simp, fun token h => ?_⟩
      rcases List.mem_cons.1 h with rfl | h
      · exact List.nil_infix
      · exact List.infix_cons (hall token h)
    · rw [if_neg hc]
      obtain ⟨t, ts, ht⟩ := List.exists_cons_of_ne_nil (List.splitOnP_ne_nil p s)
      rw [ht] at hhead hall ⊢
      have hpre : c :: t <+: c :: s := (List.prefix_cons_inj c).2 (hhead t rfl)
      refine ⟨fun token h => Option.some.inj h ▸ hpre, fun token h => ?_⟩
      rcases List.mem_cons.1 h with rfl | h
      · exact hpre.isInfix
      · exact List.infix_cons (hall token (List.mem_cons_of_mem _ h))

/-- A token with a key contains it. -/
theorem HasKey.isInfix {line : Str} {key : Key} {token : Str} (h : HasKey key token)
    (hmem : token ∈ line.splitOnP isSpace) : key.chars <:+: line := by
  refine List.IsInfix.trans ?_ ((prefix_and_infix_of_splitOnP _ _).2 token hmem)
  rcases h with rfl | h
  · exact List.infix_refl _
  · exact ((List.prefix_append _ _).trans h).isInfix

theorem HasKey.of_number? {key : Key} {base : ℕ} {token : Str} {n : ℤ}
    (h : number? key base token = some n) : HasKey key token := by
  obtain ⟨v, hv, -⟩ := Option.bind_eq_some_iff.1 h
  unfold value? at hv
  split at hv
  · next hpre => exact .inr hpre
  · cases hv

/-- **The first occurrence of the key is that of the token**: it begins a token `key=number`. -/
structure BeginsNumber (line : CommandLine) (key : Key) (base : ℕ) (q : Str) (n : ℤ) : Prop where
  inRange : Wire.InRange n
  token : ∃ pre v post, line.chars = pre ++ q ∧ q = key.chars ++ 61 :: (v ++ post) ∧
    (∀ c ∈ pre.getLast?, isSpace c = true) ∧ (∀ c ∈ v, isSpace c = false) ∧
    (∀ c ∈ post.head?, isSpace c = true) ∧ numeral? base v = some n

/-- The first token of the rest. -/
theorem splitOnP_token {token post : Str} (htoken : ∀ c ∈ token, isSpace c = false)
    (hpost : ∀ c ∈ post.head?, isSpace c = true) :
    ∃ ts, (token ++ post).splitOnP isSpace = token :: ts := by
  cases post with
  | nil => exact ⟨[], by rw [List.append_nil, List.splitOnP_eq_singleton htoken]⟩
  | cons c post =>
    exact ⟨_, List.splitOnP_append_cons_of_forall_mem htoken c (hpost c rfl) post⟩

section Lookup

variable {line : CommandLine} {key : Key} {base : ℕ} {q : Str} {n : ℤ}

/-- A token in front of the first occurrence does not have the key. -/
theorem not_hasKey_of_lt {pre : Str} {c : UInt8} (hq : firstAt key.chars line.chars = some q)
    (hline : line.chars = pre ++ c :: q) : ∀ token ∈ pre.splitOnP isSpace, ¬ HasKey key token := by
  intro token hmem h
  obtain ⟨a, b, hpre⟩ := h.isInfix hmem
  have hsuffix : key.chars ++ (b ++ c :: q) <:+ line.chars := ⟨a, by
    rw [hline, ← hpre]
    simp only [List.append_assoc]⟩
  -- an occurrence further in front would have been the first
  have hle := length_le_of_firstAt hq hsuffix (List.prefix_append _ _)
  simp only [List.length_append, List.length_cons] at hle
  omega

/-- **The token that is found** is the first one with a number. -/
theorem BeginsNumber.findSome? (h : BeginsNumber line key base q n)
    (hq : firstAt key.chars line.chars = some q) :
    line.tokens.findSome? (number? key base) = some n := by
  obtain ⟨-, pre, v, post, hline, rfl, hpre, hv, hpost, hn⟩ := h
  have htoken : ∀ c ∈ key.chars ++ 61 :: v, isSpace c = false := by
    intro c hc
    rcases List.mem_append.1 hc with hc | hc
    · exact key.noSpace c hc
    · rcases List.mem_cons.1 hc with rfl | hc
      · decide
      · exact hv c hc
  have hnumber : number? key base (key.chars ++ 61 :: v) = some n := by
    have hpre : key.chars ++ [61] <+: key.chars ++ 61 :: v := by simp
    rw [number?, value?, if_pos hpre, List.drop_length_add_append]
    exact hn
  obtain ⟨ts, hts⟩ := splitOnP_token htoken hpost
  rw [List.append_assoc, List.cons_append] at hts
  rw [CommandLine.tokens, hline]
  rcases pre.eq_nil_or_concat with rfl | ⟨pre, c, rfl⟩
  · rw [List.nil_append, hts, List.findSome?_cons, hnumber]
  · rw [List.concat_eq_append] at hpre hline ⊢
    rw [List.append_assoc, List.singleton_append] at hline ⊢
    -- the tokens in front do not have the key
    have hnone : (pre.splitOnP isSpace).findSome? (number? key base) = none := by
      refine List.findSome?_eq_none_iff.2 fun token hmem => ?_
      by_contra hne
      obtain ⟨m, hm⟩ := Option.ne_none_iff_exists'.1 hne
      exact not_hasKey_of_lt hq hline token hmem (.of_number? hm)
    rw [List.splitOnP_append_cons _ _ (hpre c (by simp)), List.findSome?_append, hnone, hts,
      List.findSome?_cons, hnumber, Option.none_or]

/-- What is read behind the key is the number. -/
theorem BeginsNumber.behind (h : BeginsNumber line key base q n) :
    strtolBase base (behind key q) = n := by
  obtain ⟨hrange, pre, v, post, -, rfl, -, -, hpost, hn⟩ := h
  have hbehind : RkIpc.System.behind key (key.chars ++ 61 :: (v ++ post)) =
      v ++ (post ++ [10]) := by
    rw [RkIpc.System.behind, List.append_assoc, List.drop_length_add_append]
    simp
  have hrest : ∀ c ∈ (post ++ [10]).head?, isSpace c = true := by
    cases post with
    | nil =>
      rintro _ ⟨⟩
      rfl
    | cons c post => exact hpost
  rw [hbehind, strtolBase_append hn hrest, clamp_eq_self hrange]

/-- **The key is not mistaken**: there is room for the command line, and the key does not occur in
it, or its first occurrence is that of a token with a number, or some token has the key and none
has it with a number. -/
structure Unmistaken (line : CommandLine) (key : Key) (base : ℕ) : Prop where
  length_le : line.chars.length ≤ 1022
  first : ∀ q ∈ firstAt key.chars line.chars, (∃ n, BeginsNumber line key base q n) ∨
    (∃ token ∈ line.tokens, HasKey key token) ∧ ∀ token ∈ line.tokens, number? key base token = none

/-- A token with a number has the key, so the line contains it. -/
theorem infix_of_findSome? (h : line.tokens.findSome? (number? key base) = some n) :
    key.chars <:+: line.chars := by
  obtain ⟨token, hmem, hnumber⟩ := List.exists_of_findSome?_eq_some h
  exact (HasKey.of_number? hnumber).isInfix hmem

/-- **There must be room for the command line** and its newline, with a terminator. -/
theorem LooksUp.length_le (h : LooksUp line key base) : line.chars.length ≤ 1022 := by
  by_contra hlong
  have hinside := h.inside []
  rw [getCmdVal_afterCalls, getCmdVal_eq, if_neg hlong] at hinside
  cases hinside

/-- **A key that is not mistaken** is looked up as expected. -/
theorem looksUp_of_unmistaken (h : Unmistaken line key base) : LooksUp line key base := by
  have hget := fun calls => (getCmdVal_afterCalls line.file calls key.chars base).trans
    ((getCmdVal_eq line key base).trans (if_pos h.length_le))
  refine ⟨fun calls n hn => ?_, fun calls hno => ?_, fun calls => hget calls ▸ rfl⟩
  · obtain ⟨q, hfirst⟩ := Option.isSome_iff_exists.1
      (isSome_firstAt_iff.2 (infix_of_findSome? hn))
    rw [hget, hfirst]
    rcases h.first q hfirst with ⟨m, hbegins⟩ | ⟨-, hnone⟩
    · -- the token is the first one with a number
      obtain rfl := Option.some.inj ((hbegins.findSome? hfirst).symm.trans hn)
      exact congrArg some hbegins.behind
    · rw [List.findSome?_eq_none_iff.2 hnone] at hn
      cases hn
  · rw [hget]
    cases hfirst : firstAt key.chars line.chars with
    | none => rfl
    | some q =>
      -- in both cases some token has the key
      rcases h.first q hfirst with ⟨m, hbegins⟩ | ⟨⟨token, hmem, hkey⟩, -⟩
      · obtain ⟨token, hmem, hnumber⟩ :=
          List.exists_of_findSome?_eq_some (hbegins.findSome? hfirst)
        exact absurd (HasKey.of_number? hnumber) (hno token hmem)
      · exact absurd hkey (hno token hmem)

end Lookup

/-! ## A key within another one -/

/-- The color mode, and one for the day. -/
def dayCmdline : CommandLine := ⟨lit "rk_color_mode_day=1 rk_color_mode=2", by decide⟩

/-- The key of the color mode. -/
def colorModeKey : Key := ⟨lit "rk_color_mode", by decide, by decide⟩

/-- With the one for the day behind it, the color mode is found. -/
theorem looksUp_of_unmistaken_colorMode :
    LooksUp ⟨lit "quiet rk_color_mode=2 rk_color_mode_day=1", by decide⟩ colorModeKey 16 :=
  looksUp_of_unmistaken ⟨by decide, fun q hq => by
    have hfirst : firstAt colorModeKey.chars (lit "quiet rk_color_mode=2 rk_color_mode_day=1") =
        some (lit "rk_color_mode=2 rk_color_mode_day=1") := by decide
    obtain rfl := Option.some.inj (hfirst.symm.trans hq)
    exact Or.inl ⟨2, by decide, lit "quiet ", lit "2", lit " rk_color_mode_day=1", by decide,
      by decide, by decide +kernel, by decide, by decide +kernel, by decide⟩⟩

/-- **The longer key is found**, and `day` is read as the number `0xda`. -/
theorem mistaken_key : ¬ LooksUp dayCmdline colorModeKey 16 ∧
    dayCmdline.tokens.findSome? (number? colorModeKey 16) = some 2 ∧
    (getCmdVal dayCmdline.file .start colorModeKey.chars 16).1 = some 0xda := by
  have hnumber : dayCmdline.tokens.findSome? (number? colorModeKey 16) = some 2 := by decide
  have hget : (getCmdVal dayCmdline.file .start colorModeKey.chars 16).1 = some 0xda := by
    rw [getCmdVal_eq]
    decide
  refine ⟨fun h => ?_, hnumber, hget⟩
  exact absurd ((h.found [] 2 hnumber).symm.trans hget) (by decide)

end RkIpc.System
