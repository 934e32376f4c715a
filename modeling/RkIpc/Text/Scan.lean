import Mathlib.Data.List.DropRight
import Mathlib.Algebra.Order.Ring.Nat

/-!
# Scanning text

A string is the list of its bytes, without terminator. White space and letters are those of the C
locale. A scan follows a format of directives from left to right, and yields the strings that were
converted before the first directive that fails.

## Main definitions

* `isSpace`, `strip`: white space, and a string without it at either end
* `toLower`, `lower`: small letters
* `Directive`, `scan`: a format, and what it converts

## Main results

* `strip_eq_self`: a string without outer white space
* `scan_set_append`: a conversion stops at the first byte it does not accept
* `subset_of_mem_scan`: what is converted is part of the string
-/

namespace Text

/-- **A string**, without its terminator. -/
abbrev Str := List UInt8

/-- The bytes of a literal. -/
def lit (s : String) : Str := s.toByteArray.data.toList

/-- The string at a pointer, which ends at the first terminator. -/
def cstr (s : List UInt8) : Str := s.takeWhile (· ≠ 0)

/-- What is said of the bytes of a string is decided by looking at these, not at all 256. -/
instance (priority := high) decidableForallMem (p : UInt8 → Prop) [DecidablePred p] (s : Str) :
    Decidable (∀ c ∈ s, p c) := List.decidableBAll p s

theorem zero_notMem_cstr (s : List UInt8) : 0 ∉ cstr s := fun h => by
  simpa using List.mem_takeWhile_imp h

theorem cstr_eq_self {s : Str} (h : 0 ∉ s) : cstr s = s :=
  List.takeWhile_eq_self_iff.mpr fun c hc => by
    simpa using fun h0 : c = 0 => h (h0 ▸ hc)

/-- A terminator ends the string. -/
theorem cstr_append_zero {s t : List UInt8} (h : 0 ∉ s) : cstr (s ++ 0 :: t) = s := by
  have hne : ∀ c ∈ s, decide (c ≠ 0) = true := fun c hc => by
    simpa using fun h0 : c = 0 => h (h0 ▸ hc)
  rw [cstr, List.takeWhile_append_of_pos hne, List.takeWhile_cons_of_neg (by simp),
    List.append_nil]

/-! ## White space -/

/-- `isspace`. -/
def isSpace (c : UInt8) : Bool := c == 32 || (9 ≤ c && c ≤ 13)

/-- No white space at the beginning. -/
def stripLeft (s : Str) : Str := s.dropWhile isSpace

/-- No white space at the end. -/
def stripRight (s : Str) : Str := s.rdropWhile isSpace

/-- No white space at either end. -/
def strip (s : Str) : Str := stripRight (stripLeft s)

/-- **No outer white space.** -/
structure Trim (s : Str) : Prop where
  head : ∀ c ∈ s.head?, isSpace c = false
  last : ∀ c ∈ s.getLast?, isSpace c = false

theorem Trim.nil : Trim [] := ⟨by simp, by simp⟩

theorem any_isSpace_iff (o : Option UInt8) :
    o.any isSpace = false ↔ ∀ c ∈ o, isSpace c = false := by
  cases o <;> simp

instance (s : Str) : Decidable (Trim s) :=
  decidable_of_iff (s.head?.any isSpace = false ∧ s.getLast?.any isSpace = false)
    ⟨fun h => ⟨(any_isSpace_iff _).mp h.1, (any_isSpace_iff _).mp h.2⟩,
      fun h => ⟨(any_isSpace_iff _).mpr h.head, (any_isSpace_iff _).mpr h.last⟩⟩

theorem stripLeft_eq_self {s : Str} (h : ∀ c ∈ s.head?, isSpace c = false) : stripLeft s = s := by
  cases s with
  | nil => rfl
  | cons c s => simp [stripLeft, h c rfl]

theorem stripRight_eq_self {s : Str} (h : ∀ c ∈ s.getLast?, isSpace c = false) :
    stripRight s = s :=
  List.rdropWhile_eq_self_iff.mpr fun hl => by
    simp [h _ (List.getLast?_eq_getLast_of_ne_nil hl)]

theorem strip_eq_self {s : Str} (h : Trim s) : strip s = s := by
  rw [strip, stripLeft_eq_self h.head, stripRight_eq_self h.last]

/-- White space at the end goes. -/
theorem stripRight_append {s t : Str} (ht : ∀ c ∈ t, isSpace c) :
    stripRight (s ++ t) = stripRight s := by
  induction t using List.reverseRecOn with
  | nil => rw [List.append_nil]
  | append_singleton t c ih =>
    rw [stripRight, ← List.append_assoc, List.rdropWhile_concat_pos _ _ _ (ht c (by simp))]
    exact ih fun d hd => ht d (List.mem_append_left _ hd)

/-- White space at the beginning goes. -/
theorem stripLeft_append {s t : Str} (hs : ∀ c ∈ s, isSpace c) :
    stripLeft (s ++ t) = stripLeft t :=
  List.dropWhile_append_of_pos hs

theorem strip_append {s t : Str} (hs : Trim s) (ht : ∀ c ∈ t, isSpace c) :
    strip (s ++ t) = s := by
  cases s with
  | nil =>
    have hall : stripLeft t = [] := List.dropWhile_eq_nil_iff.mpr ht
    rw [List.nil_append, strip, hall]
    rfl
  | cons c s =>
    rw [strip, stripLeft_eq_self fun d hd => hs.head d (by simpa using hd), stripRight_append ht,
      stripRight_eq_self hs.last]

theorem isPrefix_stripRight (s : Str) : stripRight s <+: s := List.rdropWhile_prefix isSpace s

theorem strip_subset (s : Str) : strip s ⊆ s := fun _ h =>
  (List.dropWhile_sublist _).subset ((isPrefix_stripRight _).subset h)

theorem length_strip_le (s : Str) : (strip s).length ≤ s.length :=
  (isPrefix_stripRight _).length_le.trans (List.dropWhile_sublist _).length_le

theorem stripRight_getLast {s : Str} : ∀ c ∈ (stripRight s).getLast?, isSpace c = false := by
  intro c hc
  have hne : stripRight s ≠ [] := by
    rintro h
    simp [h] at hc
  rw [List.getLast?_eq_getLast_of_ne_nil hne, Option.mem_some_iff] at hc
  have hlast := List.rdropWhile_last_not isSpace s hne
  rw [← hc]
  exact Bool.eq_false_iff.mpr hlast

/-! ## Small letters -/

/-- `tolower`. -/
def toLower (c : UInt8) : UInt8 := if 65 ≤ c && c ≤ 90 then c + 32 else c

/-- A string in small letters. -/
def lower (s : Str) : Str := s.map toLower

theorem toLower_toLower (c : UInt8) : toLower (toLower c) = toLower c := by
  unfold toLower
  grind

/-- Only letters change. -/
theorem mem_lower_iff {c : UInt8} {s : Str} (hc : ¬ (97 ≤ c ∧ c ≤ 122)) (hc' : toLower c = c) :
    c ∈ lower s ↔ c ∈ s := by
  rw [lower, List.mem_map]
  constructor
  · rintro ⟨d, hd, rfl⟩
    have : toLower d = d := by
      unfold toLower at hc hc' ⊢
      grind
    rwa [this]
  · exact fun h => ⟨c, h, hc'⟩

/-! ## Formats -/

/-- A directive of a format: white space, a byte, and a conversion `%[...]` of the bytes it
accepts. -/
inductive Directive where
  | blank
  | char (c : UInt8)
  | set (accept : UInt8 → Bool)

/-- **`sscanf`**: the strings converted before a directive fails. -/
def scan : List Directive → Str → List Str
  | [], _ => []
  | .blank :: ds, s => scan ds (stripLeft s)
  | .char _ :: _, [] => []
  | .char c :: ds, d :: s => if d = c then scan ds s else []
  | .set p :: ds, s =>
    -- a conversion needs one byte at least
    if s.takeWhile p = [] then [] else s.takeWhile p :: scan ds (s.dropWhile p)

section Scan

variable {ds : List Directive} {p : UInt8 → Bool} {a b : Str} {c : UInt8}

@[simp] theorem scan_nil {s : Str} : scan [] s = [] := by
  unfold scan
  rfl

@[simp] theorem scan_blank {s : Str} : scan (.blank :: ds) s = scan ds (stripLeft s) := by
  conv_lhs => unfold scan

@[simp] theorem scan_char_nil : scan (.char c :: ds) [] = [] := by
  unfold scan
  rfl

@[simp] theorem scan_char_cons {d : UInt8} :
    scan (.char c :: ds) (d :: b) = if d = c then scan ds b else [] := by
  conv_lhs => unfold scan

theorem scan_set {s : Str} : scan (.set p :: ds) s =
    if s.takeWhile p = [] then [] else s.takeWhile p :: scan ds (s.dropWhile p) := by
  conv_lhs => unfold scan

/-- **A conversion stops at the first byte it does not accept.** -/
theorem scan_set_append (ha : a ≠ []) (hp : ∀ d ∈ a, p d) (hc : p c = false) :
    scan (.set p :: ds) (a ++ c :: b) = a :: scan ds (c :: b) := by
  have htake : (a ++ c :: b).takeWhile p = a := by
    rw [List.takeWhile_append_of_pos hp, List.takeWhile_cons_of_neg (by simp [hc]), List.append_nil]
  have hdrop : (a ++ c :: b).dropWhile p = c :: b := by
    rw [List.dropWhile_append_of_pos hp, List.dropWhile_cons_of_neg (by simp [hc])]
  rw [scan_set, htake, hdrop, if_neg ha]

theorem all_ne (hno : c ∉ a) : ∀ d ∈ a, decide (d ≠ c) = true := by
  rintro d hd
  exact decide_eq_true fun h : d = c => hno (h ▸ hd)

/-- Everything up to a byte that does not occur before. -/
theorem scan_set_until (ha : a ≠ []) (hno : c ∉ a) :
    scan (.set (· ≠ c) :: ds) (a ++ c :: b) = a :: scan ds (c :: b) :=
  scan_set_append ha (all_ne hno) (by simp)

theorem scan_set_all (ha : a ≠ []) (hp : ∀ d ∈ a, p d) :
    scan (.set p :: ds) a = a :: scan ds [] := by
  rw [scan_set, List.takeWhile_eq_self_iff.mpr hp, List.dropWhile_eq_nil_iff.mpr hp, if_neg ha]

/-- A conversion fails at the first byte. -/
theorem scan_set_cons (hc : p c = false) : scan (.set p :: ds) (c :: b) = [] := by
  simp [scan_set, hc]

theorem scan_set_nil : scan (.set p :: ds) [] = [] := by
  simp [scan_set]

/-- **What is converted is part of the string.** -/
theorem subset_of_mem_scan {s w : Str} (h : w ∈ scan ds s) : w ⊆ s := by
  induction ds generalizing s with
  | nil => simp at h
  | cons d ds ih =>
    cases d with
    | blank =>
      rw [scan_blank] at h
      exact fun _ hx => (List.dropWhile_sublist _).subset (ih h hx)
    | char c =>
      cases s with
      | nil => simp at h
      | cons e s =>
        rw [scan_char_cons] at h
        split at h
        · exact fun _ hx => List.mem_cons_of_mem _ (ih h hx)
        · simp at h
    | set p =>
      rw [scan_set] at h
      split at h
      · simp at h
      · rcases List.mem_cons.mp h with rfl | h
        · exact (List.takeWhile_sublist _).subset
        · exact fun _ hx => (List.dropWhile_sublist _).subset (ih h hx)

/-- A conversion has one byte at least, and accepts all its bytes. -/
theorem scan_set_eq_cons {s w : Str} {ws : List Str} (h : scan (.set p :: ds) s = w :: ws) :
    w ≠ [] ∧ w = s.takeWhile p ∧ ws = scan ds (s.dropWhile p) := by
  rw [scan_set] at h
  split at h
  · simp at h
  · next hne =>
    obtain ⟨rfl, rfl⟩ := List.cons.inj h
    exact ⟨hne, rfl, rfl⟩

end Scan

end Text
