import Mathlib.Data.Nat.Find
import RkIpc.Network.Dns
import RkIpc.Text.Scan
import RkIpc.Text.Token

/-!
# The name servers of a file

A line of `/etc/resolv.conf` with a name server has the word, blanks or tabs, and an address. What
`rk_network_dns_get` takes for such a line is another matter: the file comes in pieces of at most
127 bytes, a newline is looked for in a buffer that keeps what longer pieces have left, and two
bytes are asked for behind the last `er ` in front of it. The two strings keep what they hold when
there is nothing to store. `ser_rk_network_dns_get` has 64 bytes for each of them.

## Main definitions

* `address?`, `addresses`: the addresses of a file
* `Taken`: what is taken for a line with a name server
* `ParsesResolv`: what is expected
* `Counts`, `ReadAsIs`: lines that are taken, and lines that are taken for what they are
* `BeginsReadable`: files that begin with such lines

## Main results

* `nameserverLine_iff`: the test that a piece has to pass
* `rkNetworkDnsGet_eq`: the first two of these pieces count
* `takenIn_lines`: what is taken of lines of any length
* `ParsesResolv.two_le_length`: the result is as expected with two addresses only
* `parsesResolv_of_beginsReadable`: and it is for files that begin with such lines
* `unended_resolv`: a file for which it is not
-/

namespace RkIpc.Network

/-! ## The format -/

/-- A blank or a tab. -/
def isBlank (c : UInt8) : Bool := c == 32 || c == 9

/-- What ends an address. -/
def endsWord (c : UInt8) : Bool := isSpace c || c == 0

/-- **The address of a line**: the word, at least one blank or tab, and the address. -/
def address? (line : List UInt8) : Option (List UInt8) :=
  if nameserver <+: line ∧ ((line.drop 10).head?.any isBlank) then
    let word := ((line.drop 10).dropWhile isBlank).takeWhile (! endsWord ·)
    if word = [] then none else some word
  else none

/-- The addresses of a file. -/
def addresses (content : List UInt8) : List (List UInt8) :=
  (content.splitOn newline).filterMap address?

/-- **The first two addresses are reported**, whatever the two strings hold before; for one that is
missing, the string is empty. What is stored fits into the arrays of `ser_rk_network_dns_get`. -/
structure ParsesResolv (content : List UInt8) : Prop where
  result : ∀ dns dns2, rkNetworkDnsGet (some content) dns dns2 =
    (min 2 ((addresses content).length : ℤ), (addresses content)[0]?.getD [],
      (addresses content)[1]?.getD [])
  fits : ∀ dns dns2, dns.length < 64 → dns2.length < 64 →
    (rkNetworkDnsGet (some content) dns dns2).2.1.length < 64 ∧
      (rkNetworkDnsGet (some content) dns dns2).2.2.length < 64

/-! ## The test -/

/-- `er ` stands at `i`. -/
def ErAt (buf : ℕ → UInt8) (i : ℕ) : Prop := buf i = 101 ∧ buf (i + 1) = 114 ∧ buf (i + 2) = 32

instance (buf : ℕ → UInt8) (i : ℕ) : Decidable (ErAt buf i) := inferInstanceAs (Decidable (_ ∧ _))

/-- **What is taken for a line with a name server**: the word, and a newline in the first 127 bytes,
with two bytes between it and every `er ` in front of it. -/
structure Taken (buf : ℕ → UInt8) : Prop where
  word : (List.range 10).map buf = nameserver
  line : ∃ n ≤ 126, buf n = newline ∧ (∀ i < n, buf i ≠ newline) ∧ ∀ i < n, ErAt buf i → i + 4 < n

section Scan

variable {buf : ℕ → UInt8} {n i k : ℕ} {start : ℤ}

/-- The scan up to a newline: what counts is behind every `er `. -/
theorem dnsScan_newline (hik : i ≤ k) (hkn : k < i + n) (hi : 1 ≤ i) (hstart : start ≤ i + 1)
    (hk : buf k = newline) (hfirst : ∀ j, i ≤ j → j < k → buf j ≠ newline) :
    0 < (dnsScan buf n i start).2 - (dnsScan buf n i start).1 ↔
      start + 1 < k ∧ ∀ j, i ≤ j → j < k → ErAt buf (j - 1) → j + 3 < k := by
  induction n generalizing i start with
  | zero => omega
  | succ n ih =>
    have her : ErAt buf (i - 1) ↔ buf (i - 1) = 101 ∧ buf i = 114 ∧ buf (i + 1) = 32 := by
      rw [ErAt, show i - 1 + 1 = i by omega, show i - 1 + 2 = i + 1 by omega]
    rw [dnsScan]
    simp only [← her]
    by_cases hnl : buf i = newline
    · have hki : k = i := by
        by_contra hne
        exact hfirst i (le_refl i) (by omega) hnl
      subst hki
      have hno : ¬ ErAt buf (k - 1) := fun h => by
        rw [her, hnl] at h
        exact absurd h.2.1 (by decide)
      rw [if_pos hnl, if_neg hno]
      constructor
      · intro h
        exact ⟨by omega, by omega⟩
      · rintro ⟨h, -⟩
        omega
    · have hlt : i < k := by
        by_contra hge
        exact hnl ((show i = k by omega) ▸ hk)
      rw [if_neg hnl]
      by_cases hat : ErAt buf (i - 1)
      · rw [if_pos hat, ih (by omega) (by omega) (by omega) (by push_cast; omega)
          fun j hj => hfirst j (by omega)]
        constructor
        · rintro ⟨h, hall⟩
          refine ⟨by omega, fun j hj hjk hatj => ?_⟩
          rcases Nat.eq_or_lt_of_le hj with rfl | hj
          · omega
          · exact hall j hj hjk hatj
        · rintro ⟨-, hall⟩
          have := hall i (le_refl i) hlt hat
          exact ⟨by omega, fun j hj => hall j (by omega)⟩
      · rw [if_neg hat, ih (by omega) (by omega) (by omega) (by push_cast; omega)
          fun j hj => hfirst j (by omega)]
        refine and_congr_right fun _ =>
          ⟨fun hall j hj hjk hatj => ?_, fun hall j hj => hall j (by omega)⟩
        rcases Nat.eq_or_lt_of_le hj with rfl | hj
        · exact absurd hatj hat
        · exact hall j hj hjk hatj

/-- A scan that finds no newline. -/
theorem dnsScan_of_no_newline (hstart : 0 ≤ start) (h : ∀ j, i ≤ j → j < i + n → buf j ≠ newline) :
    (dnsScan buf n i start).2 = 0 ∧ 0 ≤ (dnsScan buf n i start).1 := by
  induction n generalizing i start with
  | zero => exact ⟨rfl, hstart⟩
  | succ n ih =>
    rw [dnsScan, if_neg (h i (le_refl i) (by omega))]
    refine ih ?_ fun j hj hjn => h j (by omega) (by omega)
    split
    · omega
    · exact hstart

end Scan

theorem range_map_eq_iff {buf : ℕ → UInt8} {s : List UInt8} :
    (List.range s.length).map buf = s ↔ ∀ i < s.length, s[i]? = some (buf i) := by
  constructor
  · intro h i hi
    rw [← h]
    simp [hi]
  · intro h
    refine List.ext_getElem? fun i => ?_
    by_cases hi : i < s.length
    · rw [h i hi]
      simp [hi]
    · simp [hi]

theorem range_map_eq_nameserver_iff {buf : ℕ → UInt8} :
    (List.range 10).map buf = nameserver ↔ ∀ i < 10, nameserver[i]? = some (buf i) :=
  range_map_eq_iff (s := nameserver)

/-- No newline is in the word. -/
theorem ne_newline_of_word {buf : ℕ → UInt8} (h : (List.range 10).map buf = nameserver) {i : ℕ}
    (hi : i < 10) : buf i ≠ newline := by
  intro hnl
  have hmem : buf i ∈ (List.range 10).map buf := List.mem_map_of_mem (List.mem_range.2 hi)
  rw [h, hnl] at hmem
  exact absurd hmem (by decide)

/-- **The test a piece has to pass.** -/
theorem nameserverLine_iff (buf : ℕ → UInt8) : nameserverLine buf = true ↔ Taken buf := by
  rw [nameserverLine, Bool.and_eq_true, decide_eq_true_iff, decide_eq_true_iff]
  by_cases hword : (List.range 10).map buf = nameserver
  · by_cases hnl : ∃ n ≤ 126, buf n = newline
    · obtain ⟨hle, hbuf⟩ := Nat.find_spec hnl
      have hfirst : ∀ i < Nat.find hnl, buf i ≠ newline := fun i hi h =>
        Nat.find_min hnl hi ⟨by omega, h⟩
      generalize Nat.find hnl = n at hle hbuf hfirst
      have hten : 10 ≤ n := by
        by_contra hlt
        exact ne_newline_of_word hword (by omega) hbuf
      rw [gt_iff_lt, dnsScan_newline (by omega) (by omega) (le_refl 1) (by omega) hbuf
        fun j _ => hfirst j]
      constructor
      · rintro ⟨-, -, hall⟩
        refine ⟨hword, n, hle, hbuf, hfirst, fun i hi hat => ?_⟩
        have hne : i + 1 ≠ n := fun h => by
          rw [← h, hat.2.1] at hbuf
          exact absurd hbuf (by decide)
        exact hall (i + 1) (by omega) (by omega) hat
      · rintro ⟨-, m, -, hm, hmin, hall⟩
        have hmn : m = n := by
          by_contra hne
          rcases Nat.lt_or_gt_of_ne hne with h | h
          · exact hfirst m h hm
          · exact hmin n h hbuf
        subst hmn
        exact ⟨hword, by omega, fun j hj hjm hat => by have := hall (j - 1) (by omega) hat; omega⟩
    · have hno := dnsScan_of_no_newline (n := 126) (i := 1) (le_refl 0)
        fun j _ hj h => hnl ⟨j, by omega, h⟩
      refine iff_of_false (fun h => ?_) ?_
      · omega
      · rintro ⟨-, n, hn, h, -⟩
        exact hnl ⟨n, hn, h⟩
  · exact iff_of_false (fun h => hword h.1) fun h => hword h.word

/-! ## The first two -/

/-- The string in a buffer. -/
def textOf (buf : ℕ → UInt8) : List UInt8 := ((List.range 128).map buf).takeWhile (· ≠ 0)

/-- The second word of a string. -/
def secondOf (s : List UInt8) : List UInt8 :=
  (((s.dropWhile isSpace).dropWhile (! isSpace ·)).dropWhile isSpace).takeWhile (! isSpace ·)

/-- The second word in a buffer, if there is one. -/
def word? (buf : ℕ → UInt8) : Option (List UInt8) :=
  if secondOf (textOf buf) = [] then none else some (secondOf (textOf buf))

theorem secondWord_eq (buf : ℕ → UInt8) (dns : List UInt8) :
    secondWord buf dns = (word? buf).getD dns := by
  have hdef : secondWord buf dns =
    if secondOf (textOf buf) = [] then dns else secondOf (textOf buf) := rfl
  rw [hdef, word?]
  split <;> rfl

theorem ne_nil_of_word? {buf : ℕ → UInt8} {w : List UInt8} (h : word? buf = some w) : w ≠ [] := by
  unfold word? at h
  split at h
  · cases h
  · next hne => exact Option.some.inj h ▸ hne

/-- What is taken, in the order of the file. -/
def takenIn (lines : List (List UInt8)) (buf : ℕ → UInt8) : List (ℕ → UInt8) :=
  (dnsBuffers lines buf).filter nameserverLine

theorem takenIn_cons (line : List UInt8) (lines : List (List UInt8)) (buf : ℕ → UInt8) :
    takenIn (line :: lines) buf = if nameserverLine (fgetsInto buf line) then
      fgetsInto buf line :: takenIn lines (fgetsInto buf line)
    else takenIn lines (fgetsInto buf line) := by
  rw [takenIn, dnsBuffers, List.filter_cons]
  rfl

/-- After one is found. -/
theorem dnsLoop_one (lines : List (List UInt8)) (buf : ℕ → UInt8) (dns dns2 : List UInt8) :
    dnsLoop lines buf 1 dns dns2 = (1 + min 1 ((takenIn lines buf).length : ℤ), dns,
      ((takenIn lines buf)[0]?.bind word?).getD dns2) := by
  induction lines generalizing buf with
  | nil => rfl
  | cons line lines ih =>
    rw [dnsLoop, takenIn_cons]
    by_cases h : nameserverLine (fgetsInto buf line)
    · simp [h, secondWord_eq]
    · simp [h, ih]

/-- **`rk_network_dns_get`**: the first two that are taken. -/
theorem rkNetworkDnsGet_eq (content dns dns2 : List UInt8) :
    rkNetworkDnsGet (some content) dns dns2 =
      (min 2 ((takenIn (fgetsAll [] content) fun _ => 0).length : ℤ),
        ((takenIn (fgetsAll [] content) fun _ => 0)[0]?.bind word?).getD dns,
        ((takenIn (fgetsAll [] content) fun _ => 0)[1]?.bind word?).getD dns2) := by
  rw [rkNetworkDnsGet]
  generalize (fun _ => (0 : UInt8)) = buf
  induction fgetsAll [] content generalizing buf with
  | nil => rfl
  | cons line lines ih =>
    rw [dnsLoop, takenIn_cons]
    by_cases h : nameserverLine (fgetsInto buf line)
    · have hlen : (1 : ℤ) + min 1 ((takenIn lines (fgetsInto buf line)).length : ℤ) =
          min 2 (((takenIn lines (fgetsInto buf line)).length : ℤ) + 1) := by omega
      simp [h, secondWord_eq, dnsLoop_one, hlen]
    · simp [h, ih]

/-! ## When the result is as expected -/

/-- **The first two buffers that are taken** hold the first two addresses, which fit. -/
theorem parsesResolv_of_takenIn {content w w' : List UInt8} {more : List (Option (List UInt8))}
    {as : List (List UInt8)} (haddresses : addresses content = w :: w' :: as)
    (htaken : (takenIn (fgetsAll [] content) fun _ => 0).map word? = some w :: some w' :: more)
    (hw : w.length < 64) (hw' : w'.length < 64) : ParsesResolv content := by
  have hresult : ∀ dns dns2, rkNetworkDnsGet (some content) dns dns2 = (2, w, w') := by
    intro dns dns2
    rw [rkNetworkDnsGet_eq]
    generalize (takenIn (fgetsAll [] content) fun _ => 0) = taken at htaken ⊢
    match taken with
    | [] => simp at htaken
    | [_] => simp at htaken
    | t :: t' :: taken =>
      obtain ⟨ht, ht', -⟩ : word? t = some w ∧ word? t' = some w' ∧ taken.map word? = more := by
        simpa using htaken
      simp only [List.getElem?_cons_zero, List.getElem?_cons_succ, Option.bind_some, ht, ht',
        Option.getD_some, List.length_cons, Prod.mk.injEq, and_true]
      omega
  refine ⟨fun dns dns2 => ?_, fun dns dns2 _ _ => ?_⟩
  · rw [hresult, haddresses]
    simp only [List.length_cons, List.getElem?_cons_zero, List.getElem?_cons_succ,
      Option.getD_some, Prod.mk.injEq, and_true]
    omega
  · rw [hresult]
    exact ⟨hw, hw'⟩

/-- **There must be two addresses**: a string that is not written keeps what it holds. -/
theorem ParsesResolv.two_le_length {content : List UInt8} (h : ParsesResolv content) :
    2 ≤ (addresses content).length := by
  have hsecond := congrArg (·.2.2) (h.result [] [1])
  rw [rkNetworkDnsGet_eq] at hsecond
  dsimp only at hsecond
  by_contra hlt
  have hmissing : (addresses content)[1]? = none := List.getElem?_eq_none (by omega)
  rw [hmissing, Option.getD_none] at hsecond
  -- a word that is stored is not empty
  cases hword : (takenIn (fgetsAll [] content) fun _ => 0)[1]?.bind word? with
  | none =>
    rw [hword] at hsecond
    cases hsecond
  | some w =>
    obtain ⟨t, -, ht⟩ := Option.bind_eq_some_iff.1 hword
    rw [hword] at hsecond
    exact ne_nil_of_word? ht hsecond

/-! ## The address of a line -/

section Parts

variable {p : UInt8 → Bool} {s t : List UInt8}

/-- What is in front of the first byte that does not fit. -/
theorem takeWhile_parts (hs : ∀ c ∈ s, p c = true) (ht : ∀ c ∈ t.head?, p c = false) :
    (s ++ t).takeWhile p = s := by
  rw [List.takeWhile_append_of_pos hs]
  cases t with
  | nil => simp
  | cons c t => simp [ht c rfl]

/-- What is behind it. -/
theorem dropWhile_parts (hs : ∀ c ∈ s, p c = true) (ht : ∀ c ∈ t.head?, p c = false) :
    (s ++ t).dropWhile p = t := by
  rw [List.dropWhile_append_of_pos hs]
  cases t with
  | nil => rfl
  | cons c t => exact List.dropWhile_cons_of_neg (by simp [ht c rfl])

/-- The first byte of a text is one of the first part, if there is one. -/
theorem head?_append_mem (hne : s ≠ []) : ∀ c ∈ (s ++ t).head?, c ∈ s := by
  obtain ⟨b, s, rfl⟩ := List.exists_cons_of_ne_nil hne
  rintro c ⟨⟩
  exact List.mem_cons_self

end Parts

theorem endsWord_of_isBlank {c : UInt8} (h : isBlank c = true) : endsWord c = true := by
  simp only [isBlank, Bool.or_eq_true, beq_iff_eq] at h
  rcases h with rfl | rfl <;> decide

/-- What stands on a line with an address. -/
structure HasAddress (line w blanks rest : List UInt8) : Prop where
  eq : line = nameserver ++ (blanks ++ (w ++ rest))
  blanks_ne : blanks ≠ []
  word_ne : w ≠ []
  blanks : ∀ c ∈ blanks, isBlank c = true
  word : ∀ c ∈ w, endsWord c = false
  rest : ∀ c ∈ rest.head?, endsWord c = true

theorem drop_nameserver (s : List UInt8) : (nameserver ++ s).drop 10 = s := rfl

theorem exists_hasAddress {line w : List UInt8} (h : address? line = some w) :
    ∃ blanks rest, HasAddress line w blanks rest := by
  unfold address? at h
  split at h
  · next hline =>
    obtain ⟨⟨s, rfl⟩, hblank⟩ := hline
    rw [drop_nameserver] at h hblank
    dsimp only at h
    split at h
    · cases h
    · next hne =>
      refine ⟨s.takeWhile isBlank, (s.dropWhile isBlank).dropWhile (! endsWord ·), ?_, ?_, ?_, ?_,
        ?_, ?_⟩
      · rw [← Option.some.inj h, List.takeWhile_append_dropWhile, List.takeWhile_append_dropWhile]
      · cases s with
        | nil => simp at hblank
        | cons c s => simp_all
      · exact Option.some.inj h ▸ hne
      · exact fun c hc => List.mem_takeWhile_imp hc
      · intro c hc
        rw [← Option.some.inj h] at hc
        simpa using List.mem_takeWhile_imp hc
      · intro c hc
        have := List.head?_dropWhile_not (! endsWord ·) (s.dropWhile isBlank)
        rw [Option.mem_def.1 hc] at this
        simpa using this
  · cases h

theorem HasAddress.address? {line w blanks rest : List UInt8} (h : HasAddress line w blanks rest) :
    address? line = some w := by
  obtain ⟨rfl, hblanks_ne, hword_ne, hblanks, hword, hrest⟩ := h
  have hnotBlank : ∀ c ∈ (w ++ rest).head?, isBlank c = false := fun c hc => by
    rw [← Bool.not_eq_true]
    intro hblank
    have hends := hword c (head?_append_mem hword_ne c hc)
    rw [endsWord_of_isBlank hblank] at hends
    cases hends
  have hhead : (blanks ++ (w ++ rest)).head?.any isBlank := by
    obtain ⟨b, bs, rfl⟩ := List.exists_cons_of_ne_nil hblanks_ne
    exact hblanks b List.mem_cons_self
  rw [RkIpc.Network.address?, drop_nameserver, if_pos ⟨List.prefix_append _ _, hhead⟩,
    dropWhile_parts hblanks hnotBlank,
    takeWhile_parts (fun c hc => by rw [hword c hc]; rfl) fun c hc => by rw [hrest c hc]; rfl]
  exact if_neg hword_ne

/-- The string of a line ends at a terminator, which is behind the address. -/
theorem HasAddress.exists_string {line w blanks rest : List UInt8}
    (h : HasAddress line w blanks rest) : ∃ r, (line ++ [newline]).takeWhile (· ≠ 0) =
      nameserver ++ (blanks ++ (w ++ r)) ∧ ∀ c ∈ r.head?, isSpace c = true := by
  obtain ⟨rfl, -, -, hblanks, hword, hrest⟩ := h
  have hzero : ∀ c ∈ nameserver ++ (blanks ++ w), decide (c ≠ 0) = true := by
    intro c hc
    rw [decide_eq_true_iff]
    rintro rfl
    rcases List.mem_append.1 hc with hc | hc
    · exact absurd hc (by decide)
    · rcases List.mem_append.1 hc with hc | hc
      · exact absurd (hblanks 0 hc) (by decide)
      · exact absurd (hword 0 hc) (by decide)
  refine ⟨(rest ++ [newline]).takeWhile (· ≠ 0), ?_, ?_⟩
  · rw [show (nameserver ++ (blanks ++ (w ++ rest))) ++ [newline] =
      (nameserver ++ (blanks ++ w)) ++ (rest ++ [newline]) by simp only [List.append_assoc],
      List.takeWhile_append_of_pos hzero]
    simp only [List.append_assoc]
  · cases rest with
    | nil =>
      rintro _ ⟨⟩
      rfl
    | cons c rest =>
      have hc := hrest c rfl
      simp only [endsWord, Bool.or_eq_true, beq_iff_eq] at hc
      by_cases h0 : c = 0
      · simp [h0]
      · simpa [h0] using hc

/-- `sscanf` finds the address as well. -/
theorem HasAddress.secondOf {line w blanks rest : List UInt8} (h : HasAddress line w blanks rest) :
    secondOf ((line ++ [newline]).takeWhile (· ≠ 0)) = w := by
  obtain ⟨r, htext, hr⟩ := h.exists_string
  have hspace : ∀ c ∈ blanks, isSpace c = true := fun c hc => by
    have hblank := h.blanks c hc
    simp only [isBlank, Bool.or_eq_true, beq_iff_eq] at hblank
    rcases hblank with rfl | rfl <;> decide
  have hplain : ∀ c ∈ w, isSpace c = false := fun c hc => by
    have hends := h.word c hc
    rw [endsWord, Bool.or_eq_false_iff] at hends
    exact hends.1
  have hname : ∀ c ∈ nameserver, (! isSpace c) = true := by decide
  rw [htext, RkIpc.Network.secondOf,
    show (nameserver ++ (blanks ++ (w ++ r))).dropWhile isSpace =
      nameserver ++ (blanks ++ (w ++ r)) from rfl,
    dropWhile_parts hname fun c hc => by rw [hspace c (head?_append_mem h.blanks_ne c hc)]; rfl,
    dropWhile_parts hspace fun c hc => hplain c (head?_append_mem h.word_ne c hc),
    takeWhile_parts (fun c hc => by rw [hplain c hc]; rfl) fun c hc => by rw [hr c hc]; rfl]

/-! ## Lines -/

/-- What is read last of a line, up to its newline: whole pieces of 127 bytes are in front of it. -/
def lastPiece (line : List UInt8) : List UInt8 := line.drop (127 * (line.length / 127))

/-- Two bytes stand behind every `er `. -/
def BehindEr (p : List UInt8) : Prop :=
  ∀ i < p.length, (p)[i]? = some 101 → (p)[i + 1]? = some 114 → (p)[i + 2]? = some 32 →
    i + 4 < p.length

instance (p : List UInt8) : Decidable (BehindEr p) :=
  inferInstanceAs (Decidable (∀ i < p.length, _ → _ → _ → _))

/-- **A line counts**: what is read last of it begins with the word, with two bytes behind every
`er `. -/
def Counts (line : List UInt8) : Prop :=
  nameserver <+: lastPiece line ∧ BehindEr (lastPiece line)

instance (line : List UInt8) : Decidable (Counts line) := inferInstanceAs (Decidable (_ ∧ _))

/-- **A line is read as what it is**: it does not count unless it has an address, and if it has one,
it fits into the buffer with its newline, the address fits into its array, and two bytes stand
behind every `er `. -/
structure ReadAsIs (line : List UInt8) : Prop where
  counts : Counts line → (address? line).isSome
  address : ∀ w ∈ address? line, line.length ≤ 126 ∧ w.length < 64 ∧ BehindEr line

instance (line : List UInt8) : Decidable (ReadAsIs line) :=
  decidable_of_iff ((Counts line → (address? line).isSome) ∧
    ∀ w ∈ address? line, line.length ≤ 126 ∧ w.length < 64 ∧ BehindEr line)
    ⟨fun h => ⟨h.1, h.2⟩, fun h => ⟨h.1, h.2⟩⟩

/-- **A file begins with lines that are read as what they are**, each with its newline, and two of
them have an address. -/
def BeginsReadable (content : List UInt8) : Prop :=
  ∃ (lines : List (List UInt8)) (rest : List UInt8),
    content = lines.flatMap (· ++ [newline]) ++ rest ∧
      (∀ line ∈ lines, newline ∉ line ∧ ReadAsIs line) ∧ (lines.filterMap address?).length = 2

section Lines

variable {buf : ℕ → UInt8} {line p : List UInt8} {i : ℕ}

theorem fgetsInto_of_lt (buf : ℕ → UInt8) {p : List UInt8} (h : i < p.length) :
    p[i]? = some (fgetsInto buf p i) := by
  rw [fgetsInto, List.getElem?_append_left h, List.getElem?_eq_getElem h, Option.getD_some]

theorem fgetsInto_line (buf : ℕ → UInt8) (h : i < line.length) :
    (line)[i]? = some (fgetsInto buf (line ++ [newline]) i) := by
  rw [← fgetsInto_of_lt buf (by rw [List.length_append]; omega), List.getElem?_append_left h]

theorem fgetsInto_newline (buf : ℕ → UInt8) (line : List UInt8) :
    fgetsInto buf (line ++ [newline]) line.length = newline := by
  have h := fgetsInto_of_lt buf (show line.length < (line ++ [newline]).length by simp)
  rw [List.getElem?_concat_length] at h
  exact (Option.some.inj h).symm

theorem takeWhile_append_zero (p r : List UInt8) :
    (p ++ 0 :: r).takeWhile (· ≠ 0) = p.takeWhile (· ≠ 0) := by
  induction p with
  | nil => simp
  | cons c p ih => rw [List.cons_append, List.takeWhile_cons, List.takeWhile_cons, ih]

/-- The string in the buffer after a piece. -/
theorem textOf_fgetsInto {p : List UInt8} (h : p.length ≤ 127) :
    textOf (fgetsInto buf p) = p.takeWhile (· ≠ 0) := by
  have hpiece : (List.range p.length).map (fgetsInto buf p) = p :=
    range_map_eq_iff.2 fun i hi => fgetsInto_of_lt buf hi
  have hzero : fgetsInto buf p p.length = 0 := by simp [fgetsInto]
  rw [textOf, show 128 = p.length + (1 + (127 - p.length)) by omega, List.range_add,
    List.map_append, hpiece, List.range_add, List.map_append, List.map_append, List.range_one,
    List.map_singleton, List.map_singleton, Nat.add_zero, hzero, List.singleton_append,
    takeWhile_append_zero]

/-- **A piece with a newline** is taken if it begins with the word, with two bytes behind every
`er `. -/
theorem taken_piece_iff (hshort : p.length ≤ 126) (hnewline : newline ∉ p) (buf : ℕ → UInt8) :
    Taken (fgetsInto buf (p ++ [newline])) ↔ nameserver <+: p ∧ BehindEr p := by
  have hnl := fgetsInto_newline buf p
  have hlt : ∀ i < p.length, fgetsInto buf (p ++ [newline]) i ≠ newline := fun i hi hbuf =>
    hnewline (List.mem_of_getElem? (hbuf ▸ fgetsInto_line buf hi))
  have hten : nameserver.length = 10 := rfl
  constructor
  · rintro ⟨hword, n, -, hn, hfirst, hall⟩
    have hlen : 10 ≤ p.length := by
      by_contra hlen
      exact ne_newline_of_word hword (by omega) hnl
    -- the newline is the one the piece ends with
    obtain rfl : p.length = n := by
      rcases Nat.lt_trichotomy p.length n with h | h | h
      · exact absurd hnl (hfirst _ h)
      · exact h
      · exact absurd hn (hlt n h)
    refine ⟨List.prefix_iff_eq_take.2 (List.ext_getElem? fun i => ?_), fun i hi h0 h1 h2 => ?_⟩
    · -- the first ten bytes are the word
      rw [hten]
      by_cases hi : i < 10
      · rw [List.getElem?_take_of_lt hi]
        exact (range_map_eq_nameserver_iff.1 hword i hi).trans
          (fgetsInto_line buf (by omega)).symm
      · rw [List.getElem?_eq_none (by omega), List.getElem?_eq_none (by
          rw [List.length_take]
          omega)]
    · -- an `er ` of the piece is one of the buffer
      have hi1 := (List.getElem?_eq_some_iff.1 h1).1
      have hi2 := (List.getElem?_eq_some_iff.1 h2).1
      rw [fgetsInto_line buf hi] at h0
      rw [fgetsInto_line buf hi1] at h1
      rw [fgetsInto_line buf hi2] at h2
      exact hall i hi ⟨Option.some.inj h0, Option.some.inj h1, Option.some.inj h2⟩
  · rintro ⟨hserver, hbehind⟩
    refine ⟨range_map_eq_nameserver_iff.2 fun i hi => ?_, _, hshort, hnl, hlt, fun i hi hat => ?_⟩
    · have hline := List.prefix_iff_getElem?.1 hserver i hi
      rw [← fgetsInto_line buf (hi.trans_le hserver.length_le), hline, List.getElem?_eq_getElem hi]
    · obtain ⟨h0, h1, h2⟩ := hat
      -- the newline is no part of it
      have hi1 : i + 1 < p.length := by
        by_contra hge
        rw [show i + 1 = p.length by omega, hnl] at h1
        exact absurd h1 (by decide)
      have hi2 : i + 2 < p.length := by
        by_contra hge
        rw [show i + 2 = p.length by omega, hnl] at h2
        exact absurd h2 (by decide)
      exact hbehind i hi (h0 ▸ fgetsInto_line buf hi) (h1 ▸ fgetsInto_line buf hi1)
        (h2 ▸ fgetsInto_line buf hi2)

/-- **A whole piece without a newline** is not taken: none is left in front of the terminator. -/
theorem not_taken_full (hlen : p.length = 127) (hnewline : newline ∉ p) (buf : ℕ → UInt8) :
    ¬ Taken (fgetsInto buf p) := by
  rintro ⟨-, n, hn, hbuf, -⟩
  have hat := fgetsInto_of_lt buf (show n < p.length by omega)
  exact hnewline (List.mem_of_getElem? (hbuf ▸ hat))

theorem takenIn_cons_of_not (h : ¬ Taken (fgetsInto buf p)) (ps : List (List UInt8)) :
    takenIn (p :: ps) buf = takenIn ps (fgetsInto buf p) := by
  rw [takenIn_cons, if_neg fun ht => h ((nameserverLine_iff _).1 ht)]

/-- A piece is read up to its newline. -/
theorem fgetsAll_line {piece rest : List UInt8} (hshort : piece.length + line.length ≤ 126)
    (h : newline ∉ line) :
    fgetsAll piece (line ++ newline :: rest) =
      (piece ++ line ++ [newline]) :: fgetsAll [] rest := by
  induction line generalizing piece with
  | nil => rw [List.nil_append, fgetsAll, if_pos (.inl rfl), List.append_nil]
  | cons c line ih =>
    have hc : ¬ (c = newline ∨ piece.length + 1 = 127) := by
      rintro (rfl | hlen)
      · exact h List.mem_cons_self
      · simp only [List.length_cons] at hshort
        omega
    rw [List.cons_append, fgetsAll, if_neg hc, ih (by simp at hshort ⊢; omega)
      (List.not_mem_of_not_mem_cons h)]
    simp

/-- A piece is full with 127 bytes. -/
theorem fgetsAll_full {piece rest : List UInt8} (hlen : piece.length + p.length = 127)
    (hne : p ≠ []) (h : newline ∉ p) :
    fgetsAll piece (p ++ rest) = (piece ++ p) :: fgetsAll [] rest := by
  induction p generalizing piece with
  | nil => exact absurd rfl hne
  | cons c p ih =>
    have hc : c ≠ newline := fun hc => h (hc ▸ List.mem_cons_self)
    rw [List.length_cons] at hlen
    rw [List.cons_append, fgetsAll]
    -- the byte that fills the piece is its last one
    by_cases hfull : piece.length + 1 = 127
    · obtain rfl : p = [] := List.length_eq_zero_iff.mp (by omega)
      rw [if_pos (Or.inr hfull), List.nil_append]
    · have hp : p ≠ [] := by
        rintro rfl
        exact hfull (by simpa using hlen)
      rw [if_neg (not_or.mpr ⟨hc, hfull⟩),
        ih (by rw [List.length_append, List.length_singleton]; omega) hp
          (List.not_mem_of_not_mem_cons h)]
      simp

/-- What is read last of a line that fits is the line. -/
theorem lastPiece_of_short (h : line.length ≤ 126) : lastPiece line = line := by
  rw [lastPiece, Nat.div_eq_of_lt (by omega), Nat.mul_zero, List.drop_zero]

theorem lastPiece_drop (h : 127 ≤ line.length) : lastPiece (line.drop 127) = lastPiece line := by
  rw [lastPiece, lastPiece, List.drop_drop, List.length_drop]
  congr 1
  omega

/-- **Of a line of any length**, what is read last is taken, if anything is. -/
theorem takenIn_line (hnewline : newline ∉ line) (rest : List UInt8) (buf : ℕ → UInt8) :
    ∃ buf', takenIn (fgetsAll [] (line ++ newline :: rest)) buf =
      takenIn ((lastPiece line ++ [newline]) :: fgetsAll [] rest) buf' := by
  -- by induction on the length: a long line loses a piece that is not taken
  induction hn : line.length using Nat.strong_induction_on generalizing line buf with
  | _ n ih =>
    rcases Nat.lt_or_ge line.length 127 with hshort | hlong
    · refine ⟨buf, ?_⟩
      rw [fgetsAll_line (by simp only [List.length_nil]; omega) hnewline, List.nil_append,
        lastPiece_of_short (by omega)]
    · -- the first 127 bytes are a piece
      have hmem : ∀ c ∈ line.take 127, c ≠ newline := fun c hc h =>
        hnewline (h ▸ List.mem_of_mem_take hc)
      have hlen : (line.take 127).length = 127 := List.length_take_of_le hlong
      have hfull : fgetsAll [] (line ++ newline :: rest) =
          line.take 127 :: fgetsAll [] (line.drop 127 ++ newline :: rest) := by
        conv_lhs => rw [← List.take_append_drop 127 line, List.append_assoc]
        exact fgetsAll_full (by simpa using hlen) (List.ne_nil_of_length_pos (by omega))
          fun h => hmem _ h rfl
      obtain ⟨buf', h⟩ := ih (line.drop 127).length (by rw [List.length_drop]; omega)
        (fun h => hnewline (List.mem_of_mem_drop h)) (fgetsInto buf (line.take 127)) rfl
      refine ⟨buf', ?_⟩
      rw [hfull, takenIn_cons_of_not (not_taken_full hlen (fun h => hmem _ h rfl) buf), h,
        lastPiece_drop hlong]

theorem length_lastPiece_le (line : List UInt8) : (lastPiece line).length ≤ 126 := by
  rw [lastPiece, List.length_drop]
  omega

/-- **A line that is read as what it is** adds its address to what is taken. -/
theorem ReadAsIs.takenIn_line (h : ReadAsIs line) (hnewline : newline ∉ line)
    (rest : List UInt8) (buf : ℕ → UInt8) :
    ∃ buf', (takenIn (fgetsAll [] (line ++ newline :: rest)) buf).map word? =
      (address? line).toList.map some ++ (takenIn (fgetsAll [] rest) buf').map word? := by
  obtain ⟨buf', hline⟩ := RkIpc.Network.takenIn_line hnewline rest buf
  have hpiece := taken_piece_iff (length_lastPiece_le line)
    (fun h => hnewline (List.mem_of_mem_drop h)) buf'
  refine ⟨fgetsInto buf' (lastPiece line ++ [newline]), ?_⟩
  cases hw : address? line with
  | none =>
    -- it does not count
    have hnot : ¬ Taken (fgetsInto buf' (lastPiece line ++ [newline])) := fun ht => by
      have hsome := h.counts (hpiece.1 ht)
      rw [hw] at hsome
      cases hsome
    rw [hline, takenIn_cons_of_not hnot]
    rfl
  | some w =>
    obtain ⟨hshort, -, hbehind⟩ := h.address w hw
    obtain ⟨blanks, tail, haddress⟩ := exists_hasAddress hw
    -- the line fits, so what is read last is the line
    rw [lastPiece_of_short hshort] at hline hpiece ⊢
    have hserver : nameserver <+: line := haddress.eq ▸ List.prefix_append _ _
    have hword : word? (fgetsInto buf' (line ++ [newline])) = some w := by
      rw [word?, textOf_fgetsInto (by rw [List.length_append, List.length_singleton]; omega),
        haddress.secondOf, if_neg haddress.word_ne]
    rw [hline, takenIn_cons, if_pos ((nameserverLine_iff _).2 (hpiece.2 ⟨hserver, hbehind⟩)),
      List.map_cons, hword]
    rfl

/-- **What is taken of the lines** are their addresses. -/
theorem takenIn_lines {lines : List (List UInt8)}
    (h : ∀ line ∈ lines, newline ∉ line ∧ ReadAsIs line) (rest : List UInt8) (buf : ℕ → UInt8) :
    ∃ buf', (takenIn (fgetsAll [] (lines.flatMap (· ++ [newline]) ++ rest)) buf).map word? =
      (lines.filterMap address?).map some ++ (takenIn (fgetsAll [] rest) buf').map word? := by
  induction lines generalizing buf with
  | nil => exact ⟨buf, rfl⟩
  | cons line lines ih =>
    obtain ⟨hnewline, hread⟩ := h line List.mem_cons_self
    obtain ⟨buf₁, hline⟩ := hread.takenIn_line hnewline
      (lines.flatMap (· ++ [newline]) ++ rest) buf
    obtain ⟨buf₂, hlines⟩ := ih (fun l hl => h l (List.mem_cons_of_mem _ hl)) buf₁
    refine ⟨buf₂, ?_⟩
    rw [List.flatMap_cons, List.append_assoc, List.append_assoc, List.singleton_append, hline,
      hlines, ← List.append_assoc, ← List.map_append]
    cases haddress : address? line with
    | none => rw [List.filterMap_cons_none haddress]; rfl
    | some w => rw [List.filterMap_cons_some haddress]; rfl

/-- The addresses of lines, and of what stands behind them. -/
theorem addresses_lines {lines : List (List UInt8)} (h : ∀ line ∈ lines, newline ∉ line)
    (rest : List UInt8) : addresses (lines.flatMap (· ++ [newline]) ++ rest) =
      lines.filterMap address? ++ addresses rest := by
  induction lines with
  | nil => rfl
  | cons line lines ih =>
    have hrest := ih fun l hl => h l (List.mem_cons_of_mem _ hl)
    rw [addresses] at hrest ⊢
    rw [List.flatMap_cons, List.append_assoc, List.append_assoc, List.singleton_append,
      Text.splitOn_append_cons (h line List.mem_cons_self), List.filterMap_cons,
      List.filterMap_cons, hrest]
    cases address? line with
    | none => rfl
    | some w => rfl

/-- **Lines that are read as what they are**, two of them with an address, are read as expected. -/
theorem parsesResolv_of_lines {lines : List (List UInt8)}
    (hlines : ∀ line ∈ lines, newline ∉ line ∧ ReadAsIs line)
    (htwo : (lines.filterMap address?).length = 2) (rest : List UInt8) :
    ParsesResolv (lines.flatMap (· ++ [newline]) ++ rest) := by
  have haddresses := addresses_lines (fun l hl => (hlines l hl).1) rest
  obtain ⟨buf, htaken⟩ := takenIn_lines hlines rest fun _ => 0
  obtain ⟨w, w', hpair⟩ := List.length_eq_two.1 htwo
  have hfits : ∀ a ∈ [w, w'], a.length < 64 := fun a ha => by
    obtain ⟨line, hline, haddress⟩ := List.mem_filterMap.1 (hpair ▸ ha)
    exact ((hlines line hline).2.address a haddress).2.1
  rw [hpair] at haddresses htaken
  exact parsesResolv_of_takenIn haddresses htaken (hfits w (by simp)) (hfits w' (by simp))

/-- **A file that begins with lines that are read as what they are**, two of them with an address,
is read as expected. -/
theorem parsesResolv_of_beginsReadable {content : List UInt8} (h : BeginsReadable content) :
    ParsesResolv content := by
  obtain ⟨lines, rest, rfl, hlines, htwo⟩ := h
  exact parsesResolv_of_lines hlines htwo rest

end Lines

/-- A comment, two name servers with a blank and a tab, and a last line without a newline. -/
theorem parsesResolv_of_beginsReadable_options :
    ParsesResolv (Text.lit
      "# lan\nnameserver 8.8.8.8\noptions rotate\nnameserver\t1.1.1.1\nsearch lan") :=
  parsesResolv_of_beginsReadable ⟨[Text.lit "# lan", Text.lit "nameserver 8.8.8.8",
    Text.lit "options rotate", Text.lit "nameserver\t1.1.1.1"], Text.lit "search lan", by decide,
    by decide, by decide⟩

/-! ## A file without a newline at its end -/

/-- Two name servers. -/
def unendedResolv : List UInt8 := Text.lit "nameserver 8.8.8.8\nnameserver 1.1.1.1"

/-- **The second one is not seen**, and the second string is not written. -/
theorem unended_resolv : ¬ ParsesResolv unendedResolv ∧
    rkNetworkDnsGet (some unendedResolv) [] [] = (1, Text.lit "8.8.8.8", []) := by
  have hget : rkNetworkDnsGet (some unendedResolv) [] [] = (1, Text.lit "8.8.8.8", []) := rfl
  refine ⟨fun h => ?_, hget⟩
  have hcount := congrArg Prod.fst ((h.result [] []).symm.trans hget)
  exact absurd hcount (by decide)

end RkIpc.Network
