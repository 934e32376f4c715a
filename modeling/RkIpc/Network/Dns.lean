import Mathlib.Algebra.Order.Ring.Int

/-!
# Reading the name servers

`rk_network_dns_get` of `common/network/network.c` reads `/etc/resolv.conf` in pieces of at most
127 bytes and returns how many of them look like a line with a name server, two at most. The
buffer is not cleared between pieces, so a piece without a newline is judged by what longer ones
have left behind it.

## Main definitions

* `fgetsAll`, `fgetsInto`: the pieces of a file, and the buffer after one of them
* `nameserverLine`: the test a piece has to pass
* `rkNetworkDnsGet`: the operation

## Main results

* `rkNetworkDnsGet_eq_zero_iff`: it returns zero exactly if no piece passes the test
-/

namespace RkIpc.Network

/-- A newline. -/
def newline : UInt8 := 10

/-- What successive calls of `fgets(buf, 128, file)` read; `line` is the piece being read. -/
def fgetsAll (line : List UInt8) : List UInt8 → List (List UInt8)
  | [] => if line = [] then [] else [line]
  | c :: rest =>
    if c = newline ∨ line.length + 1 = 127 then (line ++ [c]) :: fgetsAll [] rest
    else fgetsAll (line ++ [c]) rest

/-- The buffer after `fgets` has put a piece and a terminator at its beginning. -/
def fgetsInto (buf : ℕ → UInt8) (line : List UInt8) : ℕ → UInt8 :=
  fun i => ((line ++ [0])[i]?).getD (buf i)

/-- `"nameserver"`. -/
def nameserver : List UInt8 := [110, 97, 109, 101, 115, 101, 114, 118, 101, 114]

/-- `for (i = 1; i < 127; i++)`, with `n` rounds left: `start` and `end`. -/
def dnsScan (buf : ℕ → UInt8) : ℕ → ℕ → ℤ → ℤ × ℤ
  | 0, _, start => (start, 0)
  | n + 1, i, start =>
    -- behind the last "er "
    let start := if buf (i - 1) = 101 ∧ buf i = 114 ∧ buf (i + 1) = 32 then (i : ℤ) + 2 else start
    if buf i = newline then (start, (i : ℤ) - 1) else dnsScan buf n (i + 1) start

/-- **A line with a name server**: it begins with the word, and `end - start > 0`. -/
def nameserverLine (buf : ℕ → UInt8) : Bool :=
  (List.range 10).map buf = nameserver &&
    decide ((dnsScan buf 126 1 0).2 - (dnsScan buf 126 1 0).1 > 0)

/-- White space for `sscanf`. -/
def isSpace (c : UInt8) : Bool := c == 32 || (9 ≤ c && c ≤ 13)

/-- `sscanf(buf, "%*s%s", dns)`: the second word of the string in the buffer, if there is one. -/
def secondWord (buf : ℕ → UInt8) (dns : List UInt8) : List UInt8 :=
  let line := ((List.range 128).map buf).takeWhile (· ≠ 0)
  let word := (((line.dropWhile isSpace).dropWhile (! isSpace ·)).dropWhile isSpace).takeWhile
    (! isSpace ·)
  if word = [] then dns else word

/-- `while (fgets(buf, sizeof(buf), pFile))`. -/
def dnsLoop : List (List UInt8) → (ℕ → UInt8) → ℤ → List UInt8 → List UInt8 →
    ℤ × List UInt8 × List UInt8
  | [], _, count, dns, dns2 => (count, dns, dns2)
  | line :: lines, buf, count, dns, dns2 =>
    let buf := fgetsInto buf line
    if nameserverLine buf then
      let count := count + 1
      let dns := if count = 1 then secondWord buf dns else dns
      let dns2 := if count = 2 then secondWord buf dns2 else dns2
      -- two are enough
      if count = 2 then (count, dns, dns2) else dnsLoop lines buf count dns dns2
    else dnsLoop lines buf count dns dns2

/-- **`rk_network_dns_get`** on the content of `/etc/resolv.conf`, if it can be opened: the number
of name servers, and the two strings, which keep their content where nothing is found. -/
def rkNetworkDnsGet (resolv : Option (List UInt8)) (dns dns2 : List UInt8) :
    ℤ × List UInt8 × List UInt8 :=
  match resolv with
  | none => (0, dns, dns2)
  | some content => dnsLoop (fgetsAll [] content) (fun _ => 0) 0 dns dns2

/-! ## When the count is zero -/

/-- The contents of the buffer, piece by piece. -/
def dnsBuffers : List (List UInt8) → (ℕ → UInt8) → List (ℕ → UInt8)
  | [], _ => []
  | line :: lines, buf => fgetsInto buf line :: dnsBuffers lines (fgetsInto buf line)

/-- **No name server**: no piece of the file passes the test. -/
def NoNameserver (resolv : Option (List UInt8)) : Prop :=
  ∀ content, resolv = some content →
    ∀ buf ∈ dnsBuffers (fgetsAll [] content) (fun _ => 0), nameserverLine buf = false

/-- The count does not go down. -/
theorem le_dnsLoop (lines : List (List UInt8)) : ∀ (buf : ℕ → UInt8) (count : ℤ)
    (dns dns2 : List UInt8), count ≤ (dnsLoop lines buf count dns dns2).1 := by
  induction lines with
  | nil => exact fun _ _ _ _ => le_refl _
  | cons line lines ih =>
    intro buf count dns dns2
    rw [dnsLoop]
    dsimp only
    split
    · split
      · exact (Int.lt_succ count).le
      · exact (Int.lt_succ count).le.trans (ih _ _ _ _)
    · exact ih _ _ _ _

theorem dnsLoop_eq_zero_iff (lines : List (List UInt8)) : ∀ (buf : ℕ → UInt8)
    (dns dns2 : List UInt8),
    (dnsLoop lines buf 0 dns dns2).1 = 0 ↔
      ∀ b ∈ dnsBuffers lines buf, nameserverLine b = false := by
  induction lines with
  | nil => simp [dnsLoop, dnsBuffers]
  | cons line lines ih =>
    intro buf dns dns2
    rw [dnsLoop, dnsBuffers, List.forall_mem_cons]
    dsimp only
    by_cases hline : nameserverLine (fgetsInto buf line)
    · -- the count is one from here on
      rw [if_pos hline, if_neg (by decide)]
      have h := le_dnsLoop lines (fgetsInto buf line) (0 + 1)
        (if (0 : ℤ) + 1 = 1 then secondWord (fgetsInto buf line) dns else dns)
        (if (0 : ℤ) + 1 = 2 then secondWord (fgetsInto buf line) dns2 else dns2)
      refine iff_of_false (fun h0 => ?_) fun hall => ?_
      · omega
      · simp [hline] at hall
    · rw [if_neg hline, ih]
      exact (and_iff_right (by simpa using hline)).symm

/-- **The count is zero** exactly if no piece of the file passes the test. -/
theorem rkNetworkDnsGet_eq_zero_iff (resolv : Option (List UInt8)) (dns dns2 : List UInt8) :
    (rkNetworkDnsGet resolv dns dns2).1 = 0 ↔ NoNameserver resolv := by
  unfold rkNetworkDnsGet NoNameserver
  cases resolv with
  | none => simp
  | some content =>
    rw [dnsLoop_eq_zero_iff]
    simp

end RkIpc.Network
