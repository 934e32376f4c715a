import RkIpc.Memory.Block
import RkIpc.Network.NameServers
import RkIpc.Text.Field
import RkIpc.Wire.Arithmetic

/-!
# Writing the name servers

`rk_network_dns_set` puts two lines together in 64 bytes, one string after the other, and writes
them to `/etc/resolv.conf`. `net_stringcopy` copies what fits and returns the whole length, so that
nothing is copied once the position is behind the 64 bytes. The position is an `int`, and one that
has become negative passes the same test.

Opening and writing the file succeed.

## Main definitions

* `netStringcopy`, `rkNetworkDnsSet`: the functions
* `DnsSettings`: what is expected
* `PositionsFit`: no position is negative

## Main results

* `rkNetworkDnsSet_eq`: what is written, when the position does not wrap
* `dnsSettings_iff`: when it is as expected
* `gigabyte_outside`: two strings for which it is not
-/

namespace RkIpc.Network

open Text Wire

/-! ## `net_stringcopy` -/

/-- `while (--n != 0)`, where `n` is lowered already: what is copied, `n`, and what is left of the
source. -/
def copyLoop : ℕ → List UInt8 → List UInt8 × ℕ × List UInt8
  | 0, s => ([], 0, s)
  | n + 1, [] => ([], n + 1, [])
  | n + 1, c :: s =>
    if c = 0 then ([c], n + 1, s)
    else
      let r := copyLoop n s
      (c :: r.1, r.2)

/-- **`net_stringcopy`**: what is written to the destination, and what is returned. -/
def netStringcopy (src : Str) (siz : ℤ) : List UInt8 × ℕ :=
  if siz ≤ 0 then ([], src.length)
  else
    let (copied, n, s) := copyLoop (siz.toNat - 1) (src ++ [0])
    if n = 0 then
      -- `while (*s++)`
      let s := (s.dropWhile (· ≠ 0)).drop 1
      (copied ++ [0], (src ++ [0]).length - s.length - 1)
    else (copied, (src ++ [0]).length - s.length - 1)

/-- A copy that ends before the terminator, and one that ends with it. -/
theorem copyLoop_eq {src : Str} (h : 0 ∉ src) (k : ℕ) : copyLoop k (src ++ [0]) =
    if k ≤ src.length then (src.take k, 0, src.drop k ++ [0])
    else (src ++ [0], k - src.length, []) := by
  induction src generalizing k with
  | nil =>
    cases k with
    | zero => rfl
    | succ k => rfl
  | cons c src ih =>
    cases k with
    | zero => rfl
    | succ k =>
      have hc : c ≠ 0 := fun h0 => h (h0 ▸ List.mem_cons_self)
      rw [List.cons_append, copyLoop, if_neg hc, ih (List.not_mem_of_not_mem_cons h)]
      by_cases hk : k ≤ src.length
      · rw [if_pos hk, if_pos (by rw [List.length_cons]; omega)]
        rfl
      · rw [if_neg hk, if_neg (by rw [List.length_cons]; omega), List.length_cons,
          Nat.add_sub_add_right]

/-- **As much as fits** is copied, with a terminator, and the length is returned. -/
theorem netStringcopy_eq {src : Str} (h : 0 ∉ src) {siz : ℤ} (hsiz : 0 < siz) :
    netStringcopy src siz = (src.take (siz.toNat - 1) ++ [0], src.length) := by
  rw [netStringcopy, if_neg (by omega), copyLoop_eq h]
  by_cases hk : siz.toNat - 1 ≤ src.length
  · have hdrop : (src.drop (siz.toNat - 1) ++ [0]).dropWhile (· ≠ 0) = [0] := by
      refine dropWhile_parts (fun c hc => ?_) (by simp)
      simpa using fun h0 : c = 0 => h (h0 ▸ List.mem_of_mem_drop hc)
    simp only [if_pos hk, hdrop]
    simp
  · have hn : siz.toNat - 1 - src.length ≠ 0 := by omega
    simp only [if_neg hk, if_neg hn]
    rw [List.take_of_length_le (by omega)]
    simp

/-! ## `rk_network_dns_set` -/

/-- `req_len`. -/
def reqLen : ℤ := 64

/-- Bytes written at a position, which must be inside. -/
def writeAt (buf : List UInt8) (pos : ℤ) (bytes : List UInt8) : Option (List UInt8) :=
  if bytes = [] then some buf else if pos < 0 then none else Memory.write buf pos.toNat bytes

/-- `pos += net_stringcopy(&buf[pos], src, pos < req_len ? req_len - pos : 0);`. The difference must
be an `int`, and the sum is converted to one. -/
def stringcopyAt (s : List UInt8 × ℤ) (src : Str) : Option (List UInt8 × ℤ) :=
  let (buf, pos) := s
  if pos < reqLen ∧ ¬ InRange (reqLen - pos) then none
  else
    let (bytes, n) := netStringcopy src (if pos < reqLen then reqLen - pos else 0)
    (writeAt buf pos bytes).map fun buf => (buf, (pos + n).bmod (2 ^ 32))

/-- **`rk_network_dns_set`**, from what `malloc` has found: what is written to the file, if nothing
is written outside the 64 bytes. -/
def rkNetworkDnsSet (buf : List UInt8) (dns dns2 : Str) : Option (List UInt8) :=
  ([lit "nameserver ", dns, lit "\n", lit "nameserver ", dns2, lit "\n"].foldlM stringcopyAt
    (buf, 0)).map fun s => cstr s.1

/-! ## The position -/

/-- **The text so far** is in front of a terminator, as much of it as fits. -/
structure Contains (buf : List UInt8) (text : Str) : Prop where
  length : buf.length = 64
  text : text ≠ [] → text.take 63 ++ [0] <+: buf

section Copy

variable {buf : List UInt8} {src : Str} {pos : ℤ}

/-- A negative position passes the test, and something is written in front of the 64 bytes. -/
theorem stringcopyAt_of_neg (hsrc : 0 ∉ src) (hpos : pos < 0) :
    stringcopyAt (buf, pos) src = none := by
  have hlt : pos < reqLen := by unfold reqLen; omega
  have hsiz : 0 < reqLen - pos := by unfold reqLen; omega
  simp only [stringcopyAt, if_pos hlt, netStringcopy_eq hsrc hsiz]
  split
  · rfl
  · rw [writeAt, if_neg (by simp), if_pos hpos]
    rfl

/-- A string that is written behind the text so far. -/
theorem Contains.write {text : Str} (h : Contains buf text) (hlt : text.length ≤ 63) :
    Contains (buf.take text.length ++ (src.take (63 - text.length) ++ [0]) ++
      buf.drop (text.length + (src.take (63 - text.length) ++ [0]).length)) (text ++ src) := by
  have htake : buf.take text.length = text := by
    rcases eq_or_ne text [] with rfl | hne
    · rfl
    · have hfront := h.text hne
      rw [List.take_of_length_le hlt] at hfront
      exact (List.prefix_iff_eq_take.1 ((List.prefix_append text [0]).trans hfront)).symm
  have hbuf := h.length
  refine ⟨?_, fun _ => ?_⟩
  · simp only [List.length_append, List.length_take, List.length_drop, List.length_singleton]
    omega
  · rw [htake, List.take_append, List.take_of_length_le hlt, List.append_assoc (text) _ [0]]
    exact List.prefix_append _ _

/-- **A position that is not negative** leads to a write inside, and to the position behind the
string. -/
theorem exists_stringcopyAt (hsrc : 0 ∉ src) (hlen : buf.length = 64) (hpos : 0 ≤ pos) :
    ∃ buf', buf'.length = 64 ∧
      stringcopyAt (buf, pos) src = some (buf', (pos + src.length).bmod (2 ^ 32)) ∧
      ∀ text : Str, (text.length : ℤ) = pos → Contains buf text → Contains buf' (text ++ src) := by
  by_cases hlt : pos < reqLen
  · have hsiz : 0 < reqLen - pos := by omega
    have hrange : ¬ (pos < reqLen ∧ ¬ InRange (reqLen - pos)) := by
      unfold reqLen InRange
      omega
    have hcount : (reqLen - pos).toNat - 1 = 63 - pos.toNat := by unfold reqLen at *; omega
    have hle : pos.toNat ≤ 63 := by unfold reqLen at hlt; omega
    let bytes := src.take (63 - pos.toNat) ++ [0]
    have hbytes : bytes.length ≤ 64 - pos.toNat := by
      rw [List.length_append, List.length_take, List.length_singleton]
      omega
    have hroom : pos.toNat + bytes.length ≤ buf.length := by omega
    have hwrite : writeAt buf pos bytes =
        some (buf.take pos.toNat ++ bytes ++ buf.drop (pos.toNat + bytes.length)) := by
      rw [writeAt, if_neg (by simp [bytes]), if_neg (not_lt.2 hpos), Memory.write, if_pos hroom]
    refine ⟨buf.take pos.toNat ++ bytes ++ buf.drop (pos.toNat + bytes.length), ?_, ?_, ?_⟩
    · simp only [List.length_append, List.length_take, List.length_drop]
      omega
    · simp only [stringcopyAt, if_neg hrange, if_pos hlt, netStringcopy_eq hsrc hsiz, hcount]
      rw [show src.take (63 - pos.toNat) ++ [0] = bytes from rfl, hwrite, Option.map_some]
    · intro text htext hcontains
      obtain rfl : pos = text.length := htext.symm
      exact hcontains.write hle
  · -- nothing is copied any more
    have hrange : ¬ (pos < reqLen ∧ ¬ InRange (reqLen - pos)) := fun h => hlt h.1
    refine ⟨buf, hlen, ?_, fun text htext hcontains => ⟨hlen, fun _ => ?_⟩⟩
    · simp only [stringcopyAt, if_neg hrange, if_neg hlt, netStringcopy, le_refl, if_true, writeAt,
        Option.map_some]
    · have hlong : 63 ≤ text.length := by unfold reqLen at hlt; omega
      rw [List.take_append_of_le_length hlong]
      exact hcontains.text (List.ne_nil_of_length_pos (by omega))

end Copy

/-- The positions at which strings of these lengths are copied. -/
def positions (pos : ℤ) : List ℕ → List ℤ
  | [] => []
  | n :: ns => pos :: positions ((pos + n).bmod (2 ^ 32)) ns

/-- **Nothing is written outside** if and only if no position is negative. -/
theorem foldlM_stringcopyAt_isSome_iff {srcs : List Str} (hsrcs : ∀ src ∈ srcs, 0 ∉ src)
    {buf : List UInt8} (hlen : buf.length = 64) (pos : ℤ) :
    (srcs.foldlM stringcopyAt (buf, pos)).isSome ↔
      ∀ p ∈ positions pos (srcs.map List.length), 0 ≤ p := by
  induction srcs generalizing buf pos with
  | nil => simp [positions]
  | cons src srcs ih =>
    have hsrc := hsrcs src List.mem_cons_self
    rw [List.foldlM_cons, List.map_cons, positions, List.forall_mem_cons]
    rcases lt_or_ge pos 0 with hneg | hpos
    · rw [stringcopyAt_of_neg hsrc hneg]
      exact iff_of_false (by simp) fun h => absurd h.1 (not_le.2 hneg)
    · obtain ⟨buf', hlen', hcopy, -⟩ := exists_stringcopyAt hsrc hlen hpos
      rw [hcopy]
      exact (ih (fun src h => hsrcs src (List.mem_cons_of_mem _ h)) hlen' _).trans
        (and_iff_right hpos).symm

/-- **The strings stand one behind the other**, when the position does not wrap. -/
theorem exists_foldlM_stringcopyAt {srcs : List Str} (hsrcs : ∀ src ∈ srcs, 0 ∉ src)
    {buf : List UInt8} {text : Str} (h : Contains buf text)
    (hlen : (text ++ srcs.flatten).length < 2 ^ 31) :
    ∃ buf' pos', srcs.foldlM stringcopyAt (buf, (text.length : ℤ)) = some (buf', pos') ∧
      Contains buf' (text ++ srcs.flatten) := by
  induction srcs generalizing buf text with
  | nil => exact ⟨buf, text.length, rfl, by simpa using h⟩
  | cons src srcs ih =>
    have hsum : text ++ (src :: srcs).flatten = (text ++ src) ++ srcs.flatten := by
      rw [List.flatten_cons, List.append_assoc]
    rw [hsum] at hlen ⊢
    obtain ⟨buf', -, hcopy, hcontains⟩ := exists_stringcopyAt (hsrcs src List.mem_cons_self)
      h.length (Int.natCast_nonneg text.length)
    have hpos : ((text.length : ℤ) + src.length).bmod (2 ^ 32) = (text ++ src).length := by
      have hle : (text ++ src).length < 2 ^ 31 := by
        rw [List.length_append] at hlen
        omega
      rw [List.length_append] at hle ⊢
      rw [bmod_eq_self_iff.2 ⟨by omega, by omega⟩, Nat.cast_add]
    rw [List.foldlM_cons, hcopy, hpos]
    exact ih (fun src h => hsrcs src (List.mem_cons_of_mem _ h)) (hcontains text rfl h) hlen

/-! ## When it is as expected -/

/-- The line for a name server. -/
def serverLine (dns : Str) : List UInt8 := nameserver ++ 32 :: dns

/-- The text of both lines. -/
def dnsText (dns dns2 : Str) : List UInt8 :=
  [serverLine dns, serverLine dns2].flatMap (· ++ [newline])

/-- **The settings are read back**, if they are of some length, without white space, and not too
long together, and nothing is written outside the 64 bytes whatever their length. -/
structure DnsSettings (dns dns2 : Str) : Prop where
  roundTrip : 2 ≤ dns.length → 2 ≤ dns2.length → (∀ c ∈ dns, isSpace c = false) →
    (∀ c ∈ dns2, isSpace c = false) → dns.length + dns2.length ≤ 39 →
    ∀ buf a b, buf.length = 64 → ∃ content, rkNetworkDnsSet buf dns dns2 = some content ∧
      rkNetworkDnsGet (some content) a b = (2, dns, dns2)
  inside : ∀ buf, buf.length = 64 → (rkNetworkDnsSet buf dns dns2).isSome

/-- **No position is negative**: none of the lengths in front of a string has its bit 31 set. -/
def PositionsFit (m n : ℕ) : Prop :=
  (11 + m) % 2 ^ 32 < 2 ^ 31 ∧ (12 + m) % 2 ^ 32 < 2 ^ 31 ∧ (23 + m) % 2 ^ 32 < 2 ^ 31 ∧
    (23 + m + n) % 2 ^ 32 < 2 ^ 31

section Settings

variable {dns dns2 : Str}

/-- The six strings. -/
theorem zero_notMem_srcs (h : 0 ∉ dns) (h2 : 0 ∉ dns2) :
    ∀ src ∈ [lit "nameserver ", dns, lit "\n", lit "nameserver ", dns2, lit "\n"], 0 ∉ src := by
  have hname : 0 ∉ lit "nameserver " := by decide
  have hnewline : 0 ∉ lit "\n" := by decide
  simp only [List.mem_cons, List.not_mem_nil, or_false]
  rintro src (rfl | rfl | rfl | rfl | rfl | rfl) <;> assumption

theorem flatten_srcs : [lit "nameserver ", dns, lit "\n", lit "nameserver ", dns2,
    lit "\n"].flatten = dnsText dns dns2 := by
  have hname : lit "nameserver " = nameserver ++ [32] := by decide
  have hnewline : lit "\n" = [newline] := by decide
  simp [dnsText, serverLine, hname, hnewline]

/-- A bit of a sum is that of the word. -/
theorem bmod_nonneg_iff (v : ℤ) : 0 ≤ v.bmod (2 ^ 32) ↔ v % 2 ^ 32 < 2 ^ 31 := by
  rw [Int.bmod_def]
  split <;> omega

theorem rkNetworkDnsSet_isSome_iff (h : 0 ∉ dns) (h2 : 0 ∉ dns2) {buf : List UInt8}
    (hlen : buf.length = 64) :
    (rkNetworkDnsSet buf dns dns2).isSome ↔ PositionsFit dns.length dns2.length := by
  have hname : (lit "nameserver ").length = 11 := by decide
  have hnewline : (lit "\n").length = 1 := by decide
  rw [rkNetworkDnsSet, Option.isSome_map,
    foldlM_stringcopyAt_isSome_iff (zero_notMem_srcs h h2) hlen]
  simp only [List.map_cons, List.map_nil, positions, hname, hnewline, Int.bmod_add_bmod,
    List.forall_mem_cons, bmod_nonneg_iff, PositionsFit, List.not_mem_nil, IsEmpty.forall_iff,
    implies_true, and_true]
  omega

/-- **What is written** is as much of the text as fits, when the position does not wrap. -/
theorem rkNetworkDnsSet_eq (h : 0 ∉ dns) (h2 : 0 ∉ dns2) {buf : List UInt8} (hlen : buf.length = 64)
    (hpos : (dnsText dns dns2).length < 2 ^ 31) :
    rkNetworkDnsSet buf dns dns2 = some ((dnsText dns dns2).take 63) := by
  have hsrcs := zero_notMem_srcs h h2
  have hempty : Contains buf [] := ⟨hlen, fun hne => absurd rfl hne⟩
  obtain ⟨buf', pos', hcopy, hcontains⟩ := exists_foldlM_stringcopyAt hsrcs hempty
    (by rwa [List.nil_append, flatten_srcs])
  rw [List.nil_append, flatten_srcs] at hcontains
  have hne : dnsText dns dns2 ≠ [] := by simp [dnsText]
  have hzero : 0 ∉ (dnsText dns dns2).take 63 := fun h0 => by
    obtain ⟨src, hsrc, h0⟩ := List.mem_flatten.1 (flatten_srcs ▸ List.mem_of_mem_take h0)
    exact hsrcs src hsrc h0
  obtain ⟨rest, hrest⟩ := hcontains.text hne
  rw [rkNetworkDnsSet, show (0 : ℤ) = ([] : Str).length from rfl, hcopy, Option.map_some, ← hrest,
    List.append_assoc, List.singleton_append, cstr_append_zero hzero]

/-- A line with an address of some length is read as what it is. -/
theorem readAsIs_serverLine (hlen : 2 ≤ dns.length) (hle : dns.length ≤ 63)
    (h : ∀ c ∈ dns, isSpace c = false) (hzero : 0 ∉ dns) :
    (newline ∉ serverLine dns ∧ ReadAsIs (serverLine dns)) ∧
      address? (serverLine dns) = some dns := by
  have haddress : HasAddress (serverLine dns) dns [32] [] := {
    eq := by simp [serverLine]
    blanks_ne := by simp
    word_ne := List.ne_nil_of_length_pos (by omega)
    blanks := by decide
    word := fun c hc => by
      have hne : c ≠ 0 := fun h0 => hzero (h0 ▸ hc)
      simp [endsWord, h c hc, hne]
    rest := by simp }
  have hlength : (serverLine dns).length = dns.length + 11 := by simp [serverLine, nameserver]
  refine ⟨⟨fun hnl => ?_, fun _ => haddress.address? ▸ rfl, fun w hw => ?_⟩, haddress.address?⟩
  · rcases List.mem_append.1 hnl with hnl | hnl
    · exact absurd hnl (by decide)
    · rcases List.mem_cons.1 hnl with hnl | hnl
      · exact absurd hnl (by decide)
      · exact absurd (h newline hnl) (by decide)
  · obtain rfl : dns = w := Option.some.inj (haddress.address?.symm.trans hw)
    refine ⟨by omega, by omega, fun i _ _ _ h2 => ?_⟩
    -- the only blank is the one in front of the address
    have hi : i + 2 ≤ 10 := by
      by_contra hgt
      rw [serverLine, List.getElem?_append_right (by simp [nameserver]; omega)] at h2
      have hmem : (32 : UInt8) ∈ dns := by
        refine List.mem_of_getElem? (i := i + 2 - 11) ?_
        rw [← h2, show i + 2 - nameserver.length = (i + 2 - 11) + 1 by simp [nameserver]; omega,
          List.getElem?_cons_succ]
      exact absurd (h 32 hmem) (by decide)
    omega

/-- **The settings are as expected** if and only if no position is negative. -/
theorem dnsSettings_iff (h : 0 ∉ dns) (h2 : 0 ∉ dns2) :
    DnsSettings dns dns2 ↔ PositionsFit dns.length dns2.length := by
  constructor
  · intro hset
    exact (rkNetworkDnsSet_isSome_iff h h2 (List.length_replicate ..)).1
      (hset.inside (List.replicate 64 0) (List.length_replicate ..))
  · intro hfit
    refine ⟨fun hm hn hs hs2 hle buf a b hlen => ?_, fun buf hlen =>
      (rkNetworkDnsSet_isSome_iff h h2 hlen).2 hfit⟩
    have hlength : (dnsText dns dns2).length = dns.length + dns2.length + 24 := by
      simp only [dnsText, serverLine, nameserver, List.flatMap_cons, List.flatMap_nil,
        List.length_append, List.length_cons, List.length_nil]
      omega
    obtain ⟨hread, haddress⟩ := readAsIs_serverLine hm (by omega) hs h
    obtain ⟨hread2, haddress2⟩ := readAsIs_serverLine hn (by omega) hs2 h2
    have haddresses : [serverLine dns, serverLine dns2].filterMap address? = [dns, dns2] := by
      simp [haddress, haddress2]
    have hlines : ∀ line ∈ [serverLine dns, serverLine dns2], newline ∉ line ∧ ReadAsIs line :=
      by simp [hread.1, hread.2, hread2.1, hread2.2]
    have hparses := parsesResolv_of_lines hlines (by rw [haddresses]; rfl) []
    have hboth := addresses_lines (fun l hl => (hlines l hl).1) []
    rw [haddresses] at hboth
    rw [List.append_nil] at hparses hboth
    refine ⟨dnsText dns dns2, ?_, ?_⟩
    · rw [rkNetworkDnsSet_eq h h2 hlen (by omega), List.take_of_length_le (by omega)]
    · rw [dnsText, hparses.result a b, hboth]
      rfl

end Settings

/-- Two public name servers. -/
theorem dnsSettings_iff_public : 0 ∉ lit "8.8.8.8" ∧ 0 ∉ lit "1.1.1.1" ∧
    (DnsSettings (lit "8.8.8.8") (lit "1.1.1.1") ↔ PositionsFit 7 7) :=
  ⟨by decide, by decide, dnsSettings_iff (by decide) (by decide)⟩

/-- **Two strings of a gigabyte**: the position is negative before the last newline. -/
theorem gigabyte_outside :
    ¬ DnsSettings (List.replicate (2 ^ 30) 97) (List.replicate (2 ^ 30 + 100) 97) := by
  have hzero : ∀ n, (0 : UInt8) ∉ List.replicate n 97 := fun n h =>
    absurd (List.eq_of_mem_replicate h) (by decide)
  intro hset
  have hfit := (rkNetworkDnsSet_isSome_iff (hzero _) (hzero _) (List.length_replicate ..)).1
    (hset.inside (List.replicate 64 0) (List.length_replicate ..))
  rw [List.length_replicate, List.length_replicate] at hfit
  exact absurd hfit.2.2.2 (by decide)

end RkIpc.Network
