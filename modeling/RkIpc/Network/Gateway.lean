import Mathlib.Data.List.Infix
import RkIpc.Text.Decimal

/-!
# The gateway

`get_gateway` of `common/network/network.c` asks the kernel for all routes and keeps the gateway of
each one of the main table whose destination, as a text, contains `0.0.0.0`. A route that comes
later overwrites it. The answers are collected in an array of 8192 bytes, and if there are more, the
function gives up.

The kernel answers, and in datagrams that are not empty. The values of a route come with the
attributes of its message, the last one of a type counts, and one that is missing is zero.

## Main definitions

* `InAddr`, `inetNtoa`: addresses and their text
* `RtMsg`, `Datagram`: the messages for the routes
* `readNlSock`, `parseRoutes`, `getGateway`: the functions
* `ReportsDefault`: what is expected

## Main results

* `isInfix_inetNtoa_iff`: the addresses whose text contains `0.0.0.0`
* `getGateway_eq`: the last one of these routes counts
* `reportsDefault_iff`: the tables for which it is a default route
* `ten_overwrites`: a table for which it is not
-/

namespace RkIpc.Network

open Text

/-! ## Messages -/

/-- `struct in_addr`. -/
structure InAddr where
  a : UInt8
  b : UInt8
  c : UInt8
  d : UInt8
deriving DecidableEq, Repr

/-- `0.0.0.0`. -/
def InAddr.any : InAddr := ⟨0, 0, 0, 0⟩

/-- **`inet_ntoa`**. -/
def inetNtoa (addr : InAddr) : Str :=
  decimalNat addr.a.toNat ++ 46 :: (decimalNat addr.b.toNat ++ 46 ::
    (decimalNat addr.c.toNat ++ 46 :: decimalNat addr.d.toNat))

/-- An attribute of a message. Those that are not looked at have a size. -/
inductive RtAttr where
  | oif (index : ℕ)
  | gateway (addr : InAddr)
  | prefsrc (addr : InAddr)
  | dst (addr : InAddr)
  | other (size : ℕ)
deriving DecidableEq, Repr

/-- The bytes of an attribute, up to the next one. -/
def RtAttr.size : RtAttr → ℕ
  | .other size => (4 + size + 3) / 4 * 4
  | _ => 8

/-- `AF_INET`. -/
def afInet : ℕ := 2

/-- `RT_TABLE_MAIN`. -/
def rtTableMain : ℕ := 254

/-- **The message for a route**: `rtm_family`, `rtm_table` and the attributes. -/
structure RtMsg where
  family : ℕ
  table : ℕ
  attrs : List RtAttr
deriving DecidableEq, Repr

/-- `nlmsg_len`: the headers and the attributes. -/
def RtMsg.size (m : RtMsg) : ℕ := 28 + (m.attrs.map RtAttr.size).sum

/-- The messages that one call of `recv` returns. -/
structure Datagram where
  first : RtMsg
  rest : List RtMsg
deriving DecidableEq, Repr

def Datagram.messages (d : Datagram) : List RtMsg := d.first :: d.rest

def Datagram.size (d : Datagram) : ℕ := (d.messages.map RtMsg.size).sum

/-! ## The functions -/

/-- `BUFSIZE`. -/
def nlBufsize : ℕ := 8192

/-- `NLMSG_DONE`, with its header. -/
def nlmsgDone : ℕ := 20

/-- **`readNlSock`**: the messages in the array, which has `msgLen` bytes already. What does not fit
is lost, and an answer whose first message is not complete is an error. -/
def readNlSock : ℕ → List Datagram → Option (List RtMsg)
  | msgLen, [] => if nlmsgDone ≤ nlBufsize - msgLen then some [] else none
  | msgLen, d :: ds =>
    let readLen := min d.size (nlBufsize - msgLen)
    if d.first.size ≤ readLen then
      (readNlSock (msgLen + readLen) ds).map (d.messages ++ ·)
    else none

/-- `struct route_info`; the name of the interface is given by its number. -/
structure RouteInfo where
  ifName : ℕ
  gateWay : InAddr
  srcAddr : InAddr
  dstAddr : InAddr
deriving DecidableEq, Repr

/-- `memset(rtInfo, 0, sizeof(struct route_info))`. -/
def RouteInfo.zero : RouteInfo := ⟨0, .any, .any, .any⟩

/-- `switch (rtAttr->rta_type)`. -/
def RouteInfo.set (info : RouteInfo) : RtAttr → RouteInfo
  | .oif index => { info with ifName := index }
  | .gateway addr => { info with gateWay := addr }
  | .prefsrc addr => { info with srcAddr := addr }
  | .dst addr => { info with dstAddr := addr }
  | .other _ => info

/-- What is found in a message. -/
def RtMsg.info (m : RtMsg) : RouteInfo := m.attrs.foldl RouteInfo.set .zero

/-- **`parseRoutes`**: what is in `gateway` then. -/
def parseRoutes (gateway : Str) (m : RtMsg) : Str :=
  if m.family ≠ afInet ∨ m.table ≠ rtTableMain then gateway
  else if lit "0.0.0.0" <:+: inetNtoa m.info.dstAddr then inetNtoa m.info.gateWay
  else gateway

/-- **`get_gateway`**: its result, and what is in `gateway` then. -/
def getGateway (dump : List Datagram) (gateway : Str) : ℤ × Str :=
  match readNlSock 0 dump with
  | none => (-1, gateway)
  | some msgs => (0, msgs.foldl parseRoutes gateway)

/-! ## What is expected -/

/-- The routes of the main table. -/
def RtMsg.IsMain (m : RtMsg) : Prop := m.family = afInet ∧ m.table = rtTableMain

instance (m : RtMsg) : Decidable m.IsMain := inferInstanceAs (Decidable (_ ∧ _))

/-- The address in an attribute with a gateway. -/
def RtAttr.gateway? : RtAttr → Option InAddr
  | .gateway addr => some addr
  | _ => none

/-- **A default route**, through `gw`: it has no destination, or zero, and a gateway. -/
structure RtMsg.DefaultVia (m : RtMsg) (gw : InAddr) : Prop where
  isMain : m.IsMain
  dst : m.info.dstAddr = .any
  gateway : (m.attrs.filterMap RtAttr.gateway?).getLast? = some gw

/-- The routes. -/
def routes (dump : List Datagram) : List RtMsg := dump.flatMap Datagram.messages

/-- **The gateway of a default route is reported** if there is one, and nothing is changed
otherwise. -/
structure ReportsDefault (dump : List Datagram) : Prop where
  found : ∀ gateway, (∃ m ∈ routes dump, ∃ gw, m.DefaultVia gw) →
    ∃ m ∈ routes dump, ∃ gw, m.DefaultVia gw ∧ (getGateway dump gateway).2 = inetNtoa gw
  kept : ∀ gateway, ¬ (∃ m ∈ routes dump, ∃ gw, m.DefaultVia gw) →
    (getGateway dump gateway).2 = gateway

/-! ## Addresses -/

/-- **The text contains `0.0.0.0`**: three numbers are zero, and the first one ends with a zero. -/
def InAddr.EndsInZeros (addr : InAddr) : Prop :=
  addr.a.toNat % 10 = 0 ∧ addr.b = 0 ∧ addr.c = 0 ∧ addr.d = 0

instance (addr : InAddr) : Decidable addr.EndsInZeros := inferInstanceAs (Decidable (_ ∧ _))

theorem dot_notMem_decimalNat (n : ℕ) : 46 ∉ decimalNat n := by
  intro h
  have hdigit := isDigit_of_mem_decimalNat h
  exact absurd hdigit (by unfold IsDigit; decide)

/-- A dot ends what is in front of it. -/
theorem append_dot_inj {s s' t t' : Str} (hs : 46 ∉ s) (hs' : 46 ∉ s')
    (h : s ++ 46 :: t = s' ++ 46 :: t') : s = s' ∧ t = t' := by
  induction s generalizing s' with
  | nil =>
    cases s' with
    | nil => exact ⟨rfl, (List.cons.inj h).2⟩
    | cons c s' => exact absurd ((List.cons.inj h).1 ▸ List.mem_cons_self) hs'
  | cons c s ih =>
    cases s' with
    | nil => exact absurd ((List.cons.inj h).1 ▸ List.mem_cons_self) hs
    | cons c' s' =>
      obtain ⟨hc, hrest⟩ := List.cons.inj h
      obtain ⟨rfl, rfl⟩ := ih (List.not_mem_of_not_mem_cons hs) (List.not_mem_of_not_mem_cons hs')
        hrest
      exact ⟨congrArg (· :: s) hc, rfl⟩

/-- **The numbers of a text** are between its dots. -/
theorem inetNtoa_injective : Function.Injective inetNtoa := by
  rintro ⟨a, b, c, d⟩ ⟨a', b', c', d'⟩ h
  have hdot := dot_notMem_decimalNat
  obtain ⟨ha, h⟩ := append_dot_inj (hdot _) (hdot _) h
  obtain ⟨hb, h⟩ := append_dot_inj (hdot _) (hdot _) h
  obtain ⟨hc, hd⟩ := append_dot_inj (hdot _) (hdot _) h
  have hnum : ∀ x y : UInt8, decimalNat x.toNat = decimalNat y.toNat → x = y :=
    fun x y hxy => UInt8.toNat_inj.1 (decimalNat_injective hxy)
  rw [hnum a a' ha, hnum b b' hb, hnum c c' hc, hnum d d' hd]

theorem inetNtoa_ne_nil (addr : InAddr) : inetNtoa addr ≠ [] :=
  fun h => decimalNat_ne_nil _ (List.append_eq_nil_iff.1 h).1

/-- A text that ends with the digit zero. -/
theorem decimalNat_eq_append_zero_iff {n : ℕ} : (∃ s, decimalNat n = s ++ [48]) ↔ n % 10 = 0 := by
  constructor
  · rintro ⟨s, h⟩
    have hdigit : UInt8.ofNat (48 + n % 10) = 48 := by
      rcases Nat.lt_or_ge n 10 with hn | hn
      · rw [decimalNat_of_lt hn, ← List.nil_append [_]] at h
        rw [Nat.mod_eq_of_lt hn]
        exact (List.append_singleton_inj.1 h).2
      · rw [decimalNat_of_le hn] at h
        exact (List.append_singleton_inj.1 h).2
    have hnat := congrArg UInt8.toNat hdigit
    rw [toNat_digit (Nat.mod_lt n (by omega)), show (48 : UInt8).toNat = 48 from rfl] at hnat
    omega
  · intro h
    rcases Nat.lt_or_ge n 10 with hn | hn
    · obtain rfl : n = 0 := by omega
      exact ⟨[], rfl⟩
    · exact ⟨decimalNat (n / 10), by rw [decimalNat_of_le hn, h]; rfl⟩

/-- A text that begins with a zero. -/
theorem decimalNat_eq_zero_cons_iff {n : ℕ} : (∃ s, decimalNat n = 48 :: s) ↔ n = 0 := by
  constructor
  · rintro ⟨s, h⟩
    by_contra hn
    obtain ⟨c, t, ht, hc⟩ := decimalNat_eq_cons (Nat.pos_of_ne_zero hn)
    exact hc (List.cons.inj (ht.symm.trans h)).1
  · rintro rfl
    exact ⟨[], rfl⟩

theorem count_dot_decimalNat (n : ℕ) : (decimalNat n).count 46 = 0 :=
  List.count_eq_zero.2 (dot_notMem_decimalNat n)

/-- The dots of `0.0.0.0` are all that there are, so the zeros in between are the numbers. -/
theorem isInfix_inetNtoa_iff (addr : InAddr) :
    lit "0.0.0.0" <:+: inetNtoa addr ↔ addr.EndsInZeros := by
  have hlit : lit "0.0.0.0" = [48] ++ 46 :: ([48] ++ 46 :: ([48] ++ 46 :: [48])) := rfl
  have hdot := dot_notMem_decimalNat
  have hzero : (46 : UInt8) ∉ [(48 : UInt8)] := by decide
  rw [hlit]
  constructor
  · rintro ⟨p, s, h⟩
    have hcount := congrArg (List.count 46) h
    simp only [inetNtoa, List.count_append, List.count_cons_self, count_dot_decimalNat,
      List.count_eq_zero.2 hzero] at hcount
    have hp : 46 ∉ p := List.count_eq_zero.1 (by omega)
    have h' : (p ++ [48]) ++ 46 :: ([48] ++ 46 :: ([48] ++ 46 :: (48 :: s))) = inetNtoa addr := by
      rw [← h]
      simp only [List.append_assoc, List.cons_append, List.nil_append]
    obtain ⟨ha, h'⟩ := append_dot_inj (by simp [hp]) (hdot _) h'
    obtain ⟨hb, h'⟩ := append_dot_inj hzero (hdot _) h'
    obtain ⟨hc, hd⟩ := append_dot_inj hzero (hdot _) h'
    refine ⟨decimalNat_eq_append_zero_iff.1 ⟨p, ha.symm⟩, ?_, ?_, ?_⟩
    · exact UInt8.toNat_inj.1 (decimalNat_eq_zero_cons_iff.1 ⟨[], hb.symm⟩)
    · exact UInt8.toNat_inj.1 (decimalNat_eq_zero_cons_iff.1 ⟨[], hc.symm⟩)
    · exact UInt8.toNat_inj.1 (decimalNat_eq_zero_cons_iff.1 ⟨s, hd.symm⟩)
  · obtain ⟨a, b, c, d⟩ := addr
    rintro ⟨ha, rfl, rfl, rfl⟩
    obtain ⟨p, hp⟩ := decimalNat_eq_append_zero_iff.2 ha
    have h0 : decimalNat (0 : UInt8).toNat = [48] := by decide
    refine ⟨p, [], ?_⟩
    simp only [inetNtoa, hp, h0, List.append_assoc, List.append_nil]

/-! ## The answers -/

/-- The bytes of the answers. -/
def dumpSize (dump : List Datagram) : ℕ := (dump.map Datagram.size).sum

theorem Datagram.first_le (d : Datagram) : d.first.size ≤ d.size := by
  simp [Datagram.size, Datagram.messages]

theorem RtMsg.size_pos (m : RtMsg) : 0 < m.size := by
  unfold RtMsg.size
  omega

/-- When the array is full, there is no way to the last message. -/
theorem readNlSock_full {msgLen : ℕ} (h : nlBufsize ≤ msgLen) (ds : List Datagram) :
    readNlSock msgLen ds = none := by
  cases ds with
  | nil => exact if_neg (by unfold nlmsgDone; omega)
  | cons d ds =>
    have hpos := d.first.size_pos
    exact if_neg (by omega)

/-- **The answers are read if they fit** with the message at the end. -/
theorem readNlSock_eq (msgLen : ℕ) (ds : List Datagram) :
    readNlSock msgLen ds =
      if msgLen + dumpSize ds + nlmsgDone ≤ nlBufsize then some (routes ds) else none := by
  induction ds generalizing msgLen with
  | nil =>
    have hiff : nlmsgDone ≤ nlBufsize - msgLen ↔ msgLen + dumpSize [] + nlmsgDone ≤ nlBufsize := by
      simp only [dumpSize, nlmsgDone, nlBufsize, List.map_nil, List.sum_nil]
      omega
    simp only [readNlSock, hiff, routes, List.flatMap_nil]
  | cons d ds ih =>
    have hsize : dumpSize (d :: ds) = d.size + dumpSize ds := by simp [dumpSize]
    have hfirst := d.first_le
    rw [readNlSock, hsize]
    rcases Nat.lt_or_ge (nlBufsize - msgLen) d.size with hcut | hfits
    · rw [min_eq_right hcut.le, if_neg (show ¬ msgLen + _ + _ ≤ _ by omega)]
      split
      · rw [readNlSock_full (by omega), Option.map_none]
      · rfl
    · rw [min_eq_left hfits, if_pos hfirst, ih, Nat.add_assoc msgLen]
      split
      · rw [Option.map_some, routes, routes, List.flatMap_cons]
      · rfl

/-! ## The routes -/

/-- **The routes that are taken for a default route.** -/
def RtMsg.Taken (m : RtMsg) : Prop := m.IsMain ∧ m.info.dstAddr.EndsInZeros

instance (m : RtMsg) : Decidable m.Taken := inferInstanceAs (Decidable (_ ∧ _))

theorem parseRoutes_eq (gateway : Str) (m : RtMsg) :
    parseRoutes gateway m = if m.Taken then inetNtoa m.info.gateWay else gateway := by
  have hmain : (m.family ≠ afInet ∨ m.table ≠ rtTableMain) ↔ ¬ m.IsMain := by
    rw [RtMsg.IsMain, not_and_or]
  simp only [parseRoutes, hmain, isInfix_inetNtoa_iff, RtMsg.Taken]
  by_cases h : m.IsMain <;> simp [h]

/-- **The last one of them** counts. -/
theorem foldl_parseRoutes (msgs : List RtMsg) (gateway : Str) :
    msgs.foldl parseRoutes gateway =
      (((msgs.filter RtMsg.Taken).getLast?).map fun m => inetNtoa m.info.gateWay).getD gateway := by
  induction msgs using List.reverseRecOn with
  | nil => rfl
  | append_singleton msgs m ih =>
    rw [List.foldl_append, List.foldl_cons, List.foldl_nil, parseRoutes_eq, List.filter_append]
    by_cases h : m.Taken
    · simp [h]
    · simp [h, ih]

/-- **`get_gateway`.** -/
theorem getGateway_eq (dump : List Datagram) (gateway : Str) :
    (getGateway dump gateway).2 = if dumpSize dump + nlmsgDone ≤ nlBufsize then
      ((((routes dump).filter RtMsg.Taken).getLast?).map fun m =>
        inetNtoa m.info.gateWay).getD gateway
    else gateway := by
  rw [getGateway, readNlSock_eq, Nat.zero_add]
  split
  · next h =>
    split at h
    · exact absurd h (by simp)
    · next hfits => rw [if_neg hfits]
  · next msgs h =>
    split at h
    · next hfits => rw [if_pos hfits, ← foldl_parseRoutes, ← Option.some.inj h]
    · exact absurd h (by simp)

theorem RtMsg.DefaultVia.taken {m : RtMsg} {gw : InAddr} (h : m.DefaultVia gw) : m.Taken :=
  ⟨h.isMain, by rw [h.dst]; decide⟩

/-- The last attribute with a gateway counts. -/
theorem foldl_set_gateWay (attrs : List RtAttr) (info : RouteInfo) :
    (attrs.foldl RouteInfo.set info).gateWay =
      ((attrs.filterMap RtAttr.gateway?).getLast?).getD info.gateWay := by
  induction attrs using List.reverseRecOn with
  | nil => rfl
  | append_singleton attrs attr ih =>
    rw [List.foldl_append, List.foldl_cons, List.foldl_nil, List.filterMap_append]
    cases attr <;> simp [RouteInfo.set, RtAttr.gateway?, ih]

theorem RtMsg.DefaultVia.gateWay_eq {m : RtMsg} {gw : InAddr} (h : m.DefaultVia gw) :
    m.info.gateWay = gw := by
  rw [RtMsg.info, foldl_set_gateWay, h.gateway, Option.getD_some]

/-- **The answers fit, and the last route that is taken has the gateway of a default route**, which
is zero if it has no gateway. If they do not fit, there is no default route. -/
def LastIsDefault (dump : List Datagram) : Prop :=
  if dumpSize dump + nlmsgDone ≤ nlBufsize then
    ∀ m ∈ ((routes dump).filter RtMsg.Taken).getLast?,
      ∃ m' ∈ routes dump, m'.DefaultVia m.info.gateWay
  else ¬ ∃ m ∈ routes dump, ∃ gw, m.DefaultVia gw

/-- A default route is among those that are taken. -/
theorem exists_getLast?_taken {msgs : List RtMsg} (h : ∃ m ∈ msgs, ∃ gw, m.DefaultVia gw) :
    ∃ m, (msgs.filter RtMsg.Taken).getLast? = some m := by
  obtain ⟨m, hm, gw, hvia⟩ := h
  have hmem : m ∈ msgs.filter RtMsg.Taken := List.mem_filter.2 ⟨hm, by simpa using hvia.taken⟩
  exact ⟨_, List.getLast?_eq_some_getLast (List.ne_nil_of_mem hmem)⟩

/-- **The gateway of a default route is reported** if and only if the last route whose destination
ends in `0.0.0.0` has it. -/
theorem reportsDefault_iff (dump : List Datagram) : ReportsDefault dump ↔ LastIsDefault dump := by
  unfold LastIsDefault
  split
  · next hfits =>
    have hget := fun gateway => (getGateway_eq dump gateway).trans (if_pos hfits)
    constructor
    · intro h m hm
      have hlast : ∀ gateway, (getGateway dump gateway).2 = inetNtoa m.info.gateWay := by
        intro gateway
        rw [hget, Option.mem_def.1 hm]
        rfl
      by_cases hdef : ∃ m ∈ routes dump, ∃ gw, m.DefaultVia gw
      · obtain ⟨m', hm', gw, hvia, hgw⟩ := h.found [] hdef
        exact ⟨m', hm', inetNtoa_injective (hgw.symm.trans (hlast [])) ▸ hvia⟩
      · exact absurd ((hlast []).symm.trans (h.kept [] hdef)) (inetNtoa_ne_nil _)
    · intro h
      refine ⟨fun gateway hdef => ?_, fun gateway hdef => ?_⟩
      · obtain ⟨m, hm⟩ := exists_getLast?_taken hdef
        obtain ⟨m', hm', hvia⟩ := h m hm
        exact ⟨m', hm', _, hvia, by rw [hget, hm]; rfl⟩
      · rw [hget]
        cases hlast : ((routes dump).filter RtMsg.Taken).getLast? with
        | none => rfl
        | some m =>
          obtain ⟨m', hm', hvia⟩ := h m hlast
          exact absurd ⟨m', hm', _, hvia⟩ hdef
  · next hfits =>
    have hget := fun gateway => (getGateway_eq dump gateway).trans (if_neg hfits)
    constructor
    · intro h hdef
      obtain ⟨m, -, gw, -, hgw⟩ := h.found [] hdef
      exact inetNtoa_ne_nil gw (hgw.symm.trans (hget []))
    · intro h
      exact ⟨fun gateway hdef => absurd hdef h, fun gateway _ => hget gateway⟩

/-! ## A private network -/

/-- A default route through `192.168.1.1`, and a network `10.0.0.0/8` on an interface. -/
def privateNetwork : List Datagram :=
  [⟨⟨afInet, rtTableMain, [.gateway ⟨192, 168, 1, 1⟩, .oif 2]⟩,
    [⟨afInet, rtTableMain, [.dst ⟨10, 0, 0, 0⟩, .oif 3]⟩]⟩]

/-- **The network overwrites the gateway**: the text `10.0.0.0` contains `0.0.0.0`, and it has no
gateway. -/
theorem ten_overwrites :
    ¬ ReportsDefault privateNetwork ∧
      getGateway privateNetwork (lit "") = (0, lit "0.0.0.0") := by
  refine ⟨fun h => ?_, by decide⟩
  have hdefault : ∃ m ∈ routes privateNetwork, ∃ gw, m.DefaultVia gw :=
    ⟨_, List.mem_cons_self, ⟨192, 168, 1, 1⟩, by decide, by decide, by decide⟩
  obtain ⟨m, hm, gw, hvia, hgw⟩ := h.found [] hdefault
  have hzero : gw = .any := inetNtoa_injective (hgw.symm.trans (by decide))
  have hgateway := hvia.gateWay_eq
  have hmem : m = ⟨afInet, rtTableMain, [.gateway ⟨192, 168, 1, 1⟩, .oif 2]⟩ ∨
      m = ⟨afInet, rtTableMain, [.dst ⟨10, 0, 0, 0⟩, .oif 3]⟩ := by
    simpa [privateNetwork, routes, Datagram.messages] using hm
  rcases hmem with rfl | rfl
  · exact absurd (hgateway.trans hzero) (by decide)
  · exact absurd hvia.dst (by decide)

end RkIpc.Network
