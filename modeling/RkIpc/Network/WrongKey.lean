import RkIpc.Network.ScanList
import RkIpc.Text.Search

/-!
# Events for a wrong key

`get_wifi_info_by_event` finds the name and the id of a network in an event of `wpa_supplicant` by
the first occurrences of four strings, and takes the lengths from the differences of what is left
behind them. The name is decoded as that of the current network is.

## Main definitions

* `getWifiInfoByEvent`: the function
* `wrongKeyEvent`: the event for a network
* `ReadableEvent`, `InOrder`: events that are read, and events whose parts are in order

## Main results

* `decoded_append`: only names without letters for control characters and without a backslash before
  an `x` are decoded to themselves
* `wrongKey_iff`: which events are read, and for which ones no length is negative
-/

namespace RkIpc.Network

open Text

/-! ## What the decoded name is -/

/-- The two functions, whatever room there is. -/
def decoded (text : Str) : Option Str :=
  (specCharConvers text).map fun u => removeEscapeCharacter (cstr u)

theorem decoded_of_decodeCurrent {text x : Str} (h : decodeCurrent text = some x) :
    decoded text = some x := by
  obtain ⟨sname, hsname, hx⟩ := Option.bind_eq_some_iff.mp h
  obtain ⟨u, hu, hbuffer⟩ := Option.bind_eq_some_iff.mp hsname
  obtain ⟨-, rfl⟩ := inArray_eq_some hbuffer
  obtain ⟨-, rfl⟩ := inArray_eq_some hx
  rw [decoded, hu, Option.map_some]

/-- A byte that is printed as it is. -/
def Fixed (c : UInt8) : Prop := IsPrint c ∧ c ≠ 34 ∧ c ≠ 92

instance (c : UInt8) : Decidable (Fixed c) := inferInstanceAs (Decidable (_ ∧ _))

section Bytes

variable {c : UInt8} {t : Str}

theorem cstr_cons (h : c ≠ 0) (u : List UInt8) : cstr (c :: u) = c :: cstr u :=
  List.takeWhile_cons_of_pos (by simpa using h)

/-- A byte in front, which is not a backslash. -/
theorem decoded_cons_of_map {text : Str}
    (h : specCharConvers text = (specCharConvers t).map (c :: ·)) (h0 : c ≠ 0) (h92 : c ≠ 92) :
    decoded text = (decoded t).map (c :: ·) := by
  rw [decoded, h, decoded, Option.map_map, Option.map_map]
  refine congrFun (congrArg _ (funext fun u => ?_)) _
  rw [Function.comp_apply, Function.comp_apply, cstr_cons h0, removeEscapeCharacter_cons h92]

/-- **A byte that is decoded**, or whose letter is left behind the backslash. -/
theorem decoded_printfQuoted (h0 : c ≠ 0) (hx : ¬ (c = 92 ∧ t.head? = some 120)) :
    decoded (printfQuoted c ++ t) = (decoded t).map (decodedByte c ++ ·) := by
  by_cases hquoted : c = 34 ∨ c = 92
  · have hletter : controlLetter c = none := by rcases hquoted with rfl | rfl <;> rfl
    have hbackslash : specCharConvers (92 :: c :: t) =
        (specCharConvers t).map fun u => 92 :: c :: u := by
      have h120 : c ≠ 120 := by
        rintro rfl
        exact absurd hquoted (by decide)
      rw [specCharConvers_cons (s := c :: t) fun h => h120 (Option.some.inj h.2),
        specCharConvers_cons hx, Option.map_map]
      rfl
    rw [printfQuoted, if_pos hquoted, decodedByte, hletter]
    change decoded (92 :: c :: t) = _
    rw [decoded, hbackslash, decoded, Option.map_map, Option.map_map]
    refine congrFun (congrArg _ (funext fun u => ?_)) _
    rw [Function.comp_apply, Function.comp_apply, cstr_cons (by decide), cstr_cons h0]
    rcases hquoted with rfl | rfl <;> rfl
  · rw [printfQuoted, if_neg hquoted]
    rw [not_or] at hquoted
    have hspec := specCharConvers_printfByte hx
    cases hletter : controlLetter c with
    | some l =>
      obtain ⟨-, hprint, h34, h92, -⟩ := controlLetter_eq_some hletter
      have hl0 : l ≠ 0 := by
        rintro rfl
        exact absurd hprint (by decide)
      rw [decodedByte, hletter] at hspec ⊢
      rw [decoded, hspec, decoded, Option.map_map, Option.map_map]
      refine congrFun (congrArg _ (funext fun u => ?_)) _
      change removeEscapeCharacter (cstr (92 :: l :: u)) = 92 :: l :: removeEscapeCharacter (cstr u)
      rw [cstr_cons (by decide), cstr_cons hl0, removeEscapeCharacter_backslash ⟨h34, h92⟩,
        removeEscapeCharacter_cons h92]
    | none =>
      rw [decodedByte, hletter] at hspec ⊢
      exact decoded_cons_of_map hspec h0 hquoted.2

end Bytes

/-! ## Names that are decoded to themselves -/

/-- **A text behind the name**: nothing, or the backslash of a quote that ends it. -/
def CutAt (tl w : Str) : Prop := tl = [] ∧ w = [] ∨ tl = [92] ∧ w.head? = some 34

/-- A number of two digits has two digits. -/
theorem digits_of_readDigits {a b : UInt8} (h : 16 ≤ readDigits 16 0 [a, b]) : a ≠ 92 ∧ b ≠ 92 := by
  have hnone : digitValue 92 = none := by decide
  constructor
  · rintro rfl
    simp [readDigits, hnone] at h
  · rintro rfl
    rw [readDigits] at h
    cases hd : digitValue a with
    | none => simp [hd] at h
    | some d =>
      simp only [hd, readDigits, hnone] at h
      split at h <;> omega

/-- A byte other than a backslash at the beginning of the text is that of the name. -/
theorem exists_fixed_of_cons {raw tl t : Str} {a : UInt8} (htl : tl = [] ∨ tl = [92])
    (h : printfEncode raw ++ tl = a :: t) (ha : a ≠ 92) :
    ∃ raw', raw = a :: raw' ∧ t = printfEncode raw' ++ tl ∧ Fixed a := by
  cases raw with
  | nil =>
    rcases htl with rfl | rfl
    · cases h
    · exact absurd (List.cons.inj h).1.symm ha
  | cons c raw =>
    rw [printfEncode, List.flatMap_cons, ← printfEncode, List.append_assoc, printfQuoted] at h
    split at h
    · exact absurd (List.cons.inj h).1.symm ha
    · next hquoted =>
      rw [not_or] at hquoted
      unfold printfByte at h
      split at h
      · exact absurd (List.cons.inj h).1.symm ha
      · split at h
        · next hprint =>
          obtain ⟨rfl, rfl⟩ := List.cons.inj h
          exact ⟨raw, rfl, rfl, hprint, hquoted⟩
        · exact absurd (List.cons.inj h).1.symm ha

/-- **Two digits that are read** are bytes of the name. -/
theorem exists_fixed_of_readDigits {raw tl t : Str} {a b : UInt8} (htl : tl = [] ∨ tl = [92])
    (h : printfEncode raw ++ tl = a :: b :: t) (h16 : 16 ≤ readDigits 16 0 [a, b]) :
    ∃ raw', raw = a :: b :: raw' ∧ t = printfEncode raw' ++ tl ∧ Fixed a ∧ Fixed b := by
  obtain ⟨ha, hb⟩ := digits_of_readDigits h16
  obtain ⟨raw₁, rfl, ht₁, hfa⟩ := exists_fixed_of_cons htl h ha
  obtain ⟨raw₂, rfl, ht₂, hfb⟩ := exists_fixed_of_cons htl ht₁.symm hb
  exact ⟨raw₂, rfl, ht₂, hfa, hfb⟩

theorem toNat_le_of_ofNat {n : ℕ} {c : UInt8} (h : UInt8.ofNat n = c) : c.toNat ≤ n := by
  rw [← h, UInt8.toNat_ofNat']
  exact Nat.mod_le _ _

/-- What begins with a backslash has no byte of the name before it. -/
theorem eq_nil_of_backslash {s x t : Str} (hs : ∀ d ∈ s, Fixed d) (h : 92 :: t = s ++ x) :
    s = [] := by
  cases s with
  | nil => rfl
  | cons d s =>
    obtain ⟨hd, -⟩ := List.cons.inj h
    exact absurd hd.symm (hs d List.mem_cons_self).2.2

/-- **Four bytes that are taken for a byte in hexadecimal** are not decoded to what they were. -/
theorem decoded_x_ne {raw tl w s : Str} (htl : tl = [] ∨ tl = [92]) (hs : ∀ d ∈ s, Fixed d)
    (ih : ∀ raw', raw'.length ≤ raw.length → ∀ s, (∀ d ∈ s, Fixed d) → s ≠ [] →
      decoded (printfEncode raw' ++ tl) ≠ some (s ++ raw' ++ w)) :
    decoded (92 :: 92 :: 120 :: (printfEncode raw ++ tl)) ≠ some (s ++ 92 :: 120 :: raw ++ w) := by
  intro h
  rw [decoded, specCharConvers_cons (s := 92 :: _) (by simp), Option.map_map] at h
  obtain ⟨v, hv, hdecoded⟩ := Option.map_eq_some_iff.mp h
  rw [Function.comp_apply] at hdecoded
  match hT : printfEncode raw ++ tl with
  | [] => rw [hT] at hv; cases hv
  | [a] => rw [hT] at hv; cases hv
  | a :: b :: t =>
    rw [hT] at hv
    obtain ⟨u, hu, rfl⟩ := Option.map_eq_some_iff.mp hv
    have hdec : decoded t = some (removeEscapeCharacter (cstr u)) := by
      rw [decoded, hu, Option.map_some]
    rw [List.append_assoc] at hdecoded
    generalize hB : UInt8.ofNat (readDigits 16 0 [a, b]) = B at hdecoded
    by_cases h0 : B = 0
    · subst h0
      have hlen := congrArg List.length hdecoded
      change 1 = _ at hlen
      simp only [List.length_append, List.length_cons] at hlen
      omega
    rw [cstr_cons (by decide), cstr_cons h0] at hdecoded
    by_cases h34 : B = 34
    · subst h34
      change 34 :: removeEscapeCharacter (cstr u) = _ at hdecoded
      cases s with
      | nil => exact absurd (List.cons.inj hdecoded).1 (by decide)
      | cons d s =>
        obtain ⟨hd, -⟩ := List.cons.inj hdecoded
        exact (hs d List.mem_cons_self).2.1 hd.symm
    by_cases h92 : B = 92
    · subst h92
      obtain ⟨raw', rfl, rfl, ha, hb⟩ := exists_fixed_of_readDigits htl hT
        (Nat.le_trans (by decide) (toNat_le_of_ofNat hB))
      change 92 :: removeEscapeCharacter (cstr u) = _ at hdecoded
      obtain rfl := eq_nil_of_backslash hs hdecoded
      obtain ⟨-, htail⟩ := List.cons.inj hdecoded
      refine ih raw' (by simp only [List.length_cons]; omega) [120, a, b] ?_ (by simp)
        (hdec.trans (congrArg some htail))
      exact List.forall_mem_cons.mpr ⟨by decide, by simp [ha, hb]⟩
    rw [removeEscapeCharacter_backslash ⟨h34, h92⟩, removeEscapeCharacter_cons h92] at hdecoded
    obtain rfl := eq_nil_of_backslash hs hdecoded
    obtain ⟨-, htail⟩ := List.cons.inj hdecoded
    obtain ⟨hB120, htail⟩ := List.cons.inj htail
    obtain ⟨raw', rfl, rfl, ha, hb⟩ := exists_fixed_of_readDigits htl hT
      (Nat.le_trans (by decide) (toNat_le_of_ofNat (hB.trans hB120)))
    exact ih raw' (by simp only [List.length_cons]; omega) [a, b] (by simp [ha, hb]) (by simp)
      (hdec.trans (congrArg some htail))

theorem mem_of_mem_removeEscapeCharacter {c : UInt8} {s : Str}
    (h : c ∈ removeEscapeCharacter s) : c ∈ s := by
  fun_induction removeEscapeCharacter s with
  | case1 buf ih => exact (List.mem_cons.mp h).elim (· ▸ by simp) fun h => by simp [ih h]
  | case2 buf ih => exact (List.mem_cons.mp h).elim (· ▸ by simp) fun h => by simp [ih h]
  | case3 c buf _ _ ih => exact (List.mem_cons.mp h).elim (· ▸ by simp) fun h => by simp [ih h]
  | case4 => exact h

/-- A name that is decoded is a string. -/
theorem zero_notMem_of_decoded {text x : Str} (h : decoded text = some x) : 0 ∉ x := by
  obtain ⟨u, -, rfl⟩ := Option.map_eq_some_iff.mp h
  intro hmem
  have := List.mem_takeWhile_imp (mem_of_mem_removeEscapeCharacter hmem)
  simp at this

/-- An `x` in the text is one of the name. -/
theorem head_printfEncode_append {raw tl : Str} (htl : tl = [] ∨ tl = [92])
    (h : (printfEncode raw ++ tl).head? = some 120) : raw.head? = some 120 := by
  rcases raw with _ | ⟨d, raw⟩
  · rcases htl with rfl | rfl <;> cases h
  · refine head_printfEncode ?_
    rwa [List.head?_append_of_ne_nil _ (printfEncode_ne_nil d raw)] at h

/-- Nothing but a text behind the name. -/
theorem eq_nil_of_decoded_tail {tl w s : Str} (hcut : CutAt tl w) (hs : ∀ d ∈ s, Fixed d)
    (h : decoded tl = some (s ++ w)) : s = [] ∧ tl = [] := by
  rcases hcut with ⟨rfl, rfl⟩ | ⟨rfl, hw⟩
  · have hnil : [] = s ++ [] := Option.some.inj h
    exact ⟨(hnil.trans (List.append_nil s)).symm, rfl⟩
  · have hback : [92] = s ++ w := Option.some.inj h
    obtain rfl := eq_nil_of_backslash hs hback
    rw [List.nil_append] at hback
    rw [← hback] at hw
    exact absurd hw (by decide)

/-- A byte that is not quoted is decoded to itself, not to a letter behind a backslash. -/
theorem eq_of_decodedByte {c : UInt8} {s x u : Str} (hs : ∀ d ∈ s, Fixed d)
    (h : decodedByte c ++ u = s ++ c :: x) : controlLetter c = none ∧ c :: u = s ++ c :: x := by
  unfold decodedByte at h
  split at h
  · next l hl =>
    obtain rfl := eq_nil_of_backslash hs h
    rw [← (List.cons.inj h).1] at hl
    exact absurd hl.symm (by simp [controlLetter])
  · next hc => exact ⟨hc, h⟩

theorem not_infix_cons {c : UInt8} {raw tl : Str}
    (hx : ¬ (c = 92 ∧ (printfEncode raw ++ tl).head? = some 120)) (h : ¬ [92, 120] <:+: raw) :
    ¬ [92, 120] <:+: c :: raw := by
  intro hinfix
  rcases List.infix_cons_iff.mp hinfix with ⟨t, ht⟩ | hinfix
  · obtain ⟨rfl, rfl⟩ := List.cons.inj ht
    exact hx ⟨rfl, rfl⟩
  · exact h hinfix

/-- **Names that are decoded to themselves**, with something before and behind. -/
theorem decoded_append {raw tl w s : Str} (hcut : CutAt tl w) (hs : ∀ d ∈ s, Fixed d)
    (h : decoded (printfEncode raw ++ tl) = some (s ++ raw ++ w)) :
    s = [] ∧ tl = [] ∧ (∀ c ∈ raw, controlLetter c = none) ∧ ¬ [92, 120] <:+: raw := by
  have htl : tl = [] ∨ tl = [92] := hcut.imp And.left And.left
  -- induction on the length: behind `\x` two bytes of the name are skipped
  induction hn : raw.length using Nat.strong_induction_on generalizing raw s with
  | _ n ih =>
    rcases raw with _ | ⟨c, raw⟩
    · rw [List.append_nil] at h
      obtain ⟨hnil, htail⟩ := eq_nil_of_decoded_tail hcut hs h
      exact ⟨hnil, htail, by simp, by simp⟩
    rw [List.length_cons] at hn
    by_cases hx : c = 92 ∧ (printfEncode raw ++ tl).head? = some 120
    · obtain ⟨rfl, hhead⟩ := hx
      obtain ⟨raw, rfl⟩ := List.head?_eq_some_iff.mp (head_printfEncode_append htl hhead)
      rw [List.length_cons] at hn
      refine absurd h (decoded_x_ne htl hs fun raw' hraw' s' hs' hne hdecoded => ?_)
      exact hne (ih raw'.length (by omega) hs' hdecoded rfl).1
    · have h0 : c ≠ 0 := by
        rintro rfl
        exact zero_notMem_of_decoded h (by simp)
      rw [printfEncode_cons, List.append_assoc, decoded_printfQuoted h0 hx] at h
      obtain ⟨u, hu, heq⟩ := Option.map_eq_some_iff.mp h
      rw [List.append_assoc] at heq
      obtain ⟨hc, heq⟩ := eq_of_decodedByte hs heq
      rcases s with _ | ⟨d, s⟩
      · obtain ⟨-, rfl⟩ := List.cons.inj heq
        obtain ⟨-, htail, hcontrol, hback⟩ := ih raw.length (by omega) (s := []) (by simp) hu rfl
        exact ⟨rfl, htail, List.forall_mem_cons.mpr ⟨hc, hcontrol⟩, not_infix_cons hx hback⟩
      · -- the bytes before the name move on by one
        obtain ⟨rfl, htail⟩ := List.cons.inj heq
        have hu' : u = s ++ [c] ++ raw ++ w := by
          rw [← List.append_cons, List.append_assoc]
          exact htail
        have hs' : ∀ d ∈ s ++ [c], Fixed d := by
          intro d hd
          rcases List.mem_append.mp hd with hd | hd
          · exact hs d (List.mem_cons_of_mem _ hd)
          · exact List.mem_singleton.mp hd ▸ hs c List.mem_cons_self
        obtain ⟨hnil, -⟩ := ih raw.length (by omega) hs' (hu.trans (congrArg some hu')) rfl
        exact absurd hnil (by simp)

theorem eq_quote_of_mem {c : UInt8} (h : 34 ∈ printfQuoted c) : c = 34 := by
  have hdigit : ∀ n < 16, hexDigit n ≠ 34 := by decide
  unfold printfQuoted printfByte at h
  split at h
  · next hc =>
    rcases hc with rfl | rfl
    · rfl
    · exact absurd h (by decide)
  · split at h
    · next l hl => simp [(controlLetter_eq_some hl).2.2.1.symm] at h
    · split at h
      · exact (List.mem_singleton.mp h).symm
      · obtain ⟨hdiv, hmod⟩ := toNat_div_lt c
        simp [(hdigit _ hdiv).symm, (hdigit _ hmod).symm] at h

/-- A quote in the text is one of the name, behind a backslash. -/
theorem quote_of_printfEncode {raw y z : Str} (h : printfEncode raw = y ++ 34 :: z) :
    ∃ r r', raw = r ++ 34 :: r' ∧ y = printfEncode r ++ [92] := by
  induction raw generalizing y with
  | nil => exact absurd h (by simp [printfEncode])
  | cons c raw ih =>
    rw [printfEncode_cons] at h
    have hlater : ∀ y', y = printfQuoted c ++ y' → printfEncode raw = y' ++ 34 :: z →
        ∃ r r', c :: raw = r ++ 34 :: r' ∧ y = printfEncode r ++ [92] := by
      rintro y' rfl hraw
      obtain ⟨r, r', rfl, rfl⟩ := ih hraw
      exact ⟨c :: r, r', rfl, by rw [printfEncode_cons, List.append_assoc]⟩
    rcases List.append_eq_append_iff.mp h with ⟨y', hy, hraw⟩ | ⟨v, hv, hz⟩
    · exact hlater y' hy hraw
    · rcases v with _ | ⟨d, v⟩
      · exact hlater [] (by simpa using hv.symm) hz.symm
      · obtain ⟨rfl, -⟩ := List.cons.inj hz
        obtain rfl : c = 34 := eq_quote_of_mem (hv ▸ by simp)
        refine ⟨[], raw, rfl, ?_⟩
        have hquote : [92, 34] = y ++ 34 :: v := hv
        rcases y with _ | ⟨d, _ | ⟨e, y⟩⟩
        · exact absurd (List.cons.inj hquote).1 (by decide)
        · exact congrArg (· :: []) (List.cons.inj hquote).1.symm
        · exact absurd (congrArg List.length hquote) (by simp)

/-! ## The function -/

/-- **`RK_WIFI_RUNNING_State_e`.** -/
inductive RunningState where
  | idle
  | connecting
  | connectFailed
  | connectFailedWrongKey
  | connected
  | disconnected
  | opened
  | off
  | scanResults
  | dhcpOk
  deriving DecidableEq

/-- The members of `RK_WIFI_INFO_Connection_s` that an event sets. -/
structure ConnectionInfo where
  id : ℤ
  bssid : Str
  ssid : Str
  reason : ℤ
  deriving DecidableEq

/-- What there is no result for: a length below zero, the length of no string, and an array that is
too short. -/
inductive Fault where
  | negativeLength
  | nullString
  | overrun
  deriving DecidableEq

/-- `strncpy(dst, src, len)`, where `dst` has `n` bytes, all of them zero, and is a string then. -/
def strncpyIn (n : ℕ) (src : Str) (len : ℤ) : Except Fault Str :=
  if len < 0 then .error .negativeLength
  else if n < len ∨ len = n ∧ n ≤ src.length then .error .overrun
  else .ok (src.take len.toNat)

/-- The string at which the name begins. -/
def startPattern : Str := lit "ssid=\""

/-- The string at which the name ends. -/
def endPattern : Str := lit "\" auth_failures"

/-- The name between `startTag` and `endTag`. -/
def wrongKeySsid (gbk : List (Str × Str)) (startTag endTag : Str) : Except Fault Str := do
  let value ← strncpyIn 128 (startTag.drop 6) (startTag.length - endTag.length - 6)
  match decodeCurrent value with
  | some sname1 =>
    let utf8 := getEncodeGbkUtf8 gbk sname1
    if utf8.length < 64 then .ok utf8 else .error .overrun
  | none => .error .overrun

/-- The id between `idTag` and `startTag`. -/
def wrongKeyId (startTag : Option Str) (idTag : Str) : Except Fault ℤ :=
  match startTag with
  | some startTag =>
    (strncpyIn 10 (idTag.drop 3) (idTag.length - 3 - startTag.length - 1)).map atoi
  | none => .error .nullString

/-- Behind the name. -/
def wrongKeyRest (connectBssid event : Str) (startTag : Option Str) (info : ConnectionInfo) :
    Except Fault ConnectionInfo :=
  match firstAt (lit "id=") event with
  | some idTag =>
    (wrongKeyId startTag idTag).map fun id => { info with id, bssid := connectBssid.take 19 }
  | none => .ok { info with bssid := connectBssid.take 19 }

/-- The state of a wrong key. -/
def wrongKeyInfo (gbk : List (Str × Str)) (connectBssid event : Str) (info : ConnectionInfo) :
    Except Fault ConnectionInfo :=
  match firstAt startPattern event with
  | none => wrongKeyRest connectBssid event none info
  | some startTag =>
    match firstAt endPattern event with
    | none => .ok info
    | some endTag => do
      let ssid ← wrongKeySsid gbk startTag endTag
      wrongKeyRest connectBssid event (some startTag) { info with ssid }

/-- The state of a connection that has ended. -/
def disconnectedInfo (event : Str) (info : ConnectionInfo) : ConnectionInfo :=
  let info := match firstAt (lit "bssid=") event with
    | some startTag =>
      -- the seventeen bytes are not terminated
      let src := startTag.drop 6
      { info with bssid := if src.length < 17 then src else src.take 17 ++ info.bssid.drop 17 }
    | none => info
  match firstAt (lit "reason=") event with
  | some reasonTag => { info with reason := atoi ((reasonTag.drop 7).take 2) }
  | none => info

/-- **`get_wifi_info_by_event`**, with the names that are kept, the address that was connected to,
and what `RK_wifi_running_getConnectionInfo` has found. -/
def getWifiInfoByEvent (gbk : List (Str × Str)) (connectBssid event : Str) (state : RunningState)
    (info : ConnectionInfo) : Except Fault ConnectionInfo :=
  match state with
  | .disconnected => .ok (disconnectedInfo event info)
  | .connectFailedWrongKey => wrongKeyInfo gbk connectBssid event info
  | _ => .ok info

/-! ## Events -/

/-- What stands before the name in an event. -/
def eventFront (id : ℕ) : Str :=
  lit "CTRL-EVENT-SSID-TEMP-DISABLED id=" ++ decimalNat id ++ [32]

/-- **The event** for a network with the number `id` and the name `raw`. -/
def wrongKeyEvent (id : ℕ) (raw rest : Str) : Str :=
  eventFront id ++ (startPattern ++ (printfEncode raw ++ (endPattern ++ rest)))

/-- **The event is read**: the id and the name are reported, whatever names are kept, unless the
name they have for it is too long. -/
def ReportsWrongKey (id : ℕ) (raw rest : Str) : Prop :=
  ∀ gbk connectBssid info, (getEncodeGbkUtf8 gbk raw).length < 64 →
    getWifiInfoByEvent gbk connectBssid (wrongKeyEvent id raw rest) .connectFailedWrongKey info =
      .ok { info with id, ssid := getEncodeGbkUtf8 gbk raw, bssid := connectBssid.take 19 }

/-- **No length is negative**, and there is none of a string that was not found. -/
def LengthsDefined (event : Str) : Prop :=
  ∀ gbk connectBssid info, ∀ fault ∈ [Fault.negativeLength, .nullString],
    getWifiInfoByEvent gbk connectBssid event .connectFailedWrongKey info ≠ .error fault

/-- **Events that are read**: the name is decoded to itself, its text has room and does not end
early, and the id has nine digits at most. -/
structure ReadableEvent (id : ℕ) (raw : Str) : Prop where
  terminator : 0 ∉ raw
  control : ∀ c ∈ raw, controlLetter c = none
  backslash : ¬ [92, 120] <:+: raw
  room : (printfEncode raw).length ≤ 127
  ends : ¬ endPattern <:+: 34 :: printfEncode raw
  id_lt : id < 1000000000

/-- The text between the beginning and the end of the name. -/
def between (startTag endTag : Str) : Str :=
  (startTag.drop 6).take (startTag.length - endTag.length - 6)

/-- **Events whose parts are in order**: without a beginning of the name there is no id, and with
both the end is behind the beginning, and the id, once there is room for a name, before it. -/
def InOrder (event : Str) : Prop :=
  match firstAt startPattern event, firstAt endPattern event with
  | none, _ => firstAt (lit "id=") event = none
  | some _, none => True
  | some startTag, some endTag =>
    endTag.length + 6 ≤ startTag.length ∧
      ((between startTag endTag).length ≤ 127 → (decodeCurrent (between startTag endTag)).isSome →
        ∀ idTag ∈ firstAt (lit "id=") event, startTag.length + 4 ≤ idTag.length)

/-! ## Lengths -/

theorem strncpyIn_of_neg {n : ℕ} {src : Str} {len : ℤ} (h : len < 0) :
    strncpyIn n src len = .error .negativeLength := if_pos h

/-- **No more is copied than there is**, if there is room for the terminator. -/
theorem strncpyIn_of_le {n k : ℕ} {src : Str} (h : k ≤ src.length) :
    strncpyIn n src k = if k < n then .ok (src.take k) else .error .overrun := by
  rw [strncpyIn, if_neg (by omega)]
  by_cases hlt : k < n
  · rw [if_neg (by omega), if_pos hlt, Int.toNat_natCast]
  · rw [if_pos (by omega), if_neg hlt]

/-- Without a negative length the array is too short. -/
theorem eq_overrun_of_strncpyIn {n : ℕ} {src : Str} {len : ℤ} {fault : Fault} (h0 : 0 ≤ len)
    (h : strncpyIn n src len = .error fault) : fault = .overrun := by
  rw [strncpyIn, if_neg (by omega)] at h
  split_ifs at h
  exact (Except.error.inj h).symm

/-- What is copied for the name, when its end is behind its beginning. -/
theorem strncpyIn_between {startTag endTag : Str} (h : endTag.length + 6 ≤ startTag.length) :
    strncpyIn 128 (startTag.drop 6) (startTag.length - endTag.length - 6) =
      if (between startTag endTag).length ≤ 127 then .ok (between startTag endTag)
      else .error .overrun := by
  have hcast : (startTag.length - endTag.length - 6 : ℤ) =
      ((startTag.length - endTag.length - 6 : ℕ) : ℤ) := by omega
  have hle : startTag.length - endTag.length - 6 ≤ (startTag.drop 6).length := by
    rw [List.length_drop]
    omega
  rw [hcast, strncpyIn_of_le hle, between, List.length_take, min_eq_left hle]
  exact if_congr (by omega) rfl rfl

/-- **The name**, if it is found: the text, what it is decoded to, and the name that is kept. -/
theorem wrongKeySsid_eq_ok_iff {gbk : List (Str × Str)} {startTag endTag ssid : Str} :
    wrongKeySsid gbk startTag endTag = .ok ssid ↔
      endTag.length + 6 ≤ startTag.length ∧ (between startTag endTag).length ≤ 127 ∧
        ∃ v, decodeCurrent (between startTag endTag) = some v ∧ ssid = getEncodeGbkUtf8 gbk v ∧
          ssid.length < 64 := by
  unfold wrongKeySsid
  by_cases hneg : endTag.length + 6 ≤ startTag.length
  · rw [strncpyIn_between hneg]
    split_ifs with hroom
    · simp only [hneg, hroom, true_and]
      change (match decodeCurrent (between startTag endTag) with
        | some sname1 => _
        | none => _) = _ ↔ _
      cases decodeCurrent (between startTag endTag) with
      | none => simp
      | some v =>
        simp only [Option.some.injEq, exists_eq_left']
        split_ifs with hlt
        · rw [Except.ok.injEq]
          exact ⟨fun h => ⟨h.symm, h ▸ hlt⟩, fun h => h.1.symm⟩
        · exact ⟨nofun, fun h => absurd (h.1 ▸ h.2) hlt⟩
    · exact ⟨nofun, fun h => absurd h.2.1 hroom⟩
  · rw [strncpyIn_of_neg (by omega)]
    exact ⟨nofun, fun h => absurd h.1 hneg⟩

/-! ## What is found in an event -/

section Event

variable {id : ℕ} {raw rest : Str}

theorem startPattern_append (t : Str) : startPattern ++ t = lit "ssid=" ++ 34 :: t :=
  List.append_assoc (lit "ssid=") [34] t

/-- The event from the name on. -/
def eventStart (raw rest : Str) : Str :=
  startPattern ++ (printfEncode raw ++ (endPattern ++ rest))

theorem notMem_eventFront {c : UInt8} (hc : ¬ IsDigit c)
    (hlit : c ∉ lit "CTRL-EVENT-SSID-TEMP-DISABLED id= ") : c ∉ eventFront id := by
  intro h
  rcases List.mem_append.mp h with h | h
  · rcases List.mem_append.mp h with h | h
    · exact hlit (List.mem_append_left [32] h)
    · exact hc (isDigit_of_mem_decimalNat h)
  · exact hlit (List.mem_append_right (lit "CTRL-EVENT-SSID-TEMP-DISABLED id=") h)

/-- **The beginning of the name** is found. -/
theorem firstAt_startPattern :
    firstAt startPattern (wrongKeyEvent id raw rest) = some (eventStart raw rest) := by
  have hquote : 34 ∉ eventFront id ++ lit "ssid=" := by
    rw [List.mem_append, not_or]
    exact ⟨notMem_eventFront (by decide) (by decide), by decide⟩
  rw [wrongKeyEvent, eventStart, startPattern_append]
  exact firstAt_concat hquote

/-- **The id** is found. -/
theorem firstAt_id : firstAt (lit "id=") (wrongKeyEvent id raw rest) =
    some (lit "id=" ++ (decimalNat id ++ 32 :: eventStart raw rest)) := by
  have hfirst := firstAt_concat (a := lit "CTRL-EVENT-SSID-TEMP-DISABLED ") (p := lit "id")
    (c := 61) (t := decimalNat id ++ 32 :: eventStart raw rest) (by decide)
  rw [wrongKeyEvent, ← eventStart, eventFront, List.append_assoc, List.append_assoc]
  exact hfirst

/-- **The end of the name** is found, unless the name has one in it. -/
theorem firstAt_endPattern (h : ¬ endPattern <:+: 34 :: printfEncode raw) :
    firstAt endPattern (wrongKeyEvent id raw rest) = some (endPattern ++ rest) := by
  have hquote : 34 ∉ eventFront id ++ lit "ssid=" := by
    rw [List.mem_append, not_or]
    exact ⟨notMem_eventFront (by decide) (by decide), by decide⟩
  have hfirst := firstAt_append_cons (a := eventFront id ++ lit "ssid=" ++ 34 :: printfEncode raw)
    (t := rest) (c := 34) (p := lit " auth_failures") (by decide)
    fun hinfix => h ((infix_append_iff_of_notMem hquote).mp hinfix)
  rw [wrongKeyEvent, startPattern_append, ← List.append_assoc, ← List.cons_append,
    ← List.append_assoc]
  exact hfirst

/-- What stands between is the text of the name. -/
theorem between_eventStart :
    between (eventStart raw rest) (endPattern ++ rest) = printfEncode raw := by
  have hlen : (eventStart raw rest).length - (endPattern ++ rest).length - 6 =
      (printfEncode raw).length := by
    have hsix : startPattern.length = 6 := rfl
    simp only [eventStart, List.length_append, hsix]
    omega
  rw [between, hlen]
  exact List.take_left

theorem atoi_decimalNat {n : ℕ} (h : n < 2147483648) : atoi (decimalNat n) = n := by
  have hatoi := atoi_decimalNat_append n (s := []) (by simp)
  rwa [List.append_nil, clamp_eq_self ⟨by omega, by omega⟩] at hatoi

/-- **The event**, up to its end: the name, and the digits of the id. -/
theorem wrongKeyInfo_wrongKeyEvent {gbk : List (Str × Str)} {connectBssid endTag : Str}
    {info : ConnectionInfo} (hend : firstAt endPattern (wrongKeyEvent id raw rest) = some endTag) :
    wrongKeyInfo gbk connectBssid (wrongKeyEvent id raw rest) info = (do
      let ssid ← wrongKeySsid gbk (eventStart raw rest) endTag
      if id < 1000000000 then
        .ok { info with id, ssid, bssid := connectBssid.take 19 }
      else .error .overrun) := by
  have hid : wrongKeyId (some (eventStart raw rest))
      (lit "id=" ++ (decimalNat id ++ 32 :: eventStart raw rest)) =
      if id < 1000000000 then .ok (id : ℤ) else .error .overrun := by
    have hthree : (lit "id=").length = 3 := rfl
    have hcast : (((lit "id=" ++ (decimalNat id ++ 32 :: eventStart raw rest)).length : ℤ) - 3 -
        (eventStart raw rest).length - 1) = (decimalNat id).length := by
      simp only [List.length_append, List.length_cons, hthree]
      push_cast
      omega
    have hnine := length_decimalNat_le_iff (n := id) (k := 9) (by decide)
    unfold wrongKeyId
    dsimp only
    rw [hcast, List.drop_left' hthree, strncpyIn_of_le (by simp), List.take_left]
    by_cases hlt : id < 1000000000
    · rw [if_pos (by omega), if_pos hlt]
      exact congrArg Except.ok (atoi_decimalNat (by omega))
    · rw [if_neg (by omega), if_neg hlt]
      rfl
  rw [wrongKeyInfo, firstAt_startPattern]
  simp only [hend, wrongKeyRest, firstAt_id, hid]
  cases wrongKeySsid gbk (eventStart raw rest) endTag with
  | error fault => rfl
  | ok ssid =>
    by_cases hlt : id < 1000000000
    · simp only [if_pos hlt]
      rfl
    · simp only [if_neg hlt]
      rfl

/-! ## Which events are read -/

/-- There is room for what a short text is decoded to. -/
theorem decodeCurrent_of_decoded {text x : Str} (h : decoded text = some x)
    (hroom : text.length ≤ 127) : decodeCurrent text = some x := by
  obtain ⟨u, hu, rfl⟩ := Option.map_eq_some_iff.mp h
  have hlen := length_specCharConvers hu
  have hcstr : (cstr u).length ≤ u.length := (List.takeWhile_prefix _).length_le
  have hremove := length_removeEscapeCharacter_le (cstr u)
  rw [decodeCurrent, hu]
  simp only [Option.bind_eq_bind, Option.bind_some]
  rw [inArray_eq (by omega), Option.bind_some, inArray_eq (by omega)]

theorem ReadableEvent.decoded (h : ReadableEvent id raw) :
    decoded (printfEncode raw) = some raw := by
  rw [RkIpc.Network.decoded, specCharConvers_printfEncode h.backslash, Option.map_some,
    cstr_eq_self (zero_notMem_quotedByte h.terminator), removeEscapeCharacter_quotedByte h.control]

/-- **Readable events are read.** -/
theorem ReadableEvent.reports (h : ReadableEvent id raw) (rest : Str) :
    ReportsWrongKey id raw rest := by
  intro gbk connectBssid info hlt
  have hsix : startPattern.length = 6 := rfl
  have hssid : wrongKeySsid gbk (eventStart raw rest) (endPattern ++ rest) =
      .ok (getEncodeGbkUtf8 gbk raw) := by
    rw [wrongKeySsid_eq_ok_iff, between_eventStart]
    refine ⟨?_, h.room, raw, decodeCurrent_of_decoded h.decoded h.room, rfl, hlt⟩
    simp only [eventStart, List.length_append, hsix]
    omega
  rw [getWifiInfoByEvent, wrongKeyInfo_wrongKeyEvent (firstAt_endPattern h.ends), hssid]
  exact if_pos h.id_lt

theorem getEncodeGbkUtf8_singleton (ori utf8 str : Str) :
    getEncodeGbkUtf8 [(ori, utf8)] str = if ori = str then utf8 else str := by
  by_cases h : ori = str <;> simp [getEncodeGbkUtf8, List.find?, h]

/-- **An event that is reported**, whatever names are kept: the text up to the end is decoded to the
name. -/
theorem ReportsWrongKey.exists_endTag (h : ReportsWrongKey id raw rest) :
    id < 1000000000 ∧ ∃ endTag, firstAt endPattern (wrongKeyEvent id raw rest) = some endTag ∧
      endTag.length + 6 ≤ (eventStart raw rest).length ∧
      (between (eventStart raw rest) endTag).length ≤ 127 ∧
      decoded (between (eventStart raw rest) endTag) = some raw := by
  have hfound : (firstAt endPattern (wrongKeyEvent id raw rest)).isSome :=
    isSome_firstAt_iff.mpr ⟨eventFront id ++ (startPattern ++ printfEncode raw), rest, by
      simp [wrongKeyEvent]⟩
  obtain ⟨endTag, hend⟩ := Option.isSome_iff_exists.mp hfound
  -- the name is replaced by a byte, and so it is the name that is looked up
  have hread : ∀ b : UInt8, id < 1000000000 ∧
      wrongKeySsid [(raw, [b])] (eventStart raw rest) endTag = .ok [b] := by
    intro b
    have hkept : getEncodeGbkUtf8 [(raw, [b])] raw = [b] := by
      rw [getEncodeGbkUtf8_singleton, if_pos rfl]
    have hok := h [(raw, [b])] [] ⟨0, [], [], 0⟩ (by rw [hkept]; simp)
    rw [getWifiInfoByEvent, wrongKeyInfo_wrongKeyEvent hend, hkept] at hok
    cases hssid : wrongKeySsid [(raw, [b])] (eventStart raw rest) endTag with
    | error fault =>
      rw [hssid] at hok
      cases hok
    | ok ssid =>
      rw [hssid] at hok
      change (if id < 1000000000 then _ else _) = _ at hok
      split_ifs at hok with hlt
      obtain rfl : ssid = [b] := congrArg ConnectionInfo.ssid (Except.ok.inj hok)
      exact ⟨hlt, rfl⟩
  obtain ⟨hid, hfirst⟩ := hread 97
  obtain ⟨hneg, hroom, v, hv, hfirst, -⟩ := wrongKeySsid_eq_ok_iff.mp hfirst
  obtain ⟨-, -, w, hw, hsecond, -⟩ := wrongKeySsid_eq_ok_iff.mp (hread 98).2
  obtain rfl : v = w := Option.some.inj (hv.symm.trans hw)
  rw [getEncodeGbkUtf8_singleton] at hfirst hsecond
  have hvraw : raw = v := by
    by_contra hne
    rw [if_neg hne] at hfirst hsecond
    exact absurd (hfirst.trans hsecond.symm) (by decide)
  exact ⟨hid, endTag, hend, hneg, hroom, (decoded_of_decodeCurrent hv).trans
    (congrArg some hvraw.symm)⟩

/-- The text ends where it should: otherwise a backslash is left of it that is not in the name. -/
theorem eq_of_decoded_between {endTag : Str} (hend : firstAt endPattern
      (wrongKeyEvent id raw rest) = some endTag)
    (hneg : endTag.length + 6 ≤ (eventStart raw rest).length)
    (h : decoded (between (eventStart raw rest) endTag) = some raw) :
    endTag = endPattern ++ rest := by
  obtain ⟨hpre, hsuf⟩ := prefix_and_suffix_of_firstAt hend
  have hsix : startPattern.length = 6 := rfl
  have hbody : printfEncode raw ++ (endPattern ++ rest) <:+ wrongKeyEvent id raw rest :=
    ⟨eventFront id ++ startPattern, by rw [wrongKeyEvent, List.append_assoc]⟩
  have hrest : endPattern ++ rest <:+ endTag :=
    List.suffix_of_suffix_length_le ((List.suffix_append _ _).trans hbody) hsuf
      (length_le_of_firstAt hend ((List.suffix_append _ _).trans hbody) (List.prefix_append _ _))
  rw [eventStart, List.length_append, hsix] at hneg
  obtain ⟨t, ht⟩ := List.suffix_of_suffix_length_le hsuf hbody (by omega)
  obtain ⟨y, rfl⟩ := hrest
  have htext : printfEncode raw = t ++ y := by
    rw [← List.append_assoc] at ht
    exact (List.append_cancel_right ht).symm
  have hbetween : between (eventStart raw rest) (y ++ (endPattern ++ rest)) = t := by
    have hlen := congrArg List.length ht
    rw [List.length_append] at hlen
    rw [between, eventStart, List.drop_left' hsix, ← ht, List.take_left']
    rw [List.length_append, hsix, ht]
    omega
  rw [hbetween] at h
  cases y with
  | nil => rfl
  | cons d y =>
    obtain ⟨u, hu⟩ := hpre
    obtain ⟨rfl, -⟩ := List.cons.inj hu
    obtain ⟨r, r', rfl, rfl⟩ := quote_of_printfEncode htext
    -- the backslash before the quote is all that is left of it
    obtain ⟨-, htl, -⟩ := decoded_append (s := []) (.inr ⟨rfl, rfl⟩) (by simp) h
    cases htl

/-- **Only readable events are read.** -/
theorem ReportsWrongKey.readable (h : ReportsWrongKey id raw rest) : ReadableEvent id raw := by
  obtain ⟨hid, endTag, hend, hneg, hroom, hdecoded⟩ := h.exists_endTag
  obtain rfl := eq_of_decoded_between hend hneg hdecoded
  rw [between_eventStart] at hroom hdecoded
  have hraw : decoded (printfEncode raw ++ []) = some ([] ++ raw ++ []) := by simpa using hdecoded
  obtain ⟨-, -, hcontrol, hback⟩ := decoded_append (.inl ⟨rfl, rfl⟩) (by simp) hraw
  refine ⟨zero_notMem_of_decoded hdecoded, hcontrol, hback, hroom, fun hinfix => ?_, hid⟩
  obtain ⟨p, q, hpq⟩ := hinfix
  have hsuf : endPattern ++ (q ++ (endPattern ++ rest)) <:+ wrongKeyEvent id raw rest := by
    refine ⟨eventFront id ++ (lit "ssid=" ++ p), ?_⟩
    rw [wrongKeyEvent, startPattern_append, ← List.cons_append, ← hpq]
    simp only [List.append_assoc]
  have hle := length_le_of_firstAt hend hsuf (List.prefix_append _ _)
  have hpos : 0 < endPattern.length := by decide
  simp only [List.length_append] at hle
  omega

end Event

/-! ## Which lengths are negative -/

section Order

variable {gbk : List (Str × Str)} {startTag endTag idTag : Str} {fault : Fault}

theorem wrongKeySsid_of_lt (h : startTag.length < endTag.length + 6) :
    wrongKeySsid gbk startTag endTag = .error .negativeLength := by
  rw [wrongKeySsid, strncpyIn_of_neg (by omega)]
  rfl

theorem wrongKeyId_of_lt (h : idTag.length < startTag.length + 4) :
    wrongKeyId (some startTag) idTag = .error .negativeLength := by
  unfold wrongKeyId
  dsimp only
  rw [strncpyIn_of_neg (by omega)]
  rfl

/-- A name whose end is behind its beginning has no other fault than its length. -/
theorem eq_overrun_of_wrongKeySsid (hle : endTag.length + 6 ≤ startTag.length)
    (h : wrongKeySsid gbk startTag endTag = .error fault) : fault = .overrun := by
  rw [wrongKeySsid, strncpyIn_between hle] at h
  by_cases hroom : (between startTag endTag).length ≤ 127
  · rw [if_pos hroom] at h
    change (match decodeCurrent (between startTag endTag) with
      | some sname1 => if (getEncodeGbkUtf8 gbk sname1).length < 64 then
          Except.ok (getEncodeGbkUtf8 gbk sname1) else .error Fault.overrun
      | none => .error .overrun) = _ at h
    split at h
    · split_ifs at h
      exact (Except.error.inj h).symm
    · exact (Except.error.inj h).symm
  · rw [if_neg hroom] at h
    exact (Except.error.inj h).symm

theorem eq_overrun_of_wrongKeyId (hle : startTag.length + 4 ≤ idTag.length)
    (h : wrongKeyId (some startTag) idTag = .error fault) : fault = .overrun := by
  unfold wrongKeyId at h
  dsimp only at h
  cases hbuf : strncpyIn 10 (idTag.drop 3) (idTag.length - 3 - startTag.length - 1) with
  | error f =>
    rw [hbuf] at h
    obtain rfl := Except.error.inj h
    exact eq_overrun_of_strncpyIn (by omega) hbuf
  | ok buf =>
    rw [hbuf] at h
    cases h

/-- Behind the name, if the id stands before it. -/
theorem eq_overrun_of_wrongKeyRest {connectBssid event : Str} {info : ConnectionInfo}
    (hle : ∀ idTag ∈ firstAt (lit "id=") event, startTag.length + 4 ≤ idTag.length)
    (h : wrongKeyRest connectBssid event (some startTag) info = .error fault) :
    fault = .overrun := by
  unfold wrongKeyRest at h
  split at h
  · next idTag hidTag =>
    cases hid : wrongKeyId (some startTag) idTag with
    | error f =>
      rw [hid] at h
      obtain rfl := Except.error.inj h
      exact eq_overrun_of_wrongKeyId (hle idTag hidTag) hid
    | ok id =>
      rw [hid] at h
      cases h
  · cases h

section Both

variable {connectBssid event : Str} {info : ConnectionInfo}

/-- What is read of an event that has a beginning and an end of the name. -/
theorem getWifiInfoByEvent_eq (hstart : firstAt startPattern event = some startTag)
    (hend : firstAt endPattern event = some endTag) :
    getWifiInfoByEvent gbk connectBssid event .connectFailedWrongKey info =
      (wrongKeySsid gbk startTag endTag).bind fun ssid =>
        wrongKeyRest connectBssid event (some startTag) { info with ssid } := by
  simp only [getWifiInfoByEvent, wrongKeyInfo, hstart, hend]
  rfl

theorem LengthsDefined.end_le (h : LengthsDefined event)
    (hstart : firstAt startPattern event = some startTag)
    (hend : firstAt endPattern event = some endTag) : endTag.length + 6 ≤ startTag.length := by
  by_contra hlt
  refine h [] [] ⟨0, [], [], 0⟩ .negativeLength (by simp) ?_
  rw [getWifiInfoByEvent_eq hstart hend, wrongKeySsid_of_lt (by omega)]
  rfl

theorem LengthsDefined.id_le (h : LengthsDefined event)
    (hstart : firstAt startPattern event = some startTag)
    (hend : firstAt endPattern event = some endTag)
    (hroom : (between startTag endTag).length ≤ 127)
    (hsome : (decodeCurrent (between startTag endTag)).isSome)
    (hid : firstAt (lit "id=") event = some idTag) : startTag.length + 4 ≤ idTag.length := by
  obtain ⟨v, hv⟩ := Option.isSome_iff_exists.mp hsome
  by_contra hlt
  -- a name that is kept for this one is short enough
  refine h [(v, [])] [] ⟨0, [], [], 0⟩ .negativeLength (by simp) ?_
  have hssid : wrongKeySsid [(v, [])] startTag endTag = .ok [] :=
    wrongKeySsid_eq_ok_iff.mpr
      ⟨h.end_le hstart hend, hroom, v, hv, by simp [getEncodeGbkUtf8], by simp⟩
  rw [getWifiInfoByEvent_eq hstart hend, hssid]
  change wrongKeyRest _ _ _ _ = _
  unfold wrongKeyRest
  rw [hid]
  change (wrongKeyId _ _).map _ = _
  rw [wrongKeyId_of_lt (by omega)]
  rfl

/-- With the parts in order, all that can go wrong is that something does not fit. -/
theorem eq_overrun_of_getWifiInfoByEvent (hstart : firstAt startPattern event = some startTag)
    (hend : firstAt endPattern event = some endTag) (hle : endTag.length + 6 ≤ startTag.length)
    (hid : (between startTag endTag).length ≤ 127 →
      (decodeCurrent (between startTag endTag)).isSome →
        ∀ idTag ∈ firstAt (lit "id=") event, startTag.length + 4 ≤ idTag.length)
    (h : getWifiInfoByEvent gbk connectBssid event .connectFailedWrongKey info = .error fault) :
    fault = .overrun := by
  rw [getWifiInfoByEvent_eq hstart hend] at h
  cases hssid : wrongKeySsid gbk startTag endTag with
  | error f =>
    rw [hssid] at h
    obtain rfl := Except.error.inj h
    exact eq_overrun_of_wrongKeySsid hle hssid
  | ok ssid =>
    obtain ⟨-, hroom, v, hv, -⟩ := wrongKeySsid_eq_ok_iff.mp hssid
    rw [hssid] at h
    exact eq_overrun_of_wrongKeyRest (hid hroom (by rw [hv]; rfl)) h

end Both

/-- **No length is negative** if and only if the parts of the event are in order. -/
theorem lengthsDefined_iff {event : Str} : LengthsDefined event ↔ InOrder event := by
  unfold InOrder
  cases hstart : firstAt startPattern event with
  | none =>
    -- the length of what stands before the name is that of no string
    unfold LengthsDefined
    simp only [getWifiInfoByEvent, wrongKeyInfo, hstart, wrongKeyRest]
    cases hid : firstAt (lit "id=") event with
    | none => simp
    | some idTag =>
      refine iff_of_false (fun h => ?_) (by simp)
      exact h [] [] ⟨0, [], [], 0⟩ .nullString (by simp) rfl
  | some startTag =>
    cases hend : firstAt endPattern event with
    | none =>
      unfold LengthsDefined
      simp [getWifiInfoByEvent, wrongKeyInfo, hstart, hend]
    | some endTag =>
      constructor
      · intro h
        exact ⟨h.end_le hstart hend, fun hroom hsome idTag hid =>
          h.id_le hstart hend hroom hsome hid⟩
      · rintro ⟨hle, hid⟩ gbk connectBssid info fault hfault heq
        obtain rfl := eq_overrun_of_getWifiInfoByEvent hstart hend hle hid heq
        exact absurd hfault (by decide)

/-- **Events for a wrong key**: which of those that `wpa_supplicant` sends are read, and for which
events no length is negative. -/
theorem wrongKey_iff (id : ℕ) (raw rest event : Str) :
    (ReportsWrongKey id raw rest ↔ ReadableEvent id raw) ∧
      (LengthsDefined event ↔ InOrder event) :=
  ⟨⟨fun h => h.readable, fun h => h.reports rest⟩, lengthsDefined_iff⟩

/-- **A name that begins like the end of one**: the end is found before it. -/
theorem end_in_name : let raw := lit " auth_failures"
    let rest := lit "=1 duration=10 reason=WRONG_KEY"
    ¬ ReportsWrongKey 0 raw rest ∧ ¬ LengthsDefined (wrongKeyEvent 0 raw rest) := by
  have hnegative : ∀ info, getWifiInfoByEvent [] []
      (wrongKeyEvent 0 (lit " auth_failures") (lit "=1 duration=10 reason=WRONG_KEY"))
      .connectFailedWrongKey info = .error .negativeLength := fun _ => rfl
  refine ⟨fun h => ?_, fun h => h [] [] ⟨0, [], [], 0⟩ .negativeLength (by simp) (hnegative _)⟩
  have hok := h [] [] ⟨0, [], [], 0⟩ (by decide)
  rw [hnegative] at hok
  cases hok

end Order

end RkIpc.Network
