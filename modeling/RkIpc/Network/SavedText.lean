import RkIpc.Network.ScanList

/-!
# Names with something behind them

In the list of saved networks the address stands behind the name, with a tab between. Where both are
decoded together, the result is not the name: it would have to end like the address, and what is
left of it then like the address again, and so on.

## Main definitions

* `heft`: a weight that no text loses when it is printed
* `Tail`: what stands behind a name

## Main results

* `specCharConvers_append_cases`: two texts are decoded apart, unless the first one ends in the
  middle of a byte in hexadecimal
* `exists_tail`: a name that is decoded to itself with a tail ends with it
* `decodeSaved_tab_ne`: a name is not decoded to itself with an address
-/

namespace RkIpc.Network

open Text

/-! ## Heft -/

/-- A byte that is printed in hexadecimal has the heft of four others, one of them a backslash. -/
def heft (c : UInt8) : ℕ := if c = 92 then 2 else if IsPrint c then 1 else 5

/-- The heft of a text. -/
def totalHeft (s : List UInt8) : ℕ := (s.map heft).sum

@[simp] theorem totalHeft_nil : totalHeft [] = 0 := rfl

@[simp] theorem totalHeft_cons (c : UInt8) (s : List UInt8) :
    totalHeft (c :: s) = heft c + totalHeft s := by
  simp [totalHeft]

@[simp] theorem totalHeft_append (s t : List UInt8) :
    totalHeft (s ++ t) = totalHeft s + totalHeft t := by
  simp [totalHeft]

theorem heft_range (c : UInt8) : 1 ≤ heft c ∧ heft c ≤ 5 := by
  unfold heft
  split
  · omega
  · split <;> omega

theorem heft_of_isPrint {c : UInt8} (h : IsPrint c) : heft c ≤ 2 := by
  unfold heft
  split
  · omega
  · omega

theorem heft_of_not_isPrint {c : UInt8} (h : ¬ IsPrint c) : heft c = 5 := by
  rw [heft, if_neg (by rintro rfl; exact h (by decide)), if_neg h]

/-- **Decoding adds no heft.** -/
theorem totalHeft_specCharConvers {s : Str} {t : List UInt8} (h : specCharConvers s = some t) :
    totalHeft t ≤ totalHeft s := by
  fun_induction specCharConvers s generalizing t with
  | case1 a b s ih =>
    obtain ⟨u, hu, rfl⟩ := Option.map_eq_some_iff.mp h
    have hle := ih hu
    have hbyte := heft_range (UInt8.ofNat (readDigits 16 0 [a, b]))
    have ha := heft_range a
    have hb := heft_range b
    have hback : heft 92 = 2 := rfl
    have hx : heft 120 = 1 := rfl
    simp only [totalHeft_cons, hback, hx]
    omega
  | case2 => cases h
  | case3 c s _ _ ih =>
    obtain ⟨u, hu, rfl⟩ := Option.map_eq_some_iff.mp h
    have hle := ih hu
    simp only [totalHeft_cons]
    omega
  | case4 =>
    cases h
    exact le_refl _

theorem totalHeft_printfByte (c : UInt8) : totalHeft (printfByte c) ≤ heft c := by
  have hdigit : ∀ n < 16, heft (hexDigit n) = 1 := by decide
  have hback : heft 92 = 2 := rfl
  by_cases hprint : IsPrint c
  · rw [printfByte_of_isPrint hprint]
    simp
  · rw [heft_of_not_isPrint hprint]
    cases hletter : controlLetter c with
    | some l =>
      have hl := heft_of_isPrint (controlLetter_eq_some hletter).2.1
      rw [printfByte_of_control hletter]
      simp only [totalHeft_cons, totalHeft_nil, hback]
      omega
    | none =>
      obtain ⟨hdiv, hmod⟩ := toNat_div_lt c
      have hx : heft 120 = 1 := rfl
      rw [printfByte_of_hex hletter hprint]
      simp only [totalHeft_cons, totalHeft_nil, hback, hx, hdigit _ hdiv, hdigit _ hmod]
      omega

/-- **Printing adds no heft.** -/
theorem totalHeft_flatMap_printfByte (raw : Str) :
    totalHeft (raw.flatMap printfByte) ≤ totalHeft raw := by
  induction raw with
  | nil => exact le_refl _
  | cons c raw ih =>
    have hc := totalHeft_printfByte c
    rw [List.flatMap_cons, totalHeft_append, totalHeft_cons]
    omega

/-- What stands behind a terminator makes no difference. -/
theorem cstr_append_zero_append (u v : List UInt8) : cstr (u ++ 0 :: v) = cstr u := by
  induction u with
  | nil => rfl
  | cons c u ih =>
    by_cases hc : c = 0
    · rw [hc]
      rfl
    · rw [List.cons_append, cstr, List.takeWhile_cons_of_pos (by simpa using hc), cstr,
        List.takeWhile_cons_of_pos (by simpa using hc)]
      exact congrArg _ ih

theorem totalHeft_cstr_le (u : List UInt8) : totalHeft (cstr u) ≤ totalHeft u := by
  have hsplit := List.takeWhile_append_dropWhile (p := fun c : UInt8 => decide (c ≠ 0)) (l := u)
  have hsum := totalHeft_append (cstr u) (u.dropWhile fun c => decide (c ≠ 0))
  rw [cstr, hsplit] at hsum
  rw [cstr]
  omega

/-! ## Two texts -/

/-- **Two texts are decoded apart**, unless the first one ends in the middle of a byte in
hexadecimal. -/
theorem specCharConvers_append_cases (x : Str) {y : Str} (hy : y.head? ≠ some 120) :
    (∃ u, specCharConvers x = some u ∧
      specCharConvers (x ++ y) = (specCharConvers y).map (u ++ ·)) ∨
    specCharConvers x = none ∧
      ∃ x' t u, x = x' ++ 92 :: 120 :: t ∧ t.length < 2 ∧ specCharConvers x' = some u ∧
        specCharConvers (x ++ y) = (specCharConvers (92 :: 120 :: (t ++ y))).map (u ++ ·) := by
  fun_induction specCharConvers x with
  | case1 a b buf ih =>
    simp only [List.cons_append, specCharConvers]
    rcases ih with ⟨u, hu, hsum⟩ | ⟨hnone, x', t, u, rfl, ht, hu, hsum⟩
    · refine .inl ⟨_, by rw [hu, Option.map_some], ?_⟩
      rw [hsum, Option.map_map]
      rfl
    · refine .inr ⟨by rw [hnone]; rfl, 92 :: 120 :: a :: b :: x', t,
        UInt8.ofNat (readDigits 16 0 [a, b]) :: u, rfl, ht,
        by rw [specCharConvers, hu, Option.map_some], ?_⟩
      rw [hsum, Option.map_map]
      rfl
  | case2 buf hshort =>
    refine .inr ⟨rfl, [], buf, [], rfl, ?_, rfl, by simp⟩
    rcases buf with _ | ⟨a, _ | ⟨b, buf⟩⟩
    · decide
    · simp
    · exact absurd rfl (hshort a b buf)
  | case3 c buf _ hx ih =>
    have hnext : ∀ v : Str, v.head? = buf.head? → ¬ (c = 92 ∧ v.head? = some 120) := by
      rintro v hv ⟨hc, hhead⟩
      obtain ⟨r, hr⟩ := List.head?_eq_some_iff.mp (hv ▸ hhead)
      exact hx r hc hr
    have hboth : ¬ (c = 92 ∧ (buf ++ y).head? = some 120) := by
      cases buf with
      | nil => exact fun h => hy h.2
      | cons d buf => exact hnext _ rfl
    rw [List.cons_append, specCharConvers_cons hboth]
    rcases ih with ⟨u, hu, hsum⟩ | ⟨hnone, x', t, u, rfl, ht, hu, hsum⟩
    · refine .inl ⟨c :: u, by rw [hu, Option.map_some], ?_⟩
      rw [hsum, Option.map_map]
      rfl
    · have hfront : ¬ (c = 92 ∧ x'.head? = some 120) := by
        cases x' with
        | nil => simp
        | cons d x' => exact hnext _ rfl
      refine .inr ⟨by rw [hnone]; rfl, c :: x', t, c :: u, rfl, ht, ?_, ?_⟩
      · rw [specCharConvers_cons hfront, hu, Option.map_some]
      · rw [hsum, Option.map_map]
        rfl
  | case4 => exact .inl ⟨[], rfl, by simp⟩

/-! ## Tails -/

/-- **What stands behind a name**: a tab or a backslash, and at least three printable bytes, without
blanks and backslashes. -/
structure Tail (c : UInt8) (z : Str) : Prop where
  first : c = 9 ∨ c = 92 ∧ z.head? ≠ some 120
  length : 3 ≤ z.length
  bytes : ∀ d ∈ z, IsPrint d ∧ d ≠ 32 ∧ d ≠ 92

section Tail

variable {c : UInt8} {z : Str}

theorem Tail.bounds (h : Tail c z) : c ≠ 0 ∧ c ≠ 32 ∧ c ≠ 120 ∧ digitValue c = none := by
  rcases h.first with rfl | ⟨rfl, -⟩ <;> decide

theorem Tail.notMem (h : Tail c z) {d : UInt8} (hc : c ≠ d)
    (hd : ¬ (IsPrint d ∧ d ≠ 32 ∧ d ≠ 92)) : d ∉ c :: z := by
  rw [List.mem_cons, not_or]
  exact ⟨hc.symm, fun hmem => hd (h.bytes d hmem)⟩

theorem specCharConvers_of_notMem {x : Str} (h : 92 ∉ x) : specCharConvers x = some x := by
  have happ := @specCharConvers_append x (fun c hc => ne_of_mem_of_not_mem hc h) []
  rw [List.append_nil] at happ
  simpa [specCharConvers] using happ

theorem Tail.specCharConvers_rest (h : Tail c z) : specCharConvers z = some z :=
  specCharConvers_of_notMem fun hmem => (h.bytes 92 hmem).2.2 rfl

/-- A tail is not changed. -/
theorem Tail.specCharConvers (h : Tail c z) : specCharConvers (c :: z) = some (c :: z) := by
  rw [specCharConvers_cons, h.specCharConvers_rest, Option.map_some]
  rintro ⟨rfl, hhead⟩
  rcases h.first with hc | ⟨-, hz⟩
  · exact absurd hc (by decide)
  · exact hz hhead

/-- What has no blank in it stands behind the blanks. -/
theorem exists_append_of_blanks {s raw u v : Str} (hs : ∀ d ∈ s, d = 32) (hv : 32 ∉ v)
    (h : u ++ v = s ++ raw) : ∃ r, raw = r ++ v ∧ u = s ++ r := by
  rcases List.append_eq_append_iff.mp h with ⟨w, hw, hraw⟩ | ⟨w, hu, hraw⟩
  · cases w with
    | nil => exact ⟨[], hraw.symm, by rw [hw, List.append_nil, List.append_nil]⟩
    | cons d w =>
      have hd : d = 32 := hs d (by simp [hw])
      exact absurd (by rw [hraw, hd]; simp) hv
  · exact ⟨w, hraw, hu⟩

theorem flatMap_printfByte_of_isPrint {t : Str} (h : ∀ d ∈ t, IsPrint d) :
    t.flatMap printfByte = t := by
  induction t with
  | nil => rfl
  | cons d t ih =>
    obtain ⟨hd, ht⟩ := List.forall_mem_cons.mp h
    rw [List.flatMap_cons, printfByte_of_isPrint hd, ih ht, List.singleton_append]

/-- A name has at least the heft of the text before a terminator. -/
theorem not_of_totalHeft_lt {s raw u : Str} (h : cstr u = s ++ raw)
    (hlt : totalHeft u < totalHeft raw) : False := by
  have hcut := totalHeft_cstr_le u
  rw [h, totalHeft_append] at hcut
  omega

/-- A text that is cut at a terminator has the heft of what is before it. -/
theorem not_of_cut {s raw u v₁ v₂ : Str} (h : cstr u = s ++ raw) (hu : u = v₁ ++ 0 :: v₂)
    (hlt : totalHeft v₁ < totalHeft raw) : False := by
  rw [hu, cstr_append_zero_append] at h
  exact not_of_totalHeft_lt h hlt

/-- A name that is decoded apart from the tail ends with it. -/
theorem exists_tail_of_apart {s raw v : Str} (hs : ∀ d ∈ s, d = 32) (hz : Tail c z)
    (hv : specCharConvers (raw.flatMap printfByte) = some v)
    (h : cstr (v ++ c :: z) = s ++ raw) : ∃ r, raw = r ++ c :: z ∧ v = s ++ r := by
  obtain ⟨hc0, hc32, -, -⟩ := hz.bounds
  have hprinted := totalHeft_flatMap_printfByte raw
  have hdecoded := totalHeft_specCharConvers hv
  have h0 : 0 ∉ v := by
    intro hmem
    obtain ⟨v₁, v₂, rfl⟩ := List.append_of_mem hmem
    simp only [totalHeft_append, totalHeft_cons] at hdecoded
    have hpos := heft_range 0
    exact not_of_cut h (List.append_assoc ..) (by omega)
  have hwhole : 0 ∉ v ++ c :: z := by
    rw [List.mem_append, not_or]
    exact ⟨h0, hz.notMem hc0 (by decide)⟩
  rw [cstr_eq_self hwhole] at h
  exact exists_append_of_blanks hs (hz.notMem hc32 (by simp)) h

/-- **A name whose last byte in hexadecimal is cut off** does not go on with the tail: the backslash
and the `x` are lost. -/
theorem not_of_torn {s raw x t u v : Str} (hs : ∀ d ∈ s, d = 32) (hz : Tail c z)
    (hx : raw.flatMap printfByte = x ++ 92 :: 120 :: t) (ht : t.length < 2)
    (hlost : totalHeft v + 3 ≤ totalHeft raw)
    (hu : (specCharConvers (92 :: 120 :: (t ++ c :: z))).map (v ++ ·) = some u)
    (h : cstr u = s ++ raw) : False := by
  obtain ⟨w', hw', rfl⟩ := Option.map_eq_some_iff.mp hu
  rcases t with _ | ⟨y, _ | ⟨y', t⟩⟩
  · -- the tail begins with no digit, so that the byte is the terminator
    obtain ⟨d, w, rfl⟩ := List.exists_cons_of_length_pos (Nat.lt_of_lt_of_le (by omega) hz.length)
    obtain ⟨w'', -, rfl⟩ := Option.map_eq_some_iff.mp hw'
    have hzero : UInt8.ofNat (readDigits 16 0 [c, d]) = 0 := by
      rw [readDigits, hz.bounds.2.2.2]
      rfl
    exact not_of_cut h (by rw [hzero]) (by omega)
  · obtain ⟨w'', hrest, rfl⟩ := Option.map_eq_some_iff.mp hw'
    rw [hz.specCharConvers_rest] at hrest
    obtain rfl := Option.some.inj hrest
    generalize UInt8.ofNat (readDigits 16 0 [y, c]) = B at h
    have h0 : 0 ∉ v ++ B :: z := by
      rw [List.mem_append, List.mem_cons, not_or, not_or]
      refine ⟨fun hmem => ?_, fun hB => not_of_cut h (by rw [hB]) (by omega), fun hmem => ?_⟩
      · obtain ⟨v₁, v₂, rfl⟩ := List.append_of_mem hmem
        rw [totalHeft_append] at hlost
        exact not_of_cut h (List.append_assoc ..) (by omega)
      · exact absurd (hz.bytes 0 hmem).1 (by decide)
    rw [cstr_eq_self h0, List.append_cons] at h
    -- the backslash would be one of the last three bytes
    obtain ⟨r, rfl, -⟩ := exists_append_of_blanks hs (fun hmem => (hz.bytes 32 hmem).2.1 rfl) h
    rw [List.flatMap_append, flatMap_printfByte_of_isPrint fun d hd => (hz.bytes d hd).1] at hx
    have hsuf : [92, 120, y] <:+ z :=
      List.suffix_of_suffix_length_le ⟨x, hx.symm⟩ (List.suffix_append _ z) hz.length
    exact absurd rfl (hz.bytes 92 (hsuf.subset (by simp))).2.2
  · rw [List.length_cons, List.length_cons] at ht
    omega

/-- **A name that is decoded to itself with a tail ends with it.** -/
theorem exists_tail {raw s u : Str} (hs : ∀ d ∈ s, d = 32) (hz : Tail c z)
    (hu : specCharConvers (raw.flatMap printfByte ++ c :: z) = some u) (h : cstr u = s ++ raw) :
    ∃ r, raw = r ++ c :: z ∧ specCharConvers (raw.flatMap printfByte) = some (s ++ r) := by
  have hhead : (c :: z).head? ≠ some 120 := by simpa using hz.bounds.2.2.1
  rcases specCharConvers_append_cases (raw.flatMap printfByte) hhead with
    ⟨v, hv, hsum⟩ | ⟨-, x, t, v, hx, ht, hv, hsum⟩
  · rw [hu, hz.specCharConvers, Option.map_some] at hsum
    obtain rfl := Option.some.inj hsum
    obtain ⟨r, hraw, rfl⟩ := exists_tail_of_apart hs hz hv h
    exact ⟨r, hraw, hv⟩
  · have hprinted := totalHeft_flatMap_printfByte raw
    have hdecoded := totalHeft_specCharConvers hv
    have hlost : totalHeft v + 3 ≤ totalHeft raw := by
      have hback : heft 92 = 2 := rfl
      have hx120 : heft 120 = 1 := rfl
      rw [hx] at hprinted
      simp only [totalHeft_append, totalHeft_cons, hback, hx120] at hprinted
      omega
    rw [hu] at hsum
    exact (not_of_torn hs hz hx ht hlost hsum.symm h).elim

end Tail

/-! ## Addresses -/

/-- An address is not decoded to itself again and again. -/
theorem specCharConvers_letter_ne {raw s b : Str} (hs : ∀ d ∈ s, d = 32)
    (hb : Tail 92 (116 :: b)) (h0 : 0 ∉ raw) :
    specCharConvers (raw.flatMap printfByte ++ 92 :: 116 :: b) ≠ some (s ++ raw) := by
  -- induction on the length: the name ends with the tail, and the rest of it is decoded so as well
  induction hn : raw.length using Nat.strong_induction_on generalizing raw with
  | _ n ih =>
    intro hu
    have hcstr : cstr (s ++ raw) = s ++ raw := cstr_eq_self fun hmem =>
      (List.mem_append.mp hmem).elim (fun h => absurd (hs 0 h) (by decide)) h0
    obtain ⟨r, rfl, hr⟩ := exists_tail hs hb hu hcstr
    have hbytes : ∀ d ∈ 92 :: 116 :: b, IsPrint d :=
      List.forall_mem_cons.mpr ⟨by decide, fun d hd => (hb.bytes d hd).1⟩
    rw [List.flatMap_append, flatMap_printfByte_of_isPrint hbytes] at hr
    simp only [List.length_append, List.length_cons] at hn
    exact ih r.length (by omega) (fun h => h0 (List.mem_append_left _ h)) rfl hr

/-- **A name is not decoded to itself with an address.** -/
theorem cstr_specCharConvers_tab_ne {raw s b u : Str} (hs : ∀ d ∈ s, d = 32) (hb : Tail 9 b)
    (hu : specCharConvers (raw.flatMap printfByte ++ 9 :: b) = some u) : cstr u ≠ s ++ raw := by
  intro h
  obtain ⟨r, rfl, hr⟩ := exists_tail hs hb hu h
  have hletter : Tail 92 (116 :: b) := by
    refine ⟨.inr ⟨rfl, by simp⟩, ?_, List.forall_mem_cons.mpr ⟨by decide, hb.bytes⟩⟩
    have := hb.length
    rw [List.length_cons]
    omega
  have h0 : 0 ∉ r := fun hmem => by
    have hcut : (0 : UInt8) ∈ cstr u := h ▸ by simp [hmem]
    simpa using List.mem_takeWhile_imp hcut
  rw [List.flatMap_append, List.flatMap_cons,
    flatMap_printfByte_of_isPrint fun d hd => (hb.bytes d hd).1] at hr
  exact specCharConvers_letter_ne hs hletter h0 hr

/-! ## Blanks -/

/-- Two texts are apart for the first function as well. -/
theorem removeEscapeCharacter_append_of_head (x : Str) {y : Str}
    (hy : ∀ c ∈ y.head?, c ≠ 92 ∧ c ≠ 34) :
    removeEscapeCharacter (x ++ y) = removeEscapeCharacter x ++ removeEscapeCharacter y := by
  fun_induction removeEscapeCharacter x with
  | case1 buf ih => exact congrArg (92 :: ·) ih
  | case2 buf ih => exact congrArg (34 :: ·) ih
  | case3 c buf h92 h34 ih =>
    rw [List.cons_append, List.cons_append, ← ih]
    by_cases hc : c = 92
    · subst hc
      refine removeEscapeCharacter_backslash_head fun d hd => ?_
      cases buf with
      | nil => exact (hy d hd).symm
      | cons e buf =>
        obtain rfl := Option.some.inj hd
        exact ⟨fun h => h34 buf rfl (h ▸ rfl), fun h => h92 buf rfl (h ▸ rfl)⟩
    · exact removeEscapeCharacter_cons hc _
  | case4 => rfl

theorem eq_nil_of_totalHeft {s : Str} (h : totalHeft s = 0) : s = [] := by
  cases s with
  | nil => rfl
  | cons c s =>
    have hc := heft_range c
    rw [totalHeft_cons] at h
    omega

/-- Blanks at the beginning of what is printed are those of the name. -/
theorem exists_of_flatMap_printfByte {raw p x : Str} (hp : ∀ c ∈ p, c = 32)
    (h : raw.flatMap printfByte = p ++ x) : ∃ r, raw = p ++ r ∧ x = r.flatMap printfByte := by
  induction p generalizing raw with
  | nil => exact ⟨raw, rfl, h.symm⟩
  | cons c p ih =>
    obtain ⟨rfl, htail⟩ := List.forall_mem_cons.mp hp
    cases raw with
    | nil => cases h
    | cons d raw =>
      rw [List.flatMap_cons] at h
      by_cases hprint : IsPrint d
      · rw [printfByte_of_isPrint hprint] at h
        obtain ⟨rfl, hraw⟩ := List.cons.inj h
        obtain ⟨r, rfl, hx⟩ := ih htail hraw
        exact ⟨r, rfl, hx⟩
      · -- a byte that is not printable begins with a backslash
        cases hletter : controlLetter d with
        | some l =>
          rw [printfByte_of_control hletter] at h
          exact absurd (List.cons.inj h).1 (by decide)
        | none =>
          rw [printfByte_of_hex hletter hprint] at h
          exact absurd (List.cons.inj h).1 (by decide)

/-- What is decoded. -/
theorem decodeSaved_eq_some {text v : Str} (h : decodeSaved text = some v) :
    ∃ u, specCharConvers (removeEscapeCharacter text) = some u ∧ v = cstr u := by
  obtain ⟨ssid, hssid, hrest⟩ := Option.bind_eq_some_iff.mp h
  obtain ⟨sname, hsname, hv⟩ := Option.bind_eq_some_iff.mp hrest
  obtain ⟨u, hu, hbuffer⟩ := Option.bind_eq_some_iff.mp hsname
  obtain ⟨-, rfl⟩ := inArray_eq_some hssid
  obtain ⟨-, rfl⟩ := inArray_eq_some hbuffer
  exact ⟨u, hu, (Option.some.inj hv).symm⟩

end RkIpc.Network
