import RkIpc.Storage.Uevent
import RkIpc.Text.Search

/-!
# The fields of a message about a device

A message from udev is a header that begins with `libudev`, and fields `KEY=VALUE` that a null
separates. The listener looks for a field, and for the value of a key, by looking for a string in
what follows the start of the message and each null in it. So it finds the string in the middle of
a field as well, and each part of the message that it looks in has to end in a null before the
message does.

The functions here are those of the listener with what they read checked: the outer `none` is a read
at or beyond the end of the message, or `strlen` of a missing string.

## Main definitions

* `strSearchIn`, `getParaIn`, `receiveIn`: how the listener reads a message of `len` bytes
* `UeventMsg`: a message, by its header and its fields
* `IsField`, `IsValue`: what the two functions are to find

## Main results

* `strSearchIn_eq`: the search finds the first occurrence, wherever it is
* `receiveIn_ne_none_iff`: when the listener reads the message and nothing else
* `fields_matched_iff`: when the fields are matched exactly
-/

namespace RkIpc.Storage

open Text

/-- `strstr` on what is left of the message, in which the string has to end. -/
def strstrIn (pat p : List Char) : Option (Option (List Char)) :=
  if nul ∈ p then some (strstr pat p) else none

/-- The loop of `rkipc_storage_str_search` over the places before `len`. -/
def strSearchLoopIn (pat : List Char) : List Char → Option (Option (List Char))
  | [] => some none
  | c :: cs =>
    -- the last null of the message has nothing behind it to search
    if c = nul ∧ cs ≠ [] then do
      let ret ← strstrIn pat cs
      if ret.isSome then some ret else strSearchLoopIn pat cs
    else strSearchLoopIn pat cs

/-- `rkipc_storage_str_search`. -/
def strSearchIn (buf : List Char) (str : String) : Option (Option (List Char)) := do
  let ret ← strstrIn str.toList buf
  if ret.isSome then some ret else strSearchLoopIn str.toList buf

/-- `rkipc_storage_get_para`: the place behind the name and one more character. -/
def getParaIn (buf : List Char) (str : String) : Option (Option (List Char)) := do
  let ret ← strSearchIn buf str
  some (ret.map fun p => p.drop (str.length + 1))

/-- `strlen(dev) + 1` of the device, which is also copied into the message that is queued. -/
def cStringIn : Option (List Char) → Option String
  | none => none
  | some p => if nul ∈ p then some (cString p) else none

/-- Whether the message is about a block device. -/
def blockIn (buf : List Char) : Option (Option (List Char)) := do
  let partition ← strSearchIn buf "DEVTYPE=partition"
  if partition.isSome then some partition else strSearchIn buf "DEVTYPE=disk"

/-- What the listener queues for the device, by the action that the message names. -/
def actionIn (buf : List Char) (dev : Option (List Char)) : Option (Option DevMsg) := do
  let add ← strSearchIn buf "ACTION=add"
  if add.isSome then (cStringIn dev).map fun d => some (.add d)
  else do
    let remove ← strSearchIn buf "ACTION=remove"
    if remove.isSome then (cStringIn dev).map fun d => some (.remove d)
    else do
      let change ← strSearchIn buf "ACTION=change"
      if change.isSome then (cStringIn dev).map fun d => some (.changed d)
      else some none

/-- What the listener makes of the `len` bytes received. -/
def receiveIn (buf : List Char) : Option (Option DevMsg) :=
  -- `MAX_TYPE_NMSG_LEN` and `bufLen`
  if buf.length < 32 ∨ 2000 < buf.length then some none
  else do
    let p ← strstrIn "libudev".toList buf
    if p ≠ some buf then some none
    else do
      let block ← blockIn buf
      if block.isNone then some none
      else do
        let dev ← getParaIn buf "DEVNAME"
        actionIn buf dev

/-! ## What the search finds -/

/-- The message ends in a null. -/
def EndsNul (buf : List Char) : Prop := buf.getLast? = some nul

instance (buf : List Char) : Decidable (EndsNul buf) := inferInstanceAs (Decidable (_ = _))

theorem EndsNul.mem {buf : List Char} (h : EndsNul buf) : nul ∈ buf := List.mem_of_getLast? h

theorem endsNul_cons {c : Char} {cs : List Char} (h : cs ≠ []) :
    EndsNul (c :: cs) ↔ EndsNul cs := by
  rw [EndsNul, EndsNul, List.getLast?_cons, List.getLast?_eq_some_getLast h, Option.getD_some]

theorem strstr_of_isPrefix {pat : List Char} {c : Char} {cs : List Char} (h : pat <+: c :: cs) :
    strstr pat (c :: cs) = some (c :: cs) :=
  if_pos (List.isPrefixOf_iff_prefix.mpr h)

theorem strstr_cons {pat : List Char} {c : Char} {cs : List Char} (h : ¬ pat <+: c :: cs) :
    strstr pat (c :: cs) = if c = nul then none else strstr pat cs :=
  if_neg (mt List.isPrefixOf_iff_prefix.mp h)

/-- The search of a message, by the message without its first character. -/
theorem strSearchIn_step {pat : List Char} {c : Char} {cs : List Char} (h : ¬ pat <+: c :: cs)
    (hcs : cs ≠ []) :
    (strstrIn pat (c :: cs)).bind (fun ret =>
        if ret.isSome then some ret else strSearchLoopIn pat (c :: cs)) =
      (strstrIn pat cs).bind fun ret =>
        if ret.isSome then some ret else strSearchLoopIn pat cs := by
  by_cases hc : c = nul
  · -- the string ends at once, and the loop takes the next one
    have hmem : nul ∈ c :: cs := List.mem_cons.mpr (Or.inl hc.symm)
    have hloop : c = nul ∧ cs ≠ [] := ⟨hc, hcs⟩
    rw [strstrIn, if_pos hmem, strstr_cons h, if_pos hc, strSearchLoopIn, if_pos hloop]
    rfl
  · have hmem : nul ∈ c :: cs ↔ nul ∈ cs := by
      rw [List.mem_cons, or_iff_right (Ne.symm hc)]
    have hloop : ¬ (c = nul ∧ cs ≠ []) := fun hand => hc hand.1
    rw [strstrIn, if_congr hmem rfl rfl, strstr_cons h, if_neg hc, strSearchLoopIn, if_neg hloop,
      strstrIn]

/-- **The search finds the first occurrence in the message**, if the string searched ends in it. -/
theorem strSearchIn_eq (buf : List Char) (str : String) :
    strSearchIn buf str =
      match firstAt str.toList buf with
      | some q => if nul ∈ q then some (some q) else none
      | none => if EndsNul buf then some none else none := by
  rw [strSearchIn]
  generalize str.toList = pat
  induction buf with
  | nil =>
    rw [firstAt, if_neg (fun h => List.not_mem_nil h.mem : ¬ EndsNul [])]
    split_ifs <;> rfl
  | cons c cs ih =>
    by_cases h : pat <+: c :: cs
    · rw [firstAt_of_isPrefix h, strstrIn, strstr_of_isPrefix h]
      show _ = if nul ∈ c :: cs then some (some (c :: cs)) else none
      split_ifs <;> rfl
    · rw [firstAt_cons h]
      rcases eq_or_ne cs [] with rfl | hcs
      · -- the end of the message
        have hpat : pat ≠ [] := by
          rintro rfl
          exact h (List.nil_prefix ..)
        rw [firstAt, if_neg hpat, strstrIn, strstr_cons h]
        show _ = if EndsNul [c] then some none else none
        by_cases hc : c = nul
        · simp [hc, EndsNul, strSearchLoopIn]
        · simp [hc, Ne.symm hc, EndsNul]
      · have hends := endsNul_cons (c := c) hcs
        simp only [if_congr hends rfl rfl]
        exact (strSearchIn_step h hcs).trans ih

/-- The string occurs, and ends before the message does where it occurs first. -/
def Found (str : String) (buf : List Char) : Prop :=
  ∃ q, firstAt str.toList buf = some q ∧ nul ∈ q

/-- The string does not occur in a message that ends in a null. -/
def Absent (str : String) (buf : List Char) : Prop := ¬ str.toList <:+: buf ∧ EndsNul buf

theorem Found.isInfix {str : String} {buf : List Char} (h : Found str buf) :
    str.toList <:+: buf := by
  obtain ⟨q, hq, -⟩ := h
  obtain ⟨hpre, hsuf⟩ := prefix_and_suffix_of_firstAt hq
  exact hpre.isInfix.trans hsuf.isInfix

theorem strSearchIn_eq_some_iff {buf q : List Char} {str : String} :
    strSearchIn buf str = some (some q) ↔ firstAt str.toList buf = some q ∧ nul ∈ q := by
  rw [strSearchIn_eq]
  cases firstAt str.toList buf with
  | none =>
    show (if EndsNul buf then _ else _) = _ ↔ _
    split_ifs <;> simp
  | some p =>
    show (if nul ∈ p then _ else _) = _ ↔ _
    split_ifs with h
    · simp only [Option.some.injEq]
      exact ⟨fun hq => ⟨hq, hq ▸ h⟩, fun hq => hq.1⟩
    · simp only [Option.some.injEq, false_iff, not_and]
      rintro rfl
      exact h

theorem strSearchIn_eq_none_iff {buf : List Char} {str : String} :
    strSearchIn buf str = some none ↔ Absent str buf := by
  rw [strSearchIn_eq, Absent, ← firstAt_eq_none_iff]
  cases firstAt str.toList buf with
  | none =>
    show (if EndsNul buf then _ else _) = _ ↔ _
    split_ifs with h <;> simp [h]
  | some p =>
    show (if nul ∈ p then _ else _) = _ ↔ _
    split_ifs <;> simp

/-- **A message that ends in a null** is searched without a read beyond it. -/
theorem strSearchIn_of_endsNul {buf : List Char} (h : EndsNul buf) (str : String) :
    strSearchIn buf str = some (firstAt str.toList buf) := by
  cases hq : firstAt str.toList buf with
  | none => exact strSearchIn_eq_none_iff.mpr ⟨firstAt_eq_none_iff.mp hq, h⟩
  | some q =>
    refine strSearchIn_eq_some_iff.mpr ⟨hq, ?_⟩
    obtain ⟨hpre, a, rfl⟩ := prefix_and_suffix_of_firstAt hq
    rcases eq_or_ne q [] with rfl | hne
    · -- nothing is searched for, and found at the start
      rw [List.prefix_nil.mp hpre, firstAt_of_isPrefix List.nil_prefix] at hq
      exact Option.some.inj hq ▸ h.mem
    · rw [EndsNul, List.getLast?_append_of_ne_nil _ hne] at h
      exact List.mem_of_getLast? h

/-! ## The functions without the checks -/

theorem or_of_strstrIn {pat p : List Char} {rest : Option (Option (List Char))}
    {r rest' : Option (List Char)} (hrest : ∀ r, rest = some r → rest' = r)
    (h : (strstrIn pat p).bind (fun ret => if ret.isSome then some ret else rest) = some r) :
    (strstr pat p).or rest' = r := by
  rw [strstrIn] at h
  split_ifs at h with hnul
  · cases hret : strstr pat p with
    | none =>
      rw [hret] at h
      exact hrest r h
    | some q =>
      rw [hret] at h
      exact Option.some.inj h
  · contradiction

theorem strSearchLoop_of_strSearchLoopIn {pat : List Char} {r : Option (List Char)} :
    ∀ {buf : List Char}, strSearchLoopIn pat buf = some r → strSearchLoop pat buf = r
  | [], h => Option.some.inj h
  | c :: cs, h => by
    rw [strSearchLoopIn] at h
    rw [strSearchLoop]
    by_cases hc : c = nul
    · rw [if_pos hc]
      rcases eq_or_ne cs [] with rfl | hcs
      · rw [if_neg fun hand => hand.2 rfl] at h
        exact Option.some.inj h
      · rw [if_pos ⟨hc, hcs⟩] at h
        exact or_of_strstrIn (fun _ => strSearchLoop_of_strSearchLoopIn) h
    · rw [if_neg hc]
      rw [if_neg fun hand => hc hand.1] at h
      exact strSearchLoop_of_strSearchLoopIn h

/-- What the checked search answers is what `rkipc_storage_str_search` answers. -/
theorem strSearch_of_strSearchIn {buf : List Char} {str : String} {r : Option (List Char)}
    (h : strSearchIn buf str = some r) : strSearch buf str = r :=
  or_of_strstrIn (fun _ => strSearchLoop_of_strSearchLoopIn) h

theorem cStringIn_eq_some {dev : Option (List Char)} {d : String} (h : cStringIn dev = some d) :
    dev.map cString = some d := by
  cases dev with
  | none => contradiction
  | some p =>
    rw [cStringIn] at h
    split_ifs at h
    exact h

theorem map_of_cStringIn {dev : Option (List Char)} {f : String → Option DevMsg}
    {r : Option DevMsg} (h : (cStringIn dev).map f = some r) :
    (dev.map cString).map f = some r := by
  obtain ⟨d, hd, hr⟩ := Option.map_eq_some_iff.mp h
  rw [cStringIn_eq_some hd, Option.map_some, hr]

/-- The message is about a block device if one of the two strings is found. -/
theorem strSearch_of_blockIn {buf : List Char} {block : Option (List Char)}
    (h : blockIn buf = some block) :
    strSearch buf "DEVTYPE=partition" = none ∧ strSearch buf "DEVTYPE=disk" = none ↔
      block.isNone := by
  obtain ⟨partition, hpart, h⟩ := Option.bind_eq_some_iff.mp h
  rw [strSearch_of_strSearchIn hpart]
  cases partition with
  | none =>
    rw [strSearch_of_strSearchIn h]
    simp
  | some q =>
    obtain rfl := Option.some.inj h
    simp

theorem getPara_of_getParaIn {buf : List Char} {str : String} {dev : Option (List Char)}
    (h : getParaIn buf str = some dev) : getPara buf str = dev := by
  obtain ⟨ret, hret, h⟩ := Option.bind_eq_some_iff.mp h
  rw [getPara, strSearch_of_strSearchIn hret]
  exact Option.some.inj h

/-- The action found is the one that the listener finds. -/
theorem action_of_actionIn {buf : List Char} {dev : Option (List Char)} {r : Option DevMsg}
    (h : actionIn buf dev = some r) :
    (if strSearch buf "ACTION=add" ≠ none then (dev.map cString).map fun d => some (.add d)
      else if strSearch buf "ACTION=remove" ≠ none then
        (dev.map cString).map fun d => some (.remove d)
      else if strSearch buf "ACTION=change" ≠ none then
        (dev.map cString).map fun d => some (.changed d)
      else some none) = some r := by
  obtain ⟨add, hadd, h⟩ := Option.bind_eq_some_iff.mp h
  rw [strSearch_of_strSearchIn hadd]
  cases add with
  | some q => exact map_of_cStringIn h
  | none =>
    obtain ⟨remove, hremove, h⟩ := Option.bind_eq_some_iff.mp h
    rw [if_neg fun hne => hne rfl, strSearch_of_strSearchIn hremove]
    cases remove with
    | some q => exact map_of_cStringIn h
    | none =>
      obtain ⟨change, hchange, h⟩ := Option.bind_eq_some_iff.mp h
      rw [if_neg fun hne => hne rfl, strSearch_of_strSearchIn hchange]
      cases change with
      | some q => exact map_of_cStringIn h
      | none => exact h

/-- **What the checked listener makes of a message** is what the listener makes of it. -/
theorem receive_of_receiveIn {buf : List Char} {r : Option DevMsg} (h : receiveIn buf = some r) :
    receive buf = some r := by
  rw [receiveIn] at h
  rw [receive]
  by_cases hlen : buf.length < 32 ∨ 2000 < buf.length
  · rw [if_pos hlen] at h ⊢
    exact h
  rw [if_neg hlen] at h ⊢
  obtain ⟨p, hp, h⟩ := Option.bind_eq_some_iff.mp h
  have hpre : strstr "libudev".toList buf = p := by
    rw [strstrIn] at hp
    split_ifs at hp
    exact Option.some.inj hp
  rw [hpre]
  by_cases hbuf : p ≠ some buf
  · rw [if_pos hbuf] at h ⊢
    exact h
  rw [if_neg hbuf] at h ⊢
  obtain ⟨block, hblock, h⟩ := Option.bind_eq_some_iff.mp h
  have hnone := strSearch_of_blockIn hblock
  by_cases hb : block.isNone
  · rw [if_pos hb] at h
    rw [if_pos (hnone.mpr hb)]
    exact h
  rw [if_neg hb] at h
  rw [if_neg (mt hnone.mp hb)]
  obtain ⟨dev, hdev, h⟩ := Option.bind_eq_some_iff.mp h
  rw [getPara_of_getParaIn hdev]
  exact action_of_actionIn h

/-! ## What the listener reads -/

/-- The message is about a block device. -/
def NamesBlock (buf : List Char) : Prop :=
  "DEVTYPE=partition".toList <:+: buf ∨ "DEVTYPE=disk".toList <:+: buf

/-- The message names one of the three actions. -/
def NamesAction (buf : List Char) : Prop :=
  "ACTION=add".toList <:+: buf ∨ "ACTION=remove".toList <:+: buf ∨ "ACTION=change".toList <:+: buf

/-- The string behind the first `DEVNAME` and one more character ends in the message. -/
def DevnameEnds (buf : List Char) : Prop :=
  ∃ q, firstAt "DEVNAME".toList buf = some q ∧ nul ∈ q.drop 8

theorem cStringIn_ne_none_iff {dev : Option (List Char)} :
    cStringIn dev ≠ none ↔ ∃ p, dev = some p ∧ nul ∈ p := by
  cases dev with
  | none => simp [cStringIn]
  | some p => simp [cStringIn]

theorem cStringIn_devname_ne_none_iff {buf : List Char} :
    cStringIn ((firstAt "DEVNAME".toList buf).map fun p => p.drop 8) ≠ none ↔ DevnameEnds buf := by
  rw [cStringIn_ne_none_iff, DevnameEnds]
  simp only [Option.map_eq_some_iff]
  constructor
  · rintro ⟨_, ⟨q, hq, rfl⟩, hnul⟩
    exact ⟨q, hq, hnul⟩
  · rintro ⟨q, hq, hnul⟩
    exact ⟨_, ⟨q, hq, rfl⟩, hnul⟩

/-- The message that ends in a null tells whether it is about a block device. -/
theorem blockIn_of_endsNul {buf : List Char} (h : EndsNul buf) :
    ∃ block, blockIn buf = some block ∧ (block.isSome ↔ NamesBlock buf) := by
  rw [NamesBlock, ← isSome_firstAt_iff, ← isSome_firstAt_iff, blockIn, strSearchIn_of_endsNul h,
    strSearchIn_of_endsNul h]
  generalize firstAt "DEVTYPE=partition".toList buf = partition
  generalize firstAt "DEVTYPE=disk".toList buf = disk
  cases partition with
  | none => exact ⟨disk, rfl, by simp⟩
  | some q => exact ⟨some q, rfl, by simp⟩

/-- The message that does not is read only if it is about a partition. -/
theorem blockIn_eq_some {buf : List Char} (h : ¬ EndsNul buf) {block : Option (List Char)}
    (hblock : blockIn buf = some block) : Found "DEVTYPE=partition" buf ∧ block.isSome := by
  obtain ⟨partition, hpart, hblock⟩ := Option.bind_eq_some_iff.mp hblock
  cases partition with
  | none => exact absurd (strSearchIn_eq_none_iff.mp hpart).2 h
  | some q =>
    obtain rfl := Option.some.inj hblock
    exact ⟨⟨q, strSearchIn_eq_some_iff.mp hpart⟩, rfl⟩

theorem blockIn_of_found {buf : List Char} (h : Found "DEVTYPE=partition" buf) :
    ∃ q, blockIn buf = some (some q) := by
  obtain ⟨q, hq⟩ := h
  refine ⟨q, ?_⟩
  rw [blockIn, strSearchIn_eq_some_iff.mpr hq]
  rfl

theorem actionIn_ne_none_of_endsNul {buf : List Char} (h : EndsNul buf) (dev : Option (List Char)) :
    actionIn buf dev ≠ none ↔ (NamesAction buf → cStringIn dev ≠ none) := by
  rw [NamesAction, ← isSome_firstAt_iff, ← isSome_firstAt_iff, ← isSome_firstAt_iff, actionIn]
  simp only [strSearchIn_of_endsNul h, bind, Option.bind_some]
  generalize firstAt "ACTION=add".toList buf = add
  generalize firstAt "ACTION=remove".toList buf = remove
  generalize firstAt "ACTION=change".toList buf = change
  split_ifs with hadd hremove hchange
  · simp [hadd]
  · simp [hremove]
  · simp [hchange]
  · simp [hadd, hremove, hchange]

theorem actionIn_ne_none_iff {buf : List Char} (h : ¬ EndsNul buf) (dev : Option (List Char)) :
    actionIn buf dev ≠ none ↔ Found "ACTION=add" buf ∧ cStringIn dev ≠ none := by
  constructor
  · intro hne
    obtain ⟨r, hr⟩ := Option.ne_none_iff_exists'.mp hne
    obtain ⟨add, hadd, hr⟩ := Option.bind_eq_some_iff.mp hr
    cases add with
    | none => exact absurd (strSearchIn_eq_none_iff.mp hadd).2 h
    | some q =>
      obtain ⟨d, hd, -⟩ := Option.map_eq_some_iff.mp hr
      rw [hd]
      exact ⟨⟨q, strSearchIn_eq_some_iff.mp hadd⟩, Option.some_ne_none _⟩
  · rintro ⟨⟨q, hq⟩, hdev⟩
    obtain ⟨d, hd⟩ := Option.ne_none_iff_exists'.mp hdev
    rw [actionIn, strSearchIn_eq_some_iff.mpr hq, hd]
    exact Option.some_ne_none _

/-- The listener that has seen the header goes on to the device of a block device. -/
theorem receiveIn_eq {buf : List Char} (hpre : "libudev".toList <+: buf) (h32 : 32 ≤ buf.length)
    (h2000 : buf.length ≤ 2000) :
    receiveIn buf =
      if nul ∈ buf then (blockIn buf).bind fun block =>
        if block.isNone then some none else (getParaIn buf "DEVNAME").bind (actionIn buf)
      else none := by
  have hlen : ¬ (buf.length < 32 ∨ 2000 < buf.length) := by omega
  have hstart : strstr "libudev".toList buf = some buf := by
    cases buf with
    | nil => simp at h32
    | cons c cs => exact strstr_of_isPrefix hpre
  rw [receiveIn, if_neg hlen, strstrIn, hstart]
  split_ifs
  · exact if_neg fun hne => hne rfl
  · rfl

theorem getParaIn_of_endsNul {buf : List Char} (h : EndsNul buf) (str : String) :
    getParaIn buf str =
      some ((firstAt str.toList buf).map fun p => p.drop (str.length + 1)) := by
  rw [getParaIn, strSearchIn_of_endsNul h]
  rfl

/-- What is received of a message without a null at its end: each search has to find its string. -/
theorem receiveIn_ne_none_of_not_endsNul {buf : List Char} (hpre : "libudev".toList <+: buf)
    (h32 : 32 ≤ buf.length) (h2000 : buf.length ≤ 2000) (hends : ¬ EndsNul buf) :
    receiveIn buf ≠ none ↔
      (Found "DEVTYPE=partition" buf ∧ Found "ACTION=add" buf) ∧ DevnameEnds buf := by
  rw [receiveIn_eq hpre h32 h2000]
  constructor
  · intro hne
    obtain ⟨r, hr⟩ := Option.ne_none_iff_exists'.mp hne
    split_ifs at hr with hnul
    obtain ⟨block, hblock, hr⟩ := Option.bind_eq_some_iff.mp hr
    obtain ⟨hpart, hsome⟩ := blockIn_eq_some hends hblock
    rw [if_neg (by rw [Option.isNone_eq_false_iff.mpr hsome]; exact Bool.false_ne_true)] at hr
    obtain ⟨dev, hdev, hr⟩ := Option.bind_eq_some_iff.mp hr
    obtain ⟨ret, hret, hdev⟩ := Option.bind_eq_some_iff.mp hdev
    obtain ⟨hadd, hname⟩ := (actionIn_ne_none_iff hends dev).mp (hr ▸ Option.some_ne_none _)
    refine ⟨⟨hpart, hadd⟩, ?_⟩
    cases ret with
    | none => exact absurd (strSearchIn_eq_none_iff.mp hret).2 hends
    | some q =>
      obtain rfl := Option.some.inj hdev
      obtain ⟨p, hp, hmem⟩ := cStringIn_ne_none_iff.mp hname
      obtain rfl := Option.some.inj hp
      exact ⟨q, (strSearchIn_eq_some_iff.mp hret).1, hmem⟩
  · rintro ⟨⟨hpart, hadd⟩, q, hq, hmem⟩
    obtain ⟨-, hsuf⟩ := prefix_and_suffix_of_firstAt hq
    have hnul : nul ∈ q := List.mem_of_mem_drop hmem
    obtain ⟨b, hb⟩ := blockIn_of_found hpart
    have hpara : getParaIn buf "DEVNAME" = some (some (q.drop 8)) := by
      rw [getParaIn, strSearchIn_eq_some_iff.mpr ⟨hq, hnul⟩]
      rfl
    rw [if_pos (hsuf.mem hnul), hb, Option.bind_some, hpara]
    exact (actionIn_ne_none_iff hends _).mpr ⟨hadd, cStringIn_ne_none_iff.mpr ⟨_, rfl, hmem⟩⟩

/-- **When the listener reads the message and nothing else**: the last field ends in a null, or the
strings that it looks for are found before it; and if it comes to the device, the string that it
takes for its name ends in the message. -/
theorem receiveIn_ne_none_iff {buf : List Char} (hpre : "libudev".toList <+: buf) :
    receiveIn buf ≠ none ↔
      (32 ≤ buf.length → buf.length ≤ 2000 →
        (EndsNul buf ∨ Found "DEVTYPE=partition" buf ∧ Found "ACTION=add" buf) ∧
        (NamesBlock buf ∧ NamesAction buf → DevnameEnds buf)) := by
  by_cases hlen : buf.length < 32 ∨ 2000 < buf.length
  · rw [receiveIn, if_pos hlen]
    refine iff_of_true (Option.some_ne_none _) fun h32 h2000 => ?_
    omega
  have h32 : 32 ≤ buf.length := by omega
  have h2000 : buf.length ≤ 2000 := by omega
  rw [forall_prop_of_true h32, forall_prop_of_true h2000]
  by_cases hends : EndsNul buf
  · -- nothing is read beyond the message but perhaps the device
    obtain ⟨block, hblock, hnames⟩ := blockIn_of_endsNul hends
    rw [receiveIn_eq hpre h32 h2000, if_pos hends.mem, hblock, and_iff_right (Or.inl hends),
      and_imp, ← hnames, Option.bind_some]
    cases block with
    | none => exact iff_of_true (Option.some_ne_none _) fun h => absurd h Bool.false_ne_true
    | some q =>
      have hsome : (some q).isSome = true := rfl
      rw [forall_prop_of_true hsome, ← cStringIn_devname_ne_none_iff,
        ← actionIn_ne_none_of_endsNul hends, getParaIn_of_endsNul hends]
      rfl
  · rw [receiveIn_ne_none_of_not_endsNul hpre h32 h2000 hends, or_iff_right hends]
    refine and_congr_right fun hfound => (imp_iff_right ?_).symm
    exact ⟨Or.inl hfound.1.isInfix, Or.inl hfound.2.isInfix⟩

/-! ## Messages by their fields -/

/-- **A field** `KEY=VALUE`. -/
structure UeventField where
  key : String
  value : String
  nul_key : nul ∉ key.toList
  eq_key : '=' ∉ key.toList
  nul_value : nul ∉ value.toList

/-- The characters of a field. -/
def UeventField.text (f : UeventField) : List Char := f.key.toList ++ '=' :: f.value.toList

theorem UeventField.key_isPrefix (f : UeventField) (rest : List Char) :
    f.key.toList <+: f.text ++ rest := by
  rw [UeventField.text, List.append_assoc]
  exact List.prefix_append ..

/-- The value comes behind the key and one more character. -/
theorem UeventField.drop_text (f : UeventField) (rest : List Char) :
    (f.text ++ rest).drop (f.key.length + 1) = f.value.toList ++ rest := by
  rw [UeventField.text, List.append_assoc, ← String.length_toList, List.drop_append,
    List.drop_eq_nil_of_le (Nat.le_succ _), Nat.add_sub_cancel_left]
  rfl

theorem UeventField.length_text (f : UeventField) (rest : List Char) :
    f.key.length + 1 ≤ (f.text ++ rest).length := by
  rw [UeventField.text, ← String.length_toList]
  simp only [List.length_append, List.length_cons]
  omega

/-- **A message**: its header, and its fields with a null between them, and behind the last one if
the message is `closed`. -/
structure UeventMsg where
  header : List Char
  libudev : "libudev".toList <+: header
  fields : List UeventField
  closed : Bool

namespace UeventMsg

variable (m : UeventMsg)

/-- What stands behind a field that these follow. -/
def behind : List UeventField → List Char
  | [] => if m.closed then [nul] else []
  | f :: fs => nul :: (f.text ++ behind fs)

/-- The bytes of the message. -/
def bytes : List Char :=
  m.header ++ match m.fields with
    | [] => []
    | f :: fs => f.text ++ m.behind fs

/-- The string is one whole field. -/
def IsField (F : String) : Prop := ∃ f ∈ m.fields, f.text = F.toList

/-- **The value of the key**: what the message has from the value of a field of that key on, or
nothing if no field has the key. -/
def IsValue (K : String) : Option (List Char) → Prop
  | none => ∀ f ∈ m.fields, f.key ≠ K
  | some p => ∃ fs f rest, m.fields = fs ++ f :: rest ∧ f.key = K ∧
      p = f.value.toList ++ m.behind rest

/-- The place at which the string occurs first is a field of that key, and that field ends in the
message. -/
def KeyFirst (K : String) : Prop :=
  ∃ fs f rest, m.fields = fs ++ f :: rest ∧ f.key = K ∧
    firstAt K.toList m.bytes = some (f.text ++ m.behind rest) ∧ nul ∈ f.text ++ m.behind rest

/-- **The fields are matched exactly**, without a read beyond the message, and the listener does
not read beyond it or take the length of a missing string. -/
structure Matched (K F : String) : Prop where
  strSearch : ∃ r, strSearchIn m.bytes F = some r ∧ (r.isSome ↔ m.IsField F)
  getPara : ∃ r, getParaIn m.bytes K = some r ∧ m.IsValue K r
  receive : receiveIn m.bytes ≠ none

theorem libudev_bytes : "libudev".toList <+: m.bytes :=
  m.libudev.trans (List.prefix_append ..)

theorem suffix_behind (fs : List UeventField) (f : UeventField) (rest : List UeventField) :
    f.text ++ m.behind rest <:+ m.behind (fs ++ f :: rest) := by
  induction fs with
  | nil => exact List.suffix_cons ..
  | cons g fs ih =>
    exact (ih.trans (List.suffix_append ..)).trans (List.suffix_cons ..)

/-- A field, and what stands behind it, ends the message. -/
theorem suffix_bytes {fs rest : List UeventField} {f : UeventField}
    (h : m.fields = fs ++ f :: rest) : f.text ++ m.behind rest <:+ m.bytes := by
  rw [bytes, h]
  cases fs with
  | nil => exact List.suffix_append ..
  | cons g fs =>
    exact ((m.suffix_behind fs f rest).trans (List.suffix_append ..)).trans
      (List.suffix_append ..)

theorem IsField.isInfix {m : UeventMsg} {F : String} (h : m.IsField F) : F.toList <:+: m.bytes := by
  obtain ⟨f, hf, htext⟩ := h
  obtain ⟨fs, rest, hfields⟩ := List.append_of_mem hf
  rw [← htext]
  exact (List.prefix_append ..).isInfix.trans (m.suffix_bytes hfields).isInfix

/-- The value found begins with the value of a field of that key. -/
theorem IsValue.isPrefix {m : UeventMsg} {K : String} {p : List Char} (h : m.IsValue K (some p)) :
    ∃ f ∈ m.fields, f.key = K ∧ f.value.toList <+: p := by
  obtain ⟨fs, f, rest, hfields, hkey, rfl⟩ := h
  refine ⟨f, ?_, hkey, List.prefix_append ..⟩
  rw [hfields]
  exact List.mem_append_right fs (List.mem_cons_self ..)

/-- **The search succeeds exactly for a whole field** if and only if the string is one and ends in
the message where it occurs first, or does not occur in a message that ends in a null. -/
theorem strSearchIn_iff (F : String) :
    (∃ r, strSearchIn m.bytes F = some r ∧ (r.isSome ↔ m.IsField F)) ↔
      m.IsField F ∧ Found F m.bytes ∨ Absent F m.bytes := by
  constructor
  · rintro ⟨r, hr, hfield⟩
    cases r with
    | none => exact Or.inr (strSearchIn_eq_none_iff.mp hr)
    | some q => exact Or.inl ⟨hfield.mp rfl, q, strSearchIn_eq_some_iff.mp hr⟩
  · rintro (⟨hfield, q, hq⟩ | habs)
    · exact ⟨some q, strSearchIn_eq_some_iff.mpr hq, iff_of_true rfl hfield⟩
    · refine ⟨none, strSearchIn_eq_none_iff.mpr habs, ?_⟩
      exact iff_of_false Bool.false_ne_true fun hfield => habs.1 hfield.isInfix

/-- **The value found is that of the key** if and only if the key occurs first as the key of a
field, or does not occur in a message that ends in a null. -/
theorem getParaIn_iff (K : String) :
    (∃ r, getParaIn m.bytes K = some r ∧ m.IsValue K r) ↔
      m.KeyFirst K ∨ Absent K m.bytes := by
  constructor
  · rintro ⟨r, hr, hvalue⟩
    obtain ⟨ret, hret, hr⟩ := Option.bind_eq_some_iff.mp hr
    obtain rfl := Option.some.inj hr
    cases ret with
    | none => exact Or.inr (strSearchIn_eq_none_iff.mp hret)
    | some q =>
      left
      obtain ⟨hq, hnul⟩ := strSearchIn_eq_some_iff.mp hret
      obtain ⟨fs, f, rest, hfields, rfl, hp⟩ := hvalue
      have hsuf := m.suffix_bytes hfields
      -- the place found and the field are as far from the end
      have hle := length_le_of_firstAt hq hsuf (f.key_isPrefix _)
      have hlen := f.length_text (m.behind rest)
      have hsame := congrArg List.length (hp.trans (f.drop_text _).symm)
      rw [List.length_drop, List.length_drop] at hsame
      have heq : q = f.text ++ m.behind rest := eq_of_firstAt_length hq hsuf (by omega)
      exact ⟨fs, f, rest, hfields, rfl, heq ▸ hq, heq ▸ hnul⟩
  · rintro (⟨fs, f, rest, hfields, rfl, hq⟩ | habs)
    · refine ⟨some (f.value.toList ++ m.behind rest), ?_, fs, f, rest, hfields, rfl, rfl⟩
      rw [getParaIn, strSearchIn_eq_some_iff.mpr hq, ← f.drop_text]
      rfl
    · refine ⟨none, ?_, ?_⟩
      · rw [getParaIn, strSearchIn_eq_none_iff.mpr habs]
        rfl
      · rintro f hf rfl
        obtain ⟨fs, rest, hfields⟩ := List.append_of_mem hf
        exact habs.1 ((f.key_isPrefix _).isInfix.trans (m.suffix_bytes hfields).isInfix)

/-- **The fields of a message are matched exactly** if and only if

* the string is a whole field and ends in the message where it occurs first, or does not occur,
* the key occurs first as the key of a field that ends in the message, or does not occur,
* and the listener finds what it looks for in the message: a null at its end, or the strings it
  looks for before, and a `DEVNAME` that ends in it if it names a block device and an action. -/
theorem matched_iff (K F : String) :
    m.Matched K F ↔
      (m.IsField F ∧ Found F m.bytes ∨ Absent F m.bytes) ∧
      (m.KeyFirst K ∨ Absent K m.bytes) ∧
      (32 ≤ m.bytes.length → m.bytes.length ≤ 2000 →
        (EndsNul m.bytes ∨ Found "DEVTYPE=partition" m.bytes ∧ Found "ACTION=add" m.bytes) ∧
        (NamesBlock m.bytes ∧ NamesAction m.bytes → DevnameEnds m.bytes)) := by
  rw [← m.strSearchIn_iff, ← m.getParaIn_iff, ← receiveIn_ne_none_iff m.libudev_bytes]
  exact ⟨fun h => ⟨h.strSearch, h.getPara, h.receive⟩, fun h => ⟨h.1, h.2.1, h.2.2⟩⟩

end UeventMsg

/-- A message of these fields. -/
def uevent (fields : List UeventField) : UeventMsg :=
  ⟨"libudev".toList ++ List.replicate 33 nul, List.prefix_append .., fields, true⟩

def addField : UeventField := ⟨"ACTION", "add", by decide, by decide, by decide⟩

def diskField : UeventField := ⟨"DEVTYPE", "disk", by decide, by decide, by decide⟩

def devnameField : UeventField := ⟨"DEVNAME", "/dev/sdb", by decide, by decide, by decide⟩

/-- A field whose key ends in another one. -/
def parentField : UeventField := ⟨"PARENT_DEVNAME", "/dev/sda", by decide, by decide, by decide⟩

/-- A field that begins with another one. -/
def diskseqField : UeventField := ⟨"DEVTYPE", "diskette", by decide, by decide, by decide⟩

/-- **The fields are not matched exactly**: the value of `PARENT_DEVNAME` is taken for that of
`DEVNAME`, a field that begins with the one looked for is found, and `strlen` is computed of the
missing `DEVNAME` of a message that has none. -/
theorem uevent_mismatched :
    ((getParaIn (uevent [parentField, devnameField]).bytes "DEVNAME").map (Option.map cString) =
        some (some "/dev/sda") ∧
      ¬ (uevent [parentField, devnameField]).Matched "DEVNAME" "ACTION=add") ∧
    ((strSearchIn (uevent [diskseqField]).bytes "DEVTYPE=disk").map Option.isSome = some true ∧
      ¬ (uevent [diskseqField]).Matched "DEVNAME" "DEVTYPE=disk") ∧
    (getParaIn (uevent [addField, diskField]).bytes "DEVNAME" = some none ∧
      receiveIn (uevent [addField, diskField]).bytes = none ∧
      ¬ (uevent [addField, diskField]).Matched "DEVNAME" "ACTION=add") := by
  refine ⟨⟨by decide, fun h => ?_⟩, ⟨by decide, fun h => ?_⟩, by decide, by decide, fun h => ?_⟩
  · -- the value found is not that of the field
    have hpara : getParaIn (uevent [parentField, devnameField]).bytes "DEVNAME" =
        some (some ("/dev/sda".toList ++ nul :: devnameField.text ++ [nul])) := by
      decide
    have hwrong : ∀ f ∈ [parentField, devnameField], f.key = "DEVNAME" →
        ¬ f.value.toList <+: "/dev/sda".toList ++ nul :: devnameField.text ++ [nul] := by
      decide
    obtain ⟨r, hr, hvalue⟩ := h.getPara
    obtain rfl := Option.some.inj (hpara.symm.trans hr)
    obtain ⟨f, hf, hkey, hpre⟩ := hvalue.isPrefix
    exact hwrong f hf hkey hpre
  · -- what is found is no field
    have hsearch : strSearchIn (uevent [diskseqField]).bytes "DEVTYPE=disk" =
        some (some (diskseqField.text ++ [nul])) := by
      decide
    have hwrong : ∀ f ∈ [diskseqField], f.text ≠ "DEVTYPE=disk".toList := by decide
    obtain ⟨r, hr, hfield⟩ := h.strSearch
    obtain rfl := Option.some.inj (hsearch.symm.trans hr)
    obtain ⟨f, hf, htext⟩ := hfield.mp rfl
    exact hwrong f hf htext
  · exact h.receive (by decide)

end RkIpc.Storage
