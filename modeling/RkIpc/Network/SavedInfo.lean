import RkIpc.Network.Capture
import RkIpc.Network.SavedText
import RkIpc.Network.ScanReport
import RkIpc.Shell.Filters
import RkIpc.Text.Search

/-!
# Saved networks

`RK_wifi_getSavedInfo` runs `wpa_cli list_network` several times for each network that is saved, and
takes the fields of its line from what `awk` and `sed` print. `RK_wifi_search_with_ssid` looks for a
name among them. Arrays that are too short have no result.

## Main definitions

* `SavedNetwork`, `listNetwork`: the networks, and what `wpa_cli` prints
* `getSavedInfo`, `searchWithSsid`: the functions
* `ListsAll`: all networks are listed, and found by their names
* `SavedNetwork.Plain`: networks whose names and flags are read

## Main results

* `savedInfo_iff`: the networks that are all listed
-/

namespace RkIpc.Network

open Text Shell

/-! ## Networks -/

/-- **A network** of `wpa_supplicant`. -/
structure SavedNetwork where
  id : ℕ
  ssid : Str
  bssid : Option (List UInt8)
  current : Bool
  disabled : Bool
  tempDisabled : Bool
  persistent : Bool
  id_lt : id < 2147483648
  ssid_length : ssid.length ≤ 32
  bssid_length : ∀ mac ∈ bssid, mac.length = 6

namespace SavedNetwork

/-- The address, if the network is for one only. -/
def bssidText (net : SavedNetwork) : Str := (net.bssid.map macText).getD (lit "any")

/-- The flags. -/
def flagsText (net : SavedNetwork) : Str :=
  (if net.current then lit "[CURRENT]" else []) ++
    ((if net.disabled then lit "[DISABLED]" else []) ++
      ((if net.tempDisabled then lit "[TEMP-DISABLED]" else []) ++
        (if net.persistent then lit "[P2P-PERSISTENT]" else [])))

/-- The line of the network. -/
def row (net : SavedNetwork) : Str :=
  decimalNat net.id ++ 9 :: (printfEncode net.ssid ++ 9 :: (net.bssidText ++ 9 :: net.flagsText))

/-- The name of the network, in UTF-8 if it was found in GBK. -/
def name (gbk : List (Str × Str)) (net : SavedNetwork) : Str := getEncodeGbkUtf8 gbk net.ssid

end SavedNetwork

/-- **`wpa_cli -i wlan0 list_network`.** -/
def listNetwork (nets : List SavedNetwork) : List Str :=
  lit "network id / ssid / bssid / flags" :: nets.map SavedNetwork.row

/-! ## The functions -/

/-- `exec_command(cmd, str, 128)`, of a command that prints these lines. -/
def command (lines : List Str) : Option Str :=
  (execCommand (some (output lines)) (List.replicate 128 0) 128).map cstr

/-- The members of `RK_WIFI_SAVED_INFO_s`. -/
structure SavedEntry where
  id : ℤ
  bssid : Str
  ssid : Str
  state : Str

/-- `get_ssid_directly`. -/
def getSsidDirectly (flags : Str) (columns : ℤ) : Prop := columns ≤ 3 ∨ columns = 4 ∧ flags ≠ []

instance (flags : Str) (columns : ℤ) : Decidable (getSsidDirectly flags columns) :=
  inferInstanceAs (Decidable (_ ∨ _))

section

variable (gbk : List (Str × Str)) (list : List Str) (row : ℕ)

/-- `get_columns_from_list_network`. -/
def getColumns : Option ℤ := (command (sedPrint row (awkNF list))).map atoi

/-- `get_id_from_list_network`. -/
def getId : Option ℤ := (command (sedPrint row (awkPrint 1 list))).map atoi

/-- `get_flags_from_list_network`. -/
def getFlags (columns : ℤ) : Option Str := do
  let str ← command (sedPrint row (awkPrint columns list))
  if lit "[CURRENT]" <+: str ∨ lit "[DISABLED]" <+: str then inArray 20 str else some []

/-- `get_bssid_from_list_network`. -/
def getBssid (state : Str) (columns : ℤ) : Option Str := do
  let bssidColumn := if state = [] then columns else columns - 1
  let str ← command (sedPrint row (awkPrint bssidColumn list))
  inArray 20 str

/-- The name behind the escapes. -/
def savedName (text : Str) : Option Str := do
  let sname ← decodeSaved text
  inArray 64 (getEncodeGbkUtf8 gbk sname)

/-- `get_ssid_from_list_network`. -/
def getSsid (info : SavedEntry) (columns : ℤ) : Option Str :=
  if getSsidDirectly info.state columns then do
    let str ← command (sedPrint row (awkPrint 2 list))
    -- `str[strlen(str) - 1] = '\0'`
    if str = [] then none else savedName gbk str.dropLast
  else do
    let str ← command (sedPrint row list)
    match firstAt info.bssid str with
    | none => some []
    | some bssid =>
      let start := (decimal info.id).length
      let ends := str.length - bssid.length
      if ends < start then none
      else savedName gbk (stripLeft (stripRight ((str.drop start).take (ends - start))))

/-- **An element of `save_info`.** -/
def savedEntry : Option SavedEntry := do
  let columns ← getColumns list row
  let id ← getId list row
  let state ← getFlags list row columns
  let bssid ← getBssid list row state columns
  let ssid ← getSsid gbk list row ⟨id, bssid, [], state⟩ columns
  some ⟨id, bssid, ssid, state⟩

end

/-- The loop over the elements, of which there are `RK_WIFI_SAVED_INFO_MAX`. -/
def savedEntries (gbk : List (Str × Str)) (list : List Str) : ℕ → ℕ → Option (List SavedEntry)
  | 0, _ => some []
  | cnt + 1, i =>
    if i < 10 then do
      let entry ← savedEntry gbk list (i + 2)
      let entries ← savedEntries gbk list cnt (i + 1)
      some (entry :: entries)
    else none

/-- **`RK_WIFI_SAVED_INFO`.** -/
structure SavedInfo where
  count : ℤ
  saveInfo : List SavedEntry

/-- **`RK_wifi_getSavedInfo`.** -/
def getSavedInfo (gbk : List (Str × Str)) (list : List Str) : Option (ℤ × SavedInfo) := do
  let str ← command (wcLines list)
  let cnt := atoi str - 1
  let saveInfo ← savedEntries gbk list cnt.toNat 0
  some (if cnt ≤ 0 then -1 else 0, ⟨cnt, saveInfo⟩)

/-- `strncmp`, up to the length of the longer name. -/
def sameSsid (saved ssid : Str) : Prop :=
  let len := if ssid.length < saved.length then saved.length else ssid.length
  saved.take len = ssid.take len

instance (saved ssid : Str) : Decidable (sameSsid saved ssid) := inferInstanceAs (Decidable (_ = _))

/-- **`RK_wifi_search_with_ssid`.** -/
def searchWithSsid (gbk : List (Str × Str)) (list : List Str) (ssid : Str) : Option ℤ := do
  let (_, wsi) ← getSavedInfo gbk list
  let found := (wsi.saveInfo.take wsi.count.toNat).find? fun entry => sameSsid entry.ssid ssid
  some ((found.map SavedEntry.id).getD (-1))

/-! ## What is expected -/

/-- **The id of a network with this name**, or -1 if there is none. -/
def IsIdOf (gbk : List (Str × Str)) (nets : List SavedNetwork) (ssid : Str) (id : ℤ) : Prop :=
  (∃ net ∈ nets, net.name gbk = ssid ∧ id = net.id) ∨
    (∀ net ∈ nets, net.name gbk ≠ ssid) ∧ id = -1

/-- **All networks are listed**, as many as are counted, and found by their names. -/
structure ListsAll (gbk : List (Str × Str)) (nets : List SavedNetwork) : Prop where
  counted : ∃ ret wsi, getSavedInfo gbk (listNetwork nets) = some (ret, wsi) ∧
    wsi.count = wsi.saveInfo.length
  found : ∀ ssid, ∃ id ∈ searchWithSsid gbk (listNetwork nets) ssid, IsIdOf gbk nets ssid id

/-- At most one flag, which says that the network is the current one or disabled. -/
def SavedNetwork.OneFlag (net : SavedNetwork) : Prop :=
  ¬ (net.current ∧ net.disabled) ∧ ¬ net.tempDisabled ∧ ¬ net.persistent

/-- **A name that is read**: a word that is decoded. -/
structure PlainName (raw : Str) : Prop where
  nonempty : raw ≠ []
  blank : 32 ∉ raw
  terminator : 0 ∉ raw
  decodable : Decodable raw

/-- **Networks that are read.** -/
structure SavedNetwork.Plain (net : SavedNetwork) : Prop where
  name : PlainName net.ssid
  flags : net.OneFlag

/-- **The networks of `wpa_supplicant`**, each with its own id. -/
structure Configuration where
  networks : List SavedNetwork
  nodup : (networks.map SavedNetwork.id).Nodup

/-! ## Commands -/

/-- **A line is read** if it is short. -/
theorem command_singleton {line : Str} (h0 : 0 ∉ line) :
    command [line] = if line.length < 127 then some (line ++ [10]) else none := by
  have hterm : 0 ∉ line ++ [10] := by simp [h0]
  have hexec := @execCommand_eq (List.replicate 128 0) _ (by simp) hterm
  rw [List.length_replicate] at hexec
  have h128 : execCommand (some (line ++ [10])) (List.replicate 128 0) 128 =
      if (line ++ [10]).length < 128 then
        some (line ++ [10] ++ List.replicate (128 - (line ++ [10]).length) 0) else none := hexec
  have hlen : (line ++ [10]).length = line.length + 1 := by simp
  rw [command, output_singleton, h128]
  by_cases hlt : line.length < 127
  · obtain ⟨k, hk⟩ : ∃ k, 128 - (line ++ [10]).length = k + 1 := ⟨126 - line.length, by
      omega⟩
    rw [if_pos (by omega), if_pos hlt, hk, List.replicate_succ, Option.map_some,
      cstr_append_zero hterm]
  · rw [if_neg (by omega), if_neg hlt]
    rfl

theorem eq_of_command_singleton {line s : Str} (h0 : 0 ∉ line) (h : command [line] = some s) :
    s = line ++ [10] ∧ line.length < 127 := by
  rw [command_singleton h0] at h
  split_ifs at h with hlt
  exact ⟨(Option.some.inj h).symm, hlt⟩

theorem zero_notMem_decimalNat (n : ℕ) : 0 ∉ decimalNat n := fun h =>
  absurd (isDigit_of_mem_decimalNat h) (by decide)

theorem not_isDigit_newline : ∀ c ∈ [(10 : UInt8)].head?, ¬ IsDigit c := by
  rintro _ ⟨⟩
  decide

/-- **A number that is printed** is read back, up to the largest `long`. -/
theorem command_decimalNat {n : ℕ} {str : Str} (h : command [decimalNat n] = some str) :
    atoi str = clamp n := by
  obtain ⟨rfl, -⟩ := eq_of_command_singleton (zero_notMem_decimalNat n) h
  exact atoi_decimalNat_append n not_isDigit_newline

theorem atoi_command_decimalNat {n : ℕ} (h : n < 2147483648) :
    (command [decimalNat n]).map atoi = some (n : ℤ) := by
  have hlen := (length_decimalNat_le_iff (n := n) (k := 10) (by decide)).mpr (by omega)
  rw [command_singleton (zero_notMem_decimalNat n), if_pos (by omega), Option.map_some,
    atoi_decimalNat_append n not_isDigit_newline, clamp_eq_self ⟨by omega, by omega⟩]

/-! ## The fields of a line -/

/-- A byte of an address. -/
def AddressByte (c : UInt8) : Prop := (48 ≤ c ∧ c ≤ 58) ∨ (97 ≤ c ∧ c ≤ 122)

instance (c : UInt8) : Decidable (AddressByte c) := inferInstanceAs (Decidable (_ ∨ _))

theorem AddressByte.isPrint {c : UInt8} (h : AddressByte c) : IsPrint c ∧ c ≠ 32 ∧ c ≠ 92 := by
  refine ⟨?_, ?_, ?_⟩
  · simp only [AddressByte, IsPrint, UInt8.le_iff_toNat_le, UInt8.toNat_ofNat] at h ⊢
    omega
  · rintro rfl
    exact absurd h (by decide)
  · rintro rfl
    exact absurd h (by decide)

theorem isSpace_eq_false {c : UInt8} (h : IsPrint c) (h32 : c ≠ 32) : Text.isSpace c = false := by
  simp only [IsPrint, UInt8.le_iff_toNat_le, UInt8.toNat_ofNat] at h
  simp only [Text.isSpace, Bool.or_eq_false_iff, beq_eq_false_iff_ne, Bool.and_eq_false_iff,
    decide_eq_false_iff_not, UInt8.le_iff_toNat_le, UInt8.toNat_ofNat]
  exact ⟨h32, .inr (by omega)⟩

namespace SavedNetwork

variable (net : SavedNetwork)

theorem addressByte_of_mem {c : UInt8} (h : c ∈ net.bssidText) : AddressByte c := by
  have hdigit : ∀ n < 16, AddressByte (hexDigit n) := by decide
  rw [bssidText] at h
  cases hmac : net.bssid with
  | none =>
    rw [hmac] at h
    have hall : ∀ c ∈ lit "any", AddressByte c := by decide
    exact hall c h
  | some mac =>
    rw [hmac] at h
    rcases mem_intercalate h with rfl | ⟨t, ht, hc⟩
    · decide
    · obtain ⟨b, -, rfl⟩ := List.mem_map.mp ht
      obtain ⟨hdiv, hmod⟩ := toNat_div_lt b
      rcases List.mem_pair.mp hc with rfl | rfl
      · exact hdigit _ hdiv
      · exact hdigit _ hmod

theorem length_bssidText : 3 ≤ net.bssidText.length ∧ net.bssidText.length ≤ 17 := by
  rw [bssidText]
  cases hmac : net.bssid with
  | none => decide
  | some mac =>
    have hsix := net.bssid_length mac hmac
    have hlen := @length_macText mac (by rintro rfl; cases hsix)
    simp only [Option.map_some, Option.getD_some]
    omega

/-- The address is a tail. -/
theorem tail_bssidText : Tail 9 net.bssidText :=
  ⟨.inl rfl, net.length_bssidText.1, fun _ hd => (net.addressByte_of_mem hd).isPrint⟩

theorem fields_bssidText : fields net.bssidText = [net.bssidText] := by
  refine fields_word (fun hnil => ?_) fun c hc => ?_
  · have := net.length_bssidText.1
    rw [hnil] at this
    exact absurd this (by decide)
  · obtain ⟨hprint, h32, -⟩ := (net.addressByte_of_mem hc).isPrint
    exact isSpace_eq_false hprint h32

theorem fields_decimalNat (n : ℕ) : fields (decimalNat n) = [decimalNat n] :=
  fields_word (decimalNat_ne_nil n) fun _ hc => (isDigit_of_mem_decimalNat hc).not_isSpace

/-- **The fields of the line.** -/
theorem fields_row : fields net.row = decimalNat net.id ::
    (fields (printfEncode net.ssid) ++ net.bssidText :: fields net.flagsText) := by
  have htab : Text.isSpace 9 = true := rfl
  rw [row, fields_append_cons htab, fields_append_cons htab, fields_append_cons htab,
    fields_decimalNat, fields_bssidText]
  rfl

/-! ## The flags of a line -/

theorem flagsText_bounds : ∀ c ∈ net.flagsText, IsPrint c ∧ c ≠ 32 := by
  rw [flagsText]
  generalize net.current = current, net.disabled = disabled, net.tempDisabled = tempDisabled,
    net.persistent = persistent
  revert current disabled tempDisabled persistent
  decide

theorem flagsText_of_oneFlag (h : net.OneFlag) :
    net.flagsText = [] ∨ net.flagsText = lit "[CURRENT]" ∨ net.flagsText = lit "[DISABLED]" := by
  rw [OneFlag] at h
  rw [flagsText]
  generalize net.current = current, net.disabled = disabled, net.tempDisabled = tempDisabled,
    net.persistent = persistent at h ⊢
  revert current disabled tempDisabled persistent
  decide

/-- Other flags are not copied, or there is no room for them. -/
theorem flagsText_of_not_oneFlag (h : ¬ net.OneFlag) : net.flagsText ≠ [] ∧
    (lit "[CURRENT]" <+: net.flagsText ++ [10] ∨ lit "[DISABLED]" <+: net.flagsText ++ [10] →
      18 < net.flagsText.length) := by
  rw [OneFlag] at h
  rw [flagsText]
  generalize net.current = current, net.disabled = disabled, net.tempDisabled = tempDisabled,
    net.persistent = persistent at h ⊢
  revert current disabled tempDisabled persistent
  decide

theorem fields_flagsText :
    fields net.flagsText = if net.flagsText = [] then [] else [net.flagsText] := by
  split_ifs with hnil
  · rw [hnil, fields_nil]
  · exact fields_word hnil fun c hc =>
      isSpace_eq_false (net.flagsText_bounds c hc).1 (net.flagsText_bounds c hc).2

theorem length_flagsText_le : net.flagsText.length ≤ 50 := by
  rw [flagsText]
  generalize net.current = current, net.disabled = disabled, net.tempDisabled = tempDisabled,
    net.persistent = persistent
  revert current disabled tempDisabled persistent
  decide

/-! ## The columns of a line -/

/-- How many fields the line has. -/
def columns : ℕ := (fields net.row).length

/-- The flags that are copied, with the newline. -/
def stateText : Str := if net.flagsText = [] then [] else net.flagsText ++ [10]

/-- **The words of the name** make the number of columns. -/
theorem columns_eq : net.columns =
    (fields (printfEncode net.ssid)).length + 2 + if net.flagsText = [] then 0 else 1 := by
  rw [columns, fields_row, fields_flagsText]
  split_ifs <;> simp only [List.length_cons, List.length_append, List.length_nil]

theorem columns_lt : net.columns < 2147483648 := by
  have hwords := length_fields_le (printfEncode net.ssid)
  have htext := (length_printfEncode net.ssid).1
  have hssid := net.ssid_length
  rw [columns_eq]
  split_ifs <;> omega

theorem zero_notMem_bssidText : 0 ∉ net.bssidText := fun h =>
  absurd (net.addressByte_of_mem h) (by decide)

theorem zero_notMem_flagsText : 0 ∉ net.flagsText := fun h =>
  absurd (net.flagsText_bounds 0 h).1 (by decide)

/-- **The last column** has the flags, or the address if there are none. -/
theorem field_columns : (fields net.row)[net.columns - 1]?.getD [] =
    if net.flagsText = [] then net.bssidText else net.flagsText := by
  rw [columns_eq, fields_row, fields_flagsText]
  split_ifs with hnil
  · have hlen : (fields (printfEncode net.ssid)).length + 2 + 0 - 1 =
        (fields (printfEncode net.ssid)).length + 1 := by omega
    rw [hlen, List.getElem?_cons_succ, List.getElem?_append_right (le_refl _), Nat.sub_self]
    rfl
  · have hlen : (fields (printfEncode net.ssid)).length + 2 + 1 - 1 =
        (fields (printfEncode net.ssid)).length + 1 + 1 := by omega
    rw [hlen, List.getElem?_cons_succ, List.getElem?_append_right (by omega),
      Nat.add_sub_cancel_left]
    rfl

/-- The column before it has the address if there are flags. -/
theorem field_columns_sub_one (h : net.flagsText ≠ []) :
    (fields net.row)[net.columns - 1 - 1]?.getD [] = net.bssidText := by
  have hlen : net.columns - 1 - 1 = (fields (printfEncode net.ssid)).length + 1 := by
    rw [columns_eq, if_neg h]
    omega
  rw [hlen, fields_row, List.getElem?_cons_succ, List.getElem?_append_right (le_refl _),
    Nat.sub_self]
  rfl

section Line

variable {net} {gbk : List (Str × Str)} {list : List Str} {i : ℕ}

theorem getColumns_eq (h : list[i + 1]? = some net.row) :
    getColumns list (i + 2) = some (net.columns : ℤ) := by
  rw [getColumns, sedPrint_awkNF h]
  exact atoi_command_decimalNat net.columns_lt

theorem getId_eq (h : list[i + 1]? = some net.row) : getId list (i + 2) = some (net.id : ℤ) := by
  have hfield := sedPrint_awkPrint h (k := 1) (by decide)
  rw [fields_row] at hfield
  rw [getId]
  change (command (sedPrint (i + 1 + 1) (awkPrint (1 : ℕ) list))).map atoi = _
  rw [hfield]
  exact atoi_command_decimalNat net.id_lt

/-- What the last column gives. -/
theorem command_columns (h : list[i + 1]? = some net.row) :
    command (sedPrint (i + 2) (awkPrint net.columns list)) =
      some ((if net.flagsText = [] then net.bssidText else net.flagsText) ++ [10]) := by
  have hpos : 0 < net.columns := by
    rw [columns_eq]
    omega
  have haddress := net.length_bssidText
  have hflags := net.length_flagsText_le
  rw [sedPrint_awkPrint h hpos, field_columns, command_singleton, if_pos]
  · split_ifs <;> omega
  · split_ifs
    · exact net.zero_notMem_bssidText
    · exact net.zero_notMem_flagsText

theorem command_address (h : list[i + 1]? = some net.row) (hflags : net.flagsText ≠ []) :
    command (sedPrint (i + 2) (awkPrint (net.columns - 1) list)) =
      some (net.bssidText ++ [10]) := by
  have hlen := net.columns_eq
  rw [if_neg hflags] at hlen
  have hcast : (net.columns : ℤ) - 1 = ((net.columns - 1 : ℕ) : ℤ) := by omega
  have haddress := net.length_bssidText
  rw [hcast, sedPrint_awkPrint h (by omega), field_columns_sub_one net hflags,
    command_singleton net.zero_notMem_bssidText, if_pos (by omega)]

/-! ## An element -/

theorem inArray_flags {s : Str} (h : s.length ≤ 18) : inArray 20 (s ++ [10]) = some (s ++ [10]) :=
  inArray_eq (by rw [List.length_append, List.length_singleton]; omega)

/-- **A network with one flag**: the address and the flag are copied, and the name is left. -/
theorem savedEntry_of_oneFlag (h : list[i + 1]? = some net.row) (hone : net.OneFlag) :
    savedEntry gbk list (i + 2) =
      (getSsid gbk list (i + 2) ⟨net.id, net.bssidText ++ [10], [], net.stateText⟩
        net.columns).map fun ssid => ⟨net.id, net.bssidText ++ [10], ssid, net.stateText⟩ := by
  have hflags : getFlags list (i + 2) net.columns = some net.stateText := by
    rw [getFlags, command_columns h]
    simp only [Option.bind_eq_bind, Option.bind_some]
    rcases net.flagsText_of_oneFlag hone with hf | hf | hf
    · rw [if_pos hf, if_neg, stateText, if_pos hf]
      have hfirst : ¬ AddressByte 91 := by decide
      obtain ⟨c, t, ht⟩ := List.exists_cons_of_length_pos (l := net.bssidText)
        (by have := net.length_bssidText; omega)
      have hc := net.addressByte_of_mem (c := c) (by simp [ht])
      rw [ht]
      rintro (⟨u, hu⟩ | ⟨u, hu⟩)
      · have hhead : 91 = c := (List.cons.inj hu).1
        exact hfirst (hhead ▸ hc)
      · have hhead : 91 = c := (List.cons.inj hu).1
        exact hfirst (hhead ▸ hc)
    · rw [stateText, hf]
      rfl
    · rw [stateText, hf]
      rfl
  have haddress : getBssid list (i + 2) net.stateText net.columns =
      some (net.bssidText ++ [10]) := by
    have hlen := net.length_bssidText
    have hfits := inArray_flags (s := net.bssidText) (by omega)
    by_cases hf : net.flagsText = []
    · have hstate : net.stateText = [] := if_pos hf
      rw [getBssid]
      simp only [if_pos hstate, command_columns h, if_pos hf]
      exact hfits
    · have hstate : net.stateText ≠ [] := by
        rw [stateText, if_neg hf]
        simp
      rw [getBssid]
      simp only [if_neg hstate, command_address h hf]
      exact hfits
  rw [savedEntry, getColumns_eq h, getId_eq h]
  simp only [Option.bind_eq_bind, Option.bind_some, hflags, haddress]
  cases getSsid gbk list (i + 2) _ net.columns <;> rfl

/-- **A network with other flags**: they are taken for the address, if there is room for them. -/
theorem of_savedEntry_of_not_oneFlag {entry : SavedEntry} (h : list[i + 1]? = some net.row)
    (hone : ¬ net.OneFlag) (hentry : savedEntry gbk list (i + 2) = some entry) :
    entry.id = net.id ∧ getSsid gbk list (i + 2) ⟨net.id, net.flagsText ++ [10], [], []⟩
      net.columns = some entry.ssid := by
  obtain ⟨hne, hlong⟩ := net.flagsText_of_not_oneFlag hone
  have hcommand := command_columns h
  rw [if_neg hne] at hcommand
  rw [savedEntry, getColumns_eq h, getId_eq h] at hentry
  simp only [Option.bind_eq_bind, Option.bind_some] at hentry
  obtain ⟨state, hstate, hentry⟩ := Option.bind_eq_some_iff.mp hentry
  obtain ⟨bssid, hbssid, hentry⟩ := Option.bind_eq_some_iff.mp hentry
  obtain ⟨ssid, hssid, hentry⟩ := Option.bind_eq_some_iff.mp hentry
  obtain rfl := Option.some.inj hentry
  rw [getFlags, hcommand] at hstate
  simp only [Option.bind_eq_bind, Option.bind_some] at hstate
  split_ifs at hstate with hstarts
  · have hroom := (inArray_eq_some hstate).1
    have := hlong hstarts
    simp only [List.length_append, List.length_singleton] at hroom
    omega
  · obtain rfl := Option.some.inj hstate
    rw [getBssid] at hbssid
    simp only [if_true, Option.bind_eq_bind] at hbssid
    rw [hcommand, Option.bind_some] at hbssid
    obtain ⟨-, rfl⟩ := inArray_eq_some hbssid
    exact ⟨rfl, hssid⟩

/-! ## The name of a line -/

theorem zero_notMem_printfEncode : 0 ∉ printfEncode net.ssid := fun h =>
  absurd (isPrint_of_mem_printfEncode h) (by decide)

/-- **The second column**, if the name has at most one word. -/
theorem getSsid_direct {info : SavedEntry} {columns : ℤ} {word : Str}
    (h : list[i + 1]? = some net.row) (hdirect : getSsidDirectly info.state columns)
    (hword : (fields net.row)[1]?.getD [] = word) (h0 : 0 ∉ word) :
    getSsid gbk list (i + 2) info columns =
      if word.length < 127 then savedName gbk word else none := by
  have hfield := sedPrint_awkPrint h (k := 2) (by decide)
  rw [hword] at hfield
  have hcommand : command (sedPrint (i + 2) (awkPrint 2 list)) = command [word] :=
    congrArg command hfield
  rw [getSsid, if_pos hdirect, hcommand, command_singleton h0]
  by_cases hlt : word.length < 127
  · rw [if_pos hlt, if_pos hlt, Option.bind_eq_bind, Option.bind_some, if_neg (by simp),
      List.dropLast_concat]
  · rw [if_neg hlt, if_neg hlt]
    rfl

/-- A line has printable bytes and tabs. -/
theorem isPrint_or_tab_of_mem_row {c : UInt8} (h : c ∈ net.row) : IsPrint c ∨ c = 9 := by
  simp only [row, List.mem_append, List.mem_cons] at h
  rcases h with h | rfl | h | rfl | h | rfl | h
  · have hdigit := isDigit_iff.mp (isDigit_of_mem_decimalNat h)
    refine .inl ?_
    simp only [IsPrint, UInt8.le_iff_toNat_le, UInt8.toNat_ofNat]
    omega
  · exact .inr rfl
  · exact .inl (isPrint_of_mem_printfEncode h)
  · exact .inr rfl
  · exact .inl (net.addressByte_of_mem h).isPrint.1
  · exact .inr rfl
  · exact .inl (net.flagsText_bounds c h).1

theorem newline_notMem_row : 10 ∉ net.row := fun h =>
  (net.isPrint_or_tab_of_mem_row h).elim (fun h => absurd h (by decide))
    fun h => absurd h (by decide)

/-- What the line gives. -/
theorem command_row {str : Str} (h : list[i + 1]? = some net.row)
    (hstr : command (sedPrint (i + 2) list) = some str) : str = net.row ++ [10] := by
  have hline := sedPrint_succ h
  rw [hline] at hstr
  refine (eq_of_command_singleton (fun h0 => ?_) hstr).1
  exact (net.isPrint_or_tab_of_mem_row h0).elim (fun h => absurd h (by decide))
    fun h => absurd h (by decide)

/-- **The address is not found** in the line, since the newline does not stand behind it. -/
theorem getSsid_unfound {info : SavedEntry} {columns : ℤ} {ssid : Str}
    (h : list[i + 1]? = some net.row) (hdirect : ¬ getSsidDirectly info.state columns)
    (hbssid : info.bssid = net.bssidText ++ [10]) (hone : net.OneFlag)
    (hssid : getSsid gbk list (i + 2) info columns = some ssid) : ssid = [] := by
  have hnone : firstAt (net.bssidText ++ [10]) (net.row ++ [10]) = none := by
    rw [firstAt_eq_none_iff]
    rintro ⟨p, q, hpq⟩
    have hend : net.row = p ++ net.bssidText := by
      rcases List.eq_nil_or_concat q with rfl | ⟨q, d, rfl⟩
      · rw [List.append_nil, ← List.append_assoc] at hpq
        exact (List.append_cancel_right hpq).symm
      · rw [List.concat_eq_append, ← List.append_assoc] at hpq
        have hrow := (List.append_inj' hpq rfl).1
        exact absurd (by simp [← hrow]) net.newline_notMem_row
    have hlast : ∃ c ∈ net.row.getLast?, ¬ AddressByte c := by
      have hrow : net.row = (decimalNat net.id ++ 9 :: (printfEncode net.ssid ++ 9 ::
          net.bssidText)) ++ 9 :: net.flagsText := by simp [row]
      rw [hrow, List.getLast?_append_of_ne_nil _ (by simp)]
      rcases net.flagsText_of_oneFlag hone with hf | hf | hf
      · exact ⟨9, by rw [hf]; rfl, by decide⟩
      · exact ⟨93, by rw [hf]; rfl, by decide⟩
      · exact ⟨93, by rw [hf]; rfl, by decide⟩
    obtain ⟨c, hc, hno⟩ := hlast
    have hne : net.bssidText ≠ [] := List.ne_nil_of_length_pos (by
      have := net.length_bssidText
      omega)
    rw [hend, List.getLast?_append_of_ne_nil _ hne] at hc
    exact hno (net.addressByte_of_mem (List.mem_of_getLast? hc))
  rw [getSsid, if_neg hdirect] at hssid
  obtain ⟨str, hstr, hssid⟩ := Option.bind_eq_some_iff.mp hssid
  obtain rfl := command_row h hstr
  rw [hbssid, hnone] at hssid
  exact (Option.some.inj hssid).symm

/-- White space is taken off at either end. -/
theorem strip_row (hwords : fields (printfEncode net.ssid) ≠ []) :
    stripLeft (stripRight (9 :: (printfEncode net.ssid ++ 9 :: (net.bssidText ++ [9])))) =
      stripLeft (printfEncode net.ssid) ++ 9 :: net.bssidText := by
  have hright : stripRight (9 :: (printfEncode net.ssid ++ 9 :: (net.bssidText ++ [9]))) =
      9 :: (printfEncode net.ssid ++ 9 :: net.bssidText) := by
    have hsplit : 9 :: (printfEncode net.ssid ++ 9 :: (net.bssidText ++ [9])) =
        9 :: (printfEncode net.ssid ++ 9 :: net.bssidText) ++ [9] := by simp
    have htail := net.length_bssidText
    rw [hsplit, stripRight_append (by decide), stripRight_eq_self]
    intro c hc
    have hlast : 9 :: (printfEncode net.ssid ++ 9 :: net.bssidText) =
        (9 :: printfEncode net.ssid ++ [9]) ++ net.bssidText := by simp
    rw [hlast, List.getLast?_append_of_ne_nil _ (List.ne_nil_of_length_pos (by omega))] at hc
    obtain ⟨hprint, h32, -⟩ := (net.addressByte_of_mem (List.mem_of_getLast? hc)).isPrint
    exact isSpace_eq_false hprint h32
  have hne : stripLeft (printfEncode net.ssid) ≠ [] := fun hnil =>
    hwords (fields_eq_nil_iff.mpr (List.dropWhile_eq_nil_iff.mp hnil))
  rw [hright, stripLeft, List.dropWhile_cons_of_pos rfl, List.dropWhile_append,
    if_neg (by simpa [stripLeft] using hne)]
  rfl

/-- **The flags are found** in the line, and the address is taken for a part of the name. -/
theorem getSsid_flags {columns : ℤ} {ssid : Str}
    (h : list[i + 1]? = some net.row) (hdirect : ¬ getSsidDirectly [] columns)
    (hwords : fields (printfEncode net.ssid) ≠ [])
    (hssid : getSsid gbk list (i + 2) ⟨net.id, net.flagsText ++ [10], [], []⟩ columns =
      some ssid) :
    savedName gbk (stripLeft (printfEncode net.ssid) ++ 9 :: net.bssidText) = some ssid := by
  have hrow : net.row ++ [10] = decimalNat net.id ++ (9 :: (printfEncode net.ssid ++ 9 ::
      (net.bssidText ++ [9]))) ++ (net.flagsText ++ [10]) := by simp [row]
  have hfound : firstAt (net.flagsText ++ [10]) (net.row ++ [10]) =
      some (net.flagsText ++ [10]) := by
    rw [hrow]
    refine firstAt_concat fun hmem => net.newline_notMem_row ?_
    simpa [row] using hmem
  have hid : decimal (net.id : ℤ) = decimalNat net.id := decimal_of_nonneg (by omega)
  rw [getSsid, if_neg hdirect] at hssid
  obtain ⟨str, hstr, hssid⟩ := Option.bind_eq_some_iff.mp hssid
  obtain rfl := command_row h hstr
  simp only [hfound, hid] at hssid
  rw [hrow, List.length_append, Nat.add_sub_cancel, List.length_append, if_neg (by omega),
    Nat.add_sub_cancel_left, List.append_assoc, List.drop_left, List.take_left,
    strip_row hwords] at hssid
  exact hssid

end Line

end SavedNetwork

/-! ## Names that are read -/

section Name

variable {raw : Str}

theorem mem_printfEncode_blank (h : 32 ∈ printfEncode raw) : 32 ∈ raw := by
  have hdigit : ∀ n < 16, hexDigit n ≠ 32 := by decide
  obtain ⟨c, hc, hmem⟩ := List.mem_flatMap.mp h
  suffices hblank : c = 32 by rwa [hblank] at hc
  unfold printfQuoted at hmem
  split at hmem
  · next hquoted =>
    rcases hquoted with rfl | rfl
    · exact absurd hmem (by decide)
    · exact absurd hmem (by decide)
  · by_cases hprint : IsPrint c
    · rw [printfByte_of_isPrint hprint] at hmem
      exact (List.mem_singleton.mp hmem).symm
    · cases hletter : controlLetter c with
      | some l =>
        have hl : l ≠ 32 := by
          rintro rfl
          unfold controlLetter at hletter
          split_ifs at hletter <;> exact absurd (Option.some.inj hletter) (by decide)
        rw [printfByte_of_control hletter] at hmem
        simp [hl.symm] at hmem
      | none =>
        obtain ⟨hdiv, hmod⟩ := toNat_div_lt c
        rw [printfByte_of_hex hletter hprint] at hmem
        simp [(hdigit _ hdiv).symm, (hdigit _ hmod).symm] at hmem

theorem blank_mem_printfEncode (h : 32 ∈ raw) : 32 ∈ printfEncode raw :=
  List.mem_flatMap.mpr ⟨32, h, by decide⟩

/-- White space in the text of a name is blanks. -/
theorem eq_blank_of_isSpace {c : UInt8} (hprint : IsPrint c) (h : Text.isSpace c = true) :
    c = 32 := by
  by_contra hne
  rw [isSpace_eq_false hprint hne] at h
  cases h

/-- **The text of a name that is read** is one word. -/
theorem PlainName.fields_eq (h : PlainName raw) :
    fields (printfEncode raw) = [printfEncode raw] := by
  refine fields_word ?_ fun c hc => ?_
  · obtain ⟨d, t, rfl⟩ := List.exists_cons_of_ne_nil h.nonempty
    exact printfEncode_ne_nil d t
  · refine isSpace_eq_false (isPrint_of_mem_printfEncode hc) ?_
    rintro rfl
    exact h.blank (mem_printfEncode_blank hc)

/-- There is room for the text of a name that is decoded. -/
theorem Decodable.length_printfEncode_lt (h : Decodable raw) (hlen : raw.length ≤ 32) :
    (printfEncode raw).length < 127 := by
  obtain ⟨hle, hlt⟩ := length_printfEncode raw
  by_cases h32 : raw.length = 32
  · have hroom := h.room
    rw [not_and] at hroom
    have := hlt (by simpa using hroom h32)
    omega
  · omega

/-- **One word that is decoded to the whole name** is all of its text. -/
theorem plainName_of_word {word : Str} (hword : fields (printfEncode raw) = [word])
    (h : decodeSaved word = some raw) : PlainName raw := by
  obtain ⟨p, q, htext, hp, hq, hne, hw⟩ := exists_of_fields_eq_singleton hword
  have hblank : ∀ c ∈ p ++ q, c = 32 := by
    intro c hc
    refine eq_blank_of_isSpace (@isPrint_of_mem_printfEncode raw _ ?_)
      ((List.mem_append.mp hc).elim (hp c) (hq c))
    rw [htext]
    rcases List.mem_append.mp hc with hc | hc
    · simp [hc]
    · simp [hc]
  obtain ⟨hpb, hqb⟩ := List.forall_mem_append.mp hblank
  have hback : ∀ t : Str, (∀ c ∈ t, c = 32) → 92 ∉ t := fun t ht hmem =>
    absurd (ht 92 hmem) (by decide)
  have hhead : ∀ c ∈ q.head?, c ≠ 92 ∧ c ≠ 34 := fun c hc => by
    rw [hqb c (List.mem_of_head? hc)]
    decide
  have hremoved : raw.flatMap printfByte = p ++ (removeEscapeCharacter word ++ q) := by
    rw [← removeEscapeCharacter_printfEncode, htext, List.append_assoc,
      removeEscapeCharacter_append (hback p hpb), removeEscapeCharacter_append_of_head word hhead,
      removeEscapeCharacter_of_notMem (hback q hqb)]
  obtain ⟨u, hu, hraw⟩ := decodeSaved_eq_some h
  -- the word has the heft of the name, and nothing is left for the blanks
  have hprinted := totalHeft_flatMap_printfByte raw
  have hdecoded := totalHeft_specCharConvers hu
  have hcut := totalHeft_cstr_le u
  rw [hremoved, totalHeft_append, totalHeft_append] at hprinted
  rw [← hraw] at hcut
  obtain rfl := eq_nil_of_totalHeft (s := p) (by omega)
  obtain rfl := eq_nil_of_totalHeft (s := q) (by omega)
  rw [List.nil_append, List.append_nil] at htext
  rw [← htext] at h hw hne
  refine ⟨fun hnil => hne (by rw [hnil]; rfl), fun hmem => ?_, fun hmem => ?_,
    decodable_of_decodeSaved h⟩
  · exact absurd (hw 32 (blank_mem_printfEncode hmem)) (by decide)
  · rw [hraw] at hmem
    simpa using List.mem_takeWhile_imp hmem

end Name

namespace SavedNetwork

section Exact

variable {net : SavedNetwork} {list : List Str} {i : ℕ} {entry : SavedEntry}

/-- The address is no name of blanks. -/
theorem decodeSaved_bssidText_ne (hwords : fields (printfEncode net.ssid) = []) :
    decodeSaved net.bssidText ≠ some net.ssid := by
  intro h
  have hback : 92 ∉ net.bssidText := fun hmem => absurd (net.addressByte_of_mem hmem) (by decide)
  obtain ⟨u, hu, hssid⟩ := decodeSaved_eq_some h
  rw [removeEscapeCharacter_of_notMem hback, specCharConvers_of_notMem hback] at hu
  obtain rfl := Option.some.inj hu
  rw [cstr_eq_self net.zero_notMem_bssidText] at hssid
  obtain ⟨c, t, ht⟩ := List.exists_cons_of_length_pos (l := net.bssidText) (by
    have := net.length_bssidText
    omega)
  obtain ⟨hprint, h32, h92⟩ := (net.addressByte_of_mem (c := c) (by simp [ht])).isPrint
  have h34 : c ≠ 34 := by
    rintro rfl
    exact absurd (net.addressByte_of_mem (c := 34) (by simp [ht])) (by decide)
  have hmem : c ∈ printfEncode net.ssid := by
    refine List.mem_flatMap.mpr ⟨c, by simp [hssid, ht], ?_⟩
    rw [printfQuoted, if_neg (by simp [h34, h92]), printfByte_of_isPrint hprint]
    exact List.mem_singleton_self c
  have hspace := fields_eq_nil_iff.mp hwords c hmem
  rw [isSpace_eq_false hprint h32] at hspace
  cases hspace

theorem savedName_nil {text v : Str} (h : savedName [] text = some v) :
    decodeSaved text = some v := by
  obtain ⟨sname, hsname, hv⟩ := Option.bind_eq_some_iff.mp h
  obtain ⟨-, rfl⟩ := inArray_eq_some hv
  exact hsname

/-- The second column is the word of the name, or the address. -/
theorem second_column : (fields net.row)[1]?.getD [] =
    (fields (printfEncode net.ssid)).head?.getD net.bssidText := by
  rw [fields_row]
  cases fields (printfEncode net.ssid) <;> rfl

/-- The name is in the second column if it is one word. -/
theorem getSsidDirectly_of_word {word : Str} (h : fields (printfEncode net.ssid) = [word]) :
    getSsidDirectly net.stateText net.columns := by
  have hlen := net.columns_eq
  rw [h, List.length_singleton] at hlen
  by_cases hf : net.flagsText = []
  · rw [if_pos hf] at hlen
    exact .inl (by omega)
  · rw [if_neg hf] at hlen
    refine .inr ⟨by omega, ?_⟩
    rw [stateText, if_neg hf]
    simp

/-- With flags that are not known, the name is longer: the address is a part of it. -/
theorem decodeSaved_of_not_oneFlag (h : list[i + 1]? = some net.row) (hone : ¬ net.OneFlag)
    (hentry : savedEntry [] list (i + 2) = some entry)
    (hwords : fields (printfEncode net.ssid) ≠ []) :
    decodeSaved (stripLeft (printfEncode net.ssid) ++ 9 :: net.bssidText) = some entry.ssid := by
  obtain ⟨-, hssid⟩ := of_savedEntry_of_not_oneFlag h hone hentry
  have hlen := net.columns_eq
  rw [if_neg (net.flagsText_of_not_oneFlag hone).1] at hlen
  have hpos := List.length_pos_of_ne_nil hwords
  have hdirect : ¬ getSsidDirectly [] net.columns := by
    rintro (hle | ⟨-, hne⟩)
    · omega
    · exact hne rfl
  exact savedName_nil (getSsid_flags h hdirect hwords hssid)

/-- What the first function leaves of the name and the address: the name, without the blanks before
it, and the address. -/
theorem removeEscapeCharacter_stripLeft (net : SavedNetwork) :
    ∃ p r, (∀ c ∈ p, c = 32) ∧ net.ssid = p ++ r ∧
      removeEscapeCharacter (stripLeft (printfEncode net.ssid) ++ 9 :: net.bssidText) =
        r.flatMap printfByte ++ 9 :: net.bssidText := by
  have hsplit := List.takeWhile_append_dropWhile (p := Text.isSpace) (l := printfEncode net.ssid)
  have hblank : ∀ c ∈ (printfEncode net.ssid).takeWhile Text.isSpace, c = 32 := fun c hc =>
    eq_blank_of_isSpace (isPrint_of_mem_printfEncode ((List.takeWhile_sublist _).subset hc))
      (List.mem_takeWhile_imp hc)
  have hback : 92 ∉ (printfEncode net.ssid).takeWhile Text.isSpace := fun hmem =>
    absurd (hblank 92 hmem) (by decide)
  have htail : 92 ∉ 9 :: net.bssidText := by
    rw [List.mem_cons, not_or]
    exact ⟨by decide, fun hmem => absurd (net.addressByte_of_mem hmem) (by decide)⟩
  have hprinted := removeEscapeCharacter_printfEncode net.ssid
  rw [← hsplit, removeEscapeCharacter_append hback] at hprinted
  obtain ⟨r, hr, hrest⟩ := exists_of_flatMap_printfByte hblank hprinted.symm
  refine ⟨_, r, hblank, hr, ?_⟩
  rw [removeEscapeCharacter_append_of_head _ (by simp), removeEscapeCharacter_of_notMem htail,
    ← hrest, stripLeft]

/-- A name of blanks is not found: the second column is the address. -/
theorem getSsid_blanks_ne {info : SavedEntry} (h : list[i + 1]? = some net.row)
    (hdirect : getSsidDirectly info.state net.columns)
    (hwords : fields (printfEncode net.ssid) = []) :
    getSsid [] list (i + 2) info net.columns ≠ some net.ssid := by
  intro hssid
  have hsecond := @second_column net
  rw [hwords] at hsecond
  rw [getSsid_direct h hdirect hsecond net.zero_notMem_bssidText] at hssid
  split_ifs at hssid
  exact decodeSaved_bssidText_ne hwords (savedName_nil hssid)

/-- A name of one word is the second column. -/
theorem plainName_of_getSsid {info : SavedEntry} {word : Str} (h : list[i + 1]? = some net.row)
    (hdirect : getSsidDirectly info.state net.columns)
    (hwords : fields (printfEncode net.ssid) = [word])
    (hssid : getSsid [] list (i + 2) info net.columns = some net.ssid) : PlainName net.ssid := by
  have hsecond := @second_column net
  rw [hwords] at hsecond
  have h0 : 0 ∉ word := by
    obtain ⟨p, q, htext, -⟩ := exists_of_fields_eq_singleton hwords
    exact fun hmem => net.zero_notMem_printfEncode (by rw [htext]; simp [hmem])
  rw [getSsid_direct h hdirect hsecond h0] at hssid
  split_ifs at hssid
  exact plainName_of_word hwords (savedName_nil hssid)

/-- A name of more than one word is not looked for in the second column. -/
theorem not_getSsidDirectly_of_words {word word' : Str} {words : List Str}
    (hwords : fields (printfEncode net.ssid) = word :: word' :: words) :
    ¬ getSsidDirectly net.stateText net.columns := by
  have hlen := net.columns_eq
  rw [hwords] at hlen
  simp only [List.length_cons] at hlen
  rintro (hle | ⟨hfour, hne⟩)
  · omega
  · rw [stateText] at hne
    by_cases hf : net.flagsText = []
    · exact hne (if_pos hf)
    · rw [if_neg hf] at hlen
      omega

/-- A line without a name has three columns at most. -/
theorem columns_le_of_blanks (hwords : fields (printfEncode net.ssid) = []) :
    (net.columns : ℤ) ≤ 3 := by
  have hlen := net.columns_eq
  rw [hwords] at hlen
  rw [hlen]
  split_ifs <;> decide

/-- **A network that is reported with its name** has a name that is read. -/
theorem plainName_of_exact (h : list[i + 1]? = some net.row)
    (hentry : savedEntry [] list (i + 2) = some entry) (hexact : entry.ssid = net.ssid) :
    PlainName net.ssid := by
  by_cases hone : net.OneFlag
  · rw [savedEntry_of_oneFlag h hone] at hentry
    obtain ⟨ssid, hssid, rfl⟩ := Option.map_eq_some_iff.mp hentry
    obtain rfl : ssid = net.ssid := hexact
    -- how many words the name has
    rcases hwords : fields (printfEncode net.ssid) with _ | ⟨word, _ | ⟨word', words⟩⟩
    · exact absurd hssid (getSsid_blanks_ne h (.inl (columns_le_of_blanks hwords)) hwords)
    · exact plainName_of_getSsid h (getSsidDirectly_of_word hwords) hwords hssid
    · have hnil := getSsid_unfound h (not_getSsidDirectly_of_words hwords) rfl hone hssid
      rw [hnil] at hwords
      cases hwords
  · by_cases hwords : fields (printfEncode net.ssid) = []
    · obtain ⟨-, hssid⟩ := of_savedEntry_of_not_oneFlag h hone hentry
      rw [hexact] at hssid
      exact absurd hssid (getSsid_blanks_ne h (.inl (columns_le_of_blanks hwords)) hwords)
    · have hname := decodeSaved_of_not_oneFlag h hone hentry hwords
      obtain ⟨u, hu, hssid⟩ := decodeSaved_eq_some hname
      obtain ⟨p, r, hp, hr, hremoved⟩ := removeEscapeCharacter_stripLeft net
      rw [hremoved] at hu
      rw [hexact, hr] at hssid
      exact absurd hssid.symm (cstr_specCharConvers_tab_ne hp net.tail_bssidText hu)

/-- **A name that is read**, with flags that are not known, is reported with a tab in it. -/
theorem tab_mem_of_not_oneFlag (h : list[i + 1]? = some net.row) (hname : PlainName net.ssid)
    (hone : ¬ net.OneFlag) (hentry : savedEntry [] list (i + 2) = some entry) :
    9 ∈ entry.ssid := by
  have hwords : fields (printfEncode net.ssid) ≠ [] := by
    rw [hname.fields_eq]
    simp
  obtain ⟨u, hu, hssid⟩ :=
    decodeSaved_eq_some (decodeSaved_of_not_oneFlag h hone hentry hwords)
  obtain ⟨p, r, hp, hr, hremoved⟩ := removeEscapeCharacter_stripLeft net
  -- there are no blanks before the name
  obtain rfl : p = [] := by
    rcases p with _ | ⟨c, p⟩
    · rfl
    · exact absurd (by rw [hr, hp c List.mem_cons_self]; simp) hname.blank
  obtain rfl : net.ssid = r := hr
  have hdecoded := specCharConvers_flatMap_printfByte hname.decodable.control
    hname.decodable.backslash
  rw [hremoved] at hu
  rcases specCharConvers_append_cases (net.ssid.flatMap printfByte)
    (y := 9 :: net.bssidText) (by simp) with ⟨v, hv, hsum⟩ | ⟨hnone, -⟩
  · rw [hu, net.tail_bssidText.specCharConvers, Option.map_some] at hsum
    obtain rfl := Option.some.inj hsum
    obtain rfl := Option.some.inj (hdecoded.symm.trans hv)
    rw [hssid, cstr_eq_self]
    · simp
    · simp [hname.terminator, net.zero_notMem_bssidText]
  · rw [hdecoded] at hnone
    cases hnone

/-- **A network that is read** is reported. -/
theorem savedEntry_of_plain {gbk : List (Str × Str)} (h : list[i + 1]? = some net.row)
    (hplain : net.Plain) (hfit : (net.name gbk).length < 64) :
    savedEntry gbk list (i + 2) =
      some ⟨net.id, net.bssidText ++ [10], net.name gbk, net.stateText⟩ := by
  have hshort := hplain.name.decodable.length_printfEncode_lt net.ssid_length
  have hsecond : (fields net.row)[1]?.getD [] = printfEncode net.ssid := by
    rw [second_column, hplain.name.fields_eq]
    rfl
  have hname : savedName gbk (printfEncode net.ssid) = some (net.name gbk) := by
    rw [savedName, hplain.name.decodable.decodeSaved hplain.name.terminator net.ssid_length]
    exact inArray_eq hfit
  rw [savedEntry_of_oneFlag h hplain.flags, getSsid_direct h
    (getSsidDirectly_of_word hplain.name.fields_eq) hsecond net.zero_notMem_printfEncode,
    if_pos hshort, hname]
  rfl

end Exact

end SavedNetwork

/-! ## All networks -/

/-- What a network is reported as, wherever its line is. -/
def SavedNetwork.ReportedAs (gbk : List (Str × Str)) (net : SavedNetwork) (entry : SavedEntry) :
    Prop :=
  ∃ list i, list[i + 1]? = some net.row ∧ savedEntry gbk list (i + 2) = some entry

section Loop

variable {gbk : List (Str × Str)} {list : List Str} {entries : List SavedEntry}

/-- There is room for ten. -/
theorem le_of_savedEntries {cnt i : ℕ} (h : savedEntries gbk list cnt i = some entries) :
    cnt = 0 ∨ i + cnt ≤ 10 := by
  induction cnt generalizing i entries with
  | zero => exact .inl rfl
  | succ cnt ih =>
    rw [savedEntries] at h
    split_ifs at h with hi
    obtain ⟨entry, -, hloop⟩ := Option.bind_eq_some_iff.mp h
    obtain ⟨rest, hrest, -⟩ := Option.bind_eq_some_iff.mp hloop
    have := ih hrest
    omega

theorem getElem?_listNetwork (pre : List SavedNetwork) (net : SavedNetwork)
    (suf : List SavedNetwork) :
    (listNetwork (pre ++ net :: suf))[pre.length + 1]? = some net.row := by
  rw [listNetwork, List.getElem?_cons_succ, List.getElem?_map,
    List.getElem?_append_right (le_refl _), Nat.sub_self]
  rfl

/-- **The loop reports one network after the other.** -/
theorem reportedAs_of_savedEntries (pre suf : List SavedNetwork)
    (h : savedEntries gbk (listNetwork (pre ++ suf)) suf.length pre.length = some entries) :
    List.Forall₂ (SavedNetwork.ReportedAs gbk) suf entries := by
  induction suf generalizing pre entries with
  | nil =>
    obtain rfl := Option.some.inj h
    exact .nil
  | cons net suf ih =>
    rw [List.length_cons, savedEntries] at h
    split_ifs at h
    obtain ⟨entry, hentry, hloop⟩ := Option.bind_eq_some_iff.mp h
    obtain ⟨rest, hrest, heq⟩ := Option.bind_eq_some_iff.mp hloop
    obtain rfl := Option.some.inj heq
    rw [List.append_cons] at hrest
    have hlen : pre.length + 1 = (pre ++ [net]).length := by simp
    rw [hlen] at hrest
    exact .cons ⟨_, _, getElem?_listNetwork pre net suf, hentry⟩ (ih (pre ++ [net]) hrest)

/-- **Networks that are read** are all reported. -/
theorem savedEntries_of_plain (pre suf : List SavedNetwork) (hroom : pre.length + suf.length ≤ 10)
    (hplain : ∀ net ∈ suf, net.Plain ∧ (net.name gbk).length < 64) :
    savedEntries gbk (listNetwork (pre ++ suf)) suf.length pre.length = some (suf.map fun net =>
      ⟨net.id, net.bssidText ++ [10], net.name gbk, net.stateText⟩) := by
  induction suf generalizing pre with
  | nil => rfl
  | cons net suf ih =>
    rw [List.length_cons] at hroom
    obtain ⟨⟨hnet, hfit⟩, hplain⟩ := List.forall_mem_cons.mp hplain
    have hentry := SavedNetwork.savedEntry_of_plain (getElem?_listNetwork pre net suf) hnet hfit
    have hlen : (pre ++ [net]).length = pre.length + 1 := by simp
    have hrest := ih (pre ++ [net]) (by omega) hplain
    rw [← List.append_cons, hlen] at hrest
    rw [List.length_cons, savedEntries, if_pos (by omega), hentry]
    simp only [Option.bind_eq_bind, Option.bind_some, hrest]
    rfl

end Loop

theorem exists_of_forall₂ {α β : Type*} {r : α → β → Prop} {l : List α} {m : List β}
    (h : List.Forall₂ r l m) : ∀ a ∈ l, ∃ b ∈ m, r a b := by
  induction h with
  | nil => simp
  | cons hab _ ih =>
    refine List.forall_mem_cons.mpr ⟨⟨_, List.mem_cons_self, hab⟩, fun a ha => ?_⟩
    obtain ⟨b, hb, hr⟩ := ih a ha
    exact ⟨b, List.mem_cons_of_mem _ hb, hr⟩

theorem SavedNetwork.ReportedAs.id_eq {gbk : List (Str × Str)} {net : SavedNetwork}
    {entry : SavedEntry} (h : net.ReportedAs gbk entry) : entry.id = net.id := by
  obtain ⟨list, i, hrow, hentry⟩ := h
  by_cases hone : net.OneFlag
  · rw [savedEntry_of_oneFlag hrow hone] at hentry
    obtain ⟨ssid, -, rfl⟩ := Option.map_eq_some_iff.mp hentry
    rfl
  · exact (of_savedEntry_of_not_oneFlag hrow hone hentry).1

theorem sameSsid_iff {saved ssid : Str} : sameSsid saved ssid ↔ saved = ssid := by
  unfold sameSsid
  refine ⟨fun h => ?_, fun h => by rw [h]⟩
  dsimp only at h
  split_ifs at h
  · rwa [List.take_length, List.take_of_length_le (by omega)] at h
  · rwa [List.take_length, List.take_of_length_le (by omega)] at h

section Info

variable {gbk : List (Str × Str)} {nets : List SavedNetwork} {wsi : SavedInfo} {ret : ℤ}

theorem command_wcLines : command (wcLines (listNetwork nets)) =
    command [decimalNat (nets.length + 1)] := by
  rw [wcLines, listNetwork, List.length_cons, List.length_map]

/-- **What is listed**: ten networks at most, all of them. -/
theorem of_getSavedInfo (h : getSavedInfo gbk (listNetwork nets) = some (ret, wsi)) :
    nets.length ≤ 10 ∧ wsi.count = nets.length ∧
      List.Forall₂ (SavedNetwork.ReportedAs gbk) nets wsi.saveInfo := by
  rw [getSavedInfo, command_wcLines] at h
  obtain ⟨str, hstr, hentries⟩ := Option.bind_eq_some_iff.mp h
  have hatoi := command_decimalNat hstr
  rw [clamp] at hatoi
  obtain ⟨entries, hloop, heq⟩ := Option.bind_eq_some_iff.mp hentries
  obtain ⟨-, rfl⟩ := Prod.mk.inj (Option.some.inj heq)
  have hroom := le_of_savedEntries hloop
  have hfew : nets.length ≤ 10 := by omega
  have hcnt : (atoi str - 1).toNat = nets.length := by omega
  have hcount : atoi str - 1 = nets.length := by omega
  rw [hcnt] at hloop
  exact ⟨hfew, hcount, reportedAs_of_savedEntries [] nets hloop⟩

/-- **Networks that are read** are all listed. -/
theorem getSavedInfo_of_plain (hfew : nets.length ≤ 10)
    (hplain : ∀ net ∈ nets, net.Plain ∧ (net.name gbk).length < 64) :
    getSavedInfo gbk (listNetwork nets) = some (if (nets.length : ℤ) ≤ 0 then -1 else 0,
      ⟨nets.length, nets.map fun net =>
        ⟨net.id, net.bssidText ++ [10], net.name gbk, net.stateText⟩⟩) := by
  have hatoi := atoi_command_decimalNat (n := nets.length + 1) (by omega)
  obtain ⟨str, hstr, hcnt⟩ := Option.map_eq_some_iff.mp hatoi
  have hcount : atoi str - 1 = nets.length := by omega
  have hloop := savedEntries_of_plain [] nets (by simpa using hfew) hplain
  rw [getSavedInfo, command_wcLines, hstr]
  simp only [Option.bind_eq_bind, Option.bind_some, hcount, Int.toNat_natCast]
  rw [List.length_nil, List.nil_append] at hloop
  rw [hloop, Option.bind_some]

/-- **The search** is for the first network that is reported with the name. -/
theorem searchWithSsid_eq (h : getSavedInfo gbk (listNetwork nets) = some (ret, wsi))
    (hcount : wsi.count = wsi.saveInfo.length) (ssid : Str) :
    searchWithSsid gbk (listNetwork nets) ssid =
      some (((wsi.saveInfo.find? fun entry => entry.ssid = ssid).map SavedEntry.id).getD (-1)) := by
  rw [searchWithSsid, h]
  simp only [Option.bind_eq_bind, Option.bind_some, hcount, Int.toNat_natCast, List.take_length,
    sameSsid_iff]

/-- **Networks that are read** are found. -/
theorem listsAll_of_plain (hfew : nets.length ≤ 10) (hplain : ∀ net ∈ nets, net.Plain)
    (hfit : ∀ net ∈ nets, (net.name gbk).length < 64) : ListsAll gbk nets := by
  have hinfo := getSavedInfo_of_plain hfew fun net hnet => ⟨hplain net hnet, hfit net hnet⟩
  refine ⟨⟨_, _, hinfo, by simp⟩, fun ssid => ⟨_, searchWithSsid_eq hinfo (by simp) ssid, ?_⟩⟩
  dsimp only
  cases hfind : (nets.map fun net => SavedEntry.mk net.id (net.bssidText ++ [10]) (net.name gbk)
      net.stateText).find? fun entry => entry.ssid = ssid with
  | some entry =>
    obtain ⟨net, hnet, rfl⟩ := List.mem_map.mp (List.mem_of_find?_eq_some hfind)
    exact .inl ⟨net, hnet, by simpa using List.find?_some hfind, rfl⟩
  | none =>
    refine .inr ⟨fun net hnet hname => ?_, rfl⟩
    have hnone := List.find?_eq_none.mp hfind _ (List.mem_map_of_mem hnet)
    exact hnone (by simpa using hname)

/-- **A name that is found** is that of a network with a name that is read. -/
theorem plainName_of_found {entry : SavedEntry} (hnodup : (nets.map SavedNetwork.id).Nodup)
    (hinfo : getSavedInfo [] (listNetwork nets) = some (ret, wsi))
    (hcount : wsi.count = wsi.saveInfo.length) (hentry : entry ∈ wsi.saveInfo) {id : ℤ}
    (hid : searchWithSsid [] (listNetwork nets) entry.ssid = some id)
    (hisId : IsIdOf [] nets entry.ssid id) : PlainName entry.ssid := by
  obtain ⟨-, -, hall⟩ := of_getSavedInfo hinfo
  have hreports := exists_of_forall₂
    (List.Forall₂.flip (R := flip (SavedNetwork.ReportedAs [])) hall)
  rw [searchWithSsid_eq hinfo hcount] at hid
  obtain ⟨first, hfirst⟩ := Option.isSome_iff_exists.mp
    (List.find?_isSome.mpr ⟨entry, hentry, decide_eq_true rfl⟩ :
      (wsi.saveInfo.find? fun e => e.ssid = entry.ssid).isSome)
  rw [hfirst] at hid
  obtain rfl : first.id = id := Option.some.inj hid
  have hssid : first.ssid = entry.ssid := by simpa using List.find?_some hfirst
  obtain ⟨net, hnet, hreported⟩ := hreports first (List.mem_of_find?_eq_some hfirst)
  have hidEq := SavedNetwork.ReportedAs.id_eq hreported
  rcases hisId with ⟨net', hnet', hnetName, hnetId⟩ | ⟨-, hminus⟩
  · -- the network that is reported is the one whose id is expected
    obtain rfl : net = net' := List.inj_on_of_nodup_map hnodup hnet hnet' (by omega)
    obtain ⟨list, i, hrow, hsaved⟩ := hreported
    have hname : net.ssid = entry.ssid := hnetName
    rw [← hname]
    exact SavedNetwork.plainName_of_exact hrow hsaved (hssid.trans hname.symm)
  · omega

/-- **All networks are read** if they are listed and found. -/
theorem plain_of_listsAll (hnodup : (nets.map SavedNetwork.id).Nodup) (h : ListsAll [] nets) :
    nets.length ≤ 10 ∧ ∀ net ∈ nets, net.Plain := by
  obtain ⟨⟨ret, wsi, hinfo, hcount⟩, hfound⟩ := h
  obtain ⟨hfew, -, hall⟩ := of_getSavedInfo hinfo
  have hexact : ∀ entry ∈ wsi.saveInfo, PlainName entry.ssid := by
    intro entry hentry
    obtain ⟨id, hid, hisId⟩ := hfound entry.ssid
    exact plainName_of_found hnodup hinfo hcount hentry hid hisId
  refine ⟨hfew, fun net hnet => ?_⟩
  have hplain : PlainName net.ssid := by
    obtain ⟨id, hid, hisId⟩ := hfound net.ssid
    rw [searchWithSsid_eq hinfo hcount] at hid
    cases hfind : wsi.saveInfo.find? fun entry => entry.ssid = net.ssid with
    | some entry =>
      have hssid : entry.ssid = net.ssid := by simpa using List.find?_some hfind
      exact hssid ▸ hexact entry (List.mem_of_find?_eq_some hfind)
    | none =>
      rw [hfind] at hid
      obtain rfl : -1 = id := Option.some.inj hid
      rcases hisId with ⟨net', -, -, hnetId⟩ | ⟨hnone, -⟩
      · omega
      · exact absurd rfl (hnone net hnet)
  refine ⟨hplain, ?_⟩
  by_contra hone
  obtain ⟨entry, hentry, list, i, hrow, hsaved⟩ := exists_of_forall₂ hall net hnet
  have htab := SavedNetwork.tab_mem_of_not_oneFlag hrow hplain hone hsaved
  exact absurd ((hexact entry hentry).decodable.control 9 htab) (by decide)

end Info

/-- **All networks are listed and found**, whatever names are kept that have room, if and only if
there are ten at most, and all of them are read. -/
theorem savedInfo_iff (c : Configuration) :
    (∀ gbk, (∀ net ∈ c.networks, (net.name gbk).length < 64) → ListsAll gbk c.networks) ↔
      c.networks.length ≤ 10 ∧ ∀ net ∈ c.networks, net.Plain := by
  constructor
  · intro h
    refine plain_of_listsAll c.nodup (h [] fun net _ => ?_)
    have hlen := net.ssid_length
    change net.ssid.length < 64
    omega
  · rintro ⟨hfew, hplain⟩ gbk hfit
    exact listsAll_of_plain hfew hplain hfit

/-- A network for any address, that is disabled. -/
def disabledNetwork (id : Fin 16) (ssid : Str) (h : ssid.length ≤ 32) : SavedNetwork where
  id := id
  ssid := ssid
  bssid := none
  current := false
  disabled := true
  tempDisabled := false
  persistent := false
  id_lt := by omega
  ssid_length := h
  bssid_length := by simp

theorem length_myHome_le : (lit "my home").length ≤ 32 := by decide

theorem length_letter_le (c : UInt8) : [c].length ≤ 32 := by simp

/-- **A name of two words**, which is not found, and eleven networks, which are too many. -/
theorem two_words_unfound : let home := disabledNetwork 0 (lit "my home") length_myHome_le
    ¬ ListsAll [] [home] ∧ searchWithSsid [] (listNetwork [home]) (lit "my home") = some (-1) ∧
      ¬ ListsAll [] (List.ofFn fun i : Fin 11 =>
        disabledNetwork (i.castLE (Nat.le_add_right 11 5)) [97 + UInt8.ofNat i]
          (length_letter_le _)) := by
  have hsearch : searchWithSsid []
      (listNetwork [disabledNetwork 0 (lit "my home") length_myHome_le]) (lit "my home") =
        some (-1) := by decide +kernel
  refine ⟨fun h => ?_, hsearch, fun h => ?_⟩
  · obtain ⟨id, hid, hisId⟩ := h.found (lit "my home")
    obtain rfl : -1 = id := Option.some.inj (hsearch.symm.trans hid)
    rcases hisId with ⟨net, -, -, hnet⟩ | ⟨hnone, -⟩
    · omega
    · exact hnone _ List.mem_cons_self rfl
  · obtain ⟨⟨ret, wsi, hinfo, -⟩, -⟩ := h
    exact absurd (of_getSavedInfo hinfo).1 (by simp)

end RkIpc.Network
