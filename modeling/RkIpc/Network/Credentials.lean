import RkIpc.Imperative.Log
import RkIpc.Network.Ssid
import RkIpc.Shell.Words

/-!
# Credentials of a network

`set_network` of `common/network/Rk_wifi.c` hands the name and the passphrase of a network to
`wpa_supplicant` with shell commands. The name is printed in hexadecimal digits, and every byte of
the passphrase gets a backslash, so that the shell leaves it alone. A command goes through
`char cmd[128]`, and is cut there.

What a command answers is decided outside. Nothing is said about a text that is too long for a
buffer it is copied to.

## Main definitions

* `Credentials`: an id, a name and a passphrase
* `formatWifiinfo`, `networkCommand`: the texts
* `setNetwork`: the commands that are run
* `Delivered`: the commands are complete, and their last words are the credentials

## Main results

* `words_ssidText`, `words_pskText`: the words of the complete commands
* `setNetwork_commands`: the commands that are run
* `delivered_iff`: when the credentials are delivered
-/

namespace RkIpc.Network

open Imperative Text

/-- `RK_WIFI_CONNECTION_Encryp_e`. -/
inductive Encryp
  | none
  | wpa
  | wep
deriving DecidableEq, Repr

/-! ## The texts -/

/-- `snprintf` into `size` bytes. -/
def snprintf (size : ℕ) (s : Str) : Str := s.take (size - 1)

/-- `%02x` of a byte. -/
def hex02 (c : UInt8) : Str := [hexDigit (c.toNat / 16), hexDigit (c.toNat % 16)]

/-- **`format_wifiinfo`** on a buffer of 128 bytes. -/
def formatWifiinfo (flag : ℕ) (info : Str) : Option Str :=
  if flag = 0 then (inArray 1024 (info.flatMap hex02)).bind (inArray 128)
  else if flag = 1 then (inArray 1024 (info.flatMap fun c => [92, c])).bind (inArray 128)
  else some info

/-- `"wpa_cli -iwlan0 set_network %d …"`. -/
def networkCommand (id : ℤ) (setting : String) (value : Str) : Str :=
  lit "wpa_cli -iwlan0 set_network " ++ decimal id ++ lit " " ++ lit setting ++ lit " " ++ value

/-- `\"%s\"`, with the backslashes. -/
def quoted (s : Str) : Str := [92, 34] ++ s ++ [92, 34]

/-! ## The commands -/

section

variable (exec : List Str → Str)

/-- `0 == strlen(str) || 0 != strncmp(str, "OK", 2)` is not the case. -/
def isOk (str : Str) : Bool := str.take 2 == lit "OK"

/-- **`exec_command`**, with what all callers test; the function returns `r` if the test fails.
`exec` is the answer to the last command of a list. -/
def runCommand (cmd : Str) (r : ℤ) : Program (List Str) ℤ Unit := fun log =>
  (if isOk (exec (log ++ [cmd])) then .value () else .returned r, log ++ [cmd])

/-- The second part of `set_network`. -/
def setPsk (id : ℤ) (psk wifiPsk : Str) (encryp : Encryp) : Program (List Str) ℤ Unit :=
  if psk = [] ∧ encryp = .none then
    runCommand exec (snprintf 128 (networkCommand id "key_mgmt" (lit "NONE"))) (-2)
  else if encryp = .wep then do
    runCommand exec (snprintf 128 (networkCommand id "key_mgmt" (lit "NONE"))) (-41)
    runCommand exec (snprintf 128 (networkCommand id "wep_key0" (quoted psk))) (-42)
  else if psk ≠ [] ∨ encryp = .wpa then do
    let wifiPsk ← Program.ofOption (formatWifiinfo 1 wifiPsk)
    runCommand exec (snprintf 128 (networkCommand id "psk" (quoted wifiPsk))) (-3)
  else pure ()

/-- **`set_network`**: the state is the commands so far. -/
def setNetwork (id : ℤ) (ssid psk : Str) (encryp : Encryp) : Program (List Str) ℤ ℤ := do
  let wifiSsid ← Program.ofOption (inArray 128 ssid)
  let wifiPsk ← Program.ofOption (inArray 128 psk)
  let wifiSsid ← Program.ofOption (formatWifiinfo 0 wifiSsid)
  runCommand exec (snprintf 128 (networkCommand id "ssid" wifiSsid)) (-1)
  setPsk exec id psk wifiPsk encryp
  pure 0

end

/-! ## What is delivered -/

/-- **Credentials**: the id of a network, a name of 1 to 32 bytes, and a passphrase of 8 to 63
printable characters. -/
structure Credentials where
  id : ℕ
  ssid : Str
  psk : Str
  id_lt : id < 100
  ssid_length : 1 ≤ ssid.length ∧ ssid.length ≤ 32
  ssid_zero : 0 ∉ ssid
  psk_length : 8 ≤ psk.length ∧ psk.length ≤ 63
  psk_printable : ∀ c ∈ psk, 32 ≤ c ∧ c ≤ 126

namespace Credentials

variable (c : Credentials)

/-- The name in hexadecimal digits. -/
def hexSsid : Str := c.ssid.flatMap hex02

/-- The passphrase in double quotes. -/
def quotedPsk : Str := [34] ++ c.psk ++ [34]

/-- The first command, with nothing cut off. -/
def ssidText : Str := networkCommand c.id "ssid" c.hexSsid

/-- The second command. -/
def pskText : Str := networkCommand c.id "psk" (quoted (Shell.escape c.psk))

end Credentials

/-- **The credentials are delivered**: the commands that are run are complete, whatever they answer,
and their last words are the name in hexadecimal digits and the passphrase in double quotes. -/
structure Delivered (c : Credentials) : Prop where
  commands : ∀ (exec : List Str → Str) (encryp : Encryp), encryp ≠ .wep →
    ∃ o, setNetwork exec c.id c.ssid c.psk encryp [] =
      (o, if isOk (exec [c.ssidText]) then [c.ssidText, c.pskText] else [c.ssidText])
  ssid : (Shell.words c.ssidText).bind List.getLast? = some c.hexSsid
  psk : (Shell.words c.pskText).bind List.getLast? = some c.quotedPsk

/-! ## The words of the complete commands -/

section

variable {c : Credentials} {id : ℤ} {setting : String} {value w : Str}

/-- A command has six parts with single blanks between them. -/
theorem networkCommand_eq : networkCommand id setting value =
    [Shell.blank].intercalate [lit "wpa_cli", lit "-iwlan0", lit "set_network", decimal id,
      lit setting, value] := by
  have hlit : lit "wpa_cli -iwlan0 set_network " =
      lit "wpa_cli" ++ [Shell.blank] ++ lit "-iwlan0" ++ [Shell.blank] ++ lit "set_network" ++
        [Shell.blank] := rfl
  have hblank : lit " " = [Shell.blank] := rfl
  rw [networkCommand, hlit, hblank]
  simp only [List.intercalate_cons_cons, List.intercalate_singleton, List.append_assoc]

/-- Digits stand for themselves. -/
theorem plain_of_isDigit {d : UInt8} (h : IsDigit d) : Shell.Plain d := by
  have hne : ∀ e ∈ [Shell.blank, 9, Shell.backslash, 39, 34] ++ Shell.special, ¬ IsDigit e := by
    decide +kernel
  have hd : d ∉ [Shell.blank, 9, Shell.backslash, 39, 34] ++ Shell.special :=
    fun hmem => hne d hmem h
  simp only [List.mem_append, List.mem_cons, List.not_mem_nil, or_false, not_or] at hd
  exact ⟨hd.1.1, hd.1.2.1, hd.1.2.2.1, hd.1.2.2.2.1, hd.1.2.2.2.2, hd.2⟩

theorem spells_decimal (n : ℕ) : Shell.Spells (decimal n) (decimal n) := by
  rw [decimal_of_nonneg (Int.natCast_nonneg n)]
  exact Shell.spells_plain (decimalNat_ne_nil _) fun d hd =>
    plain_of_isDigit (isDigit_of_mem_decimalNat hd)

theorem plain_of_mem_hex02 {b d : UInt8} (h : d ∈ hex02 b) : Shell.Plain d := by
  have hall : ∀ n < 16, Shell.Plain (hexDigit n) := by decide
  obtain ⟨hdiv, hmod⟩ := toNat_div_lt b
  rcases List.mem_pair.mp h with rfl | rfl
  · exact hall _ hdiv
  · exact hall _ hmod

theorem spells_hexSsid : Shell.Spells c.hexSsid c.hexSsid := by
  apply Shell.spells_plain
  · intro hnil
    obtain ⟨b, hb⟩ := List.exists_mem_of_length_pos c.ssid_length.1
    exact List.cons_ne_nil _ _ (List.flatMap_eq_nil_iff.mp hnil b hb)
  · intro d hd
    obtain ⟨b, -, hd⟩ := List.mem_flatMap.mp hd
    exact plain_of_mem_hex02 hd

/-- **The words of a command.** -/
theorem words_networkCommand (n : ℕ) (hsetting : Shell.Spells (lit setting) (lit setting))
    (hvalue : Shell.Spells value w) : Shell.words (networkCommand n setting value) =
      some [lit "wpa_cli", lit "-iwlan0", lit "set_network", decimal n, lit setting, w] := by
  rw [networkCommand_eq]
  refine Shell.words_intercalate (.cons ?_ (.cons ?_ (.cons ?_
    (.cons (spells_decimal n) (.cons hsetting (.cons hvalue .nil))))))
  all_goals exact Shell.spells_plain (by decide) (by decide)

theorem words_ssidText : (Shell.words c.ssidText).bind List.getLast? = some c.hexSsid := by
  have hsetting : Shell.Spells (lit "ssid") (lit "ssid") :=
    Shell.spells_plain (by decide) (by decide)
  rw [Credentials.ssidText, words_networkCommand c.id hsetting spells_hexSsid]
  rfl

theorem words_pskText : (Shell.words c.pskText).bind List.getLast? = some c.quotedPsk := by
  have hne : c.psk ≠ [] := List.ne_nil_of_length_pos (Nat.lt_of_lt_of_le (by decide) c.psk_length.1)
  have hnewline : 10 ∉ c.psk := fun h => absurd (c.psk_printable 10 h).1 (by decide)
  have hsetting : Shell.Spells (lit "psk") (lit "psk") :=
    Shell.spells_plain (by decide) (by decide)
  have hquote : Shell.Spells [92, 34] [34] := Shell.spells_escaped (by decide)
  have hvalue : Shell.Spells (quoted (Shell.escape c.psk)) c.quotedPsk :=
    (hquote.append (Shell.spells_escape hne hnewline)).append hquote
  rw [Credentials.pskText, words_networkCommand c.id hsetting hvalue]
  rfl

/-! ## The commands that are run -/

theorem length_networkCommand : (networkCommand id setting value).length =
    30 + (decimal id).length + (lit setting).length + value.length := by
  have hlit : (lit "wpa_cli -iwlan0 set_network ").length = 28 := rfl
  have hblank : (lit " ").length = 1 := rfl
  simp only [networkCommand, List.length_append, hlit, hblank]
  omega

theorem snprintf_eq_self {size : ℕ} {s : Str} (h : s.length < size) : snprintf size s = s :=
  List.take_of_length_le (by omega)

theorem length_decimal_id (c : Credentials) :
    1 ≤ (decimal (c.id : ℤ)).length ∧ (decimal (c.id : ℤ)).length ≤ 2 := by
  rw [decimal_of_nonneg (Int.natCast_nonneg _), Int.natAbs_natCast]
  exact ⟨List.length_pos_iff.mpr (decimalNat_ne_nil _),
    (length_decimalNat_le_iff (by decide)).mpr c.id_lt⟩

theorem length_hexSsid : c.hexSsid.length = 2 * c.ssid.length := by
  rw [Credentials.hexSsid, List.length_flatMap]
  simp [hex02, Nat.mul_comm]

theorem length_escape (s : Str) : (Shell.escape s).length = 2 * s.length := by
  rw [Shell.escape, List.length_flatMap]
  simp [Nat.mul_comm]

theorem length_ssidText_lt : c.ssidText.length < 128 := by
  have hsetting : (lit "ssid").length = 4 := rfl
  have hid := length_decimal_id c
  have hssid := c.ssid_length
  rw [Credentials.ssidText, length_networkCommand, hsetting, length_hexSsid]
  omega

/-- **The second command is complete** if the passphrase has at most 44 characters. -/
theorem length_pskText_lt_iff : c.pskText.length < 128 ↔ c.psk.length ≤ 44 := by
  have hsetting : (lit "psk").length = 3 := rfl
  have hid := length_decimal_id c
  have hquoted : (quoted (Shell.escape c.psk)).length = 2 * c.psk.length + 4 := by
    simp only [quoted, List.length_append, length_escape, List.length_cons, List.length_nil]
    omega
  rw [Credentials.pskText, length_networkCommand, hsetting, hquoted]
  omega

theorem formatWifiinfo_ssid : formatWifiinfo 0 c.ssid = some c.hexSsid := by
  have hlen := length_hexSsid (c := c)
  have hssid := c.ssid_length
  have h₁ : inArray 1024 c.hexSsid = some c.hexSsid := if_pos (by omega)
  have h₂ : inArray 128 c.hexSsid = some c.hexSsid := if_pos (by omega)
  rw [formatWifiinfo, if_pos rfl, ← Credentials.hexSsid, h₁, Option.bind_some, h₂]

theorem formatWifiinfo_psk : formatWifiinfo 1 c.psk = some (Shell.escape c.psk) := by
  have hlen := length_escape c.psk
  have hpsk := c.psk_length
  have h₁ : inArray 1024 (Shell.escape c.psk) = some (Shell.escape c.psk) := if_pos (by omega)
  have h₂ : inArray 128 (Shell.escape c.psk) = some (Shell.escape c.psk) := if_pos (by omega)
  exact (congrArg (Option.bind · (inArray 128)) h₁).trans h₂

/-- **The commands that are run**: the first one is complete, and the second one is cut. -/
theorem setNetwork_commands (c : Credentials) (exec : List Str → Str) {encryp : Encryp}
    (h : encryp ≠ .wep) :
    ∃ o, setNetwork exec c.id c.ssid c.psk encryp [] =
      (o, if isOk (exec [c.ssidText]) then [c.ssidText, snprintf 128 c.pskText]
        else [c.ssidText]) := by
  have hssid : inArray 128 c.ssid = some c.ssid := if_pos (by have := c.ssid_length; omega)
  have hpsk : inArray 128 c.psk = some c.psk := if_pos (by have := c.psk_length; omega)
  have hne : c.psk ≠ [] := List.ne_nil_of_length_pos (Nat.lt_of_lt_of_le (by decide) c.psk_length.1)
  have hfirst : snprintf 128 (networkCommand c.id "ssid" c.hexSsid) = c.ssidText :=
    snprintf_eq_self length_ssidText_lt
  have hsecond : ∀ log, setPsk exec c.id c.psk c.psk encryp log =
      runCommand exec (snprintf 128 c.pskText) (-3) log := by
    intro log
    rw [setPsk, if_neg (fun h => hne h.1), if_neg h, if_pos (.inl hne), formatWifiinfo_psk]
    rfl
  simp only [setNetwork, hssid, hpsk, formatWifiinfo_ssid, hfirst, Bind.bind, Program.ofOption,
    runCommand, List.nil_append]
  cases isOk (exec [c.ssidText]) with
  | false => exact ⟨_, rfl⟩
  | true =>
    simp only [if_true, hsecond, runCommand, List.singleton_append]
    by_cases hok : isOk (exec [c.ssidText, snprintf 128 c.pskText]) = true
    · rw [if_pos hok]
      exact ⟨_, rfl⟩
    · rw [if_neg hok]
      exact ⟨_, rfl⟩

/-- A command that is delivered is complete. -/
theorem length_pskText_lt_of_delivered (h : Delivered c) : c.pskText.length < 128 := by
  -- all commands are answered `OK`
  have hok : isOk (lit "OK") = true := rfl
  obtain ⟨o, ho⟩ := h.commands (fun _ => lit "OK") .wpa nofun
  obtain ⟨o', ho'⟩ := setNetwork_commands c (fun _ => lit "OK") (show Encryp.wpa ≠ .wep from nofun)
  rw [hok, if_pos rfl] at ho ho'
  have hlists := congrArg Prod.snd (ho.symm.trans ho')
  have hsame : c.pskText = snprintf 128 c.pskText :=
    List.head_eq_of_cons_eq (List.tail_eq_of_cons_eq hlists)
  rw [hsame, snprintf, List.length_take]
  omega

/-- **The credentials are delivered** if and only if the passphrase has at most 44 characters. -/
theorem delivered_iff (c : Credentials) : Delivered c ↔ c.psk.length ≤ 44 := by
  rw [← length_pskText_lt_iff]
  constructor
  · intro h
    exact length_pskText_lt_of_delivered h
  · intro h
    refine ⟨fun exec encryp hencryp => ?_, words_ssidText, words_pskText⟩
    obtain ⟨o, ho⟩ := setNetwork_commands c exec hencryp
    exact ⟨o, by rw [ho, snprintf_eq_self h]⟩

end

/-- A passphrase of 45 characters. -/
def longPassphrase : Credentials where
  id := 0
  ssid := lit "rkipc"
  psk := List.replicate 45 97
  id_lt := by decide
  ssid_length := by decide
  ssid_zero := by decide
  psk_length := by decide
  psk_printable := by decide

/-- **A passphrase of 45 characters** is cut off. -/
theorem not_delivered_long : ¬ ∀ c : Credentials, Delivered c := by
  intro h
  have hlen := length_pskText_lt_iff.mp (length_pskText_lt_of_delivered (h longPassphrase))
  exact absurd hlen (by decide)

end RkIpc.Network
