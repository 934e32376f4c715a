import RkIpc.Osd.Entry
import RkIpc.Storage.SegmentNames
import RkIpc.Text.Decoder
import RkIpc.Text.Field
import RkIpc.Text.Search

/-!
# The buffers of a text

The texts of the display go through buffers on the stack: `iconv_utf8_to_wchar` copies a text into
`entry[128]` before it is converted, `osd_time_server` puts the format of the clock together in
128 bytes, and `generate_date_time` prints the date and the time into buffers of its own. A write
outside of a buffer has no result, and neither has a read of a string that does not end in its
buffer.

## Main definitions

* `iconvUtf8ToWchar`, `formatBuffer`, `generateDateTime`: the functions, with their buffers
* `Converted`: a text that is converted as far as there is room
* `TextsFit`: every buffer is large enough

## Main results

* `textsFit_iff`: the texts for which they are
* `long_text_overflows`: a text of 128 bytes
-/

namespace RkIpc.Osd

open Text Memory Param

/-- `MAX_WCH_BYTE`. -/
def maxWchByte : ℕ := 128

/-- A buffer that was set to zero. -/
def zeros (size : ℕ) : List UInt8 := List.replicate size 0

/-- **`iconv_utf8_to_wchar`**; `cd` is what `iconv_open` returns, and `out` the wide characters at
the pointer. -/
def iconvUtf8ToWchar (cd : Option (Decoder UInt8 UInt32)) (text : Str) (out : List UInt32) :
    Option (ℤ × List UInt32) :=
  match cd with
  | none => some (-1, out)
  | some cd => do
    let entry ← write (zeros 128) 0 (cstr text)
    let _ ← write entry (cstr text).length [0]
    -- a wide character has four bytes
    let wch := cd.convert (maxWchByte / 4) (cstr text)
    let out ← write out 0 wch
    let out ← write out wch.length [0]
    return (0, out)

/-! ## The clock -/

/-- `struct tm`, with the day of the week. -/
structure Tm extends Storage.Tm where
  tmWday : Fin 7

/-- `%Y`. -/
def Tm.year (tm : Tm) : Str := decimal (tm.tmYear.toInt + 1900)

/-- `%H:%M:%S`. -/
def Tm.hours (tm : Tm) : Str :=
  decimal02 tm.tmHour ++ lit ":" ++ decimal02 tm.tmMin ++ lit ":" ++ decimal02 tm.tmSec

/-- `%I:%M:%S %p`. -/
def Tm.hours12 (tm : Tm) : Str :=
  decimal02 ((tm.tmHour + 11) % 12 + 1) ++ lit ":" ++ decimal02 tm.tmMin ++ lit ":" ++
    decimal02 tm.tmSec ++ lit (if (tm.tmHour : ℕ) < 12 then " AM" else " PM")

/-- `%u`, where Sunday is the seventh day. -/
def Tm.weekday (tm : Tm) : Str := decimal (if tm.tmWday = 0 then 7 else (tm.tmWday : ℤ))

/-- `%A`. -/
def Tm.weekdayName (tm : Tm) : Str :=
  lit (["Sunday", "Monday", "Tuesday", "Wednesday", "Thursday", "Friday", "Saturday"].get tm.tmWday)

/-- `strstr(s, pat) != NULL`. -/
def strstr (s : Str) (pat : String) : Bool := (firstAt (lit pat) s).isSome

/-- The days of the week as `wid` numbers them. -/
def weekName : ℤ → String
  | 1 => " 星期一"
  | 2 => " 星期二"
  | 3 => " 星期三"
  | 4 => " 星期四"
  | 5 => " 星期五"
  | 6 => " 星期六"
  | 7 => " 星期日"
  | _ => " 星期*"

/-- How `ymd_string` is printed from the year, the month and the day. -/
def dateStyle (fmt : Str) : Option (Str → Str → Str → Str) :=
  if strstr fmt "CHR" then
    if strstr fmt "YYYY-MM-DD" then some fun y m d => y ++ lit "年" ++ m ++ lit "月" ++ d ++ lit "日"
    else if strstr fmt "MM-DD-YYYY" then
      some fun y m d => m ++ lit "月" ++ d ++ lit "日" ++ y ++ lit "年"
    else if strstr fmt "DD-MM-YYYY" then
      some fun y m d => d ++ lit "日" ++ m ++ lit "月" ++ y ++ lit "年"
    else if strstr fmt "YYYY/MM/DD" then some fun y m d => y ++ lit "/" ++ m ++ lit "/" ++ d
    else if strstr fmt "MM/DD/YYYY" then some fun y m d => m ++ lit "/" ++ d ++ lit "/" ++ y
    else if strstr fmt "DD/MM/YYYY" then some fun y m d => d ++ lit "/" ++ m ++ lit "/" ++ y
    else none
  else if strstr fmt "YYYY-MM-DD" then some fun y m d => y ++ lit "-" ++ m ++ lit "-" ++ d
  else if strstr fmt "MM-DD-YYYY" then some fun y m d => m ++ lit "-" ++ d ++ lit "-" ++ y
  else if strstr fmt "DD-MM-YYYY" then some fun y m d => d ++ lit "-" ++ m ++ lit "-" ++ y
  else none

section DateTime

variable (left : ℕ → List UInt8) (tm : Tm) (fmt : Str)

/-- `hms`. -/
def hmsField : List UInt8 :=
  if strstr fmt "24hour" then strftime left (zeros 12) tm.hours
  else if strstr fmt "12hour" then strftime left (zeros 12) tm.hours12
  else zeros 12

/-- `week_string`. -/
def weekField : Option (List UInt8) :=
  if strstr fmt "WEEKCN" then
    let week := strftime left (zeros 16) tm.weekday
    sprintf (zeros 16) (lit (weekName (((week.headD 0).toNat : ℤ) - 48)))
  else if strstr fmt "WEEK" then
    (content (strftime left (zeros 16) tm.weekdayName)).bind fun week =>
      sprintf (zeros 16) (lit " " ++ week)
  else some (zeros 16)

/-- `ymd_string`. -/
def ymdField : Option (List UInt8) :=
  match dateStyle fmt with
  | none => some (zeros 32)
  | some style => do
    let year ← content (strftime left (zeros 8) tm.year)
    let month ← content (strftime left (zeros 4) (decimal02 (tm.tmMon + 1)))
    let day ← content (strftime left (zeros 4) (decimal02 tm.tmMday))
    sprintf (zeros 32) (style year month day)

/-- **`generate_date_time`**, at the time `tm`; `left` is what `strftime` leaves of a buffer of a
size if the text does not fit. -/
def generateDateTime (cd : Option (Decoder UInt8 UInt32)) (result : List UInt32) :
    Option (List UInt32) := do
  let week ← (weekField left tm fmt).bind content
  let ymd ← (ymdField left tm fmt).bind content
  let hms ← content (hmsField left tm fmt)
  -- `snprintf` leaves out what does not fit
  let time ← sprintf (zeros maxWchByte) ((ymd ++ week ++ lit " " ++ hms).take (maxWchByte - 1))
  let text ← content time
  let r ← iconvUtf8ToWchar cd text result
  return r.2

end DateTime

/-- What is appended for the style of the time. -/
def timeParts : Option Str → List Str
  | none => []
  | some style => [if style = lit "12hour" then lit "12hour" else lit "24hour", lit " "]

/-- What is appended for the day of the week. -/
def weekParts (enabled : ℤ) : List Str := if enabled ≠ 0 then [lit "WEEKCN", lit " "] else []

/-- What `osd_time_server` appends to the format, in this order. -/
def formatParts (q : Params) (id : ℤ) : List Str :=
  timeParts (q.string (osdEntry id "time_style") none) ++
    weekParts (q.int (osdEntry id "display_week_enabled") 0) ++
    (q.string (osdEntry id "date_style") none).toList

/-- **`osd_data.text.format`** in `osd_time_server`. -/
def formatBuffer (q : Params) (id : ℤ) : Option (List UInt8) :=
  strcats (zeros 128) (formatParts q id)

/-! ## What is wanted -/

/-- **A text is converted as far as there is room**: no more than the first `MAX_WCH_BYTE / 4 + 1`
wide characters are written, and they are those of the longest part that is converted, with a
terminator; nothing is written if there is no conversion. -/
def Converted (cd : Option (Decoder UInt8 UInt32)) (text : Str) (out : List UInt32) : Prop :=
  ∃ r out', iconvUtf8ToWchar cd text out = some (r, out') ∧ out'.length = out.length ∧
    out'.drop (maxWchByte / 4 + 1) = out.drop (maxWchByte / 4 + 1) ∧
    (cd = none → r = -1 ∧ out' = out) ∧
    ∀ d, cd = some d →
      ∃ wch, d.Longest (maxWchByte / 4) (cstr text) wch ∧ wch ++ [0] <+: out'

/-- **Every buffer is large enough**: for a text of an entry, for the format of the clock `id`, and
for the date and the time whatever `strftime` leaves. -/
structure TextsFit (cd : Option (Decoder UInt8 UInt32)) (q : Params) (id : ℤ) (text : Str)
    (tm : Tm) : Prop where
  text : ∀ out : List UInt32, out.length = maxWchByte → Converted cd text out
  format : formatBuffer q id ≠ none
  date : ∀ (buffer : List UInt8) (left : ℕ → List UInt8) (result : List UInt32),
    formatBuffer q id = some buffer → (∀ n, (left n).length = n) → result.length = maxWchByte →
      generateDateTime left tm (cstr buffer) cd result ≠ none

/-! ## The conversion -/

section Iconv

variable {cd : Option (Decoder UInt8 UInt32)} {text : Str} {out : List UInt32}

theorem iconvUtf8ToWchar_of_le (d : Decoder UInt8 UInt32) (h : 128 ≤ (cstr text).length) :
    iconvUtf8ToWchar (some d) text out = none := by
  unfold iconvUtf8ToWchar
  cases hentry : write (zeros 128) 0 (cstr text) with
  | none => rfl
  | some entry =>
    -- the text itself fits, and its terminator does not
    have hnone : write entry (cstr text).length [0] = none := by
      rw [write_eq_none_iff, length_write hentry, zeros, List.length_replicate,
        List.length_singleton]
      omega
    simp [hnone]

/-- **A text of less than 128 bytes is converted.** -/
theorem converted_of_lt (hout : out.length = maxWchByte)
    (h : cd = none ∨ (cstr text).length < 128) : Converted cd text out := by
  cases cd with
  | none => exact ⟨-1, out, rfl, rfl, rfl, fun _ => ⟨rfl, rfl⟩, nofun⟩
  | some d =>
    have hlt : (cstr text).length < 128 := h.resolve_left nofun
    have hwch : (d.convert (maxWchByte / 4) (cstr text)).length ≤ 32 := Decoder.length_convert_le
    have hlong := Decoder.longest_convert d (maxWchByte / 4) (cstr text)
    generalize hconvert : d.convert (maxWchByte / 4) (cstr text) = wch at hwch hlong
    have hzeros : (zeros 128).length = 128 := List.length_replicate
    -- none of the four writes leaves its buffer
    obtain ⟨entry, hentry, hentryLen⟩ := exists_write
      (show 0 + (cstr text).length ≤ (zeros 128).length by omega)
    obtain ⟨entry', hentry', -⟩ := exists_write
      (show (cstr text).length + [(0 : UInt8)].length ≤ entry.length by
        rw [List.length_singleton]
        omega)
    unfold maxWchByte at hout
    obtain ⟨out₁, hout₁, hlen₁⟩ := exists_write (show 0 + wch.length ≤ out.length by omega)
    obtain ⟨out₂, hout₂, hlen₂⟩ := exists_write
      (show wch.length + [(0 : UInt32)].length ≤ out₁.length by
        rw [List.length_singleton]
        omega)
    refine ⟨0, out₂, ?_, hlen₂.trans hlen₁, ?_, nofun, ?_⟩
    · simp only [iconvUtf8ToWchar, hentry, hentry', hconvert, hout₁, hout₂, Option.bind_eq_bind,
        Option.bind_some, Option.pure_def]
    · rw [drop_write hout₂, drop_write hout₁]
      · show 0 + wch.length ≤ 33
        omega
      · rw [List.length_singleton]
        show wch.length + 1 ≤ 33
        omega
    · intro d' hd'
      obtain rfl := Option.some.inj hd'
      refine ⟨wch, hlong, ?_⟩
      obtain ⟨-, rfl⟩ := write_zero_eq_some_iff.mp hout₁
      unfold write at hout₂
      split at hout₂
      · rw [← Option.some.inj hout₂, List.take_left]
        exact List.prefix_append _ _
      · cases hout₂

theorem converted_iff (hout : out.length = maxWchByte) :
    Converted cd text out ↔ cd = none ∨ (cstr text).length < 128 := by
  refine ⟨?_, converted_of_lt hout⟩
  rintro ⟨r, out', h, -⟩
  cases cd with
  | none => exact .inl rfl
  | some d =>
    refine .inr (Nat.lt_of_not_le fun hle => ?_)
    rw [iconvUtf8ToWchar_of_le d hle] at h
    cases h

end Iconv

/-! ## The format -/

/-- Strings without a terminator come before the first one. -/
theorem cstr_flatten_append {ss : List Str} {t : Str} (hs : ∀ s ∈ ss, 0 ∉ s) :
    ss.flatMap cstr ++ cstr t = cstr (ss.flatten ++ t) := by
  induction ss with
  | nil => rfl
  | cons s ss ih =>
    obtain ⟨hs, hss⟩ := List.forall_mem_cons.mp hs
    have happend : ∀ u : Str, cstr (s ++ u) = s ++ cstr u := fun u =>
      List.takeWhile_append_of_pos fun c hc => by simpa using fun h0 : c = 0 => hs (h0 ▸ hc)
    rw [List.flatMap_cons, List.append_assoc, ih hss, List.flatten_cons, List.append_assoc,
      happend, cstr_eq_self hs]

theorem zero_notMem_parts (o : Option Str) (enabled : ℤ) :
    ∀ s ∈ timeParts o ++ weekParts enabled, 0 ∉ s := by
  have hliterals : ∀ s ∈ ["12hour", "24hour", " ", "WEEKCN"], 0 ∉ lit s := by decide
  intro s hs
  have hmem : ∃ l ∈ ["12hour", "24hour", " ", "WEEKCN"], s = lit l := by
    rcases List.mem_append.mp hs with hs | hs
    · cases o with
      | none => cases hs
      | some style =>
        rcases List.mem_cons.mp hs with rfl | hs
        · split
          · exact ⟨"12hour", by simp, rfl⟩
          · exact ⟨"24hour", by simp, rfl⟩
        · exact ⟨" ", by simp, List.mem_singleton.mp hs⟩
    · unfold weekParts at hs
      split at hs
      · rcases List.mem_cons.mp hs with rfl | hs
        · exact ⟨"WEEKCN", by simp, rfl⟩
        · exact ⟨" ", by simp, List.mem_singleton.mp hs⟩
      · cases hs
  obtain ⟨l, hl, rfl⟩ := hmem
  exact hliterals l hl

/-- The format in parts. -/
theorem timeFormat_eq (q : Params) (id : ℤ) :
    timeFormat q id = (timeParts (q.string (osdEntry id "time_style") none) ++
      weekParts (q.int (osdEntry id "display_week_enabled") 0)).flatten ++
        (q.string (osdEntry id "date_style") none).getD [] := by
  unfold timeFormat weekParts
  rw [List.flatten_append]
  congr 2
  · cases q.string (osdEntry id "time_style") none <;> rfl
  · split <;> rfl

/-- What is appended is the format. -/
theorem flatMap_formatParts (q : Params) (id : ℤ) :
    (formatParts q id).flatMap cstr = cstr (timeFormat q id) := by
  have hdate : ∀ o : Option Str, o.toList.flatMap cstr = cstr (o.getD []) := by
    rintro (_ | style)
    · rfl
    · exact List.flatMap_singleton ..
  rw [timeFormat_eq, formatParts, List.flatMap_append, hdate]
  exact cstr_flatten_append (zero_notMem_parts _ _)

/-- **The format is put together** if it has less than 128 bytes. -/
theorem formatBuffer_cases (q : Params) (id : ℤ) :
    (128 ≤ (cstr (timeFormat q id)).length ∧ formatBuffer q id = none) ∨
      ∃ buffer, formatBuffer q id = some buffer ∧ Holds buffer (cstr (timeFormat q id)) ∧
        buffer.length = 128 := by
  have hzeros : Holds (zeros 128) [] := ⟨by decide, by decide⟩
  have hsize : (zeros 128).length = 128 := List.length_replicate
  rw [← flatMap_formatParts, ← List.nil_append ((formatParts q id).flatMap cstr), ← hsize]
  exact strcats_cases hzeros

/-! ## The date -/

/-- The date has one year, one month and one day. -/
theorem dateStyle_spec {fmt : Str} {style : Str → Str → Str → Str}
    (h : dateStyle fmt = some style) (y m d : Str) :
    (style y m d).length ≤ y.length + m.length + d.length + 9 ∧
      (0 ∉ y → 0 ∉ m → 0 ∉ d → 0 ∉ style y m d) := by
  have hliterals : ∀ s ∈ ["年", "月", "日", "/", "-"], (lit s).length ≤ 3 ∧ 0 ∉ lit s := by
    decide
  simp only [List.forall_mem_cons] at hliterals
  obtain ⟨⟨hy, hy0⟩, ⟨hm, hm0⟩, ⟨hd, hd0⟩, ⟨hslash, hslash0⟩, ⟨hminus, hminus0⟩, -⟩ := hliterals
  unfold dateStyle at h
  split_ifs at h
  all_goals
    obtain rfl := Option.some.inj h
    simp only [List.length_append, List.mem_append, not_or]
    refine ⟨by omega, fun hyear hmonth hday => ?_⟩
    simp only [hyear, hmonth, hday, hy0, hm0, hd0, hslash0, hminus0, not_false_eq_true, and_self]

section DateTime

variable {left : ℕ → List UInt8} {tm : Tm} {fmt : Str}

theorem zero_notMem_decimal02 (n : ℕ) : 0 ∉ decimal02 n := fun h =>
  absurd (isDigit_of_mem_decimal02 h).1 (by decide)

theorem zero_notMem_year : 0 ∉ tm.year := by
  rw [Tm.year, ← cstr_decimal]
  exact zero_notMem_cstr _

/-- A buffer that holds a string is read. -/
theorem content_sprintf {size : ℕ} {s : Str} (hs : 0 ∉ s) (hlen : s.length < size) :
    (sprintf (zeros size) s).bind content = some s := by
  have hsize : (zeros size).length = size := List.length_replicate
  obtain ⟨field, hfield⟩ : ∃ field, sprintf (zeros size) s = some field :=
    exists_sprintf (by omega)
  rw [hfield]
  exact content_of_holds (holds_of_sprintf hs hfield)

theorem content_strftime {size : ℕ} {s : Str} (hs : 0 ∉ s) (hlen : s.length < size) :
    content (strftime left (zeros size) s) = some s :=
  content_of_holds (holds_strftime hs (by rwa [zeros, List.length_replicate]))

theorem content_zeros {size : ℕ} (hsize : 0 < size) : content (zeros size) = some [] := by
  obtain ⟨n, rfl⟩ := Nat.exists_eq_add_of_lt hsize
  exact content_of_holds ⟨cstr_append_zero List.not_mem_nil, List.mem_cons_self ..⟩

/-- **The hours** fill their buffer at most. -/
theorem content_hmsField (left : ℕ → List UInt8) (tm : Tm) (fmt : Str) :
    ∃ s, content (hmsField left tm fmt) = some s ∧ 0 ∉ s ∧ s.length ≤ 11 := by
  have hcolon : (lit ":").length = 1 ∧ 0 ∉ lit ":" := by decide
  have hhalf : ∀ s ∈ [" AM", " PM"], (lit s).length = 3 ∧ 0 ∉ lit s := by decide
  have hlen : (decimal02 tm.tmHour).length = 2 ∧ (decimal02 tm.tmMin).length = 2 ∧
      (decimal02 tm.tmSec).length = 2 ∧ (decimal02 ((tm.tmHour + 11) % 12 + 1)).length = 2 :=
    ⟨length_decimal02 (by omega), length_decimal02 (by omega), length_decimal02 (by omega),
      length_decimal02 (by omega)⟩
  have hzero := zero_notMem_decimal02
  unfold hmsField
  split_ifs
  · refine ⟨tm.hours, content_strftime ?_ ?_, ?_, ?_⟩ <;>
      simp [Tm.hours, hcolon, hlen, hzero]
  · have hpm : (lit (if (tm.tmHour : ℕ) < 12 then " AM" else " PM")).length = 3 ∧
        0 ∉ lit (if (tm.tmHour : ℕ) < 12 then " AM" else " PM") :=
      hhalf _ (by split <;> simp)
    refine ⟨tm.hours12, content_strftime ?_ ?_, ?_, ?_⟩ <;>
      simp [Tm.hours12, hcolon, hlen, hzero, hpm]
  · exact ⟨[], content_zeros (by omega), List.not_mem_nil, Nat.zero_le _⟩

/-- **The day of the week.** -/
theorem content_weekField (left : ℕ → List UInt8) (tm : Tm) (fmt : Str) :
    ∃ s, (weekField left tm fmt).bind content = some s ∧ 0 ∉ s ∧ s.length ≤ 10 := by
  have hnames : ∀ s ∈ [" 星期一", " 星期二", " 星期三", " 星期四", " 星期五", " 星期六", " 星期日", " 星期*"],
      0 ∉ lit s ∧ (lit s).length ≤ 10 := by decide
  have hdays : ∀ tm : Tm, 0 ∉ tm.weekdayName ∧ tm.weekdayName.length ≤ 9 := by
    have hall : ∀ i : Fin 7, 0 ∉ lit (["Sunday", "Monday", "Tuesday", "Wednesday", "Thursday",
        "Friday", "Saturday"].get i) ∧ (lit (["Sunday", "Monday", "Tuesday", "Wednesday",
          "Thursday", "Friday", "Saturday"].get i)).length ≤ 9 := by decide
    exact fun tm => hall tm.tmWday
  have hspace : (lit " ").length = 1 ∧ 0 ∉ lit " " := by decide
  unfold weekField
  split_ifs
  · have hname := hnames (weekName ((((strftime left (zeros 16) tm.weekday).headD 0).toNat : ℤ) -
      48)) (by unfold weekName; split <;> simp)
    exact ⟨_, content_sprintf hname.1 (by omega), hname⟩
  · obtain ⟨hzero, hlen⟩ := hdays tm
    rw [content_strftime hzero (by omega), Option.bind_some]
    refine ⟨lit " " ++ tm.weekdayName, content_sprintf ?_ ?_, ?_, ?_⟩
    · simp [hspace, hzero]
    · rw [List.length_append]
      omega
    · simp [hspace, hzero]
    · rw [List.length_append]
      omega
  · exact ⟨[], content_zeros (by omega), List.not_mem_nil, Nat.zero_le _⟩

/-- **The date**, with a year that fits its buffer. -/
theorem content_ymdField (left : ℕ → List UInt8)
    (h : dateStyle fmt = none ∨ tm.year.length ≤ 7) :
    ∃ s, (ymdField left tm fmt).bind content = some s ∧ 0 ∉ s ∧ s.length ≤ 20 := by
  unfold ymdField
  cases hstyle : dateStyle fmt with
  | none => exact ⟨[], content_zeros (by omega), List.not_mem_nil, Nat.zero_le _⟩
  | some style =>
    have hyear : tm.year.length ≤ 7 := h.resolve_left (by simp [hstyle])
    have hmonth : (decimal02 (tm.tmMon + 1)).length = 2 := length_decimal02 (by omega)
    have hday : (decimal02 tm.tmMday).length = 2 := length_decimal02 (by omega)
    have hspec := dateStyle_spec hstyle tm.year (decimal02 (tm.tmMon + 1)) (decimal02 tm.tmMday)
    have hzero := hspec.2 zero_notMem_year (zero_notMem_decimal02 _) (zero_notMem_decimal02 _)
    refine ⟨_, ?_, hzero, by omega⟩
    simp only [content_strftime zero_notMem_year (show tm.year.length < 8 by omega),
      content_strftime (zero_notMem_decimal02 (tm.tmMon + 1)) (show _ < 4 by omega),
      content_strftime (zero_notMem_decimal02 tm.tmMday) (show _ < 4 by omega),
      Option.bind_eq_bind, Option.bind_some]
    exact content_sprintf hzero (by omega)

/-- A year that does not fit may leave no string. -/
theorem ymdField_of_lt {style : Str → Str → Str → Str} (hstyle : dateStyle fmt = some style)
    (hyear : 7 < tm.year.length) :
    ymdField (fun n => List.replicate n 65) tm fmt = none := by
  have hnone : content (strftime (fun n => List.replicate n 65) (zeros 8) tm.year) = none := by
    rw [strftime_of_le (by rwa [zeros, List.length_replicate])]
    rfl
  simp only [ymdField, hstyle, hnone, Option.bind_eq_bind, Option.bind_none]

/-- **The date and the time are printed**, if the year fits its buffer. -/
theorem generateDateTime_ne_none {cd : Option (Decoder UInt8 UInt32)} {result : List UInt32}
    (hresult : result.length = maxWchByte) (h : dateStyle fmt = none ∨ tm.year.length ≤ 7) :
    generateDateTime left tm fmt cd result ≠ none := by
  obtain ⟨week, hweek, hweek0, hweekLen⟩ := content_weekField left tm fmt
  obtain ⟨ymd, hymd, hymd0, hymdLen⟩ := content_ymdField left h
  obtain ⟨hms, hhms, hhms0, hhmsLen⟩ := content_hmsField left tm fmt
  have hspace : (lit " ").length = 1 ∧ 0 ∉ lit " " := by decide
  have hlen : (ymd ++ week ++ lit " " ++ hms).length < 128 := by
    simp only [List.length_append]
    omega
  have hzero : 0 ∉ ymd ++ week ++ lit " " ++ hms := by
    simp only [List.mem_append, not_or]
    exact ⟨⟨⟨hymd0, hweek0⟩, hspace.2⟩, hhms0⟩
  have htake : (ymd ++ week ++ lit " " ++ hms).take (maxWchByte - 1) =
      ymd ++ week ++ lit " " ++ hms := List.take_of_length_le (Nat.le_of_lt_succ hlen)
  obtain ⟨time, htime⟩ : ∃ time,
      sprintf (zeros maxWchByte) (ymd ++ week ++ lit " " ++ hms) = some time :=
    exists_sprintf (by rwa [zeros, List.length_replicate])
  have hconverted : Converted cd (ymd ++ week ++ lit " " ++ hms) result :=
    converted_of_lt hresult (.inr (by rwa [cstr_eq_self hzero]))
  obtain ⟨r, out, hiconv, -⟩ := hconverted
  simp only [generateDateTime, hweek, hymd, hhms, htake, htime,
    content_of_holds (holds_of_sprintf hzero htime), hiconv, Option.bind_eq_bind,
    Option.bind_some, Option.pure_def, ne_eq, reduceCtorEq, not_false_eq_true]

end DateTime

/-! ## All buffers -/

variable {cd : Option (Decoder UInt8 UInt32)} {q : Params} {id : ℤ} {text : Str} {tm : Tm}

/-- **Every buffer is large enough** if and only if the text has less than 128 bytes, or there is no
conversion, the format has less than 128 bytes, and the year has seven characters at most, or there
is no date. -/
theorem textsFit_iff : TextsFit cd q id text tm ↔
    (cd = none ∨ (cstr text).length < 128) ∧ (cstr (timeFormat q id)).length < 128 ∧
      (dateStyle (cstr (timeFormat q id)) = none ∨ tm.year.length ≤ 7) := by
  constructor
  · rintro ⟨htext, hformat, hdate⟩
    obtain ⟨-, h⟩ | ⟨buffer, hbuffer, hholds, hlen⟩ := formatBuffer_cases q id
    · exact absurd h hformat
    refine ⟨(converted_iff List.length_replicate).mp (htext (List.replicate maxWchByte 0)
      List.length_replicate), hlen ▸ length_lt_of_holds hholds, ?_⟩
    cases hstyle : dateStyle (cstr (timeFormat q id)) with
    | none => exact .inl rfl
    | some style =>
      refine .inr (Nat.le_of_not_lt fun hyear => ?_)
      have h := hdate buffer (fun n => List.replicate n 65) (List.replicate maxWchByte 0) hbuffer
        (fun n => List.length_replicate) List.length_replicate
      rw [hholds.1] at h
      refine h ?_
      simp only [generateDateTime, ymdField_of_lt hstyle hyear, Option.bind_eq_bind,
        Option.bind_none]
      cases (weekField (fun n => List.replicate n 65) tm (cstr (timeFormat q id))).bind content <;>
        rfl
  · rintro ⟨htext, hformat, hdate⟩
    obtain ⟨h, -⟩ | ⟨buffer, hbuffer, hholds, -⟩ := formatBuffer_cases q id
    · omega
    refine ⟨fun out hout => converted_of_lt hout htext, by simp [hbuffer], ?_⟩
    intro buffer' left result hbuffer' _ hresult
    obtain rfl := Option.some.inj (hbuffer.symm.trans hbuffer')
    rw [hholds.1]
    exact generateDateTime_ne_none hresult hdate

/-- A store without entries. -/
def emptyStore : Store where
  file := none
  iniD := .live dictionaryNew

/-- **A text of 128 bytes overflows**: its terminator is written behind `entry[128]`. -/
theorem long_text_overflows : ∃ p,
    rkParamSetString emptyStore (osdEntry 0 "display_text") (some (List.replicate 128 65)) =
      some p ∧
    (params p).string (osdEntry 0 "display_text") none = some (List.replicate 128 65) ∧
    ∀ tm, ¬ TextsFit (some utf8) (params p) 0 (List.replicate 128 65) tm := by
  have hset : (rkParamSetString emptyStore (osdEntry 0 "display_text")
      (some (List.replicate 128 65))).map
        (fun p => (params p).string (osdEntry 0 "display_text") none) =
          some (some (List.replicate 128 65)) := by
    decide +kernel
  obtain ⟨p, hp, hstring⟩ := Option.map_eq_some_iff.mp hset
  refine ⟨p, hp, hstring, fun tm hfit => ?_⟩
  obtain ⟨r, out, h, -⟩ := hfit.text (List.replicate maxWchByte 0) List.length_replicate
  rw [iconvUtf8ToWchar_of_le utf8 (by decide +kernel)] at h
  cases h

end RkIpc.Osd
