/-
# What the driver of a process keeps of its streams

The log of a run tells what the provider accepted, acknowledged and delivered.  The provider
is assumed to deliver one completion for a submission that it accepted and none besides.
Then at most one request of a stream is in flight, what was acknowledged of the input is
what the driver takes as written, and what was captured is what was delivered, up to the
capacity.
-/

import Praktor.Process.ProcessDriver
import Praktor.Math.Interaction
import Mathlib.Data.List.TakeWhile

namespace Praktor.Process

open Praktor.Data Praktor.Math

/-! ## What a log tells -/

namespace DriverEvent

/-- An accepted submission on a stream. -/
def isAccepted (stream : ProcessStream) : DriverEvent → Bool
  | accepted other _ => decide (other = stream)
  | _ => false

/-- A completion on a stream. -/
def isCompleted (stream : ProcessStream) : DriverEvent → Bool
  | completed event _ => decide (event.stream = some stream)
  | _ => false

/-- A line that was handed to the callback. -/
def isEmitted : DriverEvent → Bool
  | emitted _ _ _ => true
  | _ => false

/-- Something the driver notes that is no matter between it and the provider. -/
def isRemark : DriverEvent → Bool
  | emitted _ _ _ | flushing _ _ | failure _ => true
  | _ => false

/-- The buffer of an accepted write. -/
def inputBuffer : DriverEvent → Option Bytes
  | accepted .stdin buffer => some buffer
  | _ => none

/-- What a completion delivers on an output; a read does not hold more than its buffer. -/
def delivered (index : Fin 2) : DriverEvent → Bytes
  | completed event _ =>
      if event.stream = some (outputStream index) ∧ event.kind = .ok ∧ event.data.length ≤ 4096 then
        event.data
      else
        []
  | _ => []

/-- What a completion acknowledges of the buffer of the write it is for. -/
def acknowledged (buffer : Bytes) : DriverEvent → Bytes
  | completed event _ =>
      if event.stream = some .stdin ∧ event.kind = .ok ∧ event.bytes ≤ buffer.length then
        buffer.take event.bytes
      else
        []
  | _ => []

/-- A completion that reports the end of the input or a broken pipe. -/
def endsInput (peerClosed : Int → Bool) : DriverEvent → Bool
  | completed event _ =>
      decide (event.stream = some .stdin) &&
        (decide (event.kind = .eof) || decide (event.kind = .failed) && peerClosed event.error)
  | _ => false

end DriverEvent

/-- The requests of a stream that are in flight. -/
def inFlight (stream : ProcessStream) (log : List DriverEvent) : Nat :=
  log.countP (DriverEvent.isAccepted stream) - log.countP (DriverEvent.isCompleted stream)

/-- What is in the log before the driver starts to close. -/
def openPart (log : List DriverEvent) : List DriverEvent :=
  log.takeWhile fun event => decide (event ≠ .closing)

/-- The bytes delivered on an output. -/
def deliveredOn (index : Fin 2) (log : List DriverEvent) : Bytes :=
  log.flatMap (DriverEvent.delivered index)

/-- The bytes acknowledged, given the buffer of the write in flight. -/
def acknowledgedFrom : Bytes → List DriverEvent → Bytes
  | _, [] => []
  | buffer, event :: rest =>
      event.acknowledged buffer ++ acknowledgedFrom (event.inputBuffer.getD buffer) rest

/-- The bytes of the input that the provider acknowledged. -/
def acknowledgedBytes (log : List DriverEvent) : Bytes := acknowledgedFrom [] log

/-- A completion is for a submission that was accepted and had none yet. -/
def Provided (before : List DriverEvent) : DriverEvent → Prop
  | .completed event _ =>
      ∃ stream, event.stream = some stream ∧
        before.countP (DriverEvent.isCompleted stream) < before.countP (DriverEvent.isAccepted stream)
  | _ => True

/-- The provider delivers one completion for an accepted submission and none besides. -/
def OneCompletion (log : List DriverEvent) : Prop := Justified Provided log

/-- A submission is accepted on a stream that has none in flight. -/
def SubmittedIdle (before : List DriverEvent) (event : DriverEvent) : Prop :=
  ∀ stream, event.isAccepted stream = true →
    before.countP (DriverEvent.isAccepted stream) = before.countP (DriverEvent.isCompleted stream)

section Logs

variable {log : List DriverEvent}

theorem openPart_of_open (hopen : .closing ∉ log) : openPart log = log := by
  apply List.takeWhile_eq_self_iff.mpr
  intro event hevent
  exact decide_eq_true fun hclosing => hopen (hclosing ▸ hevent)

/-- Closing ends the open part for good. -/
theorem openPart_append_of_closed (hclosed : .closing ∈ log) (tail : List DriverEvent) :
    openPart (log ++ tail) = openPart log := by
  induction log with
  | nil => simp at hclosed
  | cons first rest ih =>
      by_cases hfirst : first = .closing
      · simp [openPart, hfirst]
      · have hrest : .closing ∈ rest := (List.mem_cons.mp hclosed).resolve_left (Ne.symm hfirst)
        have hstep : ∀ others, openPart (first :: others) = first :: openPart others := by
          intro others
          simp [openPart, hfirst]
        rw [List.cons_append, hstep, hstep, ih hrest]

theorem openPart_append_of_open (hopen : .closing ∉ log) {tail : List DriverEvent}
    (htail : .closing ∉ tail) : openPart (log ++ tail) = openPart log ++ tail := by
  rw [openPart_of_open hopen]
  apply openPart_of_open
  intro hmem
  exact (List.mem_append.mp hmem).elim hopen htail

theorem openPart_closing (log : List DriverEvent) :
    openPart (log ++ [.closing]) = openPart log := by
  by_cases hclosed : DriverEvent.closing ∈ log
  · exact openPart_append_of_closed hclosed _
  · rw [openPart_of_open hclosed]
    unfold openPart
    rw [List.takeWhile_append_of_pos]
    · simp
    · intro event hevent
      exact decide_eq_true fun hequal => hclosed (hequal ▸ hevent)

theorem deliveredOn_append (index : Fin 2) (tail : List DriverEvent) :
    deliveredOn index (log ++ tail) = deliveredOn index log ++ deliveredOn index tail :=
  List.flatMap_append

/-- The buffer of the latest write. -/
def lastBuffer (log : List DriverEvent) : Bytes :=
  (latest DriverEvent.inputBuffer log).getD []

theorem acknowledgedFrom_append (buffer : Bytes) (tail : List DriverEvent) :
    acknowledgedFrom buffer (log ++ tail) =
      acknowledgedFrom buffer log ++
        acknowledgedFrom ((latest DriverEvent.inputBuffer log).getD buffer) tail := by
  induction log generalizing buffer with
  | nil => rfl
  | cons first rest ih =>
      have hlatest : (latest DriverEvent.inputBuffer (first :: rest)).getD buffer =
          (latest DriverEvent.inputBuffer rest).getD (first.inputBuffer.getD buffer) := by
        rw [← List.singleton_append, latest_append]
        cases latest DriverEvent.inputBuffer rest with
        | some value => rfl
        | none => simp [latest]
      rw [List.cons_append, acknowledgedFrom, acknowledgedFrom, ih, List.append_assoc, hlatest]

theorem acknowledgedBytes_append (tail : List DriverEvent) :
    acknowledgedBytes (log ++ tail) =
      acknowledgedBytes log ++ acknowledgedFrom (lastBuffer log) tail :=
  acknowledgedFrom_append [] tail

/-! ### Remarks -/

variable {tail : List DriverEvent}

theorem countP_remarks {kind : DriverEvent → Bool}
    (hkind : ∀ event, event.isRemark = true → kind event = false)
    (htail : ∀ event ∈ tail, event.isRemark = true) :
    (log ++ tail).countP kind = log.countP kind := by
  have hnone : tail.countP kind = 0 :=
    List.countP_eq_zero.mpr fun event hevent => by simp [hkind event (htail event hevent)]
  rw [List.countP_append, hnone, Nat.add_zero]

theorem isAccepted_remark (stream : ProcessStream) (event : DriverEvent)
    (hremark : event.isRemark = true) : event.isAccepted stream = false := by
  cases event <;> simp [DriverEvent.isRemark, DriverEvent.isAccepted] at hremark ⊢

theorem isCompleted_remark (stream : ProcessStream) (event : DriverEvent)
    (hremark : event.isRemark = true) : event.isCompleted stream = false := by
  cases event <;> simp [DriverEvent.isRemark, DriverEvent.isCompleted] at hremark ⊢

theorem lastBuffer_remarks (htail : ∀ event ∈ tail, event.isRemark = true) :
    lastBuffer (log ++ tail) = lastBuffer log := by
  have hnone : latest DriverEvent.inputBuffer tail = none := by
    apply List.findSome?_eq_none_iff.mpr
    intro event hevent
    have hremark := htail event (List.mem_reverse.mp hevent)
    cases event <;> simp [DriverEvent.isRemark, DriverEvent.inputBuffer] at hremark ⊢
  unfold lastBuffer
  rw [latest_append, hnone, Option.none_or]

theorem closing_notMem_remarks (htail : ∀ event ∈ tail, event.isRemark = true) :
    .closing ∉ tail := by
  intro hmem
  have hremark := htail _ hmem
  simp [DriverEvent.isRemark] at hremark

/-- Events of which none is an accepted submission. -/
theorem submittedIdle_append (hidle : Justified SubmittedIdle log)
    (htail : ∀ event ∈ tail, ∀ stream, event.isAccepted stream = false) :
    Justified SubmittedIdle (log ++ tail) :=
  hidle.append fun event hevent before stream haccepted => by
    simp [htail event hevent stream] at haccepted

/-- Where submissions are accepted on idle streams only, there is one in flight at most. -/
theorem inFlight_le_one (hidle : Justified SubmittedIdle log) (stream : ProcessStream) :
    inFlight stream log ≤ 1 := by
  induction log using List.reverseRecOn with
  | nil => exact Nat.zero_le _
  | append_singleton before event ih =>
      have hbefore := ih hidle.init
      unfold inFlight at hbefore ⊢
      rw [List.countP_append, List.countP_append, List.countP_singleton, List.countP_singleton]
      split
      · rename_i haccepted
        have hequal := hidle before event [] rfl stream haccepted
        omega
      · omega

/-! ### Content -/

/-- An event that tells nothing about the content of a stream. -/
def DriverEvent.Inert (event : DriverEvent) : Prop :=
  (∀ index, event.delivered index = []) ∧ (∀ buffer, event.acknowledged buffer = []) ∧
    event ≠ .closing

theorem inert_remark {event : DriverEvent} (hremark : event.isRemark = true) : event.Inert := by
  cases event <;>
    simp [DriverEvent.isRemark, DriverEvent.Inert, DriverEvent.delivered,
      DriverEvent.acknowledged] at hremark ⊢

theorem inert_accepted (stream : ProcessStream) (buffer : Bytes) :
    (DriverEvent.accepted stream buffer).Inert :=
  ⟨fun _ => rfl, fun _ => rfl, by simp⟩

/-- Two logs that tell the same about the content of the streams. -/
structure ContentSame (peerClosed : Int → Bool) (before after : List DriverEvent) : Prop where
  delivered : ∀ index, deliveredOn index (openPart after) = deliveredOn index (openPart before)
  acknowledged : acknowledgedBytes (openPart after) = acknowledgedBytes (openPart before)
  ends : (∀ event ∈ openPart after, event.endsInput peerClosed = false) →
    ∀ event ∈ openPart before, event.endsInput peerClosed = false
  closing : .closing ∈ after ↔ .closing ∈ before

theorem acknowledgedFrom_inert (htail : ∀ event ∈ tail, event.Inert) :
    ∀ buffer, acknowledgedFrom buffer tail = [] := by
  induction tail with
  | nil => exact fun _ => rfl
  | cons event rest ih =>
      intro buffer
      rw [acknowledgedFrom, (htail event List.mem_cons_self).2.1, List.nil_append,
        ih fun later hlater => htail later (List.mem_cons_of_mem _ hlater)]

theorem contentSame_inert (peerClosed : Int → Bool) (htail : ∀ event ∈ tail, event.Inert) :
    ContentSame peerClosed log (log ++ tail) := by
  have hnotMem : .closing ∉ tail := fun hmem => (htail _ hmem).2.2 rfl
  have hclosing : DriverEvent.closing ∈ log ++ tail ↔ .closing ∈ log := by
    rw [List.mem_append]
    exact or_iff_left hnotMem
  by_cases hclosed : .closing ∈ log
  · have hopen := openPart_append_of_closed hclosed tail
    exact ⟨fun index => by rw [hopen], by rw [hopen], by rw [hopen]; exact id, hclosing⟩
  · have hopen := openPart_append_of_open hclosed hnotMem
    refine ⟨fun index => ?_, ?_, fun hends event hevent => ?_, hclosing⟩
    · have hnone : deliveredOn index tail = [] :=
        List.flatMap_eq_nil_iff.mpr fun event hevent => (htail event hevent).1 index
      rw [hopen, deliveredOn_append, hnone, List.append_nil]
    · rw [hopen, acknowledgedBytes_append, acknowledgedFrom_inert htail, List.append_nil]
    · rw [hopen] at hends
      exact hends event (List.mem_append_left _ hevent)

/-- Once closing has begun nothing that is no closing tells anything more. -/
theorem contentSame_closed (peerClosed : Int → Bool) (hclosed : .closing ∈ log)
    (tail : List DriverEvent) : ContentSame peerClosed log (log ++ tail) := by
  have hopen := openPart_append_of_closed hclosed tail
  exact ⟨fun index => by rw [hopen], by rw [hopen], by rw [hopen]; exact id,
    by simp [hclosed]⟩

end Logs

/-! ## The invariant -/

section Invariant

variable (peerClosed : Int → Bool)

/-- What the driver knows of its requests agrees with the log. -/
structure FlightSound (driver : DriverState) : Prop where
  input : driver.log.countP (DriverEvent.isAccepted .stdin) =
    driver.log.countP (DriverEvent.isCompleted .stdin) + driver.inputPending.toNat
  reads : ∀ index, driver.log.countP (DriverEvent.isAccepted (outputStream index)) =
    driver.log.countP (DriverEvent.isCompleted (outputStream index)) + (driver.pending index).toNat
  chunk : driver.inputPending = true → driver.inputBuffer <+: driver.input.drop driver.inputOffset
  buffer : driver.inputPending = true → lastBuffer driver.log = driver.inputBuffer
  idle : Justified SubmittedIdle driver.log

/-- What the driver knows of its streams agrees with the log. -/
structure StreamsSound (driver : DriverState) : Prop where
  offset : driver.inputOffset ≤ driver.input.length
  acknowledged : (∀ event ∈ openPart driver.log, event.endsInput peerClosed = false) →
    acknowledgedBytes (openPart driver.log) = driver.input.take driver.inputOffset
  room : (driver.output 0).length + (driver.output 1).length ≤ driver.capacity
  captured : ∀ index, driver.output index <+: deliveredOn index (openPart driver.log)
  kept : driver.limited = false →
    ∀ index, driver.output index = deliveredOn index (openPart driver.log)
  dropped : driver.limited = true →
    (driver.output 0).length + (driver.output 1).length = driver.capacity ∧
      ∃ index, (driver.output index).length < (deliveredOn index (openPart driver.log)).length
  closing : driver.closing = true ↔ .closing ∈ driver.log

/-- No line is handed over once closing has begun. -/
structure QuietSound (driver : DriverState) : Prop where
  silent : driver.closing = true → driver.emits = false
  quiet : Justified (fun before event => event.isEmitted = true → .closing ∉ before) driver.log

/-- What the driver knows agrees with the log. -/
structure DriverSound (driver : DriverState) : Prop where
  flight : FlightSound driver
  streams : StreamsSound peerClosed driver
  quiet : QuietSound driver

/-- The streams are as they were. -/
structure SameStreams (before after : DriverState) : Prop where
  input : after.input = before.input
  inputOffset : after.inputOffset = before.inputOffset
  capacity : after.capacity = before.capacity
  output : after.output = before.output
  limited : after.limited = before.limited
  closing : after.closing = before.closing
  emits : after.emits = before.emits

/-- Only remarks were logged, and nothing was changed that is about the requests and the
streams. -/
structure Remarked (before after : DriverState) : Prop extends SameStreams before after where
  log : ∃ tail, after.log = before.log ++ tail ∧ (∀ event ∈ tail, event.isRemark = true) ∧
    (before.closing = true → ∀ event ∈ tail, event.isEmitted = false)
  inputPending : after.inputPending = before.inputPending
  inputBuffer : after.inputBuffer = before.inputBuffer
  pending : after.pending = before.pending
  done : after.done = before.done
  failed : before.failed = true → after.failed = true

/-- What is logged stays logged, and what is marked stays marked. -/
structure Advances (before after : DriverState) : Prop where
  log : before.log <+: after.log
  closing : after.closing = before.closing
  done : after.done = before.done
  failed : before.failed = true → after.failed = true
  limited : before.limited = true → after.limited = true

variable {peerClosed}

theorem SameStreams.trans {first second third : DriverState} (hfirst : SameStreams first second)
    (hsecond : SameStreams second third) : SameStreams first third :=
  ⟨hsecond.input.trans hfirst.input, hsecond.inputOffset.trans hfirst.inputOffset,
    hsecond.capacity.trans hfirst.capacity, hsecond.output.trans hfirst.output,
    hsecond.limited.trans hfirst.limited, hsecond.closing.trans hfirst.closing,
    hsecond.emits.trans hfirst.emits⟩

/-- Streams that are as they were agree with a log that tells the same of them. -/
theorem StreamsSound.same {before after : DriverState} (hsound : StreamsSound peerClosed before)
    (hsame : SameStreams before after) (hcontent : ContentSame peerClosed before.log after.log) :
    StreamsSound peerClosed after := by
  constructor
  · rw [hsame.inputOffset, hsame.input]
    exact hsound.offset
  · intro hends
    rw [hcontent.acknowledged, hsame.input, hsame.inputOffset]
    exact hsound.acknowledged (hcontent.ends hends)
  · rw [hsame.output, hsame.capacity]
    exact hsound.room
  · intro index
    rw [hsame.output, hcontent.delivered]
    exact hsound.captured index
  · intro hlimited index
    rw [hsame.output, hcontent.delivered]
    exact hsound.kept (hsame.limited ▸ hlimited) index
  · intro hlimited
    rw [hsame.output, hsame.capacity]
    simp only [hcontent.delivered]
    exact hsound.dropped (hsame.limited ▸ hlimited)
  · rw [hsame.closing, hcontent.closing]
    exact hsound.closing

/-- More events of which none is a line after closing. -/
theorem QuietSound.extend {before after : DriverState} (hquiet : QuietSound before)
    (hclosing : before.closing = true ↔ .closing ∈ before.log)
    (hsame : after.closing = before.closing) (hemits : after.emits = before.emits)
    {tail : List DriverEvent} (hlog : after.log = before.log ++ tail)
    (hnone : .closing ∉ tail)
    (htail : before.closing = true → ∀ event ∈ tail, event.isEmitted = false) :
    QuietSound after := by
  refine ⟨by rw [hsame, hemits]; exact hquiet.silent, ?_⟩
  rw [hlog]
  apply hquiet.quiet.extend
  intro earlier event later hsplit hemitted hclosed
  have hevent : event ∈ tail := by simp [hsplit]
  rcases List.mem_append.mp hclosed with hbefore | hearlier
  · exact absurd hemitted (by simp [htail (hclosing.mpr hbefore) event hevent])
  · exact hnone (by simp [hsplit, hearlier])

namespace Remarked

variable {first second third : DriverState}

theorem refl (driver : DriverState) : Remarked driver driver :=
  ⟨⟨rfl, rfl, rfl, rfl, rfl, rfl, rfl⟩, ⟨[], by simp, by simp, by simp⟩, rfl, rfl, rfl, rfl, id⟩

theorem trans (hfirst : Remarked first second) (hsecond : Remarked second third) :
    Remarked first third := by
  obtain ⟨tail, hlog, hremarks, hquiet⟩ := hfirst.log
  obtain ⟨rest, hrest, hremarksRest, hquietRest⟩ := hsecond.log
  refine ⟨hfirst.toSameStreams.trans hsecond.toSameStreams, ⟨tail ++ rest, ?_, ?_, ?_⟩,
    hsecond.inputPending.trans hfirst.inputPending, hsecond.inputBuffer.trans hfirst.inputBuffer,
    hsecond.pending.trans hfirst.pending, hsecond.done.trans hfirst.done,
    fun hfailed => hsecond.failed (hfirst.failed hfailed)⟩
  · rw [hrest, hlog, List.append_assoc]
  · intro event hevent
    exact (List.mem_append.mp hevent).elim (hremarks event) (hremarksRest event)
  · intro hclosing event hevent
    rcases List.mem_append.mp hevent with hevent | hevent
    · exact hquiet hclosing event hevent
    · exact hquietRest (hfirst.closing.trans hclosing) event hevent

/-- One remark. -/
theorem saw (driver : DriverState) (event : DriverEvent) (hremark : event.isRemark = true)
    (hquiet : driver.closing = true → event.isEmitted = false) :
    Remarked driver (driver.saw event) :=
  ⟨⟨rfl, rfl, rfl, rfl, rfl, rfl, rfl⟩, ⟨[event], rfl, by simpa using hremark, by simpa using hquiet⟩,
    rfl, rfl, rfl, rfl, id⟩

/-- Another state that has the same requests, streams and log. -/
theorem same {first second : DriverState} (hsame : SameStreams first second)
    (hlog : second.log = first.log) (hinput : second.inputPending = first.inputPending)
    (hbuffer : second.inputBuffer = first.inputBuffer) (hpending : second.pending = first.pending)
    (hdone : second.done = first.done) (hfailed : first.failed = true → second.failed = true) :
    Remarked first second :=
  ⟨hsame, ⟨[], by simp [hlog], by simp, by simp⟩, hinput, hbuffer, hpending, hdone, hfailed⟩

theorem advances (hremarked : Remarked first second) : Advances first second := by
  obtain ⟨tail, hlog, -⟩ := hremarked.log
  refine ⟨?_, hremarked.closing, hremarked.done, hremarked.failed, fun hlimited => ?_⟩
  · rw [hlog]
    exact List.prefix_append _ _
  · rw [hremarked.limited]
    exact hlimited

theorem relined (driver : DriverState) (line : Fin 2 → Bytes) :
    Remarked driver { driver with line } :=
  .same ⟨rfl, rfl, rfl, rfl, rfl, rfl, rfl⟩ rfl rfl rfl rfl rfl id

theorem ended (driver : DriverState) (eof : Fin 2 → Bool) : Remarked driver { driver with eof } :=
  .same ⟨rfl, rfl, rfl, rfl, rfl, rfl, rfl⟩ rfl rfl rfl rfl rfl id

/-- Remarks on a state that is marked as limited. -/
theorem limit (hremarked : Remarked first second) (error : Option DriverError) :
    Remarked { first with limited := true } { second with limited := true, error } :=
  ⟨⟨hremarked.input, hremarked.inputOffset, hremarked.capacity, hremarked.output, rfl,
      hremarked.closing, hremarked.emits⟩, hremarked.log, hremarked.inputPending,
    hremarked.inputBuffer, hremarked.pending, hremarked.done, hremarked.failed⟩

theorem fail (driver : DriverState) (operation : String) (status : FailureStatus) :
    Remarked driver (driver.fail operation status) :=
  ⟨⟨rfl, rfl, rfl, rfl, rfl, rfl, rfl⟩,
    ⟨[.failure operation], rfl, by simp [DriverEvent.isRemark], by simp [DriverEvent.isEmitted]⟩,
    rfl, rfl, rfl, rfl, fun _ => rfl⟩

end Remarked

/-- Remarks change nothing about the streams. -/
theorem DriverSound.remarked {before after : DriverState} (hsound : DriverSound peerClosed before)
    (hremarked : Remarked before after) : DriverSound peerClosed after := by
  obtain ⟨tail, hlog, hremarks, hquiet⟩ := hremarked.log
  refine ⟨⟨?_, fun index => ?_, ?_, ?_, ?_⟩, ?_, ?_⟩
  · rw [hlog, countP_remarks (isAccepted_remark _) hremarks,
      countP_remarks (isCompleted_remark _) hremarks, hremarked.inputPending]
    exact hsound.flight.input
  · rw [hlog, countP_remarks (isAccepted_remark _) hremarks,
      countP_remarks (isCompleted_remark _) hremarks, hremarked.pending]
    exact hsound.flight.reads index
  · rw [hremarked.inputPending, hremarked.inputBuffer, hremarked.input, hremarked.inputOffset]
    exact hsound.flight.chunk
  · rw [hremarked.inputPending, hremarked.inputBuffer, hlog, lastBuffer_remarks hremarks]
    exact hsound.flight.buffer
  · rw [hlog]
    exact submittedIdle_append hsound.flight.idle fun event hevent stream =>
      isAccepted_remark stream event (hremarks event hevent)
  · apply hsound.streams.same hremarked.toSameStreams
    rw [hlog]
    exact contentSame_inert peerClosed fun event hevent => inert_remark (hremarks event hevent)
  · exact hsound.quiet.extend hsound.streams.closing hremarked.closing hremarked.emits hlog
      (closing_notMem_remarks hremarks) hquiet

end Invariant

/-! ## Steps -/

section Steps

variable {callback : List DriverEvent → Bytes → Salts} {peerClosed : Int → Bool}
  {driver : DriverState}

variable (callback) in
/-- Handing over the bytes of a read is a matter of remarks. -/
theorem emitBytes_remarked (index : Fin 2) (bytes : Bytes) :
    ∀ driver : DriverState, driver.closing = false →
      Remarked driver (emitBytes callback index bytes driver) := by
  induction bytes with
  | nil => exact fun driver _ => .refl driver
  | cons byte rest ih =>
      intro driver hopen
      have hline : ∀ (next : DriverState) line, next.closing = false → Remarked driver next →
          Remarked driver (emitBytes callback index rest { next with line }) :=
        fun next line hnext hremarked =>
          hremarked.trans ((Remarked.relined next line).trans (ih { next with line } hnext))
      rw [emitBytes]
      split
      · exact ih driver hopen
      split
      · have hsaw := Remarked.saw driver
          (.emitted index (driver.line index) (callback driver.log (driver.line index))) rfl
          (by simp [hopen])
        dsimp only
        split
        · exact hsaw.trans (.fail _ _ _)
        · exact hline _ _ hopen hsaw
      split
      · exact .fail _ _ _
      · exact hline driver _ hopen (.refl driver)

variable (callback) in
theorem flush_remarked (index : Fin 2) (hopen : driver.closing = false) :
    Remarked driver (flush callback index driver) := by
  unfold flush
  dsimp only
  have hflushing := Remarked.saw driver (.flushing index (driver.line index)) rfl (fun _ => rfl)
  generalize hnext : driver.saw (.flushing index (driver.line index)) = next at hflushing ⊢
  have hnextOpen : next.closing = false := hflushing.closing.trans hopen
  split
  · exact hflushing.trans (.relined _ _)
  · have hemitted := hflushing.trans (Remarked.saw next
      (.emitted index (driver.line index) (callback next.log (driver.line index))) rfl
      (by simp [hnextOpen]))
    split
    · exact (hemitted.trans (.fail _ _ _)).trans (.relined _ _)
    · exact hemitted.trans (.relined _ _)

/-! ### Submissions -/

theorem outputStream_ne_stdin : ∀ index, outputStream index ≠ .stdin := by
  decide

theorem outputStream_inj : ∀ {first second : Fin 2},
    outputStream first = outputStream second ↔ first = second := by
  decide

/-- The counts of a log with an accepted submission more. -/
theorem countP_accepted (log : List DriverEvent) (stream other : ProcessStream) (buffer : Bytes) :
    (log ++ [DriverEvent.accepted stream buffer]).countP (DriverEvent.isAccepted other) =
        log.countP (DriverEvent.isAccepted other) + (if stream = other then 1 else 0) ∧
      (log ++ [DriverEvent.accepted stream buffer]).countP (DriverEvent.isCompleted other) =
        log.countP (DriverEvent.isCompleted other) := by
  constructor
  · rw [List.countP_append, List.countP_singleton]
    simp [DriverEvent.isAccepted]
  · rw [List.countP_append, List.countP_singleton]
    simp [DriverEvent.isCompleted]

/-- The counts of a log with a completion more. -/
theorem countP_completed (log : List DriverEvent) (event : Completion) (room : Nat)
    (stream other : ProcessStream) (hstream : event.stream = some stream) :
    (log ++ [DriverEvent.completed event room]).countP (DriverEvent.isAccepted other) =
        log.countP (DriverEvent.isAccepted other) ∧
      (log ++ [DriverEvent.completed event room]).countP (DriverEvent.isCompleted other) =
        log.countP (DriverEvent.isCompleted other) + (if stream = other then 1 else 0) := by
  constructor
  · rw [List.countP_append, List.countP_singleton]
    simp [DriverEvent.isAccepted]
  · rw [List.countP_append, List.countP_singleton]
    simp [DriverEvent.isCompleted, hstream]

theorem submitRead_sound (status : SubmitStatus) (index : Fin 2)
    (hsound : DriverSound peerClosed driver) :
    DriverSound peerClosed (submitRead status index driver) := by
  unfold submitRead
  split
  · exact hsound
  rename_i hidle
  cases status with
  | full => exact hsound
  | leaseInUse => exact hsound
  | refused code => exact hsound.remarked (.fail _ _ _)
  | accepted =>
      have hpending : driver.pending index = false := by
        simp only [Bool.or_eq_true, not_or, Bool.not_eq_true] at hidle
        exact hidle.1
      have hcounts := countP_accepted driver.log (outputStream index)
      refine ⟨⟨?_, fun other => ?_, hsound.flight.chunk, ?_, ?_⟩, ?_, ?_⟩
      · obtain ⟨haccepted, hcompleted⟩ := hcounts .stdin []
        change (driver.log ++ _).countP _ = (driver.log ++ _).countP _ + driver.inputPending.toNat
        rw [haccepted, hcompleted, if_neg (outputStream_ne_stdin index)]
        exact hsound.flight.input
      · obtain ⟨haccepted, hcompleted⟩ := hcounts (outputStream other) []
        have hreads := hsound.flight.reads other
        change (driver.log ++ _).countP _ = (driver.log ++ _).countP _ +
          (Function.update driver.pending index true other).toNat
        rw [haccepted, hcompleted, hreads]
        by_cases hother : other = index
        · subst hother
          simp [hpending]
        · have hstream : outputStream index ≠ outputStream other :=
            fun hequal => hother (outputStream_inj.mp hequal).symm
          rw [Function.update_of_ne hother, if_neg hstream, Nat.add_zero]
      · intro hinput
        change lastBuffer (driver.log ++ _) = _
        have hnone : ∀ index, (DriverEvent.accepted (outputStream index) []).inputBuffer = none := by
          decide
        unfold lastBuffer
        rw [latest_snoc, hnone index, Option.none_or]
        exact hsound.flight.buffer hinput
      · refine hsound.flight.idle.snoc fun stream haccepted => ?_
        obtain rfl := of_decide_eq_true haccepted
        rw [hsound.flight.reads index, hpending]
        rfl
      · refine hsound.streams.same ?_ (contentSame_inert peerClosed fun event hevent => ?_)
        · exact ⟨rfl, rfl, rfl, rfl, rfl, rfl, rfl⟩
        · obtain rfl := List.mem_singleton.mp hevent
          exact inert_accepted _ _
      · exact hsound.quiet.extend hsound.streams.closing rfl rfl rfl (by simp)
          (by simp [DriverEvent.isEmitted])

theorem submitInput_sound (write : SubmitStatus) (closeStdin : Salts)
    (hsound : DriverSound peerClosed driver) :
    DriverSound peerClosed (submitInput write closeStdin driver) := by
  unfold submitInput
  split
  · exact hsound
  rename_i hidle
  have hpending : driver.inputPending = false := by
    simp only [Bool.or_eq_true, not_or, Bool.not_eq_true] at hidle
    exact hidle.1
  split
  · have hfilled : ∀ chunk, DriverSound peerClosed { driver with inputBuffer := chunk } := by
      intro chunk
      refine ⟨⟨hsound.flight.input, hsound.flight.reads, ?_, ?_, hsound.flight.idle⟩,
        hsound.streams.same ⟨rfl, rfl, rfl, rfl, rfl, rfl, rfl⟩
          ⟨fun _ => rfl, rfl, id, Iff.rfl⟩, ⟨hsound.quiet.silent, hsound.quiet.quiet⟩⟩
      · exact fun hinput => absurd hinput (by simp [hpending])
      · exact fun hinput => absurd hinput (by simp [hpending])
    dsimp only
    cases write with
    | full => exact hfilled _
    | leaseInUse => exact (hfilled _).remarked (.fail _ _ _)
    | refused code => exact (hfilled _).remarked (.fail _ _ _)
    | accepted =>
        generalize hchunk : (driver.input.drop driver.inputOffset).take 4096 = chunk
        have hcounts := countP_accepted driver.log .stdin
        refine ⟨⟨?_, fun other => ?_, fun _ => ?_, fun _ => ?_, ?_⟩, ?_, ?_⟩
        · obtain ⟨haccepted, hcompleted⟩ := hcounts .stdin chunk
          change (driver.log ++ _).countP _ = (driver.log ++ _).countP _ + 1
          rw [haccepted, hcompleted, if_pos rfl, hsound.flight.input, hpending]
          rfl
        · obtain ⟨haccepted, hcompleted⟩ := hcounts (outputStream other) chunk
          change (driver.log ++ _).countP _ = (driver.log ++ _).countP _ + (driver.pending other).toNat
          rw [haccepted, hcompleted, if_neg (outputStream_ne_stdin other).symm, Nat.add_zero]
          exact hsound.flight.reads other
        · change chunk <+: driver.input.drop driver.inputOffset
          rw [← hchunk]
          exact List.take_prefix _ _
        · change lastBuffer (driver.log ++ [.accepted .stdin chunk]) = chunk
          unfold lastBuffer
          rw [latest_snoc]
          rfl
        · refine hsound.flight.idle.snoc fun stream haccepted => ?_
          obtain rfl := of_decide_eq_true haccepted
          rw [hsound.flight.input, hpending]
          rfl
        · refine hsound.streams.same ?_ (contentSame_inert peerClosed fun event hevent => ?_)
          · exact ⟨rfl, rfl, rfl, rfl, rfl, rfl, rfl⟩
          · obtain rfl := List.mem_singleton.mp hevent
            exact inert_accepted _ _
        · exact hsound.quiet.extend hsound.streams.closing rfl rfl rfl (by simp)
            (by simp [DriverEvent.isEmitted])
  split
  · exact ⟨⟨hsound.flight.input, hsound.flight.reads, hsound.flight.chunk, hsound.flight.buffer,
        hsound.flight.idle⟩,
      hsound.streams.same ⟨rfl, rfl, rfl, rfl, rfl, rfl, rfl⟩ ⟨fun _ => rfl, rfl, id, Iff.rfl⟩,
      ⟨hsound.quiet.silent, hsound.quiet.quiet⟩⟩
  split
  · exact hsound.remarked (.fail _ _ _)
  · exact hsound

/-! ### Completions -/

variable {event : Completion}

/-- A completion that is provided for is for the request in flight. -/
theorem FlightSound.pending (hflight : FlightSound driver)
    (hprovided : Provided driver.log (.completed event driver.room)) :
    ∃ stream, event.stream = some stream ∧
      match stream with
      | .stdin => driver.inputPending = true
      | .stdout => driver.pending 0 = true
      | .stderr => driver.pending 1 = true := by
  obtain ⟨stream, hstream, hcounts⟩ := hprovided
  refine ⟨stream, hstream, ?_⟩
  have htrue : ∀ flag : Bool, 0 < flag.toNat → flag = true := by decide
  cases stream with
  | stdin =>
      have hinput := hflight.input
      exact htrue _ (by omega)
  | stdout =>
      have hreads : driver.log.countP (DriverEvent.isAccepted .stdout) =
        driver.log.countP (DriverEvent.isCompleted .stdout) + (driver.pending 0).toNat := hflight.reads 0
      exact htrue _ (by omega)
  | stderr =>
      have hreads : driver.log.countP (DriverEvent.isAccepted .stderr) =
        driver.log.countP (DriverEvent.isCompleted .stderr) + (driver.pending 1).toNat := hflight.reads 1
      exact htrue _ (by omega)

theorem FlightSound.idle_completed (hflight : FlightSound driver) :
    Justified SubmittedIdle (driver.log ++ [.completed event driver.room]) :=
  submittedIdle_append hflight.idle fun last hlast stream => by
    obtain rfl := List.mem_singleton.mp hlast
    rfl

/-- The flag of the input is cleared. -/
theorem FlightSound.input_cleared (hflight : FlightSound driver)
    (hstream : event.stream = some .stdin) (hpending : driver.inputPending = true) (offset : Nat) :
    FlightSound
      { driver.saw (.completed event driver.room) with inputPending := false, inputOffset := offset } := by
  have hcounts := countP_completed driver.log event driver.room .stdin
  refine ⟨?_, fun index => ?_, by simp, by simp, hflight.idle_completed⟩
  · obtain ⟨haccepted, hcompleted⟩ := hcounts .stdin hstream
    change (driver.log ++ _).countP _ = (driver.log ++ _).countP _ + 0
    rw [haccepted, hcompleted, if_pos rfl, hflight.input, hpending]
    rfl
  · obtain ⟨haccepted, hcompleted⟩ := hcounts (outputStream index) hstream
    change (driver.log ++ _).countP _ = (driver.log ++ _).countP _ + (driver.pending index).toNat
    rw [haccepted, hcompleted, if_neg (outputStream_ne_stdin index).symm, Nat.add_zero]
    exact hflight.reads index

/-- The flag of an output is cleared. -/
theorem FlightSound.output_cleared (hflight : FlightSound driver) (index : Fin 2)
    (hstream : event.stream = some (outputStream index)) (hpending : driver.pending index = true) :
    FlightSound
      { driver.saw (.completed event driver.room) with
        pending := Function.update driver.pending index false } := by
  have hcounts := countP_completed driver.log event driver.room (outputStream index)
  refine ⟨?_, fun other => ?_, hflight.chunk, fun hinput => ?_, hflight.idle_completed⟩
  · obtain ⟨haccepted, hcompleted⟩ := hcounts .stdin hstream
    change (driver.log ++ _).countP _ = (driver.log ++ _).countP _ + driver.inputPending.toNat
    rw [haccepted, hcompleted, if_neg (outputStream_ne_stdin index), Nat.add_zero]
    exact hflight.input
  · obtain ⟨haccepted, hcompleted⟩ := hcounts (outputStream other) hstream
    have hreads := hflight.reads other
    change (driver.log ++ _).countP _ = (driver.log ++ _).countP _ +
      (Function.update driver.pending index false other).toNat
    rw [haccepted, hcompleted, hreads]
    by_cases hother : other = index
    · subst hother
      simp [hpending]
    · have hne : outputStream index ≠ outputStream other :=
        fun hequal => hother (outputStream_inj.mp hequal).symm
      rw [Function.update_of_ne hother, if_neg hne, Nat.add_zero]
  · change lastBuffer (driver.log ++ _) = _
    have hnone : (DriverEvent.completed event driver.room).inputBuffer = none := rfl
    unfold lastBuffer
    rw [latest_snoc, hnone, Option.none_or]
    exact hflight.buffer hinput

theorem QuietSound.completed (hsound : DriverSound peerClosed driver) {after : DriverState}
    (hlog : after.log = driver.log ++ [.completed event driver.room])
    (hclosing : after.closing = driver.closing) (hemits : after.emits = driver.emits) :
    QuietSound after :=
  hsound.quiet.extend hsound.streams.closing hclosing hemits hlog (by simp)
    (by simp [DriverEvent.isEmitted])

/-- After closing has begun a completion tells nothing of the content. -/
theorem StreamsSound.completed_closed (hsound : StreamsSound peerClosed driver)
    (hclosed : driver.closing = true) {after : DriverState}
    (hlog : after.log = driver.log ++ [.completed event driver.room])
    (hsame : SameStreams driver after) : StreamsSound peerClosed after := by
  apply hsound.same hsame
  rw [hlog]
  exact contentSame_closed peerClosed (hsound.closing.mp hclosed) _

/-- A completion of the input before closing: it ends the input, or it acknowledges what the
offset grows by. -/
theorem StreamsSound.input_completed (hsound : StreamsSound peerClosed driver)
    (hopen : driver.closing = false) (hstream : event.stream = some .stdin) {after : DriverState}
    {offset : Nat} (hlog : after.log = driver.log ++ [.completed event driver.room])
    (hsame : SameStreams { driver with inputOffset := offset } after)
    (hle : offset ≤ driver.input.length)
    (hacknowledged : (DriverEvent.completed event driver.room).endsInput peerClosed = true ∨
      driver.input.take offset = driver.input.take driver.inputOffset ++
        (DriverEvent.completed event driver.room).acknowledged (lastBuffer driver.log)) :
    StreamsSound peerClosed after := by
  have hnotMem : .closing ∉ driver.log := fun hmem => by
    simp [hsound.closing.mpr hmem] at hopen
  have hpart : openPart after.log = openPart driver.log ++ [.completed event driver.room] := by
    rw [hlog]
    exact openPart_append_of_open hnotMem (by simp)
  have hlast : lastBuffer (openPart driver.log) = lastBuffer driver.log := by
    rw [openPart_of_open hnotMem]
  have hdelivered : ∀ index, deliveredOn index (openPart after.log) =
      deliveredOn index (openPart driver.log) := by
    intro index
    have hnone : (DriverEvent.completed event driver.room).delivered index = [] := by
      rw [DriverEvent.delivered, if_neg]
      rintro ⟨hother, -⟩
      exact outputStream_ne_stdin index (Option.some.inj (hother.symm.trans hstream))
    rw [hpart, deliveredOn_append]
    simp [deliveredOn, hnone]
  constructor
  · rw [hsame.inputOffset, hsame.input]
    exact hle
  · intro hends
    rw [hpart] at hends ⊢
    rw [hsame.input, hsame.inputOffset, acknowledgedBytes_append, hlast]
    rcases hacknowledged with hend | hack
    · have hlive := hends (.completed event driver.room) (by simp)
      exact absurd hend (by simp [hlive])
    · rw [hack, ← hsound.acknowledged fun earlier hearlier =>
        hends earlier (List.mem_append_left _ hearlier)]
      simp [acknowledgedFrom]
  · rw [hsame.output, hsame.capacity]
    exact hsound.room
  · intro index
    rw [hsame.output, hdelivered]
    exact hsound.captured index
  · intro hlimited index
    rw [hsame.output, hdelivered]
    exact hsound.kept (hsame.limited ▸ hlimited) index
  · intro hlimited
    rw [hsame.output, hsame.capacity]
    simp only [hdelivered]
    exact hsound.dropped (hsame.limited ▸ hlimited)
  · rw [hsame.closing, hlog]
    simpa using hsound.closing

/-- A completion of the input before closing. -/
theorem inputCompleted_sound (hsound : DriverSound peerClosed driver)
    (hopen : driver.closing = false) (hstream : event.stream = some .stdin)
    (hpending : driver.inputPending = true) :
    DriverSound peerClosed
      (inputCompleted peerClosed
        { driver.saw (.completed event driver.room) with inputPending := false } event) := by
  have hbuffer := hsound.flight.buffer hpending
  have hdone : ∀ offset, offset ≤ driver.input.length →
      ((DriverEvent.completed event driver.room).endsInput peerClosed = true ∨
        driver.input.take offset = driver.input.take driver.inputOffset ++
          (DriverEvent.completed event driver.room).acknowledged (lastBuffer driver.log)) →
      DriverSound peerClosed
        { driver.saw (.completed event driver.room) with
          inputPending := false, inputOffset := offset } := by
    intro offset hle hacknowledged
    refine ⟨hsound.flight.input_cleared hstream hpending offset,
      hsound.streams.input_completed hopen hstream rfl ?_ hle hacknowledged,
      QuietSound.completed hsound rfl rfl rfl⟩
    exact ⟨rfl, rfl, rfl, rfl, rfl, rfl, rfl⟩
  have hsame : (DriverEvent.completed event driver.room).acknowledged (lastBuffer driver.log) = [] →
      DriverSound peerClosed
        { driver.saw (.completed event driver.room) with inputPending := false } := by
    intro hnone
    apply hdone driver.inputOffset hsound.streams.offset
    right
    rw [hnone, List.append_nil]
  unfold inputCompleted
  cases hkind : event.kind with
  | ok =>
      dsimp only
      split
      · rename_i hbad
        refine (hsame ?_).remarked (.fail _ _ _)
        rw [hbuffer, DriverEvent.acknowledged]
        split
        · rename_i hvalid
          rcases hbad with hzero | hlarge
          · simp [hzero]
          · exact absurd hvalid.2.2 (Nat.not_le.mpr hlarge)
        · rfl
      · rename_i hgood
        obtain ⟨-, hle⟩ := not_or.mp hgood
        have hle : event.bytes ≤ driver.inputBuffer.length := Nat.not_lt.mp hle
        obtain ⟨rest, hrest⟩ := hsound.flight.chunk hpending
        have hlength : driver.inputBuffer.length ≤ driver.input.length - driver.inputOffset := by
          have hsum := congrArg List.length hrest
          simp only [List.length_append, List.length_drop] at hsum
          omega
        have hoffset := hsound.streams.offset
        apply hdone (driver.inputOffset + event.bytes) (by omega)
        right
        rw [hbuffer, DriverEvent.acknowledged, if_pos ⟨hstream, hkind, hle⟩, List.take_add, ← hrest,
          List.take_append_of_le_length hle]
  | eof =>
      exact hdone _ (Nat.le_refl _) (.inl (by simp [DriverEvent.endsInput, hstream, hkind]))
  | failed =>
      dsimp only
      split
      · rename_i hpeer
        exact hdone _ (Nat.le_refl _) (.inl (by simp [DriverEvent.endsInput, hstream, hkind, hpeer]))
      · exact (hsame (by simp [DriverEvent.acknowledged, hkind])).remarked (.fail _ _ _)
  | other =>
      exact (hsame (by simp [DriverEvent.acknowledged, hkind])).remarked (.fail _ _ _)

/-- What the outputs hold together with more on one of them. -/
theorem length_update_output (output : Fin 2 → Bytes) (index : Fin 2) (more : Bytes) :
    (Function.update output index (output index ++ more) 0).length +
        (Function.update output index (output index ++ more) 1).length =
      (output 0).length + (output 1).length + more.length := by
  match index with
  | 0 =>
      simp only [Function.update_self, List.length_append, ne_eq, Fin.reduceEq, not_false_eq_true,
        Function.update_of_ne]
      omega
  | 1 =>
      simp only [Function.update_self, List.length_append, ne_eq, Fin.reduceEq, not_false_eq_true,
        Function.update_of_ne]
      omega

/-- Bytes that a read delivers are captured up to the capacity. -/
theorem StreamsSound.output_completed (hsound : StreamsSound peerClosed driver)
    (hopen : driver.closing = false) (index : Fin 2)
    (hstream : event.stream = some (outputStream index)) (hkind : event.kind = .ok)
    (hfits : event.data.length ≤ 4096) {after : DriverState}
    (hlog : after.log = driver.log ++ [.completed event driver.room])
    (hsame : SameStreams
      { driver with
        output := Function.update driver.output index
          (driver.output index ++ event.data.take (min event.data.length driver.room))
        limited := driver.limited ||
          decide ((event.data.take (min event.data.length driver.room)).length ≠
            event.data.length) } after) :
    StreamsSound peerClosed after := by
  generalize haccepted : event.data.take (min event.data.length driver.room) = accepted at hsame
  have houtput : after.output =
      Function.update driver.output index (driver.output index ++ accepted) := hsame.output
  have hlimit : after.limited =
      (driver.limited || decide (accepted.length ≠ event.data.length)) := hsame.limited
  have hcapacity : after.capacity = driver.capacity := hsame.capacity
  have hlength : accepted.length = min event.data.length driver.room := by
    rw [← haccepted, List.length_take]
    omega
  have hroom : driver.room = driver.capacity - (driver.output 0).length - (driver.output 1).length :=
    rfl
  have hbound := hsound.room
  have hsum := length_update_output driver.output index accepted
  have hnotMem : .closing ∉ driver.log := fun hmem => by
    simp [hsound.closing.mpr hmem] at hopen
  have hpart : openPart after.log = openPart driver.log ++ [.completed event driver.room] := by
    rw [hlog]
    exact openPart_append_of_open hnotMem (by simp)
  have hdelivered : ∀ other, deliveredOn other (openPart after.log) =
      deliveredOn other (openPart driver.log) ++ if other = index then event.data else [] := by
    intro other
    have hone : (DriverEvent.completed event driver.room).delivered other =
        if other = index then event.data else [] := by
      rw [DriverEvent.delivered]
      by_cases hother : other = index
      · rw [if_pos ⟨hother ▸ hstream, hkind, hfits⟩, if_pos hother]
      · rw [if_neg, if_neg hother]
        rintro ⟨hequal, -⟩
        exact hother (outputStream_inj.mp (Option.some.inj (hequal.symm.trans hstream)))
    rw [hpart, deliveredOn_append]
    simp [deliveredOn, hone]
  have hnothing : driver.limited = true → accepted = [] := by
    intro hlimited
    have hfull := (hsound.dropped hlimited).1
    apply List.length_eq_zero_iff.mp
    omega
  constructor
  · rw [hsame.inputOffset, hsame.input]
    exact hsound.offset
  · intro hends
    rw [hpart] at hends ⊢
    have hnone : ∀ buffer, (DriverEvent.completed event driver.room).acknowledged buffer = [] := by
      intro buffer
      rw [DriverEvent.acknowledged, if_neg]
      rintro ⟨hequal, -⟩
      exact outputStream_ne_stdin index (Option.some.inj (hstream.symm.trans hequal))
    rw [hsame.input, hsame.inputOffset, acknowledgedBytes_append, ← hsound.acknowledged
      fun earlier hearlier => hends earlier (List.mem_append_left _ hearlier)]
    simp [acknowledgedFrom, hnone]
  · rw [houtput, hcapacity]
    omega
  · intro other
    rw [houtput, hdelivered]
    by_cases hother : other = index
    · subst hother
      rw [if_pos rfl, Function.update_self]
      cases hlimited : driver.limited with
      | true =>
          rw [hnothing hlimited, List.append_nil]
          exact (hsound.captured other).trans (List.prefix_append _ _)
      | false =>
          rw [hsound.kept hlimited other, List.prefix_append_right_inj, ← haccepted]
          exact List.take_prefix _ _
    · rw [if_neg hother, List.append_nil, Function.update_of_ne hother]
      exact hsound.captured other
  · intro hlimited other
    rw [hlimit] at hlimited
    obtain ⟨hbefore, hall⟩ := Bool.or_eq_false_iff.mp hlimited
    have hall : accepted.length = event.data.length := by simpa using hall
    have hwhole : accepted = event.data := by
      rw [← haccepted]
      apply List.take_of_length_le
      omega
    rw [houtput, hdelivered]
    by_cases hother : other = index
    · subst hother
      rw [if_pos rfl, Function.update_self, hwhole, hsound.kept hbefore other]
    · rw [if_neg hother, List.append_nil, Function.update_of_ne hother]
      exact hsound.kept hbefore other
  · intro hlimited
    rw [hlimit] at hlimited
    rw [houtput, hcapacity]
    simp only [hdelivered]
    cases hbefore : driver.limited with
    | true =>
        obtain ⟨hfull, other, hless⟩ := hsound.dropped hbefore
        have hnil := hnothing hbefore
        refine ⟨?_, other, ?_⟩
        · rw [hsum, hnil, List.length_nil, Nat.add_zero]
          exact hfull
        · have hkept : Function.update driver.output index (driver.output index ++ accepted) =
              driver.output := by
            rw [hnil, List.append_nil, Function.update_eq_self]
          rw [hkept, List.length_append]
          omega
    | false =>
        have hless : accepted.length ≠ event.data.length := by simpa [hbefore] using hlimited
        refine ⟨?_, index, ?_⟩
        · rw [hsum]
          omega
        · rw [if_pos rfl, Function.update_self, hsound.kept hbefore index, List.length_append,
            List.length_append]
          omega
  · rw [hsame.closing, hlog]
    simpa using hsound.closing

/-- A completion that tells nothing of the content. -/
theorem DriverSound.output_cleared (hsound : DriverSound peerClosed driver) (index : Fin 2)
    (hstream : event.stream = some (outputStream index)) (hpending : driver.pending index = true)
    (hcontent : ContentSame peerClosed driver.log (driver.log ++ [.completed event driver.room])) :
    DriverSound peerClosed
      { driver.saw (.completed event driver.room) with
        pending := Function.update driver.pending index false } := by
  refine ⟨hsound.flight.output_cleared index hstream hpending, hsound.streams.same ?_ hcontent,
    QuietSound.completed hsound rfl rfl rfl⟩
  exact ⟨rfl, rfl, rfl, rfl, rfl, rfl, rfl⟩

/-- A completion of an output before closing. -/
theorem outputCompleted_sound (hsound : DriverSound peerClosed driver)
    (hopen : driver.closing = false) (index : Fin 2)
    (hstream : event.stream = some (outputStream index)) (hpending : driver.pending index = true) :
    DriverSound peerClosed
      (outputCompleted callback index
        { driver.saw (.completed event driver.room) with
          pending := Function.update driver.pending index false } event) := by
  have hinert : ¬ (event.kind = .ok ∧ event.data.length ≤ 4096) → DriverSound peerClosed
      { driver.saw (.completed event driver.room) with
        pending := Function.update driver.pending index false } := by
    intro hbad
    apply hsound.output_cleared index hstream hpending
    refine contentSame_inert peerClosed fun last hlast => ?_
    obtain rfl := List.mem_singleton.mp hlast
    refine ⟨fun other => ?_, fun buffer => ?_, by simp⟩
    · rw [DriverEvent.delivered, if_neg fun hall => hbad hall.2]
    · rw [DriverEvent.acknowledged, if_neg]
      rintro ⟨hequal, -⟩
      exact outputStream_ne_stdin index (Option.some.inj (hstream.symm.trans hequal))
  unfold outputCompleted
  cases hkind : event.kind with
  | eof => exact (hinert (by simp [hkind])).remarked (.ended _ _)
  | failed => exact (hinert (by simp [hkind])).remarked (.fail _ _ _)
  | other => exact (hinert (by simp [hkind])).remarked (.fail _ _ _)
  | ok =>
      dsimp only
      split
      · rename_i hlong
        exact (hinert fun hall => absurd hall.2 (Nat.not_le.mpr hlong)).remarked (.fail _ _ _)
      rename_i hfits
      have hfits := Nat.not_lt.mp hfits
      generalize hcaptured : ({ driver.saw (.completed event driver.room) with
          pending := Function.update driver.pending index false
          output := Function.update driver.output index
            (driver.output index ++ event.data.take (min event.data.length driver.room)) } :
        DriverState) = captured
      have hemitted : Remarked captured (if captured.emits then
          emitBytes callback index (event.data.take (min event.data.length driver.room)) captured
          else captured) := by
        split
        · exact emitBytes_remarked _ index _ captured (by rw [← hcaptured]; exact hopen)
        · exact .refl captured
      have hsoundCaptured : ∀ limited,
          limited = (driver.limited ||
            decide ((event.data.take (min event.data.length driver.room)).length ≠
              event.data.length)) →
          DriverSound peerClosed { captured with limited } := by
        rintro limited rfl
        have hflight := hsound.flight.output_cleared index hstream hpending
        rw [← hcaptured]
        refine ⟨⟨hflight.input, hflight.reads, hflight.chunk, hflight.buffer, hflight.idle⟩,
          hsound.streams.output_completed hopen index hstream hkind hfits rfl ?_,
          QuietSound.completed hsound rfl rfl rfl⟩
        exact ⟨rfl, rfl, rfl, rfl, rfl, rfl, rfl⟩
      have hlimited : captured.limited = driver.limited := by
        rw [← hcaptured]
        rfl
      have hlast : ∀ emitted : DriverState, Remarked captured emitted → DriverSound peerClosed
          (if (event.data.take (min event.data.length driver.room)).length ≠ event.data.length then
            { emitted with limited := true, error := emitted.error.or (some .limit) }
          else emitted) := by
        intro emitted hremarked
        split
        · rename_i hdropped
          have hmark : true = (driver.limited ||
              decide ((event.data.take (min event.data.length driver.room)).length ≠
                event.data.length)) := by
            rw [decide_eq_true hdropped, Bool.or_true]
          exact (hsoundCaptured true hmark).remarked (hremarked.limit _)
        · rename_i hwhole
          have hnow := hsoundCaptured driver.limited (by simp [not_not.mp hwhole])
          rw [← hlimited] at hnow
          exact hnow.remarked hremarked
      have hresult := hlast _ hemitted
      rw [← hcaptured] at hresult
      exact hresult

theorem completion_sound (hsound : DriverSound peerClosed driver)
    (hprovided : Provided driver.log (.completed event driver.room)) :
    DriverSound peerClosed (completion callback peerClosed driver event) := by
  obtain ⟨stream, hstream, hpending⟩ := hsound.flight.pending hprovided
  unfold completion
  rw [hstream]
  cases stream with
  | stdin =>
      dsimp only
      split
      · rename_i hclosed
        refine ⟨hsound.flight.input_cleared hstream hpending driver.inputOffset,
          hsound.streams.completed_closed hclosed rfl ?_, QuietSound.completed hsound rfl rfl rfl⟩
        exact ⟨rfl, rfl, rfl, rfl, rfl, rfl, rfl⟩
      · rename_i hopen
        exact inputCompleted_sound hsound ((Bool.not_eq_true _).mp hopen) hstream hpending
  | stdout =>
      dsimp only
      split
      · rename_i hclosed
        exact hsound.output_cleared 0 hstream hpending
          (contentSame_closed peerClosed (hsound.streams.closing.mp hclosed) _)
      · rename_i hopen
        exact outputCompleted_sound hsound ((Bool.not_eq_true _).mp hopen) 0 hstream hpending
  | stderr =>
      dsimp only
      split
      · rename_i hclosed
        exact hsound.output_cleared 1 hstream hpending
          (contentSame_closed peerClosed (hsound.streams.closing.mp hclosed) _)
      · rename_i hopen
        exact outputCompleted_sound hsound ((Bool.not_eq_true _).mp hopen) 1 hstream hpending

/-! ### What stays -/

namespace Advances

variable {first second third : DriverState}

theorem refl (driver : DriverState) : Advances driver driver :=
  ⟨List.prefix_rfl, rfl, rfl, id, id⟩

theorem trans (hfirst : Advances first second) (hsecond : Advances second third) :
    Advances first third :=
  ⟨hfirst.log.trans hsecond.log, hsecond.closing.trans hfirst.closing,
    hsecond.done.trans hfirst.done, fun hfailed => hsecond.failed (hfirst.failed hfailed),
    fun hlimited => hsecond.limited (hfirst.limited hlimited)⟩

theorem fail (driver : DriverState) (operation : String) (status : FailureStatus) :
    Advances driver (driver.fail operation status) :=
  (Remarked.fail driver operation status).advances

end Advances

theorem submitRead_advances (status : SubmitStatus) (index : Fin 2) (driver : DriverState) :
    Advances driver (submitRead status index driver) := by
  unfold submitRead
  split
  · exact .refl driver
  cases status with
  | accepted => exact ⟨List.prefix_append _ _, rfl, rfl, id, id⟩
  | full => exact .refl driver
  | leaseInUse => exact .refl driver
  | refused code => exact .fail _ _ _

theorem submitInput_advances (write : SubmitStatus) (closeStdin : Salts) (driver : DriverState) :
    Advances driver (submitInput write closeStdin driver) := by
  unfold submitInput
  split
  · exact .refl driver
  split
  · dsimp only
    cases write with
    | accepted => exact ⟨List.prefix_append _ _, rfl, rfl, id, id⟩
    | full => exact ⟨List.prefix_rfl, rfl, rfl, id, id⟩
    | leaseInUse => exact ⟨List.prefix_append _ _, rfl, rfl, fun _ => rfl, id⟩
    | refused code => exact ⟨List.prefix_append _ _, rfl, rfl, fun _ => rfl, id⟩
  split
  · exact ⟨List.prefix_rfl, rfl, rfl, id, id⟩
  split
  · exact .fail _ _ _
  · exact .refl driver

theorem inputCompleted_advances (driver : DriverState) (event : Completion) :
    Advances driver (inputCompleted peerClosed driver event) := by
  unfold inputCompleted
  cases event.kind with
  | ok =>
      dsimp only
      split
      · exact .fail _ _ _
      · exact ⟨List.prefix_rfl, rfl, rfl, id, id⟩
  | eof => exact ⟨List.prefix_rfl, rfl, rfl, id, id⟩
  | failed =>
      dsimp only
      split
      · exact ⟨List.prefix_rfl, rfl, rfl, id, id⟩
      · exact .fail _ _ _
  | other => exact .fail _ _ _

theorem outputCompleted_advances (index : Fin 2) (driver : DriverState) (event : Completion)
    (hopen : driver.closing = false) :
    Advances driver (outputCompleted callback index driver event) := by
  unfold outputCompleted
  cases event.kind with
  | eof => exact (Remarked.ended driver _).advances
  | failed => exact .fail _ _ _
  | other => exact .fail _ _ _
  | ok =>
      dsimp only
      split
      · exact .fail _ _ _
      have hemitted : ∀ captured : DriverState, captured.closing = false →
          ∀ accepted, Advances captured (if captured.emits then
            emitBytes callback index accepted captured else captured) := by
        intro captured hcaptured accepted
        split
        · exact (emitBytes_remarked _ index accepted captured hcaptured).advances
        · exact .refl captured
      have hadvances := hemitted
        { driver with
          output := Function.update driver.output index
            (driver.output index ++ event.data.take (min event.data.length driver.room)) } hopen
        (event.data.take (min event.data.length driver.room))
      split
      · exact ⟨hadvances.log, hadvances.closing, hadvances.done, hadvances.failed, fun _ => rfl⟩
      · exact ⟨hadvances.log, hadvances.closing, hadvances.done, hadvances.failed, hadvances.limited⟩

variable (callback peerClosed) in
/-- A completion is logged, whatever else it does. -/
theorem completion_advances (driver : DriverState) (event : Completion) :
    Advances (driver.saw (.completed event driver.room))
      (completion callback peerClosed driver event) := by
  unfold completion
  cases event.stream with
  | none => exact .fail _ _ _
  | some stream =>
      cases stream with
      | stdin =>
          dsimp only
          split
          · exact ⟨List.prefix_rfl, rfl, rfl, id, id⟩
          · refine Advances.trans ?_ (inputCompleted_advances _ _)
            exact ⟨List.prefix_rfl, rfl, rfl, id, id⟩
      | stdout =>
          dsimp only
          split
          · exact ⟨List.prefix_rfl, rfl, rfl, id, id⟩
          · rename_i hopen
            refine Advances.trans ?_ (outputCompleted_advances 0 _ _ ((Bool.not_eq_true _).mp hopen))
            exact ⟨List.prefix_rfl, rfl, rfl, id, id⟩
      | stderr =>
          dsimp only
          split
          · exact ⟨List.prefix_rfl, rfl, rfl, id, id⟩
          · rename_i hopen
            refine Advances.trans ?_ (outputCompleted_advances 1 _ _ ((Bool.not_eq_true _).mp hopen))
            exact ⟨List.prefix_rfl, rfl, rfl, id, id⟩

/-! ### While the provider delivers what was accepted -/

/-- A step of the driver that keeps an invariant while the provider delivers what was accepted. -/
structure Serves (invariant : DriverState → Prop) (before after : DriverState) : Prop
    extends Advances before after where
  sound : OneCompletion after.log → invariant before → invariant after

namespace Serves

variable {first second third : DriverState}

theorem trans {invariant : DriverState → Prop} (hfirst : Serves invariant first second)
    (hsecond : Serves invariant second third) : Serves invariant first third := by
  refine ⟨hfirst.toAdvances.trans hsecond.toAdvances, fun hprovided hsound => ?_⟩
  exact hsecond.sound hprovided (hfirst.sound (hprovided.of_prefix hsecond.log) hsound)

theorem remarked (hremarked : Remarked first second) : Serves (DriverSound peerClosed) first second :=
  ⟨hremarked.advances, fun _ hsound => hsound.remarked hremarked⟩

theorem refl (driver : DriverState) : Serves (DriverSound peerClosed) driver driver :=
  remarked (.refl driver)

theorem fail (driver : DriverState) (operation : String) (status : FailureStatus) :
    Serves (DriverSound peerClosed) driver (driver.fail operation status) :=
  remarked (.fail driver operation status)

end Serves

variable (callback peerClosed) in
theorem completion_serves (driver : DriverState) (event : Completion) :
    Serves (DriverSound peerClosed) driver (completion callback peerClosed driver event) := by
  have hadvances := completion_advances callback peerClosed driver event
  have hlogged : Advances driver (driver.saw (.completed event driver.room)) :=
    ⟨List.prefix_append _ _, rfl, rfl, id, id⟩
  refine ⟨hlogged.trans hadvances, fun hprovided hsound => ?_⟩
  exact completion_sound hsound ((hprovided.of_prefix hadvances.log) _ _ [] rfl)

variable (callback peerClosed) in
theorem completions_serves (events : List Completion) (driver : DriverState) :
    Serves (DriverSound peerClosed) driver (completions callback peerClosed driver events) := by
  induction events generalizing driver with
  | nil => exact .refl driver
  | cons event rest ih => exact (completion_serves _ _ driver event).trans (ih _)

variable (callback peerClosed) in
theorem pass_serves (replies : PassReplies) (driver : DriverState) :
    Serves (DriverSound peerClosed) driver (pass callback peerClosed replies driver) := by
  have hread : ∀ status index (driver : DriverState),
      Serves (DriverSound peerClosed) driver (submitRead status index driver) := fun status index driver =>
    ⟨submitRead_advances status index driver, fun _ hsound => submitRead_sound status index hsound⟩
  have hinput : ∀ driver : DriverState,
      Serves (DriverSound peerClosed) driver (submitInput replies.write replies.closeStdin driver) := fun driver =>
    ⟨submitInput_advances _ _ driver, fun _ hsound => submitInput_sound _ _ hsound⟩
  have hdriven := ((((hread (replies.read 0) 0 driver).trans (hread (replies.read 1) 1 _)).trans
    (hinput _)).trans (completions_serves callback _ replies.completions _))
  unfold pass
  dsimp only
  generalize completions callback peerClosed _ replies.completions = driven at hdriven ⊢
  have hready : Serves (DriverSound peerClosed) driver
      (if replies.ready ≠ .ok then driven.fail "driver" (.salts replies.ready) else driven) := by
    split
    · exact hdriven.trans (.fail _ _ _)
    · exact hdriven
  generalize (if replies.ready ≠ .ok then driven.fail "driver" (.salts replies.ready) else driven) =
    ready at hready ⊢
  have hpolled : ∀ terminal, Remarked ready { ready with result := replies.result, terminal } :=
    fun terminal => .same ⟨rfl, rfl, rfl, rfl, rfl, rfl, rfl⟩ rfl rfl rfl rfl rfl id
  have hresult := hready.trans (.remarked (hpolled ready.terminal))
  split
  · exact hready.trans (.remarked (hpolled true))
  split
  · exact hresult.trans (.fail _ _ _)
  · exact hresult

variable (callback peerClosed) in
theorem passUnlessStopped_serves (replies : PassReplies) (driver : DriverState) :
    Serves (DriverSound peerClosed) driver (passUnlessStopped callback peerClosed replies driver) := by
  unfold passUnlessStopped
  split
  · exact .refl driver
  · exact pass_serves _ _ replies driver

variable (callback peerClosed) in
theorem shutdown_serves (steps : List ShutdownReplies) (driver : DriverState) :
    Serves (DriverSound peerClosed) driver (shutdown callback peerClosed steps driver) := by
  induction steps generalizing driver with
  | nil => exact .refl driver
  | cons replies rest ih =>
      have hdriven := completions_serves callback peerClosed
        replies.completions driver
      unfold shutdown
      dsimp only
      generalize completions callback peerClosed driver replies.completions = driven at hdriven ⊢
      split
      · exact hdriven.trans (.fail _ _ _)
      split
      · split
        · exact hdriven.trans (.fail _ _ _)
        · refine hdriven.trans (.remarked (.same ?_ rfl rfl rfl rfl rfl id))
          exact ⟨rfl, rfl, rfl, rfl, rfl, rfl, rfl⟩
      · exact hdriven.trans (ih driven)

/-! ### Stopping -/

/-- There is nothing more for a driver to do. -/
def Stopped (driver : DriverState) : Prop :=
  driver.failed = true ∨ driver.limited = true ∨ driver.finished = true

/-- What holds of a driver in a run. -/
structure RunSound (peerClosed : Int → Bool) (driver : DriverState) : Prop where
  sound : DriverSound peerClosed driver
  settled : driver.done = true → Stopped driver

theorem not_finished_input (hpending : driver.inputPending = true) : driver.finished = false := by
  simp [DriverState.finished, hpending]

theorem not_finished_output {index : Fin 2} (hpending : driver.pending index = true) :
    driver.finished = false := by
  match index with
  | 0 => simp [DriverState.finished, hpending]
  | 1 => simp [DriverState.finished, hpending]

/-- A driver that has stopped gets no completion by which it would go on. -/
theorem completion_stopped (hsound : DriverSound peerClosed driver)
    (hprovided : Provided driver.log (.completed event driver.room)) (hstopped : Stopped driver) :
    Stopped (completion callback peerClosed driver event) := by
  have hadvances := completion_advances callback peerClosed driver event
  obtain ⟨stream, -, hpending⟩ := hsound.flight.pending hprovided
  rcases hstopped with hfailed | hlimited | hfinished
  · exact .inl (hadvances.failed hfailed)
  · exact .inr (.inl (hadvances.limited hlimited))
  · cases stream with
    | stdin => simp [not_finished_input hpending] at hfinished
    | stdout => simp [not_finished_output hpending] at hfinished
    | stderr => simp [not_finished_output hpending] at hfinished

theorem completions_sound (events : List Completion) (hsound : RunSound peerClosed driver)
    (hprovided : OneCompletion (completions callback peerClosed driver events).log) :
    RunSound peerClosed (completions callback peerClosed driver events) := by
  induction events generalizing driver with
  | nil => exact hsound
  | cons event rest ih =>
      have hrest := completions_serves callback peerClosed rest
        (completion callback peerClosed driver event)
      have hfirst := completion_serves callback peerClosed driver event
      have hadvances := completion_advances callback peerClosed
        driver event
      have hnow : OneCompletion (completion callback peerClosed driver event).log :=
        hprovided.of_prefix hrest.log
      refine ih ⟨hfirst.sound hnow hsound.sound, fun hdone => ?_⟩ hprovided
      apply completion_stopped hsound.sound ((hnow.of_prefix hadvances.log) _ _ [] rfl)
      exact hsound.settled (hfirst.done ▸ hdone)

theorem RunSound.fail (hsound : RunSound peerClosed driver) (operation : String)
    (status : FailureStatus) : RunSound peerClosed (driver.fail operation status) :=
  ⟨hsound.sound.remarked (.fail driver operation status), fun _ => .inl rfl⟩

variable (callback) in
theorem shutdown_sound (steps : List ShutdownReplies) (hsound : RunSound peerClosed driver)
    (hprovided : OneCompletion (shutdown callback peerClosed steps driver).log) :
    RunSound peerClosed (shutdown callback peerClosed steps driver) := by
  induction steps generalizing driver with
  | nil => exact hsound
  | cons replies rest ih =>
      have hdriven : OneCompletion (completions callback peerClosed driver replies.completions).log →
          RunSound peerClosed (completions callback peerClosed driver replies.completions) :=
        completions_sound replies.completions hsound
      unfold shutdown at hprovided ⊢
      dsimp only at hprovided ⊢
      generalize completions callback peerClosed driver replies.completions = driven
        at hdriven hprovided ⊢
      split at hprovided
      · rename_i hstep
        rw [if_pos hstep]
        exact (hdriven (hprovided.of_prefix (Advances.fail _ _ _).log)).fail _ _
      rename_i hstep
      rw [if_neg hstep]
      split at hprovided
      · rename_i hquiescent
        rw [if_pos hquiescent]
        split at hprovided
        · rename_i hdestroy
          rw [if_pos hdestroy]
          exact (hdriven (hprovided.of_prefix (Advances.fail _ _ _).log)).fail _ _
        · rename_i hdestroy
          rw [if_neg hdestroy]
          have hnow := hdriven hprovided
          refine ⟨hnow.sound.remarked (.same ?_ rfl rfl rfl rfl rfl id), hnow.settled⟩
          exact ⟨rfl, rfl, rfl, rfl, rfl, rfl, rfl⟩
      · rename_i hquiescent
        rw [if_neg hquiescent]
        have hserves := shutdown_serves callback peerClosed rest driven
        exact ih (hdriven (hprovided.of_prefix hserves.log)) hprovided

/-! ### Calls -/

/-- Nothing but the mark that closing has begun is said by it. -/
theorem RunSound.closing (hsound : RunSound peerClosed driver) :
    RunSound peerClosed driver.close := by
  obtain ⟨⟨hflight, hstreams, hquiet⟩, hsettled⟩ := hsound
  have hpart := openPart_closing driver.log
  have haccepted : ∀ stream, (driver.log ++ [DriverEvent.closing]).countP
      (DriverEvent.isAccepted stream) = driver.log.countP (DriverEvent.isAccepted stream) :=
    fun stream => by simp [DriverEvent.isAccepted]
  have hcompleted : ∀ stream, (driver.log ++ [DriverEvent.closing]).countP
      (DriverEvent.isCompleted stream) = driver.log.countP (DriverEvent.isCompleted stream) :=
    fun stream => by simp [DriverEvent.isCompleted]
  refine ⟨⟨⟨?_, fun index => ?_, hflight.chunk, fun hinput => ?_, ?_⟩, ⟨hstreams.offset,
    fun hends => ?_, hstreams.room, fun index => ?_, fun hlimited index => ?_, fun hlimited => ?_,
    ?_⟩, fun _ => rfl, ?_⟩, hsettled⟩
  · change (driver.log ++ _).countP _ = (driver.log ++ _).countP _ + driver.inputPending.toNat
    rw [haccepted, hcompleted]
    exact hflight.input
  · change (driver.log ++ _).countP _ = (driver.log ++ _).countP _ + (driver.pending index).toNat
    rw [haccepted, hcompleted]
    exact hflight.reads index
  · change lastBuffer (driver.log ++ [DriverEvent.closing]) = _
    unfold lastBuffer
    rw [latest_snoc]
    exact hflight.buffer hinput
  · exact submittedIdle_append hflight.idle (by simp [DriverEvent.isAccepted])
  · change ∀ event ∈ openPart (driver.log ++ [DriverEvent.closing]), _ at hends
    change acknowledgedBytes (openPart (driver.log ++ [DriverEvent.closing])) = _
    rw [hpart] at hends ⊢
    exact hstreams.acknowledged hends
  · change _ <+: deliveredOn index (openPart (driver.log ++ [DriverEvent.closing]))
    rw [hpart]
    exact hstreams.captured index
  · change _ = deliveredOn index (openPart (driver.log ++ [DriverEvent.closing]))
    rw [hpart]
    exact hstreams.kept hlimited index
  · change _ ∧ ∃ index, _ < (deliveredOn index (openPart (driver.log ++ [DriverEvent.closing]))).length
    rw [hpart]
    exact hstreams.dropped hlimited
  · change true = true ↔ DriverEvent.closing ∈ driver.log ++ [DriverEvent.closing]
    simp
  · exact hquiet.quiet.snoc (by simp [DriverEvent.isEmitted])

theorem flush_finished (index : Fin 2) (driver : DriverState) :
    (flush callback index driver).finished = driver.finished := by
  unfold flush
  dsimp only
  split
  · rfl
  split
  · rfl
  · rfl

/-- A driver that notes that it is done. -/
theorem DriverSound.ended (hsound : DriverSound peerClosed driver) (done : Bool) :
    DriverSound peerClosed { driver with done } :=
  ⟨⟨hsound.flight.input, hsound.flight.reads, hsound.flight.chunk, hsound.flight.buffer,
      hsound.flight.idle⟩,
    hsound.streams.same ⟨rfl, rfl, rfl, rfl, rfl, rfl, rfl⟩ ⟨fun _ => rfl, rfl, id, Iff.rfl⟩,
    ⟨hsound.quiet.silent, hsound.quiet.quiet⟩⟩

variable (callback) in
theorem settle_remarked (hopen : driver.closing = false) :
    Remarked driver.marked (settle callback driver) := by
  have hmarked : driver.marked.closing = false := hopen
  unfold settle
  dsimp only
  generalize driver.marked = marked at hmarked ⊢
  split
  · have hfirst := flush_remarked callback 0 hmarked
    exact hfirst.trans (flush_remarked _ 1 (hfirst.closing.trans hmarked))
  · exact .refl marked

theorem settle_finished (driver : DriverState) :
    (settle callback driver).finished = driver.finished := by
  have hmarked : driver.marked.finished = driver.finished := rfl
  unfold settle
  dsimp only
  generalize driver.marked = marked at hmarked ⊢
  split
  · rw [flush_finished, flush_finished, hmarked]
  · exact hmarked

variable (callback) in
/-- The end of a tick keeps what holds, and it tells whether the driver has stopped. -/
theorem settle_sound (hopen : driver.closing = false) (hsound : DriverSound peerClosed driver) :
    RunSound peerClosed (settle callback driver) := by
  have hremarked := settle_remarked callback hopen
  refine ⟨(hsound.ended _).remarked hremarked, fun hdone => ?_⟩
  have hany : (driver.failed || driver.limited || driver.finished) = true :=
    hremarked.done.symm.trans hdone
  rcases Bool.or_eq_true_iff.mp hany with hany | hfinished
  · rcases Bool.or_eq_true_iff.mp hany with hfailed | hlimited
    · exact .inl (hremarked.failed hfailed)
    · exact .inr (.inl (hremarked.advances.limited hlimited))
  · exact .inr (.inr ((settle_finished driver).trans hfinished))

variable (callback peerClosed) in
/-- A tick does nothing, or it makes its passes and settles. -/
theorem tick_cases (first second : PassReplies) (driver : DriverState) :
    (∃ code report, praktorProcessDriverTick callback peerClosed first second driver =
        ((code, report), driver) ∧ (report = some true → driver.done = true)) ∨
      driver.closing = false ∧ ∃ passed, Serves (DriverSound peerClosed) driver passed ∧
        praktorProcessDriverTick callback peerClosed first second driver =
          ((.ok, some (settle callback passed).done), settle callback passed) := by
  unfold praktorProcessDriverTick
  split
  · exact .inl ⟨_, _, rfl, by simp⟩
  split
  · exact .inl ⟨_, _, rfl, by simp⟩
  rename_i hopen
  split
  · rename_i hdone
    exact .inl ⟨_, _, rfl, fun _ => hdone⟩
  · refine .inr ⟨(Bool.not_eq_true _).mp hopen, _, ?_, rfl⟩
    exact (passUnlessStopped_serves _ _ first driver).trans (passUnlessStopped_serves _ _ second _)

variable (callback) in
theorem settle_log (hopen : driver.closing = false) :
    driver.log <+: (settle callback driver).log :=
  (settle_remarked callback hopen).advances.log

theorem tick_log (first second : PassReplies) (driver : DriverState) :
    driver.log <+: (praktorProcessDriverTick callback peerClosed first second driver).2.log := by
  rcases tick_cases callback peerClosed first second driver with
    ⟨code, report, htick, -⟩ | ⟨hopen, passed, hserves, htick⟩
  · simp only [htick, List.prefix_rfl]
  · rw [htick]
    exact hserves.log.trans (settle_log _ (hserves.closing.trans hopen))

variable (callback peerClosed) in
/-- A tick, with what it reports. -/
theorem tick_sound (first second : PassReplies) (hsound : RunSound peerClosed driver)
    (hprovided :
      OneCompletion (praktorProcessDriverTick callback peerClosed first second driver).2.log) :
    RunSound peerClosed (praktorProcessDriverTick callback peerClosed first second driver).2 ∧
      ((praktorProcessDriverTick callback peerClosed first second driver).1.2 = some true →
        Stopped (praktorProcessDriverTick callback peerClosed first second driver).2) := by
  rcases tick_cases callback peerClosed first second driver with
    ⟨code, report, htick, hreport⟩ | ⟨hopen, passed, hserves, htick⟩
  · rw [htick]
    exact ⟨hsound, fun hdone => hsound.settled (hreport hdone)⟩
  · rw [htick] at hprovided ⊢
    have hpassed : passed.closing = false := hserves.closing.trans hopen
    have hnow := settle_sound callback hpassed
      (hserves.sound (hprovided.of_prefix (settle_log _ hpassed)) hsound.sound)
    exact ⟨hnow, fun hdone => hnow.settled (Option.some.inj hdone)⟩

theorem close_log (close : Salts) (steps : List ShutdownReplies) (driver : DriverState) :
    driver.log <+: (praktorProcessDriverClose callback peerClosed close steps driver).2.log := by
  unfold praktorProcessDriverClose
  split
  · exact List.prefix_rfl
  dsimp only
  have hbegun : driver.log <+: driver.close.log := List.prefix_append _ _
  generalize driver.close = begun at hbegun ⊢
  split
  · have hclosed : begun.log <+:
        (if close ≠ .ok ∧ close ≠ .ebusy then begun.fail "close" (.salts close) else begun).log := by
      split
      · exact (Advances.fail _ _ _).log
      · exact List.prefix_rfl
    generalize (if close ≠ .ok ∧ close ≠ .ebusy then begun.fail "close" (.salts close) else begun) =
      closed at hclosed ⊢
    have hserves := shutdown_serves callback peerClosed
      (steps.take 4096) closed
    split
    · exact (hbegun.trans hclosed).trans hserves.log
    · exact (hbegun.trans hclosed).trans hserves.log
  · exact hbegun

theorem close_sound (close : Salts) (steps : List ShutdownReplies)
    (hsound : RunSound peerClosed driver)
    (hprovided :
      OneCompletion (praktorProcessDriverClose callback peerClosed close steps driver).2.log) :
    RunSound peerClosed (praktorProcessDriverClose callback peerClosed close steps driver).2 := by
  unfold praktorProcessDriverClose at hprovided ⊢
  split
  · exact hsound
  rename_i hattached
  rw [if_neg hattached] at hprovided
  dsimp only at hprovided ⊢
  have hbegun := hsound.closing
  generalize driver.close = begun at hbegun hprovided ⊢
  split
  · rename_i hlive
    rw [if_pos hlive] at hprovided
    have hclosed : RunSound peerClosed
        (if close ≠ .ok ∧ close ≠ .ebusy then begun.fail "close" (.salts close) else begun) := by
      split
      · exact hbegun.fail _ _
      · exact hbegun
    generalize (if close ≠ .ok ∧ close ≠ .ebusy then begun.fail "close" (.salts close) else begun) =
      closed at hclosed hprovided ⊢
    have hshutdown := shutdown_sound callback (steps.take 4096) hclosed
    generalize shutdown callback peerClosed (steps.take 4096) closed = last
      at hshutdown hprovided ⊢
    split
    · rename_i hleft
      rw [if_pos hleft] at hprovided
      have hlast := hshutdown hprovided
      refine ⟨hlast.sound.remarked (.same ?_ rfl rfl rfl rfl rfl id), hlast.settled⟩
      exact ⟨rfl, rfl, rfl, rfl, rfl, rfl, rfl⟩
    · rename_i hleft
      rw [if_neg hleft] at hprovided
      exact hshutdown hprovided
  · exact hbegun

theorem release_remarked (retainer : Salts) (driver : DriverState) :
    Remarked driver (praktorProcessDriverRelease retainer driver).2 := by
  unfold praktorProcessDriverRelease
  split
  · exact .refl driver
  split
  · exact .refl driver
  split
  · exact .refl driver
  · exact .same ⟨rfl, rfl, rfl, rfl, rfl, rfl, rfl⟩ rfl rfl rfl rfl rfl id

theorem release_finished (retainer : Salts) (driver : DriverState) :
    (praktorProcessDriverRelease retainer driver).2.finished = driver.finished := by
  unfold praktorProcessDriverRelease
  split
  · rfl
  split
  · rfl
  split
  · rfl
  · rfl

/-- Remarks by which a driver does not go on. -/
theorem RunSound.remarked {before after : DriverState} (hsound : RunSound peerClosed before)
    (hremarked : Remarked before after) (hfinished : after.finished = before.finished) :
    RunSound peerClosed after := by
  refine ⟨hsound.sound.remarked hremarked, fun hdone => ?_⟩
  rcases hsound.settled (hremarked.done ▸ hdone) with hfailed | hlimited | hfinal
  · exact .inl (hremarked.failed hfailed)
  · exact .inr (.inl (hremarked.advances.limited hlimited))
  · exact .inr (.inr (hfinished.trans hfinal))

theorem terminate_remarked (reply : Salts) (driver : DriverState) :
    Remarked driver (terminate reply driver) := by
  unfold terminate
  split
  · exact .refl driver
  dsimp only
  generalize (if driver.closing then Salts.einval else reply) = code
  split
  · exact .fail _ _ _
  · exact .refl driver

theorem terminate_finished (reply : Salts) (driver : DriverState) :
    (terminate reply driver).finished = driver.finished := by
  unfold terminate
  split
  · rfl
  dsimp only
  generalize (if driver.closing then Salts.einval else reply) = code
  split
  · rfl
  · rfl

theorem performCall_log (driver : DriverState) (call : DriverCall) :
    driver.log <+: (performCall callback peerClosed driver call).log := by
  cases call with
  | tick first second => exact tick_log first second driver
  | completions events => exact (completions_serves _ _ events driver).log
  | terminate reply => exact (terminate_remarked reply driver).advances.log
  | close close steps => exact close_log close steps driver
  | release retainer => exact (release_remarked retainer driver).advances.log

/-- What one call keeps. -/
theorem performCall_sound (call : DriverCall) (hsound : RunSound peerClosed driver)
    (hprovided : OneCompletion (performCall callback peerClosed driver call).log) :
    RunSound peerClosed (performCall callback peerClosed driver call) := by
  cases call with
  | tick first second => exact (tick_sound _ _ first second hsound hprovided).1
  | completions events => exact completions_sound events hsound hprovided
  | terminate reply =>
      exact hsound.remarked (terminate_remarked reply driver) (terminate_finished reply driver)
  | close close steps => exact close_sound close steps hsound hprovided
  | release retainer =>
      exact hsound.remarked (release_remarked retainer driver) (release_finished retainer driver)

theorem start_sound (config : DriverConfig) :
    RunSound peerClosed (praktorProcessDriverStart config) := by
  have hempty : RunSound peerClosed
      { attached := true, live := config.live, reserved := config.reserved, input := config.input
        capacity := config.capacity, emits := config.emits } := by
    refine ⟨⟨⟨rfl, fun _ => rfl, by simp, by simp, justified_nil⟩,
      ⟨Nat.zero_le _, fun _ => by simp [openPart, acknowledgedBytes, acknowledgedFrom],
        Nat.zero_le _, fun _ => List.nil_prefix, fun _ _ => rfl, by simp, by simp⟩,
      by simp, justified_nil⟩, by simp⟩
  unfold praktorProcessDriverStart
  split
  · exact ⟨(hempty.sound.remarked (.fail _ _ _)).ended true, fun _ => .inl rfl⟩
  · exact hempty

variable (callback peerClosed) in
/-- What every run keeps while the provider delivers what was accepted. -/
theorem driverRun_sound (config : DriverConfig) (calls : List DriverCall)
    (hprovided : OneCompletion (driverRun callback peerClosed config calls).log) :
    RunSound peerClosed (driverRun callback peerClosed config calls) := by
  induction calls using List.reverseRecOn with
  | nil => exact start_sound config
  | append_singleton calls call ih =>
      unfold driverRun at hprovided ih ⊢
      rw [List.foldl_append] at hprovided ⊢
      exact performCall_sound call (ih (hprovided.of_prefix (performCall_log _ call))) hprovided

end Steps

/-! ## The contract -/

section Contract

variable (callback : List DriverEvent → Bytes → Salts) (peerClosed : Int → Bool)

/-- What the driver's streams are, by what the provider accepted, acknowledged and delivered
before closing began. -/
structure StreamContract (driver : DriverState) : Prop where
  flight : ∀ before, before <+: driver.log → ∀ stream, inFlight stream before ≤ 1
  offset : driver.inputOffset ≤ driver.input.length
  acknowledged : (∀ event ∈ openPart driver.log, event.endsInput peerClosed = false) →
    acknowledgedBytes (openPart driver.log) = driver.input.take driver.inputOffset
  room : (driver.output 0).length + (driver.output 1).length ≤ driver.capacity
  captured : ∀ index, driver.output index <+: deliveredOn index (openPart driver.log)
  kept : driver.limited = false →
    ∀ index, driver.output index = deliveredOn index (openPart driver.log)
  limited : driver.limited = true ↔
    (driver.output 0).length + (driver.output 1).length = driver.capacity ∧
      ∃ index, (driver.output index).length < (deliveredOn index (openPart driver.log)).length
  closing : driver.closing = true ↔ .closing ∈ driver.log
  silent : ∀ before index line code after,
    driver.log = before ++ .emitted index line code :: after → .closing ∉ before

variable {callback peerClosed} {driver : DriverState}

theorem DriverSound.contract (hsound : DriverSound peerClosed driver) :
    StreamContract peerClosed driver := by
  obtain ⟨hflight, hstreams, hquiet⟩ := hsound
  refine ⟨fun before hbefore stream => ?_, hstreams.offset, hstreams.acknowledged, hstreams.room,
    hstreams.captured, hstreams.kept, ⟨hstreams.dropped, ?_⟩, hstreams.closing, ?_⟩
  · exact inFlight_le_one (hflight.idle.of_prefix hbefore) stream
  · rintro ⟨-, index, hless⟩
    by_contra hlimited
    rw [hstreams.kept ((Bool.not_eq_true _).mp hlimited) index] at hless
    exact Nat.lt_irrefl _ hless
  · intro before index line code after hsplit
    exact hquiet.quiet before _ after hsplit rfl

/-- A completion that comes after closing has begun clears a flag. -/
theorem completion_closed {event : Completion} (hclosing : driver.closing = true)
    (hprovided : Provided driver.log (.completed event driver.room)) :
    ∃ inputPending pending, completion callback peerClosed driver event =
      { driver.saw (.completed event driver.room) with inputPending, pending } := by
  obtain ⟨stream, hstream, -⟩ := hprovided
  have hsaw : (driver.saw (.completed event driver.room)).closing = true := hclosing
  unfold completion
  rw [hstream]
  cases stream with
  | stdin =>
      dsimp only
      rw [if_pos hsaw]
      exact ⟨false, driver.pending, rfl⟩
  | stdout =>
      dsimp only
      rw [if_pos hsaw]
      exact ⟨driver.inputPending, Function.update driver.pending 0 false, rfl⟩
  | stderr =>
      dsimp only
      rw [if_pos hsaw]
      exact ⟨driver.inputPending, Function.update driver.pending 1 false, rfl⟩

/-- Nothing is in flight of a driver that has finished. -/
theorem FlightSound.finished (hflight : FlightSound driver) (hfinished : driver.finished = true) :
    driver.terminal = true ∧ driver.eof 0 = true ∧ driver.eof 1 = true ∧
      driver.inputClosed = true ∧ ∀ stream, inFlight stream driver.log = 0 := by
  simp only [DriverState.finished, Bool.and_eq_true, Bool.not_eq_true'] at hfinished
  obtain ⟨⟨⟨⟨⟨⟨hterminal, hstdout⟩, hstderr⟩, hinput⟩, hpending⟩, hfirst⟩, hsecond⟩ := hfinished
  refine ⟨hterminal, hstdout, hstderr, hinput, fun stream => ?_⟩
  unfold inFlight
  cases stream with
  | stdin => rw [hflight.input, hpending, Bool.toNat_false, Nat.add_zero, Nat.sub_self]
  | stdout =>
      have hreads := hflight.reads 0
      rw [hfirst] at hreads
      exact Nat.sub_eq_zero_of_le hreads.le
  | stderr =>
      have hreads := hflight.reads 1
      rw [hsecond] at hreads
      exact Nat.sub_eq_zero_of_le hreads.le

variable (callback peerClosed) in
/-- Whatever the order of ticks, completions, closing and release: while the provider delivers
one completion for a submission that it accepted, the streams are as the contract has them,
a completion after closing has begun clears a flag, and a tick reports that the driver is done
only when it has failed, was limited or has nothing left to do. -/
theorem praktorProcessDriver_streams (config : DriverConfig) (calls : List DriverCall)
    (hprovided : OneCompletion (driverRun callback peerClosed config calls).log) :
    StreamContract peerClosed (driverRun callback peerClosed config calls) ∧
      (∀ event, (driverRun callback peerClosed config calls).closing = true →
        Provided (driverRun callback peerClosed config calls).log
          (.completed event (driverRun callback peerClosed config calls).room) →
        ∃ inputPending pending,
          completion callback peerClosed (driverRun callback peerClosed config calls) event =
            { (driverRun callback peerClosed config calls).saw
                (.completed event (driverRun callback peerClosed config calls).room) with
              inputPending, pending }) ∧
      ∀ first second report after,
        praktorProcessDriverTick callback peerClosed first second
          (driverRun callback peerClosed config calls) = (report, after) →
        OneCompletion after.log → report.2 = some true →
          after.failed = true ∨ after.limited = true ∨
            after.terminal = true ∧ after.eof 0 = true ∧ after.eof 1 = true ∧
              after.inputClosed = true ∧ ∀ stream, inFlight stream after.log = 0 := by
  have hsound := driverRun_sound _ _ config calls hprovided
  refine ⟨hsound.sound.contract, fun event hclosing => completion_closed hclosing,
    fun first second report after htick hafter hreport => ?_⟩
  have htickSound := tick_sound callback peerClosed first second hsound
  rw [htick] at htickSound
  obtain ⟨hrun, hstops⟩ := htickSound hafter
  rcases hstops hreport with hfailed | hlimited | hfinished
  · exact .inl hfailed
  · exact .inr (.inl hlimited)
  · exact .inr (.inr (hrun.sound.flight.finished hfinished))

end Contract

/-! ### A write that is acknowledged late -/

/-- A pass in which the input is submitted, and nothing else is accepted. -/
def submittingPass : PassReplies :=
  { read := fun _ => .full, write := .accepted, closeStdin := .ebusy, completions := []
    ready := .ok, poll := .ebusy, result := {} }

/-- The acknowledgement of three bytes, while the driver closes. -/
def lateAcknowledgement : ShutdownReplies :=
  { completions := [{ stream := some .stdin, kind := .ok, bytes := 3 }]
    step := .ok, quiescent := true, settled := true, destroy := .ok }

/-- Three bytes of input are submitted, and acknowledged once closing has begun. -/
def lateRun : DriverState :=
  driverRun (fun _ _ => .ok) (fun _ => false) { input := [97, 98, 99], capacity := 8, emits := false }
    [.tick submittingPass submittingPass, .close .ok [lateAcknowledgement]]

theorem lateRun_log : lateRun.log =
    [.accepted .stdin [97, 98, 99], .closing,
      .completed { stream := some .stdin, kind := .ok, bytes := 3 } 8] := by
  decide +kernel

theorem lateRun_provided : OneCompletion lateRun.log := by
  rw [lateRun_log]
  have hfirst : Justified Provided [.accepted .stdin [97, 98, 99]] := justified_nil.snoc trivial
  have hsecond : Justified Provided [.accepted .stdin [97, 98, 99], .closing] :=
    hfirst.snoc trivial
  exact hsecond.snoc ⟨.stdin, rfl, by decide⟩

theorem praktorProcessDriver_streams_late :
    StreamContract (fun _ => false) lateRun :=
  (praktorProcessDriver_streams (fun _ _ => .ok) (fun _ => false)
    { input := [97, 98, 99], capacity := 8, emits := false }
    [.tick submittingPass submittingPass, .close .ok [lateAcknowledgement]] lateRun_provided).1

/-- What is acknowledged once closing has begun is not counted as written. -/
theorem acknowledged_after_closing :
    OneCompletion lateRun.log ∧
      (∀ event ∈ lateRun.log, event.endsInput (fun _ => false) = false) ∧
      acknowledgedBytes lateRun.log ≠ lateRun.input.take lateRun.inputOffset := by
  refine ⟨lateRun_provided, ?_, ?_⟩
  · rw [lateRun_log]
    decide
  · decide +kernel

end Praktor.Process
