/-
# The driver of a process

`process_driver.c`: the single driver that feeds a native process its input and captures
what it writes.  The process is run by an I/O provider that is not part of these sources:
what it answers and which completions it delivers is data of the calls below.  A completion
may come at any time, also after the driver has begun to close.

The log records what the provider accepted and delivered and what was handed to the
callback.  It is not part of the source's state; nothing the driver does depends on it.
-/

import Praktor.Data.Bytes
import Mathlib.Logic.Function.Basic

namespace Praktor.Process

open Praktor.Data

/-! ## The provider -/

/-- `cflow_process_stream`. -/
inductive ProcessStream
  | stdin
  | stdout
  | stderr
  deriving DecidableEq, Repr

/-- The stream that is captured under an index. -/
def outputStream (index : Fin 2) : ProcessStream := if index = 0 then .stdout else .stderr

/-- The kind of a completion; `other` is any kind that the driver does not name. -/
inductive CompletionKind
  | ok
  | eof
  | failed
  | other
  deriving DecidableEq, Repr

/-- `cflow_io_completion` with the stream it is for.  There is no stream where the number is
none of the enumeration's.  A write tells how many bytes it wrote, a read leaves them in the
buffer. -/
structure Completion where
  stream : Option ProcessStream
  kind : CompletionKind
  bytes : Nat := 0
  data : Bytes := []
  error : Int := 0
  deriving DecidableEq

/-- `cflow_process_submit_result`; `refused` is any other status. -/
inductive SubmitStatus
  | accepted
  | full
  | leaseInUse
  | refused (status : Int)
  deriving DecidableEq, Repr

/-- `cmeta_process_state_t`; `other` is any state that the sources do not name. -/
inductive NativeState
  | exited
  | signaled
  | timedOut
  | terminated
  | outputLimitExceeded
  | other
  deriving DecidableEq, Repr

/-- `cmeta_process_result_t`. -/
structure ProcessResult where
  state : NativeState := .other
  exitCode : Int := -1
  pid : Int := -1
  deriving DecidableEq

/-- What the provider answers in a pass of `praktor_process_driver_tick`. -/
structure PassReplies where
  read : Fin 2 → SubmitStatus
  write : SubmitStatus
  closeStdin : Salts
  completions : List Completion
  ready : Salts
  poll : Salts
  result : ProcessResult

/-- What the provider answers in a step of `praktor_process_driver_close`. -/
structure ShutdownReplies where
  completions : List Completion
  step : Salts
  quiescent : Bool
  settled : Bool
  destroy : Salts

/-! ## The state -/

/-- The status of a failure, by where it comes from. -/
inductive FailureStatus
  | salts (code : Salts)
  | submit (status : SubmitStatus)
  | io (error : Int)
  deriving DecidableEq

/-- What the error text says. -/
inductive DriverError
  /-- `Salts::Process %s failed (status %d)` -/
  | failed (operation : String) (status : FailureStatus)
  /-- `Captured process output exceeded the configured limit` -/
  | limit
  /-- `Salts::Process still owns active I/O leases` -/
  | leases
  deriving DecidableEq

/-- What is logged of a run.  A completion goes with the room that was left for output, a
remainder with what is left of the line. -/
inductive DriverEvent
  | accepted (stream : ProcessStream) (buffer : Bytes)
  | completed (completion : Completion) (room : Nat)
  | emitted (index : Fin 2) (line : Bytes) (code : Salts)
  | flushing (index : Fin 2) (line : Bytes)
  | failure (operation : String)
  | closing
  deriving DecidableEq

/-- `process_state`, with the handle that owns it and the log.  The captured bytes and the
line of a stream are what the source keeps in a buffer with a size, and `inputBuffer` is the
chunk of input that was submitted last. -/
structure DriverState where
  attached : Bool
  live : Bool
  reserved : Bool
  closing : Bool := false
  done : Bool := false
  failed : Bool := false
  limited : Bool := false
  terminal : Bool := false
  inputPending : Bool := false
  inputClosed : Bool := false
  pending : Fin 2 → Bool := fun _ => false
  eof : Fin 2 → Bool := fun _ => false
  input : Bytes
  inputOffset : Nat := 0
  inputBuffer : Bytes := []
  capacity : Nat
  output : Fin 2 → Bytes := fun _ => []
  line : Fin 2 → Bytes := fun _ => []
  result : ProcessResult := {}
  emits : Bool
  error : Option DriverError := none
  log : List DriverEvent := []

namespace DriverState

/-- One more entry of the log. -/
def saw (driver : DriverState) (event : DriverEvent) : DriverState :=
  { driver with log := driver.log ++ [event] }

/-- `fail`: the first error keeps its text. -/
def fail (driver : DriverState) (operation : String) (status : FailureStatus) : DriverState :=
  { driver with
    failed := true
    error := driver.error.or (some (.failed operation status))
    log := driver.log ++ [.failure operation] }

/-- Closing has begun, and no line is handed over any more. -/
def close (driver : DriverState) : DriverState :=
  { driver.saw .closing with closing := true, emits := false }

/-- The room that is left for output. -/
def room (driver : DriverState) : Nat :=
  driver.capacity - (driver.output 0).length - (driver.output 1).length

end DriverState

section Driver

-- the callback answers by what was logged before and by the line, and the platform knows
-- which errors mean that the peer has closed the pipe
variable (callback : List DriverEvent → Bytes → Salts) (peerClosed : Int → Bool)

/-! ## Completions -/

/-- The loop of `emit_bytes`. -/
def emitBytes (index : Fin 2) : Bytes → DriverState → DriverState
  | [], driver => driver
  | byte :: rest, driver =>
      if byte = 13 then emitBytes index rest driver
      else if byte = 10 then
        let code := callback driver.log (driver.line index)
        let emitted := driver.saw (.emitted index (driver.line index) code)
        if code ≠ .ok then emitted.fail "stream callback" (.salts .eio)
        else emitBytes index rest { emitted with line := Function.update emitted.line index [] }
      else if (driver.line index).length = driver.capacity then
        driver.fail "stream line capacity" (.salts .enobufs)
      else
        emitBytes index rest
          { driver with
            line := Function.update driver.line index (driver.line index ++ [byte]) }

/-- `completion` for the input, once its flag is cleared and the driver is not closing. -/
def inputCompleted (driver : DriverState) (event : Completion) : DriverState :=
  match event.kind with
  | .ok =>
      if event.bytes = 0 ∨ event.bytes > driver.inputBuffer.length then
        driver.fail "stdin progress" (.salts .eio)
      else
        { driver with inputOffset := driver.inputOffset + event.bytes }
  | .eof => { driver with inputOffset := driver.input.length }
  | .failed =>
      if peerClosed event.error then { driver with inputOffset := driver.input.length }
      else driver.fail "stdin I/O" (.io event.error)
  | .other => driver.fail "stdin I/O" (.io event.error)

/-- `completion` for an output, once its flag is cleared and the driver is not closing. -/
def outputCompleted (index : Fin 2) (driver : DriverState) (event : Completion) : DriverState :=
  match event.kind with
  | .eof => { driver with eof := Function.update driver.eof index true }
  | .ok =>
      if event.data.length > 4096 then driver.fail "read I/O" (.io event.error)
      else
        let accepted := event.data.take (min event.data.length driver.room)
        let captured :=
          { driver with
            output := Function.update driver.output index (driver.output index ++ accepted) }
        let emitted := if captured.emits then emitBytes callback index accepted captured else captured
        if accepted.length ≠ event.data.length then
          { emitted with limited := true, error := emitted.error.or (some .limit) }
        else
          emitted
  | .failed | .other => driver.fail "read I/O" (.io event.error)

/-- `completion`. -/
def completion (driver : DriverState) (event : Completion) : DriverState :=
  let logged := driver.saw (.completed event driver.room)
  match event.stream with
  | none => logged.fail "completion stream" (.salts .einval)
  | some .stdin =>
      let cleared := { logged with inputPending := false }
      if cleared.closing then cleared else inputCompleted peerClosed cleared event
  | some .stdout =>
      let cleared := { logged with pending := Function.update logged.pending 0 false }
      if cleared.closing then cleared else outputCompleted callback 0 cleared event
  | some .stderr =>
      let cleared := { logged with pending := Function.update logged.pending 1 false }
      if cleared.closing then cleared else outputCompleted callback 1 cleared event

/-- The completions of a call of the provider. -/
def completions (driver : DriverState) (events : List Completion) : DriverState :=
  events.foldl (completion callback peerClosed) driver

/-! ## Submissions -/

/-- `submit_read`. -/
def submitRead (status : SubmitStatus) (index : Fin 2) (driver : DriverState) : DriverState :=
  if driver.pending index || driver.eof index then driver
  else
    match status with
    | .accepted =>
        { driver.saw (.accepted (outputStream index) []) with
          pending := Function.update driver.pending index true }
    | .full | .leaseInUse => driver
    | .refused status => driver.fail "read submission" (.submit (.refused status))

/-- `submit_input`. -/
def submitInput (write : SubmitStatus) (closeStdin : Salts) (driver : DriverState) : DriverState :=
  if driver.inputPending || driver.inputClosed then driver
  else if !driver.terminal && decide (driver.inputOffset < driver.input.length) then
    let chunk := (driver.input.drop driver.inputOffset).take 4096
    let filled := { driver with inputBuffer := chunk }
    match write with
    | .accepted => { filled.saw (.accepted .stdin chunk) with inputPending := true }
    | .full => filled
    | .leaseInUse => filled.fail "stdin submission" (.submit .leaseInUse)
    | .refused status => filled.fail "stdin submission" (.submit (.refused status))
  else if closeStdin = .ok then { driver with inputClosed := true }
  else if closeStdin ≠ .ebusy then driver.fail "stdin close" (.salts closeStdin)
  else driver

/-! ## Ticks -/

/-- A pass of `praktor_process_driver_tick`. -/
def pass (replies : PassReplies) (driver : DriverState) : DriverState :=
  let submitted := submitInput replies.write replies.closeStdin
    (submitRead (replies.read 1) 1 (submitRead (replies.read 0) 0 driver))
  let driven := completions callback peerClosed submitted replies.completions
  let ready := if replies.ready ≠ .ok then driven.fail "driver" (.salts replies.ready) else driven
  let polled := { ready with result := replies.result }
  if replies.poll = .ok then { polled with terminal := true }
  else if replies.poll ≠ .ebusy then polled.fail "poll" (.salts replies.poll)
  else polled

/-- A pass that is made only while nothing has failed and nothing was dropped. -/
def passUnlessStopped (replies : PassReplies) (driver : DriverState) : DriverState :=
  if driver.failed || driver.limited then driver else pass callback peerClosed replies driver

/-- What is left of a line is handed to the callback at the end. -/
def flush (index : Fin 2) (driver : DriverState) : DriverState :=
  let line := driver.line index
  let flushing := driver.saw (.flushing index line)
  let code := callback flushing.log line
  let flushed :=
    if line = [] then flushing
    else
      let emitted := flushing.saw (.emitted index line code)
      if code ≠ .ok then emitted.fail "stream callback" (.salts .eio) else emitted
  { flushed with line := Function.update flushed.line index [] }

namespace DriverState

/-- The process is over, both outputs have ended, the input is closed and nothing is in
flight. -/
def finished (driver : DriverState) : Bool :=
  driver.terminal && driver.eof 0 && driver.eof 1 && driver.inputClosed && !driver.inputPending &&
    !driver.pending 0 && !driver.pending 1

/-- It is noted whether the driver is done. -/
def marked (driver : DriverState) : DriverState :=
  { driver with done := driver.failed || driver.limited || driver.finished }

end DriverState

/-- The end of a tick: it is noted whether the driver is done, and what is left of the lines is
handed over. -/
def settle (driver : DriverState) : DriverState :=
  let marked := driver.marked
  if marked.done && marked.emits && !marked.failed then
    flush callback 1 (flush callback 0 marked)
  else
    marked

/-- `praktor_process_driver_tick`: its code, what it reports, if anything, and the state. -/
def praktorProcessDriverTick (first second : PassReplies) (driver : DriverState) :
    (Salts × Option Bool) × DriverState :=
  if !driver.attached then ((.einval, none), driver)
  else if driver.closing then ((.ebusy, none), driver)
  else if driver.done then ((.ok, some true), driver)
  else
    let settled := settle callback (passUnlessStopped callback peerClosed second
      (passUnlessStopped callback peerClosed first driver))
    ((.ok, some settled.done), settled)

/-! ## Closing -/

/-- The loop of `praktor_process_driver_close`: as many steps as the budget allows. -/
def shutdown : List ShutdownReplies → DriverState → DriverState
  | [], driver => driver
  | replies :: rest, driver =>
      let driven := completions callback peerClosed driver replies.completions
      if replies.step ≠ .ok ∧ replies.step ≠ .ebusy then
        driven.fail "shutdown step" (.salts replies.step)
      else if replies.quiescent && replies.settled then
        if replies.destroy ≠ .ok then driven.fail "destroy" (.salts replies.destroy)
        else { driven with live := false }
      else
        shutdown rest driven

/-- `praktor_process_driver_close`. -/
def praktorProcessDriverClose (close : Salts) (steps : List ShutdownReplies)
    (driver : DriverState) : Salts × DriverState :=
  if !driver.attached then (.einval, driver)
  else
    let closing := driver.close
    if closing.live then
      let closed :=
        if close ≠ .ok ∧ close ≠ .ebusy then closing.fail "close" (.salts close) else closing
      let last := shutdown callback peerClosed (steps.take 4096) closed
      if last.live then (.ebusy, { last with error := last.error.or (some .leases) })
      else (if last.failed then .eio else .ok, last)
    else
      (if closing.failed then .eio else .ok, closing)

/-- `praktor_process_driver_release`; `retainer` is what the retainer answers.  The state
outlives its handle where the retainer adopts it. -/
def praktorProcessDriverRelease (retainer : Salts) (driver : DriverState) : Salts × DriverState :=
  if !driver.attached then (.einval, driver)
  else if driver.live && (!driver.closing || !driver.reserved) then (.ebusy, driver)
  else if driver.reserved && decide (retainer ≠ .ok) then (retainer, driver)
  else (.ok, { driver with attached := false })

/-- `praktor_process_driver_run` ends a process that is cancelled. -/
def terminate (reply : Salts) (driver : DriverState) : DriverState :=
  if !driver.attached then driver
  else
    let code := if driver.closing then .einval else reply
    if code ≠ .ok then driver.fail "terminate" (.salts code) else driver

/-! ## Runs -/

/-- What a driver is started with, and what the provider answers to that. -/
structure DriverConfig where
  input : Bytes
  capacity : Nat
  emits : Bool
  reserved : Bool := false
  start : Salts := .ok
  live : Bool := true

/-- `praktor_process_driver_start`, once its checks and allocations went well. -/
def praktorProcessDriverStart (config : DriverConfig) : DriverState :=
  let driver : DriverState :=
    { attached := true, live := config.live, reserved := config.reserved, input := config.input
      capacity := config.capacity, emits := config.emits }
  if config.start ≠ .ok then { driver.fail "start" (.salts config.start) with done := true }
  else driver

/-- What may happen to a driver. -/
inductive DriverCall
  | tick (first second : PassReplies)
  | completions (events : List Completion)
  | terminate (reply : Salts)
  | close (close : Salts) (steps : List ShutdownReplies)
  | release (retainer : Salts)

/-- The state after a call. -/
def performCall (driver : DriverState) : DriverCall → DriverState
  | .tick first second => (praktorProcessDriverTick callback peerClosed first second driver).2
  | .completions events => completions callback peerClosed driver events
  | .terminate reply => terminate reply driver
  | .close close steps => (praktorProcessDriverClose callback peerClosed close steps driver).2
  | .release retainer => (praktorProcessDriverRelease retainer driver).2

/-- The state after a run. -/
def driverRun (config : DriverConfig) (calls : List DriverCall) : DriverState :=
  calls.foldl (performCall callback peerClosed) (praktorProcessDriverStart config)

end Driver

end Praktor.Process
