/-
# Control of a managed process

`process_control.c`: the status of an application that is known by its image name, and
starting, stopping and restarting it through the calls of a host.  The calls of the host
and the readings of its clock form the trace of an execution.

A null request, host, result or callback is not modelled: such a call returns `EINVAL`
before anything is called.
-/

import Praktor.Data.Bytes
import Praktor.Math.Interaction

namespace Praktor.Process

open Praktor.Data Praktor.Math

/-- `praktor_process_operation`. -/
inductive ProcessOperation
  | status
  | start
  | stop
  | restart
  deriving DecidableEq, Repr

/-- `praktor_process_control_error`. -/
inductive ProcessControlError
  | none
  | invalidParameters
  | backendFailure
  | timeout
  | unsupportedPlatform
  deriving DecidableEq, Repr

/-- `praktor_process_snapshot`. -/
structure ProcessSnapshot where
  running : Bool := false
  pid : UInt32 := 0
  sessionId : UInt32 := 0
  instanceToken : UInt64 := 0
  canonicalImageName : Option CString := none
  deriving DecidableEq

/-- `praktor_process_control_request`.  There is no operation where the number is none of
the enumeration's. -/
structure ProcessControlRequest where
  operation : Option ProcessOperation
  imageName : Option CString
  executable : Option CString
  arguments : List CString := []
  workingDirectory : Option CString := none
  startupTimeoutMs : Int64
  stopTimeoutMs : Int64
  forceTerminate : Bool := false
  deriving DecidableEq

/-- `praktor_process_backend_result`. -/
structure ProcessBackendResult where
  ok : Bool
  nativeError : Int := 0
  message : Option CString := none
  deriving DecidableEq

/-- A call of the host, with the reply to it. -/
inductive ControlEvent
  | clock (reading : UInt64)
  | query (imageName : Option CString) (reply : ProcessBackendResult) (snapshot : ProcessSnapshot)
  | start (reply : ProcessBackendResult) (started : ProcessSnapshot)
  | requestStop (target : ProcessSnapshot) (reply : ProcessBackendResult)
  | terminate (target : ProcessSnapshot) (reply : ProcessBackendResult)
  | sleep (ms : UInt32)
  deriving DecidableEq

/-- `praktor_process_control_host`: what each call answers after the calls so far. -/
structure ProcessControlHost where
  query : List ControlEvent → Option CString → ProcessBackendResult × ProcessSnapshot
  start : List ControlEvent → ProcessControlRequest → ProcessBackendResult × ProcessSnapshot
  requestStop : List ControlEvent → ProcessSnapshot → ProcessBackendResult
  terminate : List ControlEvent → ProcessSnapshot → ProcessBackendResult
  nowNs : List ControlEvent → UInt64
  pollIntervalMs : UInt64

/-- `praktor_process_control_result`. -/
structure ProcessControlResult where
  ok : Bool := false
  changed : Bool := false
  snapshot : ProcessSnapshot := {}
  error : ProcessControlError := .none
  nativeError : Int := 0
  phase : String := ""
  message : CString := CString.literal ""
  durationMs : UInt64 := 0
  deriving DecidableEq

/-- The result so far and the calls so far, first call first. -/
structure Control where
  result : ProcessControlResult := {}
  trace : List ControlEvent := []
  deriving DecidableEq

/-- One more call of the host. -/
def Control.saw (control : Control) (event : ControlEvent) : Control :=
  { control with trace := control.trace ++ [event] }

/-- A computation that calls the host. -/
abbrev ControlM := Interaction Control

section Control

variable (request : ProcessControlRequest) (host : ProcessControlHost)

/-- `now`. -/
def now : ControlM UInt64 :=
  modifyGet fun control =>
    let reading := host.nowNs control.trace
    (reading, control.saw (.clock reading))

/-- `fail`. -/
def fail (error : ProcessControlError) (phase : String) (message : CString) (nativeError : Int) :
    ControlM Bool :=
  modifyGet fun control =>
    (false, { control with result := { control.result with error, phase, message, nativeError } })

/-- `backend`. -/
def backend (reply : ProcessBackendResult) (phase : String) : ControlM Bool :=
  if reply.ok then pure true
  else
    fail
      (if reply.message = some (CString.literal "unsupported_platform") then .unsupportedPlatform
        else .backendFailure)
      phase (reply.message.getD (CString.literal "")) reply.nativeError

/-- `query`. -/
def query (phase : String) : ControlM Bool := do
  let (reply, snapshot) ← modifyGet fun control =>
    let answer := host.query control.trace request.imageName
    (answer, control.saw (.query request.imageName answer.1 answer.2))
  if ← backend reply phase then
    modifyGet fun control =>
      (true, { control with result := { control.result with snapshot } })
  else
    pure false

/-- `expired`. -/
def expired (began budget : UInt64) : ControlM Bool := do
  let reading ← now host
  pure (decide (budget ≤ reading - began))

/-- `pause_poll`. -/
def pausePoll (began budget : UInt64) : ControlM Unit := do
  let reading ← now host
  let elapsed := reading - began
  if budget ≤ elapsed then
    pure ()
  else
    let ms := min ((budget - elapsed) / 1000000) host.pollIntervalMs
    modifyGet fun control => ((), control.saw (.sleep (min ms 4294967295).toUInt32))

/-- How a poll loop was left: by a failed query, by reaching what it waits for, or by the
deadline. -/
inductive Polled
  | failed
  | reached
  | late
  deriving DecidableEq, Repr

/-- A round of `poll_for_stopped`. -/
def stoppedRound (began budget : UInt64) (phase : String) : ControlM (Option Polled) := do
  if ← expired host began budget then
    pure (some .late)
  else if !(← query request host phase) then
    pure (some .failed)
  else if ← expired host began budget then
    pure (some .late)
  else if !(← get).result.snapshot.running then
    pure (some .reached)
  else do
    pausePoll host began budget
    pure none

/-- `poll_for_stopped`. -/
def pollForStopped (rounds : Nat) (began budget : UInt64) (phase : String) : ControlM Bool := do
  match ← Interaction.repeatUntil rounds (stoppedRound request host began budget phase) with
  | .failed => pure false
  | .reached => pure true
  | .late =>
      fail .timeout phase
        (CString.literal "managed process did not reach not_running before the deadline") 0

/-- A round of the poll loop of `start`. -/
def startRound (began budget : UInt64) : ControlM (Option Polled) := do
  if !(← query request host "start_poll") then
    pure (some .failed)
  else if ← (do
      if (← get).result.snapshot.running then
        pure (!(← expired host began budget))
      else
        pure false) then
    pure (some .reached)
  else if ← expired host began budget then
    pure (some .late)
  else do
    pausePoll host began budget
    pure none

/-- A time in nanoseconds. -/
def nanoseconds (ms : Int64) : UInt64 := ms.toUInt64 * 1000000

/-- What `start` does once the process has not come up in time. -/
def startLate (rounds : Nat) (started : ProcessSnapshot) : ControlM Bool := do
  if !(← query request host "start_timeout_query") then
    modifyGet fun control =>
      (false, { control with result := { control.result with snapshot := started } })
  else if ← (do
      if (← get).result.snapshot.running then do
        -- only the process that was started is terminated, never a replacement
        let reply ← modifyGet fun control =>
          let reply := host.terminate control.trace started
          (reply, control.saw (.terminate started reply))
        if ← backend reply "start_timeout_terminate" then do
          let cleanup ← now host
          pollForStopped request host rounds cleanup (nanoseconds request.stopTimeoutMs)
            "start_timeout_cleanup_poll"
        else
          pure false
      else
        pure true) then
    fail .timeout "start_poll"
      (CString.literal "managed process startup exceeded the deadline") 0
  else
    pure false

/-- `start`. -/
def start (rounds : Nat) : ControlM Bool := do
  if (← get).result.snapshot.running then
    pure true
  else do
    let began ← now host
    let (reply, started) ← modifyGet fun control =>
      let answer := host.start control.trace request
      (answer, control.saw (.start answer.1 answer.2))
    if !(← backend reply "start") then
      pure false
    else do
      modifyGet fun control =>
        ((), { control with
          result := { control.result with snapshot := started, changed := true } })
      match ← Interaction.repeatUntil rounds
          (startRound request host began (nanoseconds request.startupTimeoutMs)) with
      | .failed => pure false
      | .reached => pure true
      | .late => startLate request host rounds started

/-- What `stop` does once the process has not gone in time. -/
def forceStop (rounds : Nat) (budget : UInt64) : ControlM Bool := do
  modifyGet fun control =>
    ((), { control with
      result := { control.result with
        error := .none, nativeError := 0, phase := "", message := CString.literal "" } })
  if !(← query request host "force_query") then
    pure false
  else if !(← get).result.snapshot.running then
    pure true
  else do
    let reply ← modifyGet fun control =>
      let target := control.result.snapshot
      let reply := host.terminate control.trace target
      (reply, control.saw (.terminate target reply))
    if !(← backend reply "terminate") then
      pure false
    else do
      let terminated ← now host
      pollForStopped request host rounds terminated budget "terminate_poll"

/-- `stop`. -/
def stop (rounds : Nat) : ControlM Bool := do
  let budget := nanoseconds request.stopTimeoutMs
  if !(← get).result.snapshot.running then
    pure true
  else do
    let reply ← modifyGet fun control =>
      let target := control.result.snapshot
      let reply := host.requestStop control.trace target
      (reply, control.saw (.requestStop target reply))
    if !(← backend reply "request_stop") then
      pure false
    else do
      modifyGet fun control =>
        ((), { control with result := { control.result with changed := true } })
      let requested ← now host
      if ← pollForStopped request host rounds requested budget "stop_poll" then
        pure true
      else if (← get).result.error ≠ .timeout ∨ !request.forceTerminate then
        pure false
      else
        forceStop request host rounds budget

/-- A text that is there and not empty. -/
def present (text : Option CString) : Bool :=
  match text with
  | none => false
  | some text => !text.bytes.isEmpty

/-- The check of `praktor_process_control_execute` on its request. -/
def valid : Bool :=
  request.operation.isSome && present request.imageName &&
    decide (0 < request.startupTimeoutMs) && decide (0 < request.stopTimeoutMs) &&
    decide (request.startupTimeoutMs.toUInt64 ≤ 18446744073709551615 / 1000000) &&
    decide (request.stopTimeoutMs.toUInt64 ≤ 18446744073709551615 / 1000000) &&
    (decide (request.operation ≠ some .start ∧ request.operation ≠ some .restart) ||
      present request.executable)

/-- What a valid request does after the first query. -/
def perform (rounds : Nat) : ProcessOperation → ControlM Bool
  | .status => pure true
  | .start => start request host rounds
  | .stop => stop request host rounds
  | .restart => do
      if !(← stop request host rounds) then
        pure false
      else if !(← query request host "restart_query") then
        pure false
      else
        start request host rounds

/-- `praktor_process_control_execute` on a host that is complete. -/
def control (rounds : Nat) : ControlM Unit := do
  let began ← now host
  let ok ← (do
    if !valid request then
      fail .invalidParameters "validate"
        (CString.literal "managed process parameters are invalid") 0
    else if ← query request host "query" then
      match request.operation with
      | none => pure false
      | some operation => perform request host rounds operation
    else
      pure false)
  modifyGet fun control => ((), { control with result := { control.result with ok } })
  let ended ← now host
  modifyGet fun control =>
    ((), { control with result := { control.result with durationMs := (ended - began) / 1000000 } })

/-- `praktor_process_control_execute`: its code, once it returns, and the result and the
trace by then. -/
def praktorProcessControlExecute (rounds : Nat) : Option Salts × Control :=
  if host.pollIntervalMs = 0 then (some .einval, {})
  else
    match Interaction.outcome (control request host rounds) {} with
    | (some _, last) => (some .ok, last)
    | (none, paused) => (none, paused)

end Control

end Praktor.Process
