/-
# Control of a service by commands

`service_control.c`: the status of a system service, and starting, stopping and restarting
it by the commands of a profile.  The command lines are rendered into a bounded scratch
before anything runs.  The commands, the readings of the clock and the pauses form the
trace of an execution.

Null pointers to the control, the request, the host, the result and the run callback are
not modelled: such a call returns `EINVAL` before anything is called.
-/

import Praktor.Data.Bytes
import Praktor.Math.Interaction
import Praktor.Process.ProcessControl

namespace Praktor.Process

open Praktor.Data Praktor.Math

/-- `praktor_process_state`. -/
inductive ProcessState
  | starting
  | running
  | cancelling
  | exited
  | signaled
  | timedOut
  | cancelled
  | spawnFailed
  | waitFailed
  | outputLimitExceeded
  deriving DecidableEq, Repr

/-- `praktor_service_state`. -/
inductive ServiceState
  | unknown
  | stopped
  | startPending
  | stopPending
  | running
  deriving DecidableEq, Repr

/-- `praktor_service_state_name`. -/
def ServiceState.name : ServiceState → String
  | .stopped => "stopped"
  | .startPending => "start_pending"
  | .stopPending => "stop_pending"
  | .running => "running"
  | .unknown => ""

/-- `praktor_service_error`. -/
inductive ServiceError
  | none
  | invalid
  | stateFailed
  | spawnFailed
  | timeout
  | cancelled
  deriving DecidableEq, Repr

/-! ## Reading a state -/

/-- A state by its number in the output of a status command. -/
def supportedState : Nat → Option ServiceState
  | 1 => some .stopped
  | 2 => some .startPending
  | 3 => some .stopPending
  | 4 => some .running
  | _ => none

/-- `isspace` of the C locale. -/
def isSpace (byte : UInt8) : Bool := byte = 32 || decide (9 ≤ byte ∧ byte ≤ 13)

/-- The number of a `STATE` field: its digits up to a space or the end of the line.  `seen`
tells whether there was a digit. -/
def stateNumber (value : Nat) (seen : Bool) : Bytes → Option ServiceState
  | [] => if seen then supportedState value else none
  | byte :: rest =>
      if 48 ≤ byte ∧ byte ≤ 57 then
        let next := (byte - 48).toNat
        if value > (2147483647 - next) / 10 then none
        else stateNumber (value * 10 + next) true rest
      else if seen && isSpace byte then supportedState value
      else none

/-- What follows `STATE` on its line. -/
def stateField (rest : Bytes) : Option ServiceState :=
  match rest.dropWhile (· ≠ 58) with
  | [] => none
  | _ :: field => stateNumber 0 false (field.dropWhile fun byte => byte = 32 || byte = 9)

/-- A line of the output: nothing when it is no `STATE` line, and else the state it gives, if
it is a supported one. -/
def stateLine (line : Bytes) : Option (Option ServiceState) :=
  let text := line.dropWhile fun byte => byte = 32 || byte = 9 || byte = 13
  if text.take 5 = ascii "STATE" then
    match text.drop 5 with
    | [] => some (stateField [])
    | byte :: rest =>
        if byte = 58 || byte = 32 || byte = 9 then some (stateField (byte :: rest)) else none
  else
    none

/-- `praktor_service_parse_state`: the first `STATE` line decides. -/
def praktorServiceParseState (output : Bytes) : Option ServiceState :=
  ((output.splitOn 10).findSome? stateLine).join

/-! ## Requests and hosts -/

/-- `praktor_service_args`: a null array with a count, or an array. -/
inductive ServiceArgs
  | null (count : Nat)
  | values (texts : List (Option CString))
  deriving DecidableEq

namespace ServiceArgs

/-- The count that goes with the array. -/
def count : ServiceArgs → Nat
  | null count => count
  | values texts => texts.length

/-- What is in the array. -/
def texts : ServiceArgs → List (Option CString)
  | null _ => []
  | values texts => texts

/-- A null array that is said to hold something. -/
def missing : ServiceArgs → Bool
  | null count => count != 0
  | values _ => false

end ServiceArgs

/-- `praktor_service_profile`. -/
structure ServiceProfile where
  program : Option CString
  status : ServiceArgs
  start : ServiceArgs
  stop : ServiceArgs
  deriving DecidableEq

/-- `praktor_service_request`.  There is no operation where the number is none of the
enumeration's. -/
structure ServiceRequest where
  operation : Option ProcessOperation
  name : Option CString
  profileName : Option CString
  profile : Option ServiceProfile
  arguments : ServiceArgs := .values []
  timeoutMs : Int64
  pollIntervalMs : Int64
  deriving DecidableEq

/-- `praktor_service_config`. -/
structure ServiceConfig where
  maxArguments : Nat
  maxMetadataBytes : Nat
  maxOutputBytes : Nat
  deriving DecidableEq

/-- `praktor_service_command`. -/
structure ServiceCommand where
  program : CString
  arguments : List CString
  timeoutMs : UInt32
  maxOutputBytes : Nat
  deriving DecidableEq

/-- The output of a command: a null pointer with a size, or the bytes. -/
inductive ServiceOutput
  | null (size : Nat)
  | held (content : Bytes)
  deriving DecidableEq

namespace ServiceOutput

/-- The size that goes with the output. -/
def size : ServiceOutput → Nat
  | null size => size
  | held content => content.length

/-- What can be read of the output. -/
def read : ServiceOutput → Bytes
  | null _ => []
  | held content => content

/-- A null pointer that is said to point to something. -/
def missing : ServiceOutput → Bool
  | null size => size != 0
  | held _ => false

end ServiceOutput

/-- What the run callback returns and the `praktor_service_response` it leaves. -/
structure ServiceReply where
  code : Salts
  state : ProcessState := .waitFailed
  exitCode : Int := 0
  output : ServiceOutput := .null 0
  failureMessage : Option CString := none
  deriving DecidableEq

/-- The three commands of a profile. -/
inductive CommandSlot
  | status
  | start
  | stop
  deriving DecidableEq, Repr

/-- A call of the host, with the reply to it. -/
inductive ServiceEvent
  | clock (reading : UInt64)
  | run (slot : CommandSlot) (command : ServiceCommand) (reply : ServiceReply)
  | sleep (ms : UInt32)
  deriving DecidableEq

/-- `praktor_service_host`: what each call answers after the calls so far. -/
structure ServiceHost where
  run : List ServiceEvent → ServiceCommand → ServiceReply
  nowNs : List ServiceEvent → UInt64

/-- `praktor_service_result`. -/
structure ServiceResult where
  ok : Bool := false
  changed : Bool := false
  includeState : Bool := false
  includeProcess : Bool := false
  state : ServiceState := .unknown
  error : ServiceError := .none
  processState : ProcessState := .starting
  exitCode : Int := 0
  phase : String := ""
  message : CString := CString.literal ""
  durationMs : UInt64 := 0
  deriving DecidableEq

/-- `praktor_service_control`: its configuration, and whether it is inside an execution. -/
structure ServiceControl where
  config : ServiceConfig
  busy : Bool := false

/-! ## Rendering -/

section Rendering

variable (config : ServiceConfig) (request : ServiceRequest)

/-- `text_size`. -/
def textSize (text : Option CString) : Option (CString × Nat) := do
  let text ← text
  if text.length < config.maxMetadataBytes then some (text, text.length) else none

/-- `add`: the scratch in use with so much more in it. -/
def add (used size : Nat) : Option Nat :=
  if size > config.maxMetadataBytes - used then none else some (used + size)

/-- `copy`. -/
def copy (used : Nat) (text : Option CString) : Option (CString × Nat) := do
  let (text, size) ← textSize config text
  let used ← add config used (size + 1)
  pure (text, used)

/-- The loop of `render` over the bytes of a template; `skip` bytes belong to a marker. -/
def substitute (name : CString) : Nat → Bytes → Bytes → Nat → Option (Bytes × Nat)
  | _, [], rendered, used => some (rendered, used)
  | skip + 1, _ :: rest, rendered, used => substitute name skip rest rendered used
  | 0, byte :: rest, rendered, used =>
      if (byte :: rest).take 14 = [123] ++ ascii "service_name" ++ [125] then do
        let used ← add config used name.length
        substitute name 13 rest (rendered ++ name.bytes) used
      else do
        let used ← add config used 1
        substitute name 0 rest (rendered ++ [byte]) used

/-- The arguments of the request in the place of their marker. -/
def renderArguments : List (Option CString) → List CString → Nat → Option (List CString × Nat)
  | [], rendered, used => some (rendered, used)
  | text :: rest, rendered, used =>
      if rendered.length = config.maxArguments then none
      else do
        let (text, used) ← copy config used text
        renderArguments rest (rendered ++ [text]) used

/-- The loop of `render` over the templates of a command. -/
def renderTemplates (name : CString) :
    List (Option CString) → List CString → Nat → Option (List CString × Nat)
  | [], rendered, used => some (rendered, used)
  | template :: rest, rendered, used => do
      let (text, _) ← textSize config template
      if text.bytes = [123] ++ ascii "arguments" ++ [125] then do
        let (rendered, used) ← renderArguments config request.arguments.texts rendered used
        renderTemplates name rest rendered used
      else if rendered.length = config.maxArguments then none
      else do
        let (bytes, used) ← substitute config name 0 text.bytes [] used
        let used ← add config used 1
        renderTemplates name rest (rendered ++ [CString.ofBuffer bytes]) used

/-- `render`: the arguments of a command, with the scratch in use after it.  The array of
their addresses counts too. -/
def render (input : ServiceArgs) (used : Nat) : Option (List CString × Nat) := do
  let (name, _) ← textSize config request.name
  if input.count > config.maxArguments ∨ input.missing then none
  else do
    let (rendered, used) ← renderTemplates config request name input.texts [] used
    let used ← add config used ((rendered.length + 1) * 8)
    pure (rendered, used)

/-- The rendered commands of a request. -/
structure Prepared where
  program : CString
  arguments : CommandSlot → List CString
  budget : UInt64

/-- What `prepare` notes of a request that it refuses. -/
structure Refusal where
  error : ServiceError
  phase : String
  message : CString
  deriving DecidableEq

/-- The first check of `prepare`. -/
def wellFormed : Bool :=
  request.operation.isSome && present request.name && present request.profileName &&
    decide (0 < request.timeoutMs) && decide (request.timeoutMs ≤ 2147483647) &&
    decide (0 < request.pollIntervalMs) && decide (request.pollIntervalMs ≤ 2147483647) &&
    decide (request.arguments.count ≤ config.maxArguments) && !request.arguments.missing

/-- `prepare` counts what it was given: the bytes of a text more. -/
def countInput (counted : Nat) (text : Option CString) : Option Nat := do
  let (_, size) ← textSize config text
  add config counted (size + 1)

/-- The texts of a request fit into the scratch. -/
def countInputs (request : ServiceRequest) : Option Nat := do
  let counted ← countInput config 0 request.name
  let counted ← countInput config counted request.profileName
  request.arguments.texts.foldlM (countInput config) counted

/-- The commands of a profile. -/
def renderProfile (profile : ServiceProfile) : Option (CString × (CommandSlot → List CString)) := do
  if !present profile.program then none
  else do
    let (program, used) ← copy config 0 profile.program
    let (status, used) ← render config request profile.status used
    let (start, used) ← render config request profile.start used
    let (stop, _) ← render config request profile.stop used
    pure (program, fun
      | .status => status
      | .start => start
      | .stop => stop)

/-- The refusal of texts that do not fit. -/
def limitRefusal : Refusal where
  error := .invalid
  phase := "validate"
  message := CString.literal "service metadata exceeds configured bounds"

/-- `prepare`. -/
def prepare : Except Refusal Prepared :=
  if !wellFormed config request then
    .error
      { error := .invalid, phase := "validate"
        message := CString.literal "service parameters are invalid" }
  else
    match countInputs config request, request.profile with
    | none, _ => .error limitRefusal
    | some _, none =>
        .error
          { error := .stateFailed, phase := "profile"
            message := (CString.literal "unknown service command profile: ").append
              ((request.profileName.getD (CString.literal "")).take 900) }
    | some _, some profile =>
        match renderProfile config request profile with
        | none => .error limitRefusal
        | some (program, arguments) =>
            .ok { program, arguments, budget := request.timeoutMs.toUInt64 * 1000000 }

end Rendering

/-! ## Executions -/

/-- The result so far and the calls so far, first call first. -/
structure ServiceExecution where
  result : ServiceResult := {}
  trace : List ServiceEvent := []
  deriving DecidableEq

/-- One more call of the host. -/
def ServiceExecution.saw (execution : ServiceExecution) (event : ServiceEvent) :
    ServiceExecution :=
  { execution with trace := execution.trace ++ [event] }

/-- A computation that calls the host. -/
abbrev ServiceM := Interaction ServiceExecution

namespace Service

/-- `fail`. -/
def fail {α : Type} (value : α) (error : ServiceError) (phase : String) (message : CString)
    (includeState : Bool) : ServiceM α :=
  modifyGet fun execution =>
    (value, { execution with
      result := { execution.result with error, phase, message, includeState } })

section Commands

variable (config : ServiceConfig) (request : ServiceRequest) (host : ServiceHost)
  (prepared : Prepared) (began : UInt64)

/-- `now`. -/
def now : ServiceM UInt64 :=
  modifyGet fun execution =>
    let reading := host.nowNs execution.trace
    (reading, execution.saw (.clock reading))

/-- `elapsed`. -/
def elapsed : ServiceM UInt64 := do
  let reading ← now host
  pure (reading - began)

/-- The command of a slot, with the time that is left for it. -/
def command (slot : CommandSlot) (remaining : UInt64) : ServiceCommand where
  program := prepared.program
  arguments := prepared.arguments slot
  timeoutMs := (if remaining ≠ 0 then remaining else 1).toUInt32
  maxOutputBytes := config.maxOutputBytes

/-- `run`, from the reply of the host on. -/
def settle (slot : CommandSlot) (phase : String) (reply : ServiceReply) :
    ServiceM (Option ServiceReply) := do
  if reply.code ≠ .ok then
    fail none .spawnFailed phase
      ((reply.failureMessage.getD (CString.literal "failed to run service command")).take 1023) false
  else if reply.state = .spawnFailed then
    fail none .spawnFailed phase (CString.literal "failed to spawn service command") false
  else if reply.state = .timedOut then
    fail none .timeout phase (CString.literal "service command timed out") false
  else if reply.state = .cancelled then
    fail none .cancelled phase (CString.literal "service command was cancelled") false
  else if reply.state ≠ .exited ∨ reply.exitCode ≠ 0 then do
    modifyGet fun execution =>
      ((), { execution with
        result := { execution.result with
          includeProcess := true, processState := reply.state, exitCode := reply.exitCode } })
    fail none .stateFailed phase (CString.literal "service command failed") false
  else do
    modifyGet fun execution =>
      ((), { execution with
        result := { execution.result with
          changed := execution.result.changed || decide (slot ≠ .status) } })
    -- a command that ended too late has changed the service but authorises nothing more
    let used ← elapsed host began
    if prepared.budget ≤ used then
      fail none .timeout phase (CString.literal "service operation exceeded its deadline") false
    else if reply.output.missing ∨ reply.output.size > config.maxOutputBytes then
      fail none .stateFailed phase
        (CString.literal "service command output exceeds configured bounds") false
    else
      pure (some reply)

/-- `run`: the reply of a command that went well. -/
def run (slot : CommandSlot) (phase : String) : ServiceM (Option ServiceReply) := do
  let used ← elapsed host began
  if prepared.budget ≤ used then
    fail none .timeout phase (CString.literal "service operation exceeded its deadline") false
  else do
    let remaining := (prepared.budget - used) / 1000000
    let command := command config prepared slot remaining
    let reply ← modifyGet fun execution =>
      let reply := host.run execution.trace command
      (reply, execution.saw (.run slot command reply))
    settle config host prepared began slot phase reply

/-- `query`. -/
def query (phase : String) : ServiceM Bool := do
  match ← run config host prepared began .status phase with
  | none => pure false
  | some reply =>
      match praktorServiceParseState reply.output.read with
      | none =>
          fail false .stateFailed phase
            (CString.literal "service status did not contain a supported numeric STATE field") false
      | some state =>
          modifyGet fun execution =>
            (true, { execution with result := { execution.result with state } })

/-- A round of `poll_for`. -/
def pollRound (target : ServiceState) : ServiceM (Option Bool) := do
  let used ← elapsed host began
  if prepared.budget ≤ used then
    fail (some false) .timeout "poll"
      (((CString.literal "service did not reach ").append (CString.literal target.name)).append
        (CString.literal " before the deadline")) true
  else do
    let remaining := (prepared.budget - used + 999999) / 1000000
    let ms := min request.pollIntervalMs.toUInt64 remaining
    modifyGet fun execution => ((), execution.saw (.sleep ms.toUInt32))
    if !(← query config host prepared began "poll") then
      pure (some false)
    else if (← get).result.state = target then
      pure (some true)
    else
      pure none

/-- `poll_for`. -/
def pollFor (rounds : Nat) (target : ServiceState) : ServiceM Bool :=
  Interaction.repeatUntil rounds (pollRound config request host prepared began target)

/-- `start`. -/
def start (rounds : Nat) : ServiceM Bool := do
  let state := (← get).result.state
  if state = .running then
    pure true
  else if state = .stopPending then
    fail false .stateFailed "transition"
      (CString.literal "cannot start a service while it is stopping") true
  else if state = .stopped then do
    match ← run config host prepared began .start "start" with
    | none => pure false
    | some _ => pollFor config request host prepared began rounds .running
  else
    pollFor config request host prepared began rounds .running

/-- `stop`. -/
def stop (rounds : Nat) : ServiceM Bool := do
  let state := (← get).result.state
  if state = .stopped then
    pure true
  else if state = .startPending then
    fail false .stateFailed "transition"
      (CString.literal "cannot stop a service while it is starting") true
  else if state = .running then do
    match ← run config host prepared began .stop "stop" with
    | none => pure false
    | some _ => pollFor config request host prepared began rounds .stopped
  else
    pollFor config request host prepared began rounds .stopped

/-- What a request that was prepared does after the first query. -/
def perform (rounds : Nat) : ProcessOperation → ServiceM Bool
  | .status => pure true
  | .start => start config request host prepared began rounds
  | .stop => stop config request host prepared began rounds
  | .restart => do
      let up ← (do
        if (← get).result.state = .startPending then
          pollFor config request host prepared began rounds .running
        else
          pure true)
      if !up then
        pure false
      else if !(← stop config request host prepared began rounds) then
        pure false
      else
        start config request host prepared began rounds

end Commands

section Execution

variable (config : ServiceConfig) (request : ServiceRequest) (host : ServiceHost)

/-- `praktor_service_control_execute` on a control that is not busy. -/
def execute (rounds : Nat) : ServiceM Unit := do
  let began ← now host
  let ok ← (do
    match prepare config request with
    | .error refusal => fail false refusal.error refusal.phase refusal.message false
    | .ok prepared =>
        if !(← query config host prepared began "query") then
          pure false
        else
          match request.operation with
          | none => pure false
          | some operation => perform config request host prepared began rounds operation)
  modifyGet fun execution => ((), { execution with result := { execution.result with ok } })
  let used ← elapsed host began
  modifyGet fun execution =>
    ((), { execution with result := { execution.result with durationMs := used / 1000000 } })

end Execution

end Service

/-- `praktor_service_control_execute`: its code, once it returns, and the result and the trace
by then. -/
def praktorServiceControlExecute (control : ServiceControl) (request : ServiceRequest)
    (host : ServiceHost) (rounds : Nat) : Option Salts × ServiceExecution :=
  if control.busy then (some .ebusy, {})
  else
    match Interaction.outcome (Service.execute control.config request host rounds) {} with
    | (some _, last) => (some .ok, last)
    | (none, paused) => (none, paused)

end Praktor.Process
