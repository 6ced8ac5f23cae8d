/-
# The worker of a process

`process_worker.c`: a thread of its own drives a process from its admission to its end, while
other threads ask for its state, cancel it or take its result.  What is shared between them is
read and written under a mutex, so that a run is a sequence of the worker's steps and of the
others' calls in any order.  A step that is not the worker's next does nothing.

The trace tells what was answered to the callers and what the worker did with the process.
-/

import Mathlib.Algebra.Order.Ring.Nat
import Praktor.Process.ProcessDriver

namespace Praktor.Process

open Praktor.Data

/-! ## States -/

/-- `praktor_process_state`. -/
inductive WorkerStatus
  | starting
  | running
  | cancelling
  | exited
  | signaled
  | timedOut
  | cancelled
  | spawnFailed
  | waitFailed
  | outputLimitExceeded
  deriving DecidableEq, Repr

/-- `terminal`. -/
def terminal : NativeState → WorkerStatus
  | .exited => .exited
  | .signaled => .signaled
  | .timedOut => .timedOut
  | .terminated => .cancelled
  | .outputLimitExceeded => .outputLimitExceeded
  | .other => .waitFailed

/-- `diagnostic`. -/
def diagnostic : WorkerStatus → Option String
  | .timedOut => some "Command timed out"
  | .cancelled => some "Command cancelled"
  | .outputLimitExceeded => some "Captured process output exceeded the configured limit"
  | .waitFailed => some "Salts::Process I/O or cleanup failed"
  | _ => none

/-- What an error text of the worker says, or the driver's. -/
inductive WorkerError
  /-- `Process worker thread setup failed (status %d)` -/
  | setup (code : Salts)
  /-- `Salts::Process admission failed (status %d)` -/
  | admission (code : Salts)
  | driver (error : DriverError)
  deriving DecidableEq

/-- What a stream of a result shows: its bytes, or the error text in their place. -/
inductive Shown
  | bytes (bytes : Bytes)
  | error (error : Option WorkerError)
  deriving DecidableEq

/-- `praktor_process_worker_view`. -/
structure WorkerView where
  state : WorkerStatus
  result : ProcessResult
  stdout : Bytes
  stderr : Shown
  error : Option WorkerError
  diagnostic : Option String
  outputStreamedLive : Bool
  deriving DecidableEq

/-- What is answered to the start of a driver: it is refused before the provider is asked, or
the provider admits the process or not. -/
inductive AdmissionReply
  | unsupported
  | invalid
  | outOfMemory
  | native (start : Salts) (live : Bool)

/-- Where the worker's thread stands, with what it holds in its own variables. -/
inductive WorkerPhase
  | setup
  | deciding (code : Salts)
  | admitting
  | announcing
  | polling (terminated : Bool)
  | terminating
  | ticking (terminated : Bool)
  | draining (spawned : Bool) (code : Salts)
  | publishing (spawned : Bool) (state : WorkerStatus)
  | ended
  deriving DecidableEq

/-- What is told of a run. -/
inductive WorkerEvent
  | asked (state : WorkerStatus)
  | cancel (accepted : Bool)
  | viewed (view : Option WorkerView)
  | admitted (spawned : Bool)
  | terminated
  | ticked
  | published (state : WorkerStatus)
  deriving DecidableEq

/-- What a worker is started with. -/
structure WorkerConfig where
  input : Bytes
  maxOutputBytes : Nat
  threadStart : Bool := false
  emits : Bool := false

/-- `worker_state`, with the phase of its thread and the trace. -/
structure WorkerState where
  completed : Bool := false
  cancelRequested : Bool := false
  state : WorkerStatus := .starting
  driver : Option DriverState := none
  input : Bytes
  maxOutputBytes : Nat
  threadStart : Bool
  emits : Bool
  error : Option WorkerError := none
  phase : WorkerPhase := .setup
  trace : List WorkerEvent := []

namespace WorkerState

/-- One more event of the trace. -/
def saw (worker : WorkerState) (event : WorkerEvent) : WorkerState :=
  { worker with trace := worker.trace ++ [event] }

/-- The thread goes on. -/
def goes (worker : WorkerState) (phase : WorkerPhase) : WorkerState :=
  { worker with phase }

end WorkerState

/-- `praktor_process_worker_start`, once its checks and allocations went well. -/
def praktorProcessWorkerStart (config : WorkerConfig) : WorkerState :=
  { input := config.input, maxOutputBytes := config.maxOutputBytes
    threadStart := config.threadStart, emits := config.emits }

/-! ## The worker's thread -/

section Worker

variable (callback : List DriverEvent → Bytes → Salts) (peerClosed : Int → Bool)

/-- A step of `run_worker`, with what the process answers in it. -/
inductive WorkerStep
  | setup (code : Salts)
  | decide
  | spawn (reply : AdmissionReply)
  | announce
  | poll
  | terminate (reply : Salts)
  | tick (first second : PassReplies)
  | drain (close : Salts) (steps : List ShutdownReplies)
  | publish

/-- A driver that could not be admitted leaves an error behind. -/
def refuseAdmission (code : Salts) (worker : WorkerState) : WorkerState :=
  { worker.saw (.admitted false) with
    error := some (.admission code), phase := .publishing false .spawnFailed }

/-- The start of the driver. -/
def startDriver (reply : AdmissionReply) (worker : WorkerState) : WorkerState :=
  match reply with
  | .unsupported => refuseAdmission .enotsup worker
  | .invalid => refuseAdmission .einval worker
  | .outOfMemory => refuseAdmission .enomem worker
  | .native start live =>
      let driver := praktorProcessDriverStart
        { input := worker.input, capacity := worker.maxOutputBytes, emits := worker.emits
          start, live }
      let spawned := decide (start = .ok)
      { worker.saw (.admitted spawned) with
        driver := some driver
        phase := if spawned then .announcing else .draining false start }

/-- A tick of `praktor_process_driver_run`. -/
def tickDriver (first second : PassReplies) (terminated : Bool) (driver : DriverState)
    (worker : WorkerState) : WorkerState :=
  let ((code, done), ticked) := praktorProcessDriverTick callback peerClosed first second driver
  { worker.saw .ticked with
    driver := some ticked
    phase :=
      if code ≠ .ok then .draining true code
      else if done = some true then .draining true (if ticked.failed then .eio else .ok)
      else .polling terminated }

/-- The state in which a process ended, by what the driver shows of it. -/
def endState (spawned : Bool) (code : Salts) (driver : DriverState) : WorkerStatus :=
  if !spawned then .spawnFailed
  else if driver.limited then .outputLimitExceeded
  else if driver.failed || decide (code ≠ .ok) then .waitFailed
  else terminal driver.result.state

/-- A round of `praktor_process_driver_drain`. -/
def drainDriver (close : Salts) (steps : List ShutdownReplies) (spawned : Bool) (code : Salts)
    (driver : DriverState) (worker : WorkerState) : WorkerState :=
  let closed := (praktorProcessDriverClose callback peerClosed close steps driver).2
  { worker with
    driver := some closed
    phase := if closed.live then worker.phase else .publishing spawned (endState spawned code closed) }

/-- The cancellation is decided and the completion published in one. -/
def publish (spawned : Bool) (state : WorkerStatus) (worker : WorkerState) : WorkerState :=
  let last :=
    if spawned && worker.cancelRequested && decide (state ≠ .timedOut) &&
        decide (state ≠ .waitFailed) && decide (state ≠ .outputLimitExceeded) then
      .cancelled
    else state
  { worker.saw (.published last) with state := last, completed := true, phase := .ended }

/-- `run_worker`, step by step. -/
def runWorker (step : WorkerStep) (worker : WorkerState) : WorkerState :=
  match step, worker.phase, worker.driver with
  | .setup code, .setup, _ => worker.goes (.deciding (if worker.threadStart then code else .ok))
  | .decide, .deciding code, _ =>
      if code ≠ .ok then
        { worker with error := some (.setup code), phase := .publishing false .waitFailed }
      else if worker.cancelRequested then worker.goes (.publishing false .cancelled)
      else worker.goes .admitting
  | .spawn reply, .admitting, _ => startDriver reply worker
  | .announce, .announcing, _ =>
      { worker with
        state := if worker.cancelRequested then worker.state else .running
        phase := .polling false }
  | .poll, .polling terminated, _ =>
      if !terminated && worker.cancelRequested then worker.goes .terminating
      else worker.goes (.ticking terminated)
  | .terminate reply, .terminating, some driver =>
      { worker.saw .terminated with
        driver := some (terminate reply driver), phase := .ticking true }
  | .tick first second, .ticking terminated, some driver =>
      tickDriver callback peerClosed first second terminated driver worker
  | .drain close steps, .draining spawned code, some driver =>
      drainDriver callback peerClosed close steps spawned code driver worker
  | .publish, .publishing spawned state, _ => publish spawned state worker
  | _, _, _ => worker

end Worker

/-! ## The callers -/

/-- `praktor_process_worker_cancel`. -/
def praktorProcessWorkerCancel (worker : WorkerState) : WorkerState :=
  let accepted := !worker.completed && !worker.cancelRequested
  let asked := worker.saw (.cancel accepted)
  if accepted then { asked with cancelRequested := true, state := .cancelling } else asked

/-- `praktor_process_worker_state`. -/
def praktorProcessWorkerState (worker : WorkerState) : WorkerState :=
  worker.saw (.asked worker.state)

/-- What `praktor_process_worker_result` fills in. -/
def workerView (worker : WorkerState) : WorkerView :=
  let result := match worker.driver with
    | some driver => driver.result
    | none => {}
  let error := worker.error.or
    ((worker.driver.bind DriverState.error).map WorkerError.driver)
  let text := diagnostic worker.state
  { state := worker.state
    result := if text.isSome then { result with exitCode := -1 } else result
    stdout := match worker.driver with
      | some driver => driver.output 0
      | none => []
    stderr :=
      if worker.state = .spawnFailed then .error error
      else .bytes (match worker.driver with
        | some driver => driver.output 1
        | none => [])
    error
    diagnostic := text
    outputStreamedLive := worker.emits }

/-- `praktor_process_worker_result`: it is busy until the worker has completed. -/
def praktorProcessWorkerResult (worker : WorkerState) : WorkerState :=
  worker.saw (.viewed (if worker.completed then some (workerView worker) else none))

/-! ## Runs -/

/-- What may happen next to a worker. -/
inductive WorkerAction
  | work (step : WorkerStep)
  | cancel
  | state
  | result

section Worker

variable (callback : List DriverEvent → Bytes → Salts) (peerClosed : Int → Bool)

/-- The worker after an action. -/
def act (worker : WorkerState) : WorkerAction → WorkerState
  | .work step => runWorker callback peerClosed step worker
  | .cancel => praktorProcessWorkerCancel worker
  | .state => praktorProcessWorkerState worker
  | .result => praktorProcessWorkerResult worker

/-- The worker after a run. -/
def workerRun (config : WorkerConfig) (actions : List WorkerAction) : WorkerState :=
  actions.foldl (act callback peerClosed) (praktorProcessWorkerStart config)

end Worker

end Praktor.Process
