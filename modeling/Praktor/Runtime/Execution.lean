/-
# The workflow loop

The second half of `praktor_runtime_execute_yaml`: claim the next ready task, run a
session for it, publish its outputs and settle it, until nothing is claimed or the
status is no longer `OK`.  The DAG state, the registry, the root store and the status
are updated at different places, and several return codes are dropped.

One turn of the loop is one step of a machine.  Everything a turn learns from outside
is its input: the cancel probe, the clock, the statuses of host, session and executor,
what the session did to the scope of the task, and the outcomes of allocation calls.
A failed session close or drain ends the process, which is the phase `aborted`.
-/

import Praktor.Math.Run
import Praktor.Runtime.Publication
import Praktor.Workflow.DagProgress

namespace Praktor.Runtime

open Praktor.Data Praktor.Math Praktor.Values Praktor.Workflow

/-- `salts_bt_node_status`. -/
inductive NodeStatus
  | idle
  | running
  | success
  | failure
  deriving DecidableEq, Repr

/-- `prk_callback` after the session has run, with the scope it left. -/
structure DriverResult where
  status : Salts
  outcome : NodeStatus
  cancelled : Bool
  expired : Bool
  scope : ValueStore

/-- What one turn of the loop learns from outside. -/
structure TurnInput where
  cancelled : Bool
  expired : Bool
  host : Except Salts ValueStore
  loadSchedule : AllocSchedule
  bind : Salts
  initSession : Salts
  executor : Bool
  control : Bool
  componentActive : Bool
  posted : Bool
  settled : Bool
  session : ValueStore → DriverResult
  closed : Bool
  drained : Bool
  publish : PublishInput
  exitSchedule : AllocSchedule
  reasonSchedule : AllocSchedule

/-- Where the call is: in the loop, past it, or ended by `abort`. -/
inductive RunPhase
  | looping
  | marshalled
  | aborted
  deriving DecidableEq, Repr

/-- The state of the call between two turns. -/
structure RuntimeState where
  owner : RuntimeOwner
  status : RuntimeStatus
  phase : RunPhase

/-- What a turn did: the task it claimed, whether the registry started it, and the
ports it published when the task succeeded. -/
structure TurnReply where
  claimed : Option Nat
  started : Bool
  completed : Option (List (CString × Option CString))

/-- A turn that claimed nothing. -/
def TurnReply.nothing : TurnReply := ⟨none, false, none⟩

/-! ## One task -/

/-- Whether the runtime publishes the task as a Shell. -/
def isShell (task : SnapshotTask) : Bool :=
  task.tree.root.map OrchNode.type = some .shell || task.kind = .command

/-- Up to the admission gate: the scope of the task, or whether a session exists that
has to be closed. -/
def setup (task : SnapshotTask) (root : ValueStore) (input : TurnInput) :
    Except Bool ValueStore :=
  match input.host with
  | .error _ => .error false
  | .ok destination =>
      match loadTaskTextScope task root destination input.loadSchedule with
      | (.error _, _) => .error false
      | (.ok scope, _) =>
          if input.bind ≠ .ok ∨ input.initSession ≠ .ok then .error false
          else if !input.executor || !input.control then .error true
          else .ok scope

/-- The local variables of a turn at `task_done`. -/
structure TaskReached where
  registry : TaskRegistry
  dag : DagState
  status : RuntimeStatus
  started : Bool
  hasSession : Bool
  failed : Bool
  driver : Option DriverResult

/-- `before_admit` and `admit_action`. -/
def accepts (dag : DagState) (index : Nat) (input : TurnInput) : Bool :=
  input.componentActive && (match dag.isReserved index with
    | .ok reserved => reserved
    | .error _ => false) && input.posted

/-- The session has succeeded. -/
def DriverResult.passed (driver : DriverResult) : Bool :=
  driver.status = .ok && driver.outcome = .success && !driver.cancelled && !driver.expired

/-- From the claim to `task_done`.  A driver is present when the executor accepted the
task and settled it. -/
def reachTask (owner : RuntimeOwner) (status : RuntimeStatus) (task : SnapshotTask)
    (root : ValueStore) (index : Nat) (input : TurnInput) : TaskReached :=
  let (registry, started) := owner.registry.start index
  if started ≠ .ok then ⟨registry, owner.dag, status, false, false, true, none⟩
  else
    match setup task root input with
    | .error hasSession => ⟨registry, owner.dag, status, true, hasSession, true, none⟩
    | .ok scope =>
        if !accepts owner.dag index input then
          ⟨registry, (owner.dag.refuse index).1, status, true, true, true, none⟩
        else if !input.settled then ⟨registry, owner.dag, status, true, true, true, none⟩
        else
          let driver := input.session scope
          if driver.cancelled then
            ⟨registry, (owner.dag.stop .cancelled).1, .cancelled, true, true, false, some driver⟩
          else if driver.expired then
            ⟨registry, (owner.dag.stop .deadline).1, .deadline, true, true, false, some driver⟩
          else if !driver.passed then
            ⟨registry, owner.dag, .failed, true, true, false, some driver⟩
          else ⟨registry, owner.dag, status, true, true, false, some driver⟩

/-- The key a publication uses for a task, `none` for a Shell. -/
def taskSetKey (task : SnapshotTask) : Except Salts (Option CString) :=
  if isShell task then .ok none else (nativeSetKey task.tree 128).map some

/-- The publication part of `task_done`, for a task whose driver is present. -/
def publishTask (library : JsonLibrary) (registry : TaskRegistry) (world : World)
    (task : SnapshotTask) (index : Nat) (driver : DriverResult) (input : TurnInput) :
    PublishResult :=
  if driver.passed then
    match taskSetKey task with
    | .error status => ⟨registry, world, status⟩
    | .ok setKey => publishSuccess library registry world index driver.scope setKey input.publish
  else if isShell task then
    ⟨publishFailureExit library registry index driver.scope input.exitSchedule, world, .ok⟩
  else ⟨registry, world, .ok⟩

/-- The reason every failed task gets. -/
def failureText : Bytes := ascii "C11 action failed, cancelled or timed out"

/-- The ports of a task as writes, as its scope has them. -/
def taskWrites (task : SnapshotTask) (scope : ValueStore) : List (CString × Option CString) :=
  match taskSetKey task with
  | .error _ => []
  | .ok setKey => portWrites scope (portKeys setKey)

/-- The end of a turn: settle the task in the registry and in the DAG state. -/
def settleTask (owner : RuntimeOwner) (index : Nat) (status : RuntimeStatus) (passed failed : Bool)
    (input : TurnInput) : RuntimeState :=
  let status := if failed then .resource else status
  let dag := if failed then (owner.dag.stop .failed).1 else owner.dag
  if !passed || failed then
    ⟨{ owner with
        registry := (owner.registry.fail index failureText input.reasonSchedule).1
        dag := (dag.finish index false).1 },
      if status = .ok then .failed else status, .marshalled⟩
  else
    ⟨{ owner with
        registry := (owner.registry.complete index).1
        dag := (dag.finish index true).1 },
      status, if status = .ok then .looping else .marshalled⟩

/-- `task_done`: close the session, drain the processes, publish and settle. -/
def finishTask (library : JsonLibrary) (owner : RuntimeOwner) (task : SnapshotTask) (index : Nat)
    (reached : TaskReached) (input : TurnInput) : RuntimeState × TurnReply :=
  let owner := { owner with registry := reached.registry, dag := reached.dag }
  if (reached.hasSession && !input.closed) || !input.drained then
    (⟨owner, reached.status, .aborted⟩, ⟨some index, reached.started, none⟩)
  else
    match reached.driver with
    | none =>
        (settleTask owner index reached.status false reached.failed input,
          ⟨some index, reached.started, none⟩)
    | some driver =>
        let published :=
          publishTask library owner.registry owner.world task index driver input
        let succeeded := driver.passed && published.status = .ok
        (settleTask { owner with registry := published.registry, world := published.world } index
            reached.status driver.passed (published.status ≠ .ok) input,
          ⟨some index, reached.started,
            if succeeded then some (taskWrites task driver.scope) else none⟩)

/-! ## The loop -/

namespace RuntimeState

/-- The state in which the loop is entered. -/
def start (owner : RuntimeOwner) : RuntimeState := ⟨owner, .ok, .looping⟩

/-- Leave the loop because of the cancel probe or the clock. -/
def interrupt (state : RuntimeState) (reason : DagTerminal) (status : RuntimeStatus) :
    RuntimeState :=
  ⟨{ state.owner with dag := (state.owner.dag.stop reason).1 }, status, .marshalled⟩

/-- One turn of the loop.  Nothing happens once the loop has been left. -/
def step (library : JsonLibrary) (state : RuntimeState) (input : TurnInput) :
    RuntimeState × TurnReply :=
  if state.phase ≠ .looping then (state, .nothing)
  else if input.cancelled then (state.interrupt .cancelled .cancelled, .nothing)
  else if input.expired then (state.interrupt .deadline .deadline, .nothing)
  else
    match state.owner.dag.claimReady 1 with
    | (dag, status, claimed) =>
        let owner := { state.owner with dag := dag }
        if status = .ebusy ∨ (status = .ok ∧ claimed = []) then
          (⟨owner, state.status, .marshalled⟩, .nothing)
        else
          match claimed with
          | [] => (⟨owner, .resource, .marshalled⟩, .nothing)
          | index :: _ =>
              match owner.snapshot.tasks[index]?, owner.world.stores rootStore with
              | some task, some root =>
                  finishTask library owner task index
                    (reachTask owner state.status task root index input) input
              | _, _ => (⟨owner, .resource, .marshalled⟩, .nothing)

end RuntimeState

end Praktor.Runtime
