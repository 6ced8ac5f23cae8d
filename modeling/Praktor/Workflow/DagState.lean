/-
# The DAG readiness counter

`praktor_workflow_dag_state` counts, for every task, the dependency edges that
still hold it back, and hands out tasks whose count is zero.  It is owned by one
driver, allocates nothing after `create`, and borrows the immutable graph.

Four requests change it: `claimReady` reserves ready tasks in declaration order,
`finish` and `refuse` settle a reservation, and `stop` closes admission.  The
first terminal reason wins.  `finish` retires the edges of a task by one scan of
the whole edge list, and that scan can leave early, so its model returns the task
table it has reached together with the status.
-/

import Praktor.Workflow.Dependencies

namespace Praktor.Workflow

open Praktor.Data

/-- `dag_task_phase`. -/
inductive DagTaskPhase
  | pending
  | reserved
  | finished
  | refused
  deriving DecidableEq, Repr

/-- `praktor_workflow_dag_terminal`. -/
inductive DagTerminal
  | continuing
  | failed
  | cancelled
  | deadline
  | admissionRefused
  deriving DecidableEq, Repr

/-- `dag_task_entry`. -/
structure DagTaskEntry where
  remaining : Nat
  phase : DagTaskPhase
  deriving DecidableEq, Repr

/-- `praktor_workflow_dag_state`; its task count is the length of the table. -/
structure DagState where
  graph : Dependencies
  tasks : List DagTaskEntry
  maxActive : Nat
  active : Nat
  completed : Nat
  terminal : DagTerminal

/-- `praktor_workflow_dag_stats`. -/
structure DagStats where
  taskCount : Nat
  active : Nat
  completed : Nat
  ready : Nat
  terminal : DagTerminal
  quiescent : Bool
  allSucceeded : Bool
  deriving DecidableEq, Repr

/-- A task that may be claimed. -/
def DagTaskEntry.isReady (row : DagTaskEntry) : Bool :=
  row.phase = .pending && row.remaining = 0

namespace DagState

/-! ## Construction -/

/-- Count every edge at its target, refusing one that leaves the task table. -/
def countEdges : List (Nat × Nat) → List DagTaskEntry → Except Salts (List DagTaskEntry)
  | [], tasks => .ok tasks
  | (source, target) :: rest, tasks =>
      if source ≥ tasks.length || target ≥ tasks.length then .error .einval
      else
        countEdges rest (tasks.modify target fun row => { row with remaining := row.remaining + 1 })

/-- `praktor_workflow_dag_state_create`. -/
def create (graph : Dependencies) (maxActive : Nat) : Except Salts DagState :=
  if maxActive = 0 then .error .einval
  else if graph.taskCount = 0 || graph.taskCount > maxTasks || graph.edgeCount > maxEdges then
    .error .einval
  else
    match countEdges graph.pairs (List.replicate graph.taskCount ⟨0, .pending⟩) with
    | .error status => .error status
    | .ok tasks => .ok ⟨graph, tasks, maxActive, 0, 0, .continuing⟩

/-! ## Requests -/

/-- The scan of `claim_ready` from task `index` on, with `admitted` tasks
reserved so far. -/
def claimScan (limit : Nat) : Nat → Nat → List DagTaskEntry → List DagTaskEntry × List Nat
  | _, _, [] => ([], [])
  | index, admitted, row :: rest =>
      if admitted < limit then
        if row.isReady then
          let scanned := claimScan limit (index + 1) (admitted + 1) rest
          ({ row with phase := .reserved } :: scanned.1, index :: scanned.2)
        else
          let scanned := claimScan limit (index + 1) admitted rest
          (row :: scanned.1, scanned.2)
      else (row :: rest, [])

/-- `praktor_workflow_dag_claim_ready`: the next state, the status and the
claimed indices. -/
def claimReady (state : DagState) (capacity : Nat) : DagState × Salts × List Nat :=
  if capacity = 0 then (state, .einval, [])
  else if state.terminal ≠ .continuing then (state, .ebusy, [])
  else if state.active ≥ state.maxActive then (state, .ok, [])
  else
    let limit := min (state.maxActive - state.active) capacity
    let scanned := claimScan limit 0 0 state.tasks
    ({ state with tasks := scanned.1, active := state.active + scanned.2.length }, .ok, scanned.2)

/-- `praktor_workflow_dag_is_reserved`. -/
def isReserved (state : DagState) (index : Nat) : Except Salts Bool :=
  match state.tasks[index]? with
  | none => .error .einval
  | some row => .ok (row.phase = .reserved)

/-- The edge scan of `finish`: lower the counter of each dependent of `index`. -/
def retireEdges (index : Nat) : List (Nat × Nat) → List DagTaskEntry →
    List DagTaskEntry × Salts
  | [], tasks => (tasks, .ok)
  | (source, target) :: rest, tasks =>
      if source ≥ tasks.length then (tasks, .einval)
      else
        match tasks[target]? with
        | none => (tasks, .einval)
        | some row =>
            if source = index then
              if row.remaining = 0 then (tasks, .einval)
              else
                retireEdges index rest
                  (tasks.set target { row with remaining := row.remaining - 1 })
            else retireEdges index rest tasks

/-- `praktor_workflow_dag_finish`.  The active counter counts the reservation
that is settled here, so lowering it does not wrap. -/
def finish (state : DagState) (index : Nat) (success : Bool) : DagState × Salts :=
  match state.tasks[index]? with
  | none => (state, .einval)
  | some row =>
      if row.phase ≠ .reserved then (state, .einval)
      else
        let settled := { state with
          tasks := state.tasks.set index { row with phase := .finished }
          active := state.active - 1
          completed := state.completed + 1
          terminal :=
            if !success && state.terminal = .continuing then .failed else state.terminal }
        if settled.terminal ≠ .continuing then (settled, .ok)
        else
          let retired := retireEdges index settled.graph.pairs settled.tasks
          ({ settled with tasks := retired.1 }, retired.2)

/-- `praktor_workflow_dag_refuse`. -/
def refuse (state : DagState) (index : Nat) : DagState × Salts :=
  match state.tasks[index]? with
  | none => (state, .einval)
  | some row =>
      if row.phase ≠ .reserved then (state, .einval)
      else
        ({ state with
            tasks := state.tasks.set index { row with phase := .refused }
            active := state.active - 1
            terminal :=
              if state.terminal = .continuing then .admissionRefused else state.terminal }, .ok)

/-- `praktor_workflow_dag_stop`. -/
def stop (state : DagState) (reason : DagTerminal) : DagState × Salts :=
  if reason = .continuing then (state, .einval)
  else
    ({ state with
        terminal := if state.terminal = .continuing then reason else state.terminal }, .ok)

/-- `praktor_workflow_dag_get_stats`. -/
def getStats (state : DagState) : DagStats where
  taskCount := state.tasks.length
  active := state.active
  completed := state.completed
  ready := if state.terminal = .continuing then state.tasks.countP DagTaskEntry.isReady else 0
  terminal := state.terminal
  quiescent := state.active = 0 &&
    (state.terminal ≠ .continuing || state.completed = state.tasks.length)
  allSucceeded := state.terminal = .continuing && state.completed = state.tasks.length &&
    state.active = 0

/-! ## The state as a machine -/

end DagState

/-- One call on a DAG state. -/
inductive DagRequest
  | claimReady (capacity : Nat)
  | finish (index : Nat) (success : Bool)
  | refuse (index : Nat)
  | stop (reason : DagTerminal)
  deriving DecidableEq, Repr

/-- What a call answers: its status, and the indices a claim returned. -/
structure DagReply where
  status : Salts
  claimed : List Nat
  deriving DecidableEq, Repr

namespace DagState

/-- Serve one call. -/
def step (state : DagState) : DagRequest → DagState × DagReply
  | .claimReady capacity =>
      let (next, status, claimed) := state.claimReady capacity
      (next, ⟨status, claimed⟩)
  | .finish index success =>
      let (next, status) := state.finish index success
      (next, ⟨status, []⟩)
  | .refuse index =>
      let (next, status) := state.refuse index
      (next, ⟨status, []⟩)
  | .stop reason =>
      let (next, status) := state.stop reason
      (next, ⟨status, []⟩)

end DagState

end Praktor.Workflow
