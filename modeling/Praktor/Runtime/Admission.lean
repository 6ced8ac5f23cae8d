/-
# Admission of a workflow

The first half of `praktor_runtime_execute_yaml`: check the arguments, start the
component host, build the snapshot, the registry and the DAG state, make a plan for
every task and seed the root store.  Every failure jumps to the cleanup at `done`
with the task count and the plan table it has reached, so both are part of the
result.

What lies outside is a `RuntimeHost`: whether the component host and the process
retainer start, what the YAML front end makes of a text, the limits of the
behaviour-tree library and the outcomes of the allocation calls.
-/

import Praktor.Runtime.Plan
import Praktor.Runtime.TaskValues
import Praktor.Workflow.DagState
import Praktor.Workflow.TaskRegistry

namespace Praktor.Runtime

open Praktor.Data Praktor.Values Praktor.Workflow

/-- `PRK_MAX_TASKS`, the length of the plan table. -/
def maxPlans : Nat := 64

/-- `PRK_MAX_VALUE`. -/
def maxValue : Nat := 4096

/-- The key bound of the stores the runtime creates. -/
def maxKey : Nat := 128

/-- `praktor_runtime_status`. -/
inductive RuntimeStatus
  | ok
  | failed
  | cancelled
  | deadline
  | unsupported
  | invalid
  | resource
  deriving DecidableEq, Repr

/-- `praktor_runtime_limits`. -/
structure RuntimeLimits where
  maxTasks : Int
  valueCapacity : Int
  timeoutMs : Int
  deriving DecidableEq, Repr

/-- `praktor_runtime_limits_default`. -/
def RuntimeLimits.default : RuntimeLimits := ⟨32, 64, 30000⟩

/-- The arguments of a call: the text, the limits if any were given, and whether the
result record is there and holds no document yet. -/
structure RuntimeRequest where
  yaml : Bytes
  limits : Option RuntimeLimits
  resultFree : Bool

namespace RuntimeRequest

/-- The limits in force. -/
def options (request : RuntimeRequest) : RuntimeLimits := request.limits.getD .default

/-- The argument checks of `praktor_runtime_execute_yaml`. -/
def admitted (request : RuntimeRequest) : Bool :=
  request.resultFree && request.yaml.length ≠ 0 && request.yaml.length ≤ 1024 * 1024 &&
    1 ≤ request.options.maxTasks && request.options.maxTasks ≤ maxPlans &&
    1 ≤ request.options.valueCapacity && request.options.valueCapacity ≤ 4096 &&
    1 ≤ request.options.timeoutMs

theorem maxTasks_le {request : RuntimeRequest} (hadmitted : request.admitted = true) :
    request.options.maxTasks ≤ maxPlans := by
  simp only [admitted, Bool.and_eq_true, decide_eq_true_eq] at hadmitted
  exact hadmitted.1.1.1.2

/-- The limits of the stores of a run. -/
def storeLimits (request : RuntimeRequest) : StoreLimits :=
  ⟨request.options.valueCapacity.toNat, maxKey, maxValue⟩

end RuntimeRequest

/-- The surroundings of a call. -/
structure RuntimeHost where
  config : TreeConfig
  frontEnd : Bytes → Except Bytes WorkflowSnapshot
  componentStarts : Bool
  retainerStarts : Bool
  schedule : AllocSchedule

/-! ## The plan table -/

/-- The array `plans`, with the indices it was accessed at and the plans that were
made, both oldest first. -/
structure PlanTable where
  slots : List (Option SessionPlan)
  accesses : List Nat
  created : List SessionPlan

namespace PlanTable

/-- The array as it is declared: no plan anywhere. -/
def blank : PlanTable := ⟨List.replicate maxPlans none, [], []⟩

/-- Store a new plan at an index. -/
def store (table : PlanTable) (index : Nat) (plan : SessionPlan) : PlanTable :=
  ⟨table.slots.set index (some plan), table.accesses ++ [index], table.created ++ [plan]⟩

/-- An access that makes no plan. -/
def touch (table : PlanTable) (index : Nat) : PlanTable :=
  { table with accesses := table.accesses ++ [index] }

end PlanTable

/-- The plan loop, from task `index` on. -/
def makePlans (config : TreeConfig) :
    List SnapshotTask → Nat → PlanTable → AllocSchedule →
      PlanTable × Option Refusal × AllocSchedule
  | [], _, table, schedule => (table, none, schedule)
  | task :: rest, index, table, schedule =>
      match makePlan config task schedule with
      | (.error refusal, schedule) => (table.touch index, some refusal, schedule)
      | (.ok plan, schedule) =>
          makePlans config rest (index + 1) (table.store index plan) schedule

/-! ## Admission -/

/-- `prk_state` when the loop starts.  The root store is behind handle `rootStore`. -/
structure RuntimeOwner where
  snapshot : WorkflowSnapshot
  registry : TaskRegistry
  dag : DagState
  world : World

/-- The handle of the root store. -/
def rootStore : Nat := 0

/-- The handle of the transaction a publication uses. -/
def publication : Nat := 0

/-- The state of the call when admission is over: the loop is entered with an owner,
or the call is at `done`. -/
structure Admission where
  taskCount : Nat
  table : PlanTable
  status : RuntimeStatus
  error : Bytes
  owner : Option RuntimeOwner

/-- Create and seed the root store and start the retainer. -/
def admitRoot (host : RuntimeHost) (request : RuntimeRequest) (snapshot : WorkflowSnapshot)
    (registry : TaskRegistry) (dag : DagState) (schedule : AllocSchedule) : Option RuntimeOwner :=
  match ValueStore.init request.storeLimits schedule with
  | (.error _, _) => none
  | (.ok root, schedule) =>
      match seedRootTextVariables snapshot root schedule with
      | ((seeded, status), _) =>
          if status ≠ .ok || !host.retainerStarts then none
          else some ⟨snapshot, registry, dag, World.empty.withStore rootStore seeded⟩

/-- Make the plans and then the root store. -/
def admitPlans (host : RuntimeHost) (request : RuntimeRequest) (snapshot : WorkflowSnapshot)
    (registry : TaskRegistry) (dag : DagState) (schedule : AllocSchedule) : Admission :=
  match makePlans host.config snapshot.tasks 0 .blank schedule with
  | (table, some refusal, _) =>
      ⟨snapshot.taskCount, table, .unsupported,
        if refusal.message = [] then ascii "Native C11 action is not implemented"
        else refusal.message, none⟩
  | (table, none, schedule) =>
      match admitRoot host request snapshot registry dag schedule with
      | none => ⟨snapshot.taskCount, table, .invalid, [], none⟩
      | some owner => ⟨snapshot.taskCount, table, .ok, [], some owner⟩

/-- `praktor_workflow_dag_state_create` with its two allocation calls. -/
def createDag (graph : Dependencies) (schedule : AllocSchedule) :
    Except Salts DagState × AllocSchedule :=
  let (state, schedule) := schedule.alloc
  if state.isNone then (.error .enomem, schedule)
  else
    let (tasks, schedule) := schedule.alloc
    if tasks.isNone then (.error .enomem, schedule) else (DagState.create graph 1, schedule)

/-- The part of `praktor_runtime_execute_yaml` between the argument checks and the
loop.  The task count is taken from the snapshot before it is compared with the
limit. -/
def admitYaml (host : RuntimeHost) (request : RuntimeRequest) : Admission :=
  if !host.componentStarts then
    ⟨0, .blank, .invalid, ascii "CMeta Configurator refused the C11 owner", none⟩
  else
    match host.frontEnd request.yaml with
    | .error message => ⟨0, .blank, .invalid, message, none⟩
    | .ok snapshot =>
        if (snapshot.taskCount : Int) > request.options.maxTasks then
          ⟨snapshot.taskCount, .blank, .invalid,
            ascii "C11 workflow exceeds configured task capacity", none⟩
        else
          match TaskRegistry.create snapshot.graph host.schedule with
          | (.error _, _) => ⟨snapshot.taskCount, .blank, .invalid, [], none⟩
          | (.ok registry, schedule) =>
              match createDag snapshot.graph schedule with
              | (.error _, _) => ⟨snapshot.taskCount, .blank, .invalid, [], none⟩
              | (.ok dag, schedule) => admitPlans host request snapshot registry dag schedule

end Praktor.Runtime
