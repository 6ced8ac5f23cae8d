/-
# Task controls that nothing reads

The metadata of a task may say whether, how often, where and with what environment it
is to run.  Of all this metadata a call reads the name, the dependencies and the
variables of a task.  Two snapshots that agree there, and in the trees and kinds of
their tasks, cannot be told apart: they are admitted alike, with the same plans, and
every list of turns is answered alike.

So a control that a snapshot keeps is neither honoured nor refused.  A call fails
closed on the controls of a workflow exactly when there are none, or when it refuses the
workflow for some other reason.
-/

import Praktor.Runtime.WorkflowRun

namespace Praktor.Runtime

open Praktor.Data Praktor.Math Praktor.Values Praktor.Workflow

/-! ## Snapshots that are read alike -/

/-- The members of task metadata that a call reads. -/
def readKeys : List Bytes := [ascii "name", ascii "depends_on", ascii "vars"]

/-- Two tasks that differ at most in metadata that is not read. -/
structure TaskAlike (first second : SnapshotTask) : Prop where
  kind_eq : first.kind = second.kind
  tree_eq : first.tree = second.tree
  object_eq : isObject first.metadata = isObject second.metadata
  read_eq : ∀ key ∈ readKeys, first.metadata.objectGet key = second.metadata.objectGet key

/-- Two snapshots of such tasks. -/
structure SnapshotAlike (first second : WorkflowSnapshot) : Prop where
  metadata_eq : first.metadata = second.metadata
  tasks_alike : List.Forall₂ TaskAlike first.tasks second.tasks

theorem TaskAlike.refl (task : SnapshotTask) : TaskAlike task task := ⟨rfl, rfl, rfl, fun _ _ => rfl⟩

section Graph

open Dependencies

theorem copyNames_alike {first second : List SnapshotTask}
    (halike : List.Forall₂ TaskAlike first second) (index nameBytes : Nat) (graph : Dependencies) :
    copyNames (first.map fun task => some task.metadata) index nameBytes graph =
      copyNames (second.map fun task => some task.metadata) index nameBytes graph := by
  induction halike generalizing index nameBytes graph with
  | nil => rfl
  | cons htask _ ih =>
      have hname := htask.read_eq (ascii "name") (by simp [readKeys])
      simp only [List.map_cons, copyNames, nameOf, Option.bind_some, hname, ih]

theorem appendAllDependencies_alike {first second : List SnapshotTask}
    (halike : List.Forall₂ TaskAlike first second) (index : Nat) (graph : Dependencies) :
    appendAllDependencies (first.map SnapshotTask.metadata) index graph =
      appendAllDependencies (second.map SnapshotTask.metadata) index graph := by
  induction halike generalizing index graph with
  | nil => rfl
  | cons htask _ ih =>
      have hentries := htask.read_eq (ascii "depends_on") (by simp [readKeys])
      simp only [List.map_cons, appendAllDependencies, hentries, ih]

theorem filterMap_metadata (tasks : List SnapshotTask) :
    (tasks.map fun task => some task.metadata).filterMap id = tasks.map SnapshotTask.metadata := by
  rw [List.filterMap_map, ← List.filterMap_eq_map]
  rfl

/-- The phases of a projection that make its graph. -/
theorem create_graph {metadata : List (Option Json)} {graph : Dependencies}
    (hcreate : create metadata = .ok graph) :
    ∃ named, copyNames metadata 0 0 (blank metadata.length) = .ok named ∧
      appendAllDependencies (metadata.filterMap id) 0 named = .ok graph := by
  rw [create] at hcreate
  split at hcreate
  · simp [bind, Except.bind] at hcreate
  obtain ⟨named, hnamed, hcreate⟩ := except_bind_eq_ok.mp hcreate
  obtain ⟨_, _, hcreate⟩ := except_bind_eq_ok.mp hcreate
  obtain ⟨linked, hlinked, hcreate⟩ := except_bind_eq_ok.mp hcreate
  obtain ⟨_, _, hcreate⟩ := except_bind_eq_ok.mp hcreate
  exact ⟨named, hnamed, Except.ok.inj hcreate ▸ hlinked⟩

/-- The graph of a snapshot is what the names and the dependencies say. -/
theorem SnapshotAlike.graph_eq {first second : WorkflowSnapshot}
    (halike : SnapshotAlike first second) : first.graph = second.graph := by
  obtain ⟨named, hnamed, hgraph⟩ := create_graph first.created
  obtain ⟨named', hnamed', hgraph'⟩ := create_graph second.created
  have hlength : (first.tasks.map fun task => some task.metadata).length =
      (second.tasks.map fun task => some task.metadata).length := by
    simp [halike.tasks_alike.length_eq]
  rw [copyNames_alike halike.tasks_alike, hlength, hnamed'] at hnamed
  obtain rfl := Except.ok.inj hnamed
  rw [filterMap_metadata, appendAllDependencies_alike halike.tasks_alike, ← filterMap_metadata,
    hgraph'] at hgraph
  exact (Except.ok.inj hgraph).symm

end Graph

/-! ## Admission -/

/-- The owner of a call with another snapshot. -/
def RuntimeOwner.withSnapshot (owner : RuntimeOwner) (snapshot : WorkflowSnapshot) : RuntimeOwner :=
  { owner with snapshot := snapshot }

/-- The surroundings of a call whose front end reads one snapshot. -/
def RuntimeHost.presenting (host : RuntimeHost) (snapshot : WorkflowSnapshot) : RuntimeHost :=
  { host with frontEnd := fun _ => .ok snapshot }

section Admission

variable {first second : WorkflowSnapshot}

theorem makePlan_alike {first second : SnapshotTask} (halike : TaskAlike first second)
    (config : TreeConfig) (schedule : AllocSchedule) :
    makePlan config first schedule = makePlan config second schedule := by
  simp only [makePlan, halike.kind_eq, halike.tree_eq]

theorem makePlans_alike {first second : List SnapshotTask}
    (halike : List.Forall₂ TaskAlike first second) (config : TreeConfig) (index : Nat)
    (table : PlanTable) (schedule : AllocSchedule) :
    makePlans config first index table schedule = makePlans config second index table schedule := by
  induction halike generalizing index table schedule with
  | nil => rfl
  | cons htask _ ih => simp only [makePlans, makePlan_alike htask, ih]

theorem admitRoot_alike (halike : SnapshotAlike first second) (host : RuntimeHost)
    (request : RuntimeRequest) (registry : TaskRegistry) (dag : DagState)
    (schedule : AllocSchedule) :
    admitRoot host request second registry dag schedule =
      (admitRoot host request first registry dag schedule).map (·.withSnapshot second) := by
  simp only [admitRoot, seedRootTextVariables, halike.metadata_eq]
  split
  · rfl
  · split_ifs <;> rfl

/-- An admission whose owner has another snapshot. -/
def Admission.withSnapshot (admission : Admission) (snapshot : WorkflowSnapshot) : Admission :=
  { admission with owner := admission.owner.map (·.withSnapshot snapshot) }

theorem admitPlans_alike (halike : SnapshotAlike first second) (host : RuntimeHost)
    (request : RuntimeRequest) (registry : TaskRegistry) (dag : DagState)
    (schedule : AllocSchedule) :
    admitPlans host request second registry dag schedule =
      (admitPlans host request first registry dag schedule).withSnapshot second := by
  have hcount : second.taskCount = first.taskCount := halike.tasks_alike.length_eq.symm
  simp only [admitPlans, hcount, ← makePlans_alike halike.tasks_alike, admitRoot_alike halike]
  split
  · rfl
  · rename_i schedule _
    cases admitRoot host request first registry dag schedule with
    | none => rfl
    | some owner => rfl

/-- Snapshots that are read alike are admitted alike. -/
theorem admitYaml_alike (halike : SnapshotAlike first second) (host : RuntimeHost)
    (request : RuntimeRequest) :
    admitYaml (host.presenting second) request =
      (admitYaml (host.presenting first) request).withSnapshot second := by
  have hcount : second.taskCount = first.taskCount := halike.tasks_alike.length_eq.symm
  cases hcomponent : host.componentStarts with
  | false => simp [admitYaml, RuntimeHost.presenting, hcomponent, Admission.withSnapshot]
  | true =>
      simp only [admitYaml, RuntimeHost.presenting, hcomponent, hcount, ← halike.graph_eq]
      by_cases hlimit : (first.taskCount : Int) > request.options.maxTasks
      · simp [hlimit, Admission.withSnapshot]
      simp only [hlimit, if_false, Bool.not_true, Bool.false_eq_true]
      split
      · rfl
      split
      · rfl
      · rename_i registry _ _ _ dag schedule _
        exact admitPlans_alike halike host request registry dag schedule

end Admission

/-! ## Turns -/

section Turns

variable {first second : SnapshotTask}

theorem loadTaskTextScope_alike (halike : TaskAlike first second) (root destination : ValueStore)
    (schedule : AllocSchedule) :
    loadTaskTextScope first root destination schedule =
      loadTaskTextScope second root destination schedule := by
  have hvars := halike.read_eq (ascii "vars") (by simp [readKeys])
  simp only [loadTaskTextScope, forkTaskTextVariables, halike.object_eq, hvars]

theorem setup_alike (halike : TaskAlike first second) (root : ValueStore) (input : TurnInput) :
    setup first root input = setup second root input := by
  simp only [setup, loadTaskTextScope_alike halike]

theorem isShell_alike (halike : TaskAlike first second) : isShell first = isShell second := by
  simp only [isShell, halike.kind_eq, halike.tree_eq]

theorem taskSetKey_alike (halike : TaskAlike first second) :
    taskSetKey first = taskSetKey second := by
  simp only [taskSetKey, isShell_alike halike, halike.tree_eq]

theorem publishTask_alike (halike : TaskAlike first second) (library : JsonLibrary)
    (registry : TaskRegistry) (world : World) (index : Nat) (driver : DriverResult)
    (input : TurnInput) :
    publishTask library registry world first index driver input =
      publishTask library registry world second index driver input := by
  simp only [publishTask, taskSetKey_alike halike, isShell_alike halike]

theorem taskWrites_alike (halike : TaskAlike first second) (scope : ValueStore) :
    taskWrites first scope = taskWrites second scope := by
  simp only [taskWrites, taskSetKey_alike halike]

theorem reachTask_alike (halike : TaskAlike first second) (owner : RuntimeOwner)
    (snapshot : WorkflowSnapshot) (status : RuntimeStatus) (root : ValueStore) (index : Nat)
    (input : TurnInput) :
    reachTask (owner.withSnapshot snapshot) status second root index input =
      reachTask owner status first root index input := by
  simp only [reachTask, setup_alike halike]
  rfl

/-- A state of a call with another snapshot. -/
def RuntimeState.withSnapshot (state : RuntimeState) (snapshot : WorkflowSnapshot) : RuntimeState :=
  { state with owner := state.owner.withSnapshot snapshot }

theorem settleTask_withSnapshot (owner : RuntimeOwner) (snapshot : WorkflowSnapshot) (index : Nat)
    (status : RuntimeStatus) (passed failed : Bool) (input : TurnInput) :
    settleTask (owner.withSnapshot snapshot) index status passed failed input =
      (settleTask owner index status passed failed input).withSnapshot snapshot := by
  simp only [settleTask]
  split_ifs <;> rfl

theorem finishTask_alike (halike : TaskAlike first second) (library : JsonLibrary)
    (owner : RuntimeOwner) (snapshot : WorkflowSnapshot) (index : Nat) (reached : TaskReached)
    (input : TurnInput) :
    finishTask library (owner.withSnapshot snapshot) second index reached input =
      ((finishTask library owner first index reached input).1.withSnapshot snapshot,
        (finishTask library owner first index reached input).2) := by
  simp only [finishTask]
  split_ifs with haborted
  · rfl
  cases reached.driver with
  | none =>
      have hsettled := settleTask_withSnapshot
        { owner with registry := reached.registry, dag := reached.dag } snapshot index
        reached.status false reached.failed input
      exact Prod.ext hsettled rfl
  | some driver =>
      have hpublished := publishTask_alike halike library reached.registry owner.world index driver
        input
      simp only [RuntimeOwner.withSnapshot, ← hpublished, ← taskWrites_alike halike]
      generalize publishTask library reached.registry owner.world first index driver input =
        published
      have hsettled := settleTask_withSnapshot
        { owner with
          registry := published.registry
          dag := reached.dag
          world := published.world } snapshot index reached.status driver.passed
        (published.status ≠ .ok) input
      exact Prod.ext hsettled rfl

end Turns

section Steps

variable {first second : WorkflowSnapshot}

theorem tasks_alike_at {first second : List SnapshotTask}
    (halike : List.Forall₂ TaskAlike first second) (index : Nat) :
    (first[index]? = none ∧ second[index]? = none) ∨
      ∃ task other, first[index]? = some task ∧ second[index]? = some other ∧
        TaskAlike task other := by
  induction halike generalizing index with
  | nil => exact .inl ⟨rfl, rfl⟩
  | cons htask _ ih =>
      cases index with
      | zero => exact .inr ⟨_, _, rfl, rfl, htask⟩
      | succ index => simpa using ih index

/-- A turn reads of its snapshot what two snapshots have in common. -/
theorem step_alike (halike : SnapshotAlike first second) (library : JsonLibrary)
    {state : RuntimeState} (hstate : state.owner.snapshot = first) (input : TurnInput) :
    (state.withSnapshot second).step library input =
      ((state.step library input).1.withSnapshot second, (state.step library input).2) := by
  subst hstate
  by_cases hphase : state.phase = .looping
  swap
  · simp [RuntimeState.step, RuntimeState.withSnapshot, hphase]
  cases hcancelled : input.cancelled with
  | true =>
      simp [RuntimeState.step, RuntimeState.withSnapshot, hphase, hcancelled,
        RuntimeState.interrupt, RuntimeOwner.withSnapshot]
  | false =>
  cases hexpired : input.expired with
  | true =>
      simp [RuntimeState.step, RuntimeState.withSnapshot, hphase, hcancelled, hexpired,
        RuntimeState.interrupt, RuntimeOwner.withSnapshot]
  | false =>
  generalize hclaim : state.owner.dag.claimReady 1 = result
  obtain ⟨dag, status, claimed⟩ := result
  simp only [RuntimeState.step, RuntimeState.withSnapshot, RuntimeOwner.withSnapshot, hphase,
    hcancelled, hexpired, hclaim, ne_eq, not_true_eq_false, if_false, Bool.false_eq_true]
  by_cases hnone : status = .ebusy ∨ (status = .ok ∧ claimed = [])
  · simp only [hnone, if_true]
  simp only [hnone, if_false]
  cases claimed with
  | nil => rfl
  | cons index rest =>
      simp only
      rcases tasks_alike_at halike.tasks_alike index with
        ⟨hfirst, hsecond⟩ | ⟨task, other, hfirst, hsecond, htask⟩
      · simp only [hfirst, hsecond]
      simp only [hfirst, hsecond]
      cases state.owner.world.stores rootStore with
      | none => rfl
      | some root =>
          have hreached := reachTask_alike htask { state.owner with dag := dag } second state.status
            root index input
          have hfinished := finishTask_alike htask library { state.owner with dag := dag } second
            index (reachTask { state.owner with dag := dag } state.status task root index input)
            input
          simp only [RuntimeOwner.withSnapshot] at hreached hfinished
          simp only [hreached, hfinished]
          rfl

theorem finishTask_snapshot (library : JsonLibrary) (owner : RuntimeOwner) (task : SnapshotTask)
    (index : Nat) (reached : TaskReached) (input : TurnInput) :
    (finishTask library owner task index reached input).1.owner.snapshot = owner.snapshot := by
  simp only [finishTask]
  split_ifs
  · rfl
  cases reached.driver with
  | none =>
      simp only [settleTask]
      split_ifs <;> rfl
  | some driver =>
      simp only [settleTask]
      split_ifs <;> rfl

theorem step_snapshot (library : JsonLibrary) (state : RuntimeState) (input : TurnInput) :
    (state.step library input).1.owner.snapshot = state.owner.snapshot := by
  simp only [RuntimeState.step]
  split_ifs
  · rfl
  · rfl
  · rfl
  · rfl
  split
  · rfl
  split
  · exact finishTask_snapshot _ _ _ _ _ _
  · rfl

/-- The two states differ in the snapshot. -/
def Mirrors (first second : WorkflowSnapshot) (state other : RuntimeState) : Prop :=
  state.owner.snapshot = first ∧ other = state.withSnapshot second

theorem Mirrors.step (halike : SnapshotAlike first second) (library : JsonLibrary)
    {state other : RuntimeState} (hmirrors : Mirrors first second state other)
    (input : TurnInput) :
    Mirrors first second (state.step library input).1 (other.step library input).1 ∧
      (state.step library input).2 = (other.step library input).2 := by
  obtain ⟨hstate, rfl⟩ := hmirrors
  rw [step_alike halike library hstate input]
  exact ⟨⟨(step_snapshot library state input).trans hstate, rfl⟩, rfl⟩

/-- Every list of turns is answered alike and leads to states that differ in the snapshot. -/
theorem Mirrors.turns (halike : SnapshotAlike first second) (library : JsonLibrary)
    {state other : RuntimeState} (hmirrors : Mirrors first second state other)
    (turns : List TurnInput) :
    answers (RuntimeState.step library) state turns =
        answers (RuntimeState.step library) other turns ∧
      Mirrors first second (drive (RuntimeState.step library) state turns)
        (drive (RuntimeState.step library) other turns) := by
  have hrun := answers_eq_of_related (Mirrors first second) id
    (fun _ _ input hrelated => hrelated.step halike library input) turns state other hmirrors
  rwa [List.map_id] at hrun

end Steps

end Praktor.Runtime
