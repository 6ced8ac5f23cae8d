/-
# Task controls and failing closed

Documentation says of what the runtime does not have that it fails closed.  The controls
of a task pass through: the metadata parser admits them, the snapshot keeps them, and a
call neither follows nor refuses them.  Whatever the value of a control, the call makes
the same plans, gives every turn the same answer and ends the same.

A call fails closed on the controls of a workflow exactly when no task has one, or when
it refuses the workflow on grounds that have nothing to do with them.
-/

import Praktor.Runtime.TaskControls
import Praktor.Yaml.FlatMetadata

namespace Praktor.Runtime

open Praktor.Data Praktor.Math Praktor.Values Praktor.Workflow Praktor.Yaml

/-- A workflow and the tasks of its document, with the metadata that
`praktor_yaml_task_metadata_create` makes of each. -/
structure YamlWorkflow where
  document : YamlDocument
  nodes : List YamlNode
  snapshot : WorkflowSnapshot
  reads : List.Forall₂ (fun node task => document.taskMetadataCreate node = .ok task.metadata)
    nodes snapshot.tasks

/-- Two workflows that differ in one control of one task alone. -/
structure DiffersOnlyIn (control : TaskControl) (index : Nat) (first second : YamlWorkflow) :
    Prop where
  metadata_eq : first.snapshot.metadata = second.snapshot.metadata
  length_eq : first.snapshot.tasks.length = second.snapshot.tasks.length
  others_eq : ∀ place, place ≠ index → first.snapshot.tasks[place]? = second.snapshot.tasks[place]?
  differ : ∃ task other, first.snapshot.tasks[index]? = some task ∧
    second.snapshot.tasks[index]? = some other ∧ task.kind = other.kind ∧ task.tree = other.tree ∧
    (∀ key, key ≠ ascii control.member →
      task.metadata.objectGet key = other.metadata.objectGet key) ∧
    task.metadata.objectGet (ascii control.member) ≠ other.metadata.objectGet (ascii control.member)

/-! ## What a call shows -/

/-- All that a call does with its workflow: the plans it makes, the answers to its turns,
and the results, the values and the status with which it ends. -/
structure CallRecord where
  taskCount : Nat
  table : PlanTable
  status : RuntimeStatus
  error : Bytes
  replies : List TurnReply
  ending : Option (TaskRegistry × DagState × World × RuntimeStatus × RunPhase)

/-- A refused call, before any turn. -/
def CallRecord.refused (admission : Admission) : CallRecord :=
  ⟨admission.taskCount, admission.table, admission.status, admission.error, [], none⟩

/-- A call that has entered its loop, with the state after its turns. -/
def CallRecord.entered (admission : Admission) (replies : List TurnReply) (state : RuntimeState) :
    CallRecord :=
  ⟨admission.taskCount, admission.table, admission.status, admission.error, replies,
    some (state.owner.registry, state.owner.dag, state.owner.world, state.status, state.phase)⟩

/-- The surroundings of a call. -/
structure CallSite where
  host : RuntimeHost
  library : JsonLibrary
  request : RuntimeRequest

namespace CallSite

variable (site : CallSite) (workflow : YamlWorkflow)

/-- The admission of a workflow. -/
def admission : Admission :=
  if site.request.admitted then admitYaml (site.host.presenting workflow.snapshot) site.request
  else ⟨0, .blank, .invalid, [], none⟩

/-- The record of a call over some turns. -/
def record (turns : List TurnInput) : CallRecord :=
  match (site.admission workflow).owner with
  | none => .refused (site.admission workflow)
  | some owner =>
      .entered (site.admission workflow) (answers (RuntimeState.step site.library) (.start owner) turns)
        (drive (RuntimeState.step site.library) (.start owner) turns)

/-- The call returns a status of refusal before any task is started. -/
def Refused : Prop :=
  (site.admission workflow).owner = none ∧ (site.admission workflow).status ≠ .ok

/-- The call runs to `PRAKTOR_RUNTIME_OK`. -/
def RunsToOk (turns : List TurnInput) : Prop :=
  ∃ registry dag world,
    (site.record workflow turns).ending = some (registry, dag, world, .ok, .marshalled)

/-- The value of a control makes a difference to some run. -/
def Honoured (index : Nat) (control : TaskControl) : Prop :=
  ∃ other turns, DiffersOnlyIn control index workflow other ∧
    site.record workflow turns ≠ site.record other turns

/-- For each control of a task: it is honoured or the workflow is refused, and no other
value of it leads to `PRAKTOR_RUNTIME_OK` in the same way. -/
def FailsClosed : Prop :=
  ∀ index node control, workflow.nodes[index]? = some node →
    control.Given workflow.document node →
    (site.Honoured workflow index control ∨ site.Refused workflow) ∧
      ∀ other turns, DiffersOnlyIn control index workflow other →
        ¬ (site.RunsToOk workflow turns ∧ site.RunsToOk other turns ∧
          site.record workflow turns = site.record other turns)

/-- What the call asks of a workflow: arguments within their limits, room for its tasks,
actions that the runtime has, and memory and services for a run. -/
structure Admissible : Prop where
  request : site.request.admitted = true
  component : site.host.componentStarts = true
  capacity : (workflow.snapshot.taskCount : Int) ≤ site.request.options.maxTasks
  entry : ∃ registry dag table first second third owner,
    TaskRegistry.create workflow.snapshot.graph site.host.schedule = (.ok registry, first) ∧
    createDag workflow.snapshot.graph first = (.ok dag, second) ∧
    makePlans site.host.config workflow.snapshot.tasks 0 .blank second = (table, none, third) ∧
    admitRoot site.host site.request workflow.snapshot registry dag third = some owner

end CallSite

/-! ## Admission -/

section Admission

variable {site : CallSite} {workflow : YamlWorkflow}

theorem CallSite.Admissible.enters (hadmissible : site.Admissible workflow) :
    ∃ owner, (site.admission workflow).owner = some owner ∧
      owner.snapshot = workflow.snapshot := by
  obtain ⟨registry, dag, table, first, second, third, owner, hregistry, hdag, hplans, hroot⟩ :=
    hadmissible.entry
  obtain ⟨seeded, -, howner⟩ := admitRoot_some hroot
  refine ⟨owner, ?_, by rw [howner]⟩
  have hpresented : admitRoot (site.host.presenting workflow.snapshot) site.request
      workflow.snapshot registry dag third = some owner := hroot
  have hcapacity : ¬ (workflow.snapshot.taskCount : Int) > site.request.options.maxTasks :=
    Int.not_lt.mpr hadmissible.capacity
  simp only [RuntimeHost.presenting, hadmissible.component] at hpresented
  simp only [admission, hadmissible.request, if_true, admitYaml, RuntimeHost.presenting,
    hadmissible.component, Bool.not_true, Bool.false_eq_true, if_false, hcapacity, hregistry, hdag,
    admitPlans, hplans, hpresented]

/-- Whatever ends the admission gives it a status of its own. -/
theorem admission_cases (site : CallSite) (workflow : YamlWorkflow) :
    site.Refused workflow ∨ site.Admissible workflow := by
  rw [CallSite.Refused]
  generalize hresult : site.admission workflow = result
  rw [CallSite.admission] at hresult
  split at hresult
  swap
  · subst hresult
    exact .inl ⟨rfl, by simp⟩
  rename_i hrequest
  rw [admitYaml] at hresult
  split at hresult
  · subst hresult
    exact .inl ⟨rfl, by simp⟩
  rename_i hcomponent
  simp only [RuntimeHost.presenting] at hresult
  split at hresult
  · subst hresult
    exact .inl ⟨rfl, by simp⟩
  rename_i hcapacity
  split at hresult
  · subst hresult
    exact .inl ⟨rfl, by simp⟩
  rename_i registry first hregistry
  split at hresult
  · subst hresult
    exact .inl ⟨rfl, by simp⟩
  rename_i dag second hdag
  simp only [admitPlans] at hresult
  split at hresult
  · subst hresult
    exact .inl ⟨rfl, by simp⟩
  rename_i table third hplans
  split at hresult
  · subst hresult
    exact .inl ⟨rfl, by simp⟩
  rename_i owner hroot
  exact .inr ⟨hrequest, by simpa [RuntimeHost.presenting] using hcomponent,
    Int.not_lt.mp hcapacity, registry, dag, table, first, second, third, owner, hregistry, hdag,
    hplans, hroot⟩

end Admission

/-! ## Controls are ignored -/

theorem member_not_read (control : TaskControl) : ∀ key ∈ readKeys, key ≠ ascii control.member := by
  cases control <;> decide

theorem isObject_read {document : YamlDocument} {node : YamlNode} {metadata : Json}
    (hcreate : document.taskMetadataCreate node = .ok metadata) : isObject metadata = true := by
  obtain ⟨parts, rfl, -⟩ := taskMetadataCreate_parts hcreate
  rfl

section Ignored

variable {control : TaskControl} {index : Nat} {first second : YamlWorkflow}

theorem YamlWorkflow.isObject (workflow : YamlWorkflow) {index : Nat} {task : SnapshotTask}
    (htask : workflow.snapshot.tasks[index]? = some task) : isObject task.metadata = true := by
  obtain ⟨node, -, hread⟩ := forall₂_getElem? (List.Forall₂.flip workflow.reads) htask
  exact isObject_read hread

theorem DiffersOnlyIn.alike (hdiffer : DiffersOnlyIn control index first second) :
    SnapshotAlike first.snapshot second.snapshot := by
  refine ⟨hdiffer.metadata_eq, List.forall₂_iff_get.mpr ⟨hdiffer.length_eq, ?_⟩⟩
  intro place hplace hplace'
  obtain ⟨task, other, htask, hother, hkind, htree, hkeys, -⟩ := hdiffer.differ
  by_cases hindex : place = index
  · subst hindex
    rw [List.getElem?_eq_getElem hplace] at htask
    rw [List.getElem?_eq_getElem hplace'] at hother
    obtain rfl := Option.some.inj htask
    obtain rfl := Option.some.inj hother
    refine ⟨hkind, htree, ?_, fun key hkey => hkeys key (member_not_read control key hkey)⟩
    rw [List.get_eq_getElem, List.get_eq_getElem,
      first.isObject (List.getElem?_eq_getElem hplace),
      second.isObject (List.getElem?_eq_getElem hplace')]
  · have hsame := hdiffer.others_eq place hindex
    rw [List.getElem?_eq_getElem hplace, List.getElem?_eq_getElem hplace'] at hsame
    rw [List.get_eq_getElem, List.get_eq_getElem, Option.some.inj hsame]
    exact .refl _

/-- Workflows that are read alike have one record. -/
theorem record_alike (halike : SnapshotAlike first.snapshot second.snapshot) (site : CallSite)
    (turns : List TurnInput) : site.record first turns = site.record second turns := by
  have hadmission : site.admission second =
      (site.admission first).withSnapshot second.snapshot := by
    rw [CallSite.admission, CallSite.admission]
    split
    · exact admitYaml_alike halike site.host site.request
    · rfl
  rw [CallSite.record, CallSite.record, hadmission]
  rcases admission_cases site first with ⟨hnone, -⟩ | hadmissible
  · simp only [Admission.withSnapshot, hnone, Option.map_none]
    rfl
  · obtain ⟨owner, howner, hsnapshot⟩ := hadmissible.enters
    have hmirrors : Mirrors first.snapshot second.snapshot (.start owner)
        (.start (owner.withSnapshot second.snapshot)) := ⟨hsnapshot, rfl⟩
    obtain ⟨hanswers, -, hend⟩ := hmirrors.turns halike site.library turns
    simp only [Admission.withSnapshot, howner, Option.map_some]
    rw [← hanswers, hend]
    rfl

end Ignored

/-- A control of an admissible workflow is neither honoured nor refused. -/
theorem not_failsClosed {site : CallSite} {workflow : YamlWorkflow}
    (hadmissible : site.Admissible workflow) {node : YamlNode} (hnode : node ∈ workflow.nodes)
    {control : TaskControl} (hgiven : control.Given workflow.document node) :
    ¬ site.FailsClosed workflow := by
  intro hcloses
  obtain ⟨index, hindex⟩ := List.mem_iff_getElem?.mp hnode
  rcases (hcloses index node control hindex hgiven).1 with
    ⟨other, turns, hdiffer, hdifferent⟩ | hrefused
  · exact hdifferent (record_alike hdiffer.alike site turns)
  · obtain ⟨owner, howner, -⟩ := hadmissible.enters
    rw [CallSite.Refused, howner] at hrefused
    simp at hrefused

/-- A task that sets a variable and is not to run. -/
def skippedDocument : YamlDocument :=
  plainDocument (variableTask ((6, 7) :: variablePairs)
    [⟨.scalar (.literal "when"), 1, 1⟩, ⟨.scalar (.literal "false"), 1, 1⟩])

/-- The task as the snapshot has it. -/
def skippedTask : SnapshotTask where
  metadata := valueOf (skippedDocument.taskMetadataCreate ⟨some 0, none⟩) (by decide +kernel)
  kind := .orchestration
  tree := valueOf (orchFromFlatYaml skippedDocument ⟨some 0, none⟩ (.literal "set_variable"))
    (by decide +kernel)

/-- The workflow of this task. -/
def skippedWorkflow : YamlWorkflow where
  document := skippedDocument
  nodes := [⟨some 0, none⟩]
  snapshot := ⟨.object [], [skippedTask],
    valueOf (Dependencies.create [some skippedTask.metadata]) (by decide +kernel),
    eq_ok_valueOf (by decide +kernel)⟩
  reads := .cons (eq_ok_valueOf (by decide +kernel)) .nil

/-- A call in which nothing fails. -/
def plainSite : CallSite :=
  ⟨.reading (ascii "tasks") [], inPlace, .plain (ascii "tasks")⟩

/-- The turns of a run to its end. -/
def skippedTurns : List TurnInput :=
  [smoothTurn (.literal "key") (.literal "first"), smoothTurn (.literal "key") (.literal "first")]

end Praktor.Runtime
