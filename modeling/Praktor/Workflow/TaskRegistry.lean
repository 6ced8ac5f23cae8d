/-
# The task registry

`praktor_workflow_task_registry` holds one slot for each task: its state, the
typed outputs published so far, the reason of a failure and a revision that grows
with every visible change.  One driver owns it.

Typed outputs are published in two steps.  `prepareOutputGroup` clones and checks
everything without touching a slot and notes what it saw; `publishOutputGroup`
compares each slot with that note and then only swaps pointers.  Retained output
objects therefore carry an address, since the comparison is one of pointers.

The JSON package is a parameter.  Clones are exact, and each call that builds or
extends a document is one allocation call.
-/

import Praktor.Workflow.Dependencies

namespace Praktor.Workflow

open Praktor.Data

/-! ## JSON documents -/

/-- The part of the JSON package that changes a document: `json_object_add_n` on
the members of an object.  A member added under a key replaces what was there and
leaves the other keys alone. -/
structure JsonLibrary where
  add : List (Bytes × Json) → Bytes → Json → List (Bytes × Json)
  lookup_add : ∀ members key value other, (add members key value).lookup other =
    if other = key then some value else members.lookup other

/-- `PRAKTOR_WORKFLOW_TASK_MAX_OUTPUTS`. -/
def maxOutputs : Nat := 128

/-- `PRAKTOR_WORKFLOW_TASK_MAX_JSON_NODES`. -/
def maxJsonNodes : Nat := 4096

/-- `PRAKTOR_WORKFLOW_TASK_MAX_JSON_DEPTH`. -/
def maxJsonDepth : Nat := 64

/-- `PRAKTOR_WORKFLOW_TASK_MAX_JSON_BYTES`. -/
def maxJsonBytes : Nat := 1024 * 1024

/-- `PRAKTOR_WORKFLOW_TASK_MAX_REASON_BYTES`. -/
def maxReasonBytes : Nat := 65536

/-- `json_budget`. -/
structure JsonBudget where
  nodes : Nat
  bytes : Nat
  deriving DecidableEq, Repr

/-- `budget_bytes`. -/
def JsonBudget.take (budget : JsonBudget) (size : Nat) : Option JsonBudget :=
  if size > maxJsonBytes - budget.bytes then none
  else some { budget with bytes := budget.bytes + size }

/-- `admissible_json`, counting the levels that are left instead of the depth:
the budget after a document that is admitted. -/
def admissibleJson : Nat → Json → JsonBudget → Option JsonBudget
  | 0, _, _ => none
  | levels + 1, node, budget =>
      let budget := { budget with nodes := budget.nodes + 1 }
      if budget.nodes > maxJsonNodes then none
      else
        match node with
        | .null => budget.take 1
        | .bool _ => budget.take 1
        | .number value => budget.take value.tokenLength
        | .string text => budget.take text.length
        | .array items =>
            items.foldlM (fun budget item => admissibleJson levels item budget) budget
        | .object members =>
            members.foldlM (fun budget member =>
              (budget.take member.1.length).bind (admissibleJson levels member.2)) budget

/-- `admissible_json` of a whole document on a fresh budget. -/
def admitted (document : Json) : Bool := (admissibleJson maxJsonDepth document ⟨0, 0⟩).isSome

/-! ## Slots -/

/-- `praktor_workflow_task_state`. -/
inductive TaskState
  | pending
  | running
  | success
  | failed
  | skipped
  deriving DecidableEq, Repr

/-- `finalized`. -/
def TaskState.finalized : TaskState → Bool
  | .success => true
  | .failed => true
  | .skipped => true
  | _ => false

/-- A retained output object and where it lives. -/
structure TaskOutputs where
  address : Nat
  members : List (Bytes × Json)

/-- `task_slot`. -/
structure TaskSlot where
  name : Bytes
  state : TaskState
  outputs : Option TaskOutputs
  reason : Option Bytes
  revision : UInt64

namespace TaskSlot

/-- `revision_available`: the next revision would not wrap. -/
def revisionAvailable (slot : TaskSlot) : Bool := slot.revision ≠ 18446744073709551615

/-- The check in front of every change but a start. -/
def closed (slot : TaskSlot) : Bool := slot.state.finalized || !slot.revisionAvailable

/-- The members of the output object, none when there is no object. -/
def members (slot : TaskSlot) : List (Bytes × Json) :=
  (slot.outputs.map TaskOutputs.members).getD []

/-- Publish a staged output object: a pointer swap, and a pending task starts. -/
def publish (slot : TaskSlot) (staged : TaskOutputs) : TaskSlot :=
  { slot with
    outputs := some staged
    state := if slot.state = .pending then .running else slot.state
    revision := slot.revision + 1 }

end TaskSlot

/-- `praktor_workflow_task_registry`. -/
structure TaskRegistry where
  slots : List TaskSlot

/-- `praktor_workflow_task_output_update`; a null pointer is `none`. -/
structure TaskOutputUpdate where
  taskIndex : Nat
  updates : Option Json

/-- `staged_output_entry`: the staged object, and what `prepare` saw in the slot. -/
structure StagedOutputEntry where
  index : Nat
  staged : Option TaskOutputs
  observedOutputs : Option Nat
  observedState : TaskState
  observedRevision : UInt64

namespace TaskRegistry

/-- `praktor_workflow_task_registry_count`. -/
def count (registry : TaskRegistry) : Nat := registry.slots.length

/-- Replace one slot. -/
def withSlot (registry : TaskRegistry) (index : Nat) (slot : TaskSlot) : TaskRegistry :=
  ⟨registry.slots.set index slot⟩

/-- `praktor_workflow_task_registry_state`. -/
def state (registry : TaskRegistry) (index : Nat) : Except Salts TaskState :=
  match registry.slots[index]? with
  | none => .error .enoent
  | some slot => .ok slot.state

/-! ## Construction -/

/-- The slots of `praktor_workflow_task_registry_create`, with `bytes` taken by
the names before. -/
def createSlots : List Bytes → Nat → AllocSchedule → Except Salts (List TaskSlot) × AllocSchedule
  | [], _, schedule => (.ok [], schedule)
  | name :: rest, bytes, schedule =>
      if name.length = 0 || name.length + 1 > maxNameBytes - bytes then (.error .einval, schedule)
      else
        match schedule.alloc with
        | (none, schedule) => (.error .enomem, schedule)
        | (some _, schedule) =>
            match createSlots rest (bytes + (name.length + 1)) schedule with
            | (.error status, schedule) => (.error status, schedule)
            | (.ok slots, schedule) => (.ok (⟨name, .pending, none, none, 0⟩ :: slots), schedule)

/-- `praktor_workflow_task_registry_create`. -/
def create (graph : Dependencies) (schedule : AllocSchedule) :
    Except Salts TaskRegistry × AllocSchedule :=
  if graph.taskCount = 0 || graph.taskCount > maxTasks then (.error .einval, schedule)
  else
    let (owner, schedule) := schedule.alloc
    if owner.isNone then (.error .enomem, schedule)
    else
      let (slots, schedule) := schedule.alloc
      if slots.isNone then (.error .enomem, schedule)
      else
        match createSlots (graph.tasks.map DependencyName.bytes) 0 schedule with
        | (.error status, schedule) => (.error status, schedule)
        | (.ok slots, schedule) => (.ok ⟨slots⟩, schedule)

/-- New slots are pending, hold nothing and have never been changed. -/
theorem createSlots_ok (names : List Bytes) (bytes : Nat) (schedule : AllocSchedule)
    {slots : List TaskSlot} {rest : AllocSchedule}
    (hcreate : createSlots names bytes schedule = (.ok slots, rest)) :
    slots = names.map fun name => ⟨name, .pending, none, none, 0⟩ := by
  induction names generalizing bytes schedule slots rest with
  | nil =>
      obtain ⟨rfl, _⟩ : [] = slots ∧ schedule = rest := by simpa [createSlots] using hcreate
      rfl
  | cons name names ih =>
      rw [createSlots] at hcreate
      split at hcreate
      · simp at hcreate
      split at hcreate
      · simp at hcreate
      split at hcreate
      · simp at hcreate
      rename_i found last hfound
      obtain ⟨rfl, _⟩ : ⟨name, .pending, none, none, 0⟩ :: found = slots ∧ last = rest := by
        simpa using hcreate
      rw [ih _ _ hfound, List.map_cons]

/-- A new registry has a slot for every task. -/
theorem create_ok {graph : Dependencies} {schedule rest : AllocSchedule}
    {registry : TaskRegistry} (hcreate : create graph schedule = (.ok registry, rest)) :
    registry.slots = graph.tasks.map fun task => ⟨task.bytes, .pending, none, none, 0⟩ := by
  simp only [create] at hcreate
  split_ifs at hcreate
  · simp at hcreate
  · simp at hcreate
  · simp at hcreate
  split at hcreate
  · simp at hcreate
  rename_i slots last hslots
  obtain ⟨rfl, _⟩ : ⟨slots⟩ = registry ∧ last = rest := by simpa using hcreate
  rw [createSlots_ok _ _ _ hslots, List.map_map]
  rfl

/-- A new registry has a pending slot for every task. -/
theorem create_pending {graph : Dependencies} {schedule rest : AllocSchedule}
    {registry : TaskRegistry} (hcreate : create graph schedule = (.ok registry, rest)) :
    registry.count = graph.taskCount ∧
      ∀ slot ∈ registry.slots, slot.state = .pending ∧ slot.revision = 0 := by
  rw [count, create_ok hcreate]
  refine ⟨by simp [Dependencies.taskCount], fun slot hslot => ?_⟩
  obtain ⟨task, _, rfl⟩ := List.mem_map.mp hslot
  exact ⟨rfl, rfl⟩

/-! ## State changes -/

/-- `praktor_workflow_task_registry_start`. -/
def start (registry : TaskRegistry) (index : Nat) : TaskRegistry × Salts :=
  match registry.slots[index]? with
  | none => (registry, .enoent)
  | some slot =>
      if slot.revisionAvailable then
        (registry.withSlot index
          { slot with outputs := none, reason := none, state := .running,
                      revision := slot.revision + 1 }, .ok)
      else (registry, .ebusy)

/-- End a task that is not final yet; outputs stay as they are. -/
def conclude (final : TaskState) (registry : TaskRegistry) (index : Nat) : TaskRegistry × Salts :=
  match registry.slots[index]? with
  | none => (registry, .enoent)
  | some slot =>
      if slot.closed then (registry, .ebusy)
      else
        (registry.withSlot index { slot with state := final, revision := slot.revision + 1 }, .ok)

/-- `praktor_workflow_task_registry_complete`. -/
def complete : TaskRegistry → Nat → TaskRegistry × Salts := conclude .success

/-- `praktor_workflow_task_registry_skip`. -/
def skip : TaskRegistry → Nat → TaskRegistry × Salts := conclude .skipped

/-- `praktor_workflow_task_registry_fail`. -/
def fail (registry : TaskRegistry) (index : Nat) (reason : Bytes) (schedule : AllocSchedule) :
    TaskRegistry × Salts × AllocSchedule :=
  match registry.slots[index]? with
  | none => (registry, .enoent, schedule)
  | some slot =>
      if slot.closed then (registry, .ebusy, schedule)
      else if reason.length > maxReasonBytes || 0 ∈ reason then (registry, .einval, schedule)
      else
        match schedule.alloc with
        | (none, schedule) => (registry, .enomem, schedule)
        | (some _, schedule) =>
            (registry.withSlot index
              { slot with reason := some reason, state := .failed,
                          revision := slot.revision + 1 }, .ok, schedule)

/-! ## Typed outputs -/

/-- The object a merge starts from: a clone of the outputs, or a new object. -/
def stageBase (slot : TaskSlot) (schedule : AllocSchedule) : Option TaskOutputs × AllocSchedule :=
  let (address, schedule) := schedule.alloc
  (address.map fun address => ⟨address, slot.members⟩, schedule)

/-- One copy of a value and its insertion into the staged object. -/
def stageMember (library : JsonLibrary) (staged : TaskOutputs) (key : Bytes) (value : Json)
    (schedule : AllocSchedule) : Except Salts TaskOutputs × AllocSchedule :=
  let (copy, schedule) := schedule.alloc
  if copy.isNone then (.error .enomem, schedule)
  else
    let (added, schedule) := schedule.alloc
    if added.isNone then (.error .enomem, schedule)
    else (.ok { staged with members := library.add staged.members key value }, schedule)

/-- The last checks on a staged object. -/
def stageChecked (staged : TaskOutputs) : Bool :=
  !(staged.members.length > maxOutputs) && admitted (.object staged.members)

/-- `praktor_workflow_task_registry_set_output`. -/
def setOutput (library : JsonLibrary) (registry : TaskRegistry) (index : Nat) (key : Bytes)
    (value : Json) (schedule : AllocSchedule) : TaskRegistry × Salts × AllocSchedule :=
  if key.length = 0 then (registry, .einval, schedule)
  else
    match registry.slots[index]? with
    | none => (registry, .enoent, schedule)
    | some slot =>
        if slot.closed then (registry, .ebusy, schedule)
        else if key.length > maxJsonBytes || 0 ∈ key then (registry, .einval, schedule)
        else if !admitted value then (registry, .einval, schedule)
        else
          match stageBase slot schedule with
          | (none, schedule) => (registry, .enomem, schedule)
          | (some staged, schedule) =>
              match stageMember library staged key value schedule with
              | (.error status, schedule) => (registry, status, schedule)
              | (.ok staged, schedule) =>
                  if stageChecked staged then
                    (registry.withSlot index (slot.publish staged), .ok, schedule)
                  else (registry, .einval, schedule)

/-- The loop of `stage_output_update` over the members of an update. -/
def stageMembers (library : JsonLibrary) : List (Bytes × Json) → TaskOutputs → AllocSchedule →
    Except Salts TaskOutputs × AllocSchedule
  | [], staged, schedule => (.ok staged, schedule)
  | (key, value) :: rest, staged, schedule =>
      if key.length = 0 || 0 ∈ key then (.error .einval, schedule)
      else
        match stageMember library staged key value schedule with
        | (.error status, schedule) => (.error status, schedule)
        | (.ok staged, schedule) => stageMembers library rest staged schedule

/-- `stage_output_update`: the staged object, `none` for an empty update. -/
def stageOutputUpdate (library : JsonLibrary) (slot : TaskSlot) (updates : Option Json)
    (schedule : AllocSchedule) : Except Salts (Option TaskOutputs) × AllocSchedule :=
  match updates with
  | some (.object members) =>
      if !admitted (.object members) || members.length > maxOutputs then (.error .einval, schedule)
      else if members.length = 0 then (.ok none, schedule)
      else
        match stageBase slot schedule with
        | (none, schedule) => (.error .enomem, schedule)
        | (some staged, schedule) =>
            match stageMembers library members staged schedule with
            | (.error status, schedule) => (.error status, schedule)
            | (.ok staged, schedule) =>
                if stageChecked staged then (.ok (some staged), schedule)
                else (.error .einval, schedule)
  | _ => (.error .einval, schedule)

/-- The type check on an update argument. -/
def isObject : Option Json → Bool
  | some (.object _) => true
  | _ => false

/-- `praktor_workflow_task_registry_merge_outputs`. -/
def mergeOutputs (library : JsonLibrary) (registry : TaskRegistry) (index : Nat)
    (updates : Option Json) (schedule : AllocSchedule) : TaskRegistry × Salts × AllocSchedule :=
  if !isObject updates then (registry, .einval, schedule)
  else
    match registry.slots[index]? with
    | none => (registry, .enoent, schedule)
    | some slot =>
        if slot.closed then (registry, .ebusy, schedule)
        else
          match stageOutputUpdate library slot updates schedule with
          | (.error status, schedule) => (registry, status, schedule)
          | (.ok none, schedule) => (registry, .ok, schedule)
          | (.ok (some staged), schedule) =>
              (registry.withSlot index (slot.publish staged), .ok, schedule)

/-! ## Grouped outputs -/

/-- The first loop of `prepare_output_group`; the indices already read are `seen`. -/
def checkUpdates (registry : TaskRegistry) : List TaskOutputUpdate → List Nat → Bool
  | [], _ => true
  | update :: rest, seen =>
      if update.taskIndex ≥ registry.count || !isObject update.updates then false
      else if update.taskIndex ∈ seen then false
      else registry.checkUpdates rest (update.taskIndex :: seen)

/-- The second loop of `prepare_output_group`. -/
def prepareEntries (library : JsonLibrary) (registry : TaskRegistry) :
    List TaskOutputUpdate → AllocSchedule → Except Salts (List StagedOutputEntry) × AllocSchedule
  | [], schedule => (.ok [], schedule)
  | update :: rest, schedule =>
      match registry.slots[update.taskIndex]? with
      | none => (.error .einval, schedule)
      | some slot =>
          if slot.closed then (.error .ebusy, schedule)
          else
            match stageOutputUpdate library slot update.updates schedule with
            | (.error status, schedule) => (.error status, schedule)
            | (.ok staged, schedule) =>
                match prepareEntries library registry rest schedule with
                | (.error status, schedule) => (.error status, schedule)
                | (.ok entries, schedule) =>
                    (.ok (⟨update.taskIndex, staged, slot.outputs.map TaskOutputs.address,
                      slot.state, slot.revision⟩ :: entries), schedule)

/-- `praktor_workflow_task_registry_prepare_output_group`.  It reads the registry
and does not change it. -/
def prepareOutputGroup (library : JsonLibrary) (registry : TaskRegistry)
    (updates : List TaskOutputUpdate) (schedule : AllocSchedule) :
    Except Salts (List StagedOutputEntry) × AllocSchedule :=
  if updates.length = 0 || updates.length > registry.count then (.error .einval, schedule)
  else if !registry.checkUpdates updates [] then (.error .einval, schedule)
  else
    let (group, schedule) := schedule.alloc
    if group.isNone then (.error .enomem, schedule)
    else
      let (entries, schedule) := schedule.alloc
      if entries.isNone then (.error .enomem, schedule)
      else prepareEntries library registry updates schedule

/-- The slot of an entry is still what `prepare` saw. -/
def fresh (registry : TaskRegistry) (entry : StagedOutputEntry) : Bool :=
  match registry.slots[entry.index]? with
  | none => false
  | some slot =>
      !(slot.state ≠ entry.observedState ||
        slot.outputs.map TaskOutputs.address ≠ entry.observedOutputs ||
        slot.revision ≠ entry.observedRevision || !slot.revisionAvailable)

/-- Swap in one staged object; an empty update has none. -/
def publishEntry (registry : TaskRegistry) (entry : StagedOutputEntry) : TaskRegistry :=
  match entry.staged with
  | none => registry
  | some staged => ⟨registry.slots.modify entry.index fun slot => slot.publish staged⟩

/-- `praktor_workflow_task_registry_publish_output_group` on the registry the group
was prepared for. -/
def publishOutputGroup (registry : TaskRegistry) (group : List StagedOutputEntry) :
    TaskRegistry × Salts :=
  if group.all registry.fresh then (group.foldl publishEntry registry, .ok)
  else (registry, .ebusy)

/-! ## Reading -/

/-- Whether the outputs of a task may be read. -/
def readable (slot : TaskSlot) : Bool := slot.state = .success || slot.state = .failed

/-- `praktor_workflow_task_registry_get_output`. -/
def getOutput (registry : TaskRegistry) (index : Nat) (key : Bytes) : Except Salts Json :=
  if key.length = 0 then .error .einval
  else
    match registry.slots[index]? with
    | none => .error .enoent
    | some slot =>
        if !readable slot then .error .ebusy
        else
          match slot.members.lookup key with
          | none => .error .enoent
          | some value => .ok value

/-- `praktor_workflow_task_registry_get_outputs`. -/
def getOutputs (registry : TaskRegistry) (index : Nat) : Except Salts (List (Bytes × Json)) :=
  match registry.slots[index]? with
  | none => .error .enoent
  | some slot =>
      if !readable slot then .error .ebusy
      else
        match slot.outputs with
        | none => .error .enoent
        | some outputs => .ok outputs.members

/-- `praktor_workflow_task_registry_failure_reason`. -/
def failureReason (registry : TaskRegistry) (index : Nat) : Except Salts Bytes :=
  match registry.slots[index]? with
  | none => .error .enoent
  | some slot => if slot.state = .failed then .ok (slot.reason.getD []) else .error .enoent

/-! ## What a merge does -/

end TaskRegistry

namespace JsonLibrary

/-- Add the members of an update one by one. -/
def merge (library : JsonLibrary) (base updates : List (Bytes × Json)) : List (Bytes × Json) :=
  updates.foldl (fun members member => library.add members member.1 member.2) base

/-- A merge answers from the update, the last member under a key first, and then
from the base. -/
theorem lookup_merge (library : JsonLibrary) (base updates : List (Bytes × Json)) (key : Bytes) :
    (library.merge base updates).lookup key =
      (updates.reverse.lookup key).or (base.lookup key) := by
  induction updates generalizing base with
  | nil => simp [merge]
  | cons member rest ih =>
      obtain ⟨name, value⟩ := member
      have hsplit : library.merge base ((name, value) :: rest) =
          library.merge (library.add base name value) rest := rfl
      rw [hsplit, ih, library.lookup_add, List.reverse_cons, List.lookup_append]
      rw [Json.lookup_member, List.lookup_nil]
      by_cases hkey : key = name
      · cases rest.reverse.lookup key <;> simp [hkey]
      · cases rest.reverse.lookup key <;> simp [hkey]

end JsonLibrary

/-- `next` is `slot` with the members of an update merged into its outputs.  An
empty update is not a change; any other one starts a pending task and takes one
revision. -/
structure MergedSlot (slot : TaskSlot) (members : List (Bytes × Json)) (next : TaskSlot) :
    Prop where
  name_eq : next.name = slot.name
  reason_eq : next.reason = slot.reason
  unchanged : members = [] → next = slot
  state_eq : members ≠ [] →
    next.state = if slot.state = .pending then .running else slot.state
  revision_eq : members ≠ [] → next.revision.toNat = slot.revision.toNat + 1
  outputs_eq : ∀ key, next.members.lookup key =
    (members.reverse.lookup key).or (slot.members.lookup key)

theorem TaskSlot.toNat_succ_revision (slot : TaskSlot) (hopen : slot.revisionAvailable = true) :
    (slot.revision + 1).toNat = slot.revision.toNat + 1 := by
  have hne : slot.revision ≠ 18446744073709551615 := by simpa [revisionAvailable] using hopen
  have hval : slot.revision.toNat ≠ 18446744073709551615 := fun heq =>
    hne (UInt64.toNat_inj.mp heq)
  have hlt := slot.revision.toNat_lt
  rw [UInt64.toNat_add]
  simp only [UInt64.toNat_one]
  omega

theorem MergedSlot.publish {library : JsonLibrary} {slot : TaskSlot}
    {members : List (Bytes × Json)} {staged : TaskOutputs} (hopen : slot.closed = false)
    (hmembers : members ≠ []) (hstaged : staged.members = library.merge slot.members members) :
    MergedSlot slot members (slot.publish staged) := by
  have hrevision : slot.revisionAvailable = true := by
    rw [TaskSlot.closed, Bool.or_eq_false_iff] at hopen
    simpa using hopen.2
  refine ⟨rfl, rfl, fun hnil => absurd hnil hmembers, fun _ => rfl,
    fun _ => TaskSlot.toNat_succ_revision _ hrevision, fun key => ?_⟩
  rw [← library.lookup_merge, ← hstaged]
  rfl

theorem MergedSlot.empty (slot : TaskSlot) : MergedSlot slot [] slot :=
  ⟨rfl, rfl, fun _ => rfl, fun hne => absurd rfl hne, fun hne => absurd rfl hne, fun _ => by simp⟩

namespace TaskRegistry

variable {library : JsonLibrary} {registry : TaskRegistry}

theorem stageMembers_ok {members : List (Bytes × Json)} {base staged : TaskOutputs}
    {schedule : AllocSchedule} (hok : (stageMembers library members base schedule).1 = .ok staged) :
    staged.members = library.merge base.members members := by
  induction members generalizing base schedule with
  | nil =>
      simp only [stageMembers, Except.ok.injEq] at hok
      rw [← hok]
      rfl
  | cons member rest ih =>
      obtain ⟨key, value⟩ := member
      rw [stageMembers] at hok
      split at hok
      · contradiction
      split at hok
      · contradiction
      · rename_i added schedule' hadded
        have hmembers : added.members = library.add base.members key value := by
          simp only [stageMember] at hadded
          split at hadded
          · simp at hadded
          split at hadded
          · simp at hadded
          · simp only [Prod.mk.injEq, Except.ok.injEq] at hadded
            rw [← hadded.1]
        rw [ih hok, hmembers]
        rfl

/-- What a staged update says about the slot it was staged for. -/
inductive Staged (library : JsonLibrary) (slot : TaskSlot) :
    Option Json → Option TaskOutputs → Prop
  | nothing : Staged library slot (some (.object [])) none
  | merged {members : List (Bytes × Json)} {staged : TaskOutputs} (nonempty : members ≠ [])
      (members_eq : staged.members = library.merge slot.members members) :
      Staged library slot (some (.object members)) (some staged)

theorem stageOutputUpdate_ok {slot : TaskSlot} {updates : Option Json}
    {schedule rest : AllocSchedule} {staged : Option TaskOutputs}
    (hok : stageOutputUpdate library slot updates schedule = (.ok staged, rest)) :
    Staged library slot updates staged := by
  rw [stageOutputUpdate.eq_def] at hok
  split at hok
  · rename_i members
    split at hok
    · simp at hok
    split at hok
    · rename_i hempty
      obtain rfl := List.length_eq_zero_iff.mp hempty
      simp only [Prod.mk.injEq, Except.ok.injEq] at hok
      rw [← hok.1]
      exact .nothing
    rename_i hnonempty
    split at hok
    · simp at hok
    rename_i base _ hbase
    split at hok
    · simp at hok
    rename_i merged _ hmerged
    split at hok
    · simp only [Prod.mk.injEq, Except.ok.injEq] at hok
      rw [← hok.1]
      refine .merged (fun hnil => hnonempty (by simp [hnil])) ?_
      have hmembers : base.members = slot.members := by
        simp only [stageBase, Prod.mk.injEq, Option.map_eq_some_iff] at hbase
        obtain ⟨⟨_, _, rfl⟩, _⟩ := hbase
        rfl
      rw [stageMembers_ok (by rw [hmerged]), hmembers]
    · simp at hok
  · simp at hok

/-- An entry that `prepare_output_group` made for an update. -/
structure Prepared (library : JsonLibrary) (registry : TaskRegistry) (update : TaskOutputUpdate)
    (entry : StagedOutputEntry) : Prop where
  index_eq : entry.index = update.taskIndex
  slot : ∃ slot, registry.slots[update.taskIndex]? = some slot ∧ slot.closed = false ∧
    Staged library slot update.updates entry.staged
  fresh : registry.fresh entry = true

theorem prepareEntries_ok {updates : List TaskOutputUpdate} {schedule rest : AllocSchedule}
    {entries : List StagedOutputEntry}
    (hok : prepareEntries library registry updates schedule = (.ok entries, rest)) :
    List.Forall₂ (Prepared library registry) updates entries := by
  induction updates generalizing schedule entries with
  | nil =>
      simp only [prepareEntries, Prod.mk.injEq, Except.ok.injEq] at hok
      rw [← hok.1]
      exact .nil
  | cons update remaining ih =>
      rw [prepareEntries] at hok
      split at hok
      · simp at hok
      rename_i slot hslot
      split at hok
      · simp at hok
      rename_i hopen
      split at hok
      · simp at hok
      rename_i staged _ hstaged
      split at hok
      · simp at hok
      rename_i tail _ htail
      simp only [Prod.mk.injEq, Except.ok.injEq] at hok
      obtain ⟨rfl, rfl⟩ := hok
      have hclosed : slot.closed = false := by simpa using hopen
      refine .cons ⟨rfl, ⟨slot, hslot, hclosed, stageOutputUpdate_ok hstaged⟩, ?_⟩ (ih htail)
      have hrevision := (Bool.or_eq_false_iff.mp hclosed).2
      simp [fresh, hslot, hrevision]

theorem checkUpdates_nodup {updates : List TaskOutputUpdate} {seen : List Nat}
    (hchecked : registry.checkUpdates updates seen = true) :
    (updates.map TaskOutputUpdate.taskIndex).Nodup ∧
      ∀ update ∈ updates, update.taskIndex ∉ seen := by
  induction updates generalizing seen with
  | nil => simp
  | cons update rest ih =>
      rw [checkUpdates] at hchecked
      split at hchecked
      · contradiction
      split at hchecked
      · contradiction
      rename_i hnew
      obtain ⟨hnodup, hapart⟩ := ih hchecked
      refine ⟨?_, ?_⟩
      · rw [List.map_cons, List.nodup_cons]
        refine ⟨fun hmem => ?_, hnodup⟩
        obtain ⟨other, hother, hindex⟩ := List.mem_map.mp hmem
        exact hapart other hother (by simp [hindex])
      · intro other hother
        rcases List.mem_cons.mp hother with rfl | hrest
        · exact hnew
        · exact fun hseen => hapart other hrest (List.mem_cons_of_mem _ hseen)

/-- A prepared group has one entry for each update, and no two for one task. -/
theorem prepareOutputGroup_ok {updates : List TaskOutputUpdate} {schedule rest : AllocSchedule}
    {group : List StagedOutputEntry}
    (hok : prepareOutputGroup library registry updates schedule = (.ok group, rest)) :
    List.Forall₂ (Prepared library registry) updates group ∧
      (updates.map TaskOutputUpdate.taskIndex).Nodup := by
  rw [prepareOutputGroup] at hok
  split at hok
  · simp at hok
  split at hok
  · simp at hok
  rename_i hchecked
  simp only at hok
  split at hok
  · simp at hok
  split at hok
  · simp at hok
  · exact ⟨prepareEntries_ok hok, (checkUpdates_nodup (by simpa using hchecked)).1⟩

/-! A refusal never carries the status of a success. -/

theorem stageMembers_ne (library : JsonLibrary) (members : List (Bytes × Json))
    (staged : TaskOutputs) (schedule : AllocSchedule) :
    (stageMembers library members staged schedule).1 ≠ .error .ok := by
  induction members generalizing staged schedule with
  | nil => simp [stageMembers]
  | cons member rest ih =>
      rw [stageMembers]
      split
      · simp
      split
      · rename_i hstaged
        simp only [stageMember] at hstaged
        grind
      · exact ih _ _

theorem stageOutputUpdate_ne (library : JsonLibrary) (slot : TaskSlot) (updates : Option Json)
    (schedule : AllocSchedule) :
    (stageOutputUpdate library slot updates schedule).1 ≠ .error .ok := by
  rw [stageOutputUpdate.eq_def]
  split
  · rename_i members
    split
    · simp
    split
    · simp
    split
    · simp
    rename_i staged rest _
    have hmembers := stageMembers_ne library members staged rest
    split
    · rename_i hrefused
      rw [hrefused] at hmembers
      simpa using hmembers
    split <;> simp
  · simp

theorem prepareEntries_ne (updates : List TaskOutputUpdate) (schedule : AllocSchedule) :
    (prepareEntries library registry updates schedule).1 ≠ .error .ok := by
  induction updates generalizing schedule with
  | nil => simp [prepareEntries]
  | cons update remaining ih =>
      rw [prepareEntries]
      split
      · simp
      rename_i slot _
      split
      · simp
      have hstage := stageOutputUpdate_ne library slot update.updates schedule
      split
      · rename_i hrefused
        rw [hrefused] at hstage
        simpa using hstage
      rename_i rest _
      have hrest := ih rest
      split
      · rename_i hrefused
        rw [hrefused] at hrest
        exact hrest
      · simp

theorem prepareOutputGroup_ne (registry : TaskRegistry) (library : JsonLibrary)
    (updates : List TaskOutputUpdate) (schedule : AllocSchedule) :
    (registry.prepareOutputGroup library updates schedule).1 ≠ .error .ok := by
  rw [prepareOutputGroup]
  split
  · simp
  split
  · simp
  simp only
  split
  · simp
  split
  · simp
  · exact prepareEntries_ne updates _

/-! ## What a publication does -/

/-- `after` is `before` with every update merged into the slot it names. -/
structure OutputsMerged (before after : TaskRegistry) (updates : List TaskOutputUpdate) :
    Prop where
  count_eq : after.count = before.count
  listed : ∀ update ∈ updates, ∃ slot members next,
    before.slots[update.taskIndex]? = some slot ∧ update.updates = some (.object members) ∧
      after.slots[update.taskIndex]? = some next ∧ MergedSlot slot members next
  others : ∀ index, (∀ update ∈ updates, update.taskIndex ≠ index) →
    after.slots[index]? = before.slots[index]?

theorem getElem?_publishEntry (registry : TaskRegistry) (entry : StagedOutputEntry) (index : Nat) :
    (registry.publishEntry entry).slots[index]? =
      if entry.index = index then
        registry.slots[index]?.map fun slot =>
          match entry.staged with
          | none => slot
          | some staged => slot.publish staged
      else registry.slots[index]? := by
  rw [publishEntry]
  cases hstaged : entry.staged with
  | none => cases registry.slots[index]? <;> simp
  | some staged =>
      rw [List.getElem?_modify]
      by_cases hindex : entry.index = index <;> simp [hindex]

theorem count_publishEntry (registry : TaskRegistry) (entry : StagedOutputEntry) :
    (registry.publishEntry entry).count = registry.count := by
  rw [publishEntry]
  split
  · rfl
  · exact List.length_modify ..

/-- The publication loop, from any registry that still has the slots the remaining
entries were prepared for. -/
theorem outputsMerged_foldl {updates : List TaskOutputUpdate} {group : List StagedOutputEntry}
    {before : TaskRegistry} (hgroup : List.Forall₂ (Prepared library before) updates group)
    (hnodup : (updates.map TaskOutputUpdate.taskIndex).Nodup) :
    ∀ current : TaskRegistry, (∀ update ∈ updates,
        current.slots[update.taskIndex]? = before.slots[update.taskIndex]?) →
      OutputsMerged current (group.foldl publishEntry current) updates := by
  induction hgroup with
  | nil => exact fun current _ => ⟨rfl, by simp, fun _ _ => rfl⟩
  | cons hentry hrest ih =>
      rename_i update entry updates group
      intro current hcurrent
      rw [List.map_cons, List.nodup_cons] at hnodup
      obtain ⟨hnew, hnodup⟩ := hnodup
      have hapart : ∀ other ∈ updates, other.taskIndex ≠ update.taskIndex := fun other hother =>
        fun heq => hnew (List.mem_map.mpr ⟨other, hother, heq⟩)
      have hindex := hentry.index_eq
      have hkept : ∀ index, index ≠ update.taskIndex →
          (current.publishEntry entry).slots[index]? = current.slots[index]? := by
        intro index hne
        rw [getElem?_publishEntry, hindex, if_neg hne.symm]
      have hmerged := ih hnodup (current.publishEntry entry) fun other hother => by
        rw [hkept _ (hapart other hother), hcurrent other (List.mem_cons_of_mem _ hother)]
      refine ⟨hmerged.count_eq.trans (count_publishEntry current entry), ?_, ?_⟩
      · intro other hother
        rcases List.mem_cons.mp hother with rfl | hother
        · obtain ⟨slot, hslot, hopen, hstaged⟩ := hentry.slot
          have hhere : current.slots[other.taskIndex]? = some slot := by
            rw [hcurrent other (List.mem_cons_self ..), hslot]
          have hnext := (hmerged.others other.taskIndex hapart).trans
            (getElem?_publishEntry current entry other.taskIndex)
          rw [if_pos hindex, hhere, Option.map_some] at hnext
          generalize other.updates = document at hstaged ⊢
          generalize entry.staged = staged at hstaged hnext
          cases hstaged with
          | nothing => exact ⟨slot, [], slot, hhere, rfl, hnext, .empty slot⟩
          | merged hnonempty hmembers =>
              exact ⟨slot, _, _, hhere, rfl, hnext, .publish hopen hnonempty hmembers⟩
        · obtain ⟨slot, members, next, hslot, hupdates, hnext, hmergedSlot⟩ :=
            hmerged.listed other hother
          rw [hkept _ (hapart other hother)] at hslot
          exact ⟨slot, members, next, hslot, hupdates, hnext, hmergedSlot⟩
      · intro index hothers
        rw [List.foldl_cons, hmerged.others index fun other hother =>
          hothers other (List.mem_cons_of_mem _ hother)]
        exact hkept index (hothers update (List.mem_cons_self ..)).symm

theorem all_fresh {updates : List TaskOutputUpdate} {group : List StagedOutputEntry}
    (hgroup : List.Forall₂ (Prepared library registry) updates group) :
    group.all registry.fresh = true := by
  induction hgroup with
  | nil => rfl
  | cons hentry _ ih => simp [hentry.fresh, ih]

/-- A group published to the registry it was prepared for is never refused. -/
theorem publishOutputGroup_prepared {updates : List TaskOutputUpdate}
    {group : List StagedOutputEntry}
    (hgroup : List.Forall₂ (Prepared library registry) updates group)
    (hnodup : (updates.map TaskOutputUpdate.taskIndex).Nodup) :
    (registry.publishOutputGroup group).2 = .ok ∧
      OutputsMerged registry (registry.publishOutputGroup group).1 updates := by
  rw [publishOutputGroup, if_pos (all_fresh hgroup)]
  exact ⟨rfl, outputsMerged_foldl hgroup hnodup registry fun _ _ => rfl⟩

/-! ## One slot at a time -/

/-- `after` differs from `before` in one slot only, and that slot is as said. -/
structure ChangedAt (before after : TaskRegistry) (index : Nat) (holds : TaskSlot → Prop) :
    Prop where
  count_eq : after.count = before.count
  others : ∀ other, other ≠ index → after.slots[other]? = before.slots[other]?
  here : ∃ slot, after.slots[index]? = some slot ∧ holds slot

theorem ChangedAt.trans {before between after : TaskRegistry} {index : Nat}
    {holds next : TaskSlot → Prop} (hfirst : ChangedAt before between index holds)
    (hsecond : ChangedAt between after index next) : ChangedAt before after index next :=
  ⟨hsecond.count_eq.trans hfirst.count_eq,
    fun other hother => (hsecond.others other hother).trans (hfirst.others other hother),
    hsecond.here⟩

theorem ChangedAt.refl {registry : TaskRegistry} {index : Nat} {slot : TaskSlot}
    {holds : TaskSlot → Prop} (hslot : registry.slots[index]? = some slot) (hholds : holds slot) :
    ChangedAt registry registry index holds :=
  ⟨rfl, fun _ _ => rfl, slot, hslot, hholds⟩

theorem ChangedAt.mono {before after : TaskRegistry} {index : Nat} {holds next : TaskSlot → Prop}
    (hchanged : ChangedAt before after index holds) (himp : ∀ slot, holds slot → next slot) :
    ChangedAt before after index next := by
  obtain ⟨hcount, hothers, slot, hslot, hholds⟩ := hchanged
  exact ⟨hcount, hothers, slot, hslot, himp slot hholds⟩

theorem ChangedAt.withSlot {registry : TaskRegistry} {index : Nat} {old slot : TaskSlot}
    {holds : TaskSlot → Prop} (hold : registry.slots[index]? = some old) (hholds : holds slot) :
    ChangedAt registry (registry.withSlot index slot) index holds := by
  obtain ⟨hlt, _⟩ := List.getElem?_eq_some_iff.mp hold
  refine ⟨List.length_set .., fun other hother => ?_, slot, ?_, hholds⟩
  · exact List.getElem?_set_ne (Ne.symm hother)
  · simp [TaskRegistry.withSlot, hlt]

/-- A running task with at most `bound` revisions. -/
def RunningWithin (bound : Nat) (slot : TaskSlot) : Prop :=
  slot.state = .running ∧ slot.revision.toNat ≤ bound

theorem RunningWithin.open {bound : Nat} {slot : TaskSlot} (hrunning : RunningWithin bound slot)
    (hbound : bound < uint64Max) : slot.closed = false := by
  obtain ⟨hstate, hrevision⟩ := hrunning
  have hne : slot.revision ≠ 18446744073709551615 := by
    intro heq
    have hmax : (18446744073709551615 : UInt64).toNat = uint64Max := rfl
    rw [heq, hmax] at hrevision
    omega
  simp [TaskSlot.closed, hstate, TaskState.finalized, TaskSlot.revisionAvailable, hne]

theorem RunningWithin.publish {bound : Nat} {slot : TaskSlot} (hrunning : RunningWithin bound slot)
    (hbound : bound < uint64Max) (staged : TaskOutputs) :
    RunningWithin (bound + 1) (slot.publish staged) := by
  have hopen := hrunning.open hbound
  rw [TaskSlot.closed, Bool.or_eq_false_iff] at hopen
  refine ⟨by simp [TaskSlot.publish, hrunning.1], ?_⟩
  have hnext := slot.toNat_succ_revision (by simpa using hopen.2)
  have hrevision := hrunning.2
  simp only [TaskSlot.publish]
  omega

/-- A new task starts. -/
theorem start_pending {registry : TaskRegistry} {index : Nat} {slot : TaskSlot}
    (hslot : registry.slots[index]? = some slot) (hrevision : slot.revision = 0) :
    (registry.start index).2 = .ok ∧
      ChangedAt registry (registry.start index).1 index (RunningWithin 1) := by
  have havailable : slot.revisionAvailable = true := by
    simp [TaskSlot.revisionAvailable, hrevision]
  simp only [start, hslot, havailable, if_true, true_and]
  exact .withSlot hslot ⟨rfl, by simp [hrevision]⟩

/-- A running task completes. -/
theorem complete_running {registry : TaskRegistry} {index : Nat} {slot : TaskSlot} {bound : Nat}
    (hslot : registry.slots[index]? = some slot) (hrunning : RunningWithin bound slot)
    (hbound : bound < uint64Max) :
    ChangedAt registry (registry.complete index).1 index fun slot => slot.state = .success := by
  simp only [complete, conclude, hslot, hrunning.open hbound, Bool.false_eq_true, if_false]
  exact .withSlot hslot rfl

/-- A running task fails for a reason that can be kept, unless memory for the reason is
missing; then it stays as it is. -/
theorem fail_running {registry : TaskRegistry} {index : Nat} {slot : TaskSlot} {bound : Nat}
    (hslot : registry.slots[index]? = some slot) (hrunning : RunningWithin bound slot)
    (hbound : bound < uint64Max) {reason : Bytes} (hlength : reason.length ≤ maxReasonBytes)
    (hnul : 0 ∉ reason) (schedule : AllocSchedule) :
    ChangedAt registry (registry.fail index reason schedule).1 index fun slot =>
      slot.state = if schedule.alloc.1.isNone then .running else .failed := by
  have hreason : (decide (reason.length > maxReasonBytes) || decide (0 ∈ reason)) = false := by
    simp [hnul, Nat.not_lt.mpr hlength]
  simp only [fail, hslot, hrunning.open hbound, hreason, Bool.false_eq_true, if_false]
  split
  · rename_i hmemory
    exact .refl hslot (by simp [hmemory, hrunning.1])
  · rename_i hmemory
    exact .withSlot hslot (by simp [hmemory])

/-- Setting an output of a running task leaves it running. -/
theorem setOutput_running {library : JsonLibrary} {registry : TaskRegistry} {index : Nat}
    {slot : TaskSlot} {bound : Nat} (hslot : registry.slots[index]? = some slot)
    (hrunning : RunningWithin bound slot) (hbound : bound < uint64Max) (key : Bytes) (value : Json)
    (schedule : AllocSchedule) :
    ChangedAt registry (registry.setOutput library index key value schedule).1 index
      (RunningWithin (bound + 1)) := by
  have hkept : ChangedAt registry registry index (RunningWithin (bound + 1)) :=
    .refl hslot ⟨hrunning.1, Nat.le_succ_of_le hrunning.2⟩
  simp only [setOutput, hslot, hrunning.open hbound, Bool.false_eq_true, if_false]
  split_ifs
  · exact hkept
  · exact hkept
  · exact hkept
  split
  · exact hkept
  split
  · exact hkept
  split_ifs
  · exact .withSlot hslot (hrunning.publish hbound _)
  · exact hkept

/-- Merging an update into a running task leaves it running. -/
theorem OutputsMerged.running {before after : TaskRegistry} {update : TaskOutputUpdate}
    {slot : TaskSlot} {bound : Nat} (hmerged : OutputsMerged before after [update])
    (hslot : before.slots[update.taskIndex]? = some slot)
    (hrunning : RunningWithin bound slot) :
    ChangedAt before after update.taskIndex (RunningWithin (bound + 1)) := by
  obtain ⟨found, members, next, hfound, _, hnext, hchange⟩ := hmerged.listed update (by simp)
  obtain rfl : slot = found := by simpa [hslot] using hfound
  refine ⟨hmerged.count_eq, fun other hother => hmerged.others other ?_, next, hnext, ?_⟩
  · simpa using Ne.symm hother
  by_cases hmembers : members = []
  · rw [hchange.unchanged hmembers]
    exact ⟨hrunning.1, Nat.le_succ_of_le hrunning.2⟩
  · have hrevision := hrunning.2
    refine ⟨by simp [hchange.state_eq hmembers, hrunning.1], ?_⟩
    rw [hchange.revision_eq hmembers]
    omega

end TaskRegistry

end Praktor.Workflow
