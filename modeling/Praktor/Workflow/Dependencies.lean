/-
# The workflow dependency projection

`praktor_workflow_dependencies_create` turns the metadata of the tasks into one
immutable graph.  It runs four phases in order: it copies and indexes the task
names, checks the static trigger targets, appends one edge for each `depends_on`
entry, and finally refuses a cyclic graph.  The functions below follow the
source phase by phase; allocation is taken to succeed.

Edges leaving one task form a linked list through the edge table: a task holds
the index of its newest edge and every edge holds the index of the next older
one.  An absent index is `SIZE_MAX` in the source and `none` here.  The loops
over such a list and over the name slots carry a bound on their iterations and
report `spins` when it is used up, so that a loop that would not end is not
confused with one that does.
-/

import Praktor.Data.Json

namespace Praktor.Workflow

open Praktor.Data

/-- `PRAKTOR_WORKFLOW_MAX_TASKS`. -/
def maxTasks : Nat := 4096

/-- `PRAKTOR_WORKFLOW_MAX_EDGES`. -/
def maxEdges : Nat := 16384

/-- `PRAKTOR_WORKFLOW_MAX_NAME_BYTES`. -/
def maxNameBytes : Nat := 1024 * 1024

/-- `dependency_name`: a copied task name and the newest edge leaving the task. -/
structure DependencyName where
  bytes : Bytes
  firstOutgoing : Option Nat

/-- `dependency_edge`. -/
structure DependencyEdge where
  predecessor : Nat
  dependent : Nat
  nextOutgoing : Option Nat

/-- `praktor_workflow_dependencies`. -/
structure Dependencies where
  tasks : List DependencyName
  edges : List DependencyEdge
  nameSlots : List (Option Nat)

/-- Why a projection was refused.  Each constructor is one diagnostic of the
source, with the values that diagnostic prints. -/
inductive DependencyError
  | invalidArguments
  | invalidName
  | duplicateName (name : Bytes)
  | nameLimit
  | invalidTrigger
  | invalidFinally
  | unknownTrigger (task category target : Bytes)
  | invalidDependency
  | unknownDependency (task target : Bytes)
  | edgeLimit
  | cycle
  | spins
  deriving DecidableEq

namespace DependencyError

/-- The diagnostic text, before it is cut to the caller's buffer. -/
def message : DependencyError → Bytes
  | invalidArguments => ascii "Invalid native workflow task metadata or task limit"
  | invalidName => ascii "Invalid native workflow task name"
  | duplicateName name => ascii "Duplicate task name: '" ++ name ++ ascii "'"
  | nameLimit => ascii "Native workflow name byte limit exceeded"
  | invalidTrigger => ascii "Invalid native workflow trigger metadata"
  | invalidFinally => ascii "Invalid native workflow finally metadata"
  | unknownTrigger task category target =>
      ascii "Task '" ++ task ++ ascii "' trigger '" ++ category ++
        ascii "' references unknown task '" ++ target ++ ascii "'"
  | invalidDependency => ascii "Invalid native workflow dependency metadata"
  | unknownDependency task target =>
      ascii "Task '" ++ task ++ ascii "' depends on unknown task '" ++ target ++ ascii "'"
  | edgeLimit => ascii "Workflow dependency edge limit exceeded"
  | cycle => ascii "Cycle detected in workflow dependencies"
  | spins => []

end DependencyError

namespace Dependencies

/-- `praktor_workflow_dependencies_task_count`. -/
def taskCount (graph : Dependencies) : Nat := graph.tasks.length

/-- `praktor_workflow_dependencies_edge_count`. -/
def edgeCount (graph : Dependencies) : Nat := graph.edges.length

/-- `praktor_workflow_dependencies_edge_at`. -/
def edgeAt (graph : Dependencies) (index : Nat) : Option (Nat × Nat) :=
  graph.edges[index]?.map fun edge => (edge.predecessor, edge.dependent)

/-- Every pair `edgeAt` enumerates, in order and with repeats. -/
def pairs (graph : Dependencies) : List (Nat × Nat) :=
  graph.edges.map fun edge => (edge.predecessor, edge.dependent)

/-! ## The name index -/

/-- `name_hash`: 64-bit FNV-1a. -/
def nameHash (name : Bytes) : UInt64 :=
  name.foldl (fun result byte => (result ^^^ byte.toUInt64) * 1099511628211) 14695981039346656037

/-- Probe from `index` on until a slot is free or holds `name`. -/
def probe (graph : Dependencies) (name : Bytes) : Nat → Nat → Option Nat
  | 0, _ => none
  | fuel + 1, index =>
      match graph.nameSlots[index]? with
      | none => none
      | some none => some index
      | some (some task) =>
          if (graph.tasks[task]?.map DependencyName.bytes) = some name then some index
          else probe graph name fuel ((index + 1) % graph.nameSlots.length)

/-- `find_slot`.  The slot count is a power of two, so the source's mask is a
remainder. -/
def findSlot (graph : Dependencies) (name : Bytes) : Option Nat :=
  probe graph name graph.nameSlots.length
    ((nameHash name).toNat % graph.nameSlots.length)

/-- `name_index`: the task with this name, `none` when there is none. -/
def nameIndex (graph : Dependencies) (name : Bytes) : Except DependencyError (Option Nat) :=
  match findSlot graph name with
  | none => .error .spins
  | some slot => .ok (graph.nameSlots[slot]?.join)

/-- The first power of two from 8 on that is at least twice the task count. -/
def slotCount (count : Nat) : Nat → Nat → Nat
  | 0, slots => slots
  | fuel + 1, slots => if slots < count * 2 then slotCount count fuel (slots * 2) else slots

/-- The graph before phase one: no name copied, no edge, every slot free. -/
def blank (count : Nat) : Dependencies where
  tasks := List.replicate count ⟨[], none⟩
  edges := []
  nameSlots := List.replicate (slotCount count count 8) none

/-! ## Phase one: names -/

/-- The text of the `name` member of one metadata object. -/
def nameOf (metadata : Option Json) : Option Bytes :=
  (metadata.bind fun object => object.objectGet (ascii "name")).bind Json.stringText

/-- Copy and index the names of the tasks from `index` on. -/
def copyNames : List (Option Json) → Nat → Nat → Dependencies →
    Except DependencyError Dependencies
  | [], _, _, graph => .ok graph
  | metadata :: rest, index, nameBytes, graph =>
      match nameOf metadata with
      | none => .error .invalidName
      | some name =>
          if name.length = 0 then .error .invalidName
          else
            match findSlot graph name with
            | none => .error .spins
            | some slot =>
                if (graph.nameSlots[slot]?.join).isSome then .error (.duplicateName name)
                else if name.length + 1 > maxNameBytes - nameBytes then .error .nameLimit
                else
                  copyNames rest (index + 1) (nameBytes + (name.length + 1))
                    { graph with
                      tasks := graph.tasks.modify index fun task => { task with bytes := name }
                      nameSlots := graph.nameSlots.set slot (some index) }

/-! ## Phase two: static trigger targets -/

/-- `has_dynamic_marker`: two equal adjacent braces. -/
def hasDynamicMarker : Bytes → Bool
  | first :: second :: rest =>
      (first = 123 && second = 123) || (first = 125 && second = 125) ||
        hasDynamicMarker (second :: rest)
  | _ => false

/-- The copied name of task `index`. -/
def taskName (graph : Dependencies) (index : Nat) : Bytes :=
  (graph.tasks[index]?.map DependencyName.bytes).getD []

/-- `check_trigger_name`. -/
def checkTriggerName (graph : Dependencies) (task : Nat) (category target : Bytes) :
    Except DependencyError Unit :=
  if target.length = 0 || hasDynamicMarker target then .ok ()
  else do
    match ← nameIndex graph target with
    | some _ => .ok ()
    | none => .error (.unknownTrigger (taskName graph task) category target)

/-- `check_trigger_list`. -/
def checkTriggerList (graph : Dependencies) (task : Nat) (triggers : Option Json)
    (category : Bytes) : Except DependencyError Unit :=
  match triggers.bind fun object => object.objectGet category with
  | none => .ok ()
  | some list => list.arrayItems.forM fun value =>
      match value.stringText with
      | none => .error .invalidTrigger
      | some name => checkTriggerName graph task category name

/-- The trigger groups of one task, then its `finally` target. -/
def checkTriggers (graph : Dependencies) (task : Nat) (metadata : Json) :
    Except DependencyError Unit := do
  let triggers := metadata.objectGet (ascii "triggers")
  checkTriggerList graph task triggers (ascii "on_success")
  checkTriggerList graph task triggers (ascii "on_failure")
  checkTriggerList graph task triggers (ascii "on_complete")
  match metadata.objectGet (ascii "finally") with
  | none => .ok ()
  | some target =>
      match target.stringText with
      | none => .error .invalidFinally
      | some name => checkTriggerName graph task (ascii "on_complete") name

/-- Phase two over the tasks from `index` on. -/
def checkAllTriggers (graph : Dependencies) : List Json → Nat → Except DependencyError Unit
  | [], _ => .ok ()
  | metadata :: rest, index => do
      checkTriggers graph index metadata
      checkAllTriggers graph rest (index + 1)

/-! ## Phase three: edges -/

/-- `append_edge`.  Growing the edge table does not change its contents. -/
def appendEdge (graph : Dependencies) (predecessor dependent : Nat) :
    Except DependencyError Dependencies :=
  if graph.edges.length = maxEdges then .error .edgeLimit
  else
    .ok { graph with
      tasks := graph.tasks.modify predecessor fun task =>
        { task with firstOutgoing := some graph.edges.length }
      edges := graph.edges ++
        [⟨predecessor, dependent, graph.tasks[predecessor]?.bind DependencyName.firstOutgoing⟩] }

/-- Append the edges for the `depends_on` entries of one task. -/
def appendDependencies (task : Nat) : List Json → Dependencies →
    Except DependencyError Dependencies
  | [], graph => .ok graph
  | value :: rest, graph =>
      match value.stringText with
      | none => .error .invalidDependency
      | some name => do
          match ← nameIndex graph name with
          | none => .error (.unknownDependency (taskName graph task) name)
          | some predecessor =>
              let graph ← appendEdge graph predecessor task
              appendDependencies task rest graph

/-- Phase three over the tasks from `index` on. -/
def appendAllDependencies : List Json → Nat → Dependencies →
    Except DependencyError Dependencies
  | [], _, graph => .ok graph
  | metadata :: rest, index, graph => do
      let entries := ((metadata.objectGet (ascii "depends_on")).map Json.arrayItems).getD []
      let graph ← appendDependencies index entries graph
      appendAllDependencies rest (index + 1) graph

/-! ## Phase four: cycles -/

/-- The number of edges into each task. -/
def degrees (graph : Dependencies) : List Nat :=
  graph.edges.foldl (fun table edge => table.modify edge.dependent (· + 1))
    (List.replicate graph.taskCount 0)

/-- `--degree` on an unsigned counter. -/
def decrement (degree : Nat) : Nat := if degree = 0 then sizeMax else degree - 1

/-- The inner loop of `check_cycles`: walk one outgoing list, lowering degrees
and enqueueing each dependent whose degree becomes zero. -/
def walkOutgoing (graph : Dependencies) : Nat → Option Nat → List Nat × List Nat →
    Option (List Nat × List Nat)
  | _, none, state => some state
  | 0, some _, _ => none
  | fuel + 1, some index, (table, queue) =>
      match graph.edges[index]? with
      | none => none
      | some edge =>
          let degree := decrement (table.getD edge.dependent 0)
          walkOutgoing graph fuel edge.nextOutgoing
            (table.set edge.dependent degree,
              if degree = 0 then queue ++ [edge.dependent] else queue)

/-- The outer loop of `check_cycles` on the unread part of the queue; the result
is the number of tasks visited. -/
def visitQueue (graph : Dependencies) : Nat → List Nat → List Nat → Nat → Option Nat
  | _, _, [], visited => some visited
  | 0, _, _ :: _, _ => none
  | fuel + 1, table, task :: queue, visited =>
      match walkOutgoing graph graph.edges.length
          (graph.tasks[task]?.bind DependencyName.firstOutgoing) (table, queue) with
      | none => none
      | some (table, queue) => visitQueue graph fuel table queue (visited + 1)

/-- The tasks without an incoming edge, in declaration order. -/
def sources (graph : Dependencies) : List Nat :=
  (List.range graph.taskCount).filter fun task => graph.degrees.getD task 0 = 0

/-- `check_cycles`. -/
def checkCycles (graph : Dependencies) : Except DependencyError Unit :=
  match visitQueue graph graph.taskCount graph.degrees graph.sources 0 with
  | none => .error .spins
  | some visited => if visited = graph.taskCount then .ok () else .error .cycle

/-- `praktor_workflow_dependencies_create`.  The metadata pointers may be null
only in phase one, which refuses a null one. -/
def create (metadata : List (Option Json)) : Except DependencyError Dependencies := do
  if metadata.length = 0 || metadata.length > maxTasks then .error .invalidArguments
  let graph ← copyNames metadata 0 0 (blank metadata.length)
  checkAllTriggers graph (metadata.filterMap id) 0
  let graph ← appendAllDependencies (metadata.filterMap id) 0 graph
  checkCycles graph
  .ok graph

end Dependencies

end Praktor.Workflow
