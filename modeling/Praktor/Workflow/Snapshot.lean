/-
# Workflow snapshots

A snapshot is what the YAML front end hands to the runtime: the metadata of the
workflow, and for each task its metadata, how it is run and an orchestration tree.
The dependency graph is the one `praktor_workflow_dependencies_create` built from
the task metadata, and a snapshot without it does not exist.

An orchestration tree is a table of nodes with the root first; a node refers to its
children by their place in the table.  `praktor_orch_from_command` lowers a command
task to such a tree.  Allocation is taken to succeed there.
-/

import Praktor.Workflow.DependencyOrder

namespace Praktor.Workflow

open Praktor.Data Praktor.Math

/-- `praktor_orch_type`, in the order of the catalog. -/
inductive OrchType
  | sequence
  | fallback
  | selector
  | parallel
  | reactiveSequence
  | switch
  | whileDo
  | ifThenElse
  | inverter
  | forceSuccess
  | forceFailure
  | repeat
  | timeout
  | delay
  | subTree
  | keepRunningUntilFailure
  | runOnce
  | consumeQueue
  | precondition
  | entryUpdated
  | pipelineSequence
  | shell
  | parseJson
  | parseRegex
  | parseLines
  | parseKeyValue
  | checkExitCode
  | waitEvent
  | sleep
  | fileExists
  | setVariable
  deriving DecidableEq, Repr

/-- The catalog name of a type. -/
def OrchType.name : OrchType → String
  | .sequence => "Sequence"
  | .fallback => "Fallback"
  | .selector => "Selector"
  | .parallel => "Parallel"
  | .reactiveSequence => "ReactiveSequence"
  | .switch => "Switch"
  | .whileDo => "WhileDo"
  | .ifThenElse => "IfThenElse"
  | .inverter => "Inverter"
  | .forceSuccess => "ForceSuccess"
  | .forceFailure => "ForceFailure"
  | .repeat => "Repeat"
  | .timeout => "Timeout"
  | .delay => "Delay"
  | .subTree => "SubTree"
  | .keepRunningUntilFailure => "KeepRunningUntilFailure"
  | .runOnce => "RunOnce"
  | .consumeQueue => "ConsumeQueue"
  | .precondition => "Precondition"
  | .entryUpdated => "EntryUpdated"
  | .pipelineSequence => "PipelineSequence"
  | .shell => "Shell"
  | .parseJson => "ParseJson"
  | .parseRegex => "ParseRegex"
  | .parseLines => "ParseLines"
  | .parseKeyValue => "ParseKeyValue"
  | .checkExitCode => "CheckExitCode"
  | .waitEvent => "WaitEvent"
  | .sleep => "Sleep"
  | .fileExists => "FileExists"
  | .setVariable => "SetVariable"

/-- `praktor_orch_param`: a catalog key and the text given for it. -/
structure OrchParam where
  key : CString
  value : Bytes
  deriving DecidableEq

/-- `praktor_orch_node`. -/
structure OrchNode where
  type : OrchType
  params : List OrchParam
  children : List Nat
  deriving DecidableEq

/-- `praktor_orch_tree`. -/
structure OrchTree where
  nodes : List OrchNode
  deriving DecidableEq

/-- `praktor_orch_tree_root`. -/
def OrchTree.root (tree : OrchTree) : Option OrchNode := tree.nodes[0]?

/-- A status and the text written to the caller's diagnostic buffer, before it is
cut to that buffer. -/
structure Refusal where
  status : Salts
  message : Bytes
  deriving DecidableEq

/-- `PRAKTOR_ORCH_MAX_COMMANDS`. -/
def maxOrchCommands : Nat := 4096

/-- `PRAKTOR_ORCH_MAX_NODES`. -/
def maxOrchNodes : Nat := maxOrchCommands + 2

/-- `PRAKTOR_ORCH_MAX_PARAMS`. -/
def maxOrchParams : Nat := 8

/-- `PRAKTOR_ORCH_MAX_BYTES`. -/
def maxOrchBytes : Nat := 1024 * 1024

/-! ## Command lowering -/

/-- `praktor_orch_command`; `jsonFormat` is the output format that asks for a JSON
parser when no postprocessor is named. -/
structure OrchCommand where
  sequence : Bool
  command : Bytes
  commands : List Bytes
  jsonFormat : Bool
  regex : Option (Bytes × Bytes × Int)
  json : Option (Bytes × Bytes)
  lines : Option (Bytes × Bytes)
  keyvalue : Option (Bytes × Bytes × Bytes)

/-- `orch_build`: the tree so far and the text it holds. -/
structure OrchBuild where
  nodes : List OrchNode
  retainedBytes : Nat

namespace OrchBuild

/-- `orch_add_node`; the new node is the last one of the table. -/
def addNode (build : OrchBuild) (type : OrchType) : Except Refusal OrchBuild :=
  if build.nodes.length = maxOrchNodes then
    .error ⟨.einval, ascii "Orchestration tree exceeds maximum node count"⟩
  else .ok { build with nodes := build.nodes ++ [⟨type, [], []⟩] }

/-- `orch_add_param` on the node at `index`. -/
def addParam (build : OrchBuild) (index : Nat) (key : CString) (value : Bytes) :
    Except Refusal OrchBuild :=
  if value.length ≥ maxOrchBytes - build.retainedBytes then
    .error ⟨.einval, ascii "Orchestration retained text exceeds maximum of 1048576 bytes"⟩
  else if ((build.nodes[index]?.map OrchNode.params).getD []).length = maxOrchParams then
    .error ⟨.einval, ascii "Orchestration node exceeds maximum parameter count"⟩
  else
    .ok ⟨build.nodes.modify index fun node => { node with params := node.params ++ [⟨key, value⟩] },
      build.retainedBytes + (value.length + 1)⟩

/-- `orch_append` of the last node of the table to the root. -/
def append (build : OrchBuild) (child : Nat) : OrchBuild :=
  { build with
    nodes := build.nodes.modify 0 fun root => { root with children := root.children ++ [child] } }

/-- One Shell of a lowered command.  The last one writes its output under `stdout`. -/
def addShell (build : OrchBuild) (command : Bytes) (last : Bool) : Except Refusal OrchBuild := do
  let child := build.nodes.length
  let build ← build.addNode .shell
  let build ← build.addParam child (.literal "cmd") command
  let build ← if last then build.addParam child (.literal "output_key") (ascii "stdout")
    else .ok build
  .ok (build.append child)

/-- The Shells of a lowered command, in order. -/
def addShells : List Bytes → OrchBuild → Except Refusal OrchBuild
  | [], build => .ok build
  | [command], build => build.addShell command true
  | command :: rest, build => do addShells rest (← build.addShell command false)

/-- The parameters of a postprocessor after its `input_key`. -/
def addPairs (index : Nat) : List (CString × Bytes) → OrchBuild → Except Refusal OrchBuild
  | [], build => .ok build
  | (key, value) :: rest, build => do addPairs index rest (← build.addParam index key value)

/-- The parser that follows a command, with its parameters, `none` for no parser. -/
def postprocessor (input : OrchCommand) : Option (OrchType × List (CString × Bytes)) :=
  match input.regex, input.json, input.lines, input.keyvalue with
  | some (pattern, outputKey, captureGroup), _, _, _ =>
      some (.parseRegex, [(.literal "pattern", pattern),
        (.literal "capture_group", ascii (toString captureGroup)),
        (.literal "output_key", outputKey)])
  | none, some (path, outputKey), _, _ =>
      some (.parseJson, [(.literal "path", path), (.literal "output_key", outputKey)])
  | none, none, some (filter, outputKey), _ =>
      some (.parseLines, (if filter.length = 0 then [] else [(.literal "filter", filter)]) ++
        [(.literal "output_key", outputKey)])
  | none, none, none, some (delimiter, lineSeparator, outputKey) =>
      some (.parseKeyValue, [(.literal "delimiter", delimiter),
        (.literal "line_separator", lineSeparator), (.literal "output_key", outputKey)])
  | none, none, none, none =>
      if input.jsonFormat then
        some (.parseJson, [(.literal "path", ascii "$"), (.literal "output_key", ascii "data")])
      else none

/-- `orch_postprocessor`. -/
def addPostprocessor (build : OrchBuild) (input : OrchCommand) : Except Refusal OrchBuild :=
  match postprocessor input with
  | none => .ok build
  | some (type, params) => do
      let child := build.nodes.length
      let build ← build.addNode type
      let build ← build.addParam child (.literal "input_key") (ascii "stdout")
      let build ← addPairs child params build
      .ok (build.append child)

end OrchBuild

/-- `praktor_orch_from_command`. -/
def fromCommand (input : OrchCommand) : Except Refusal OrchTree := do
  if input.sequence && input.commands.length > maxOrchCommands then
    .error ⟨.einval, ascii "Invalid orchestration command list or maximum of 4096 exceeded"⟩
  let build ← OrchBuild.addNode ⟨[], 0⟩ .sequence
  let build ← OrchBuild.addShells (if input.sequence then input.commands else [input.command]) build
  let build ← build.addPostprocessor input
  .ok ⟨build.nodes⟩

namespace OrchBuild

theorem addParam_ok {build next : OrchBuild} {index : Nat} {key : CString} {value : Bytes}
    (hadd : build.addParam index key value = .ok next) :
    next.nodes = build.nodes.modify index fun node =>
      { node with params := node.params ++ [⟨key, value⟩] } := by
  rw [addParam] at hadd
  split_ifs at hadd
  rw [← Except.ok.inj hadd]

end OrchBuild

/-! ## Snapshots -/

/-- `praktor_workflow_snapshot_task_kind`. -/
inductive SnapshotTaskKind
  | command
  | orchestration
  deriving DecidableEq, Repr

/-- One task of a snapshot. -/
structure SnapshotTask where
  metadata : Json
  kind : SnapshotTaskKind
  tree : OrchTree

/-- The task that a flat `set_variable` entry is read as; `source` is `value` or `from`. -/
def SnapshotTask.ofSetVariable (name : Bytes) (dependsOn : List Bytes) (key : Bytes)
    (source : String) (text : Bytes) : SnapshotTask where
  metadata := .object ([(ascii "name", .string name)] ++
    (if dependsOn = [] then [] else [(ascii "depends_on", .array (dependsOn.map .string))]) ++
    [(ascii "runner_count", .number (.built 1)), (ascii "runner_kind", .string (ascii "orch_root")),
      (ascii "orch_node_type", .string (ascii "set_variable"))])
  kind := .orchestration
  tree := ⟨[⟨.setVariable, [⟨.literal "key", key⟩, ⟨.literal source, text⟩], []⟩]⟩

/-- `praktor_workflow_snapshot`. -/
structure WorkflowSnapshot where
  metadata : Json
  tasks : List SnapshotTask
  graph : Dependencies
  created : Dependencies.create (tasks.map fun task => some task.metadata) = .ok graph

namespace WorkflowSnapshot

/-- The end of `praktor_workflow_snapshot_create_inline`: the graph of the tasks read. -/
def ofTasks (metadata : Json) (tasks : List SnapshotTask) :
    Except DependencyError WorkflowSnapshot :=
  match hcreate : Dependencies.create (tasks.map fun task => some task.metadata) with
  | .error failure => .error failure
  | .ok graph => .ok ⟨metadata, tasks, graph, hcreate⟩

/-- `praktor_workflow_snapshot_task_count`. -/
def taskCount (snapshot : WorkflowSnapshot) : Nat := snapshot.tasks.length

theorem taskCount_ofTasks {metadata : Json} {tasks : List SnapshotTask}
    {snapshot : WorkflowSnapshot} (hread : ofTasks metadata tasks = .ok snapshot) :
    snapshot.taskCount = tasks.length := by
  rw [ofTasks] at hread
  split at hread
  · simp at hread
  · rw [← Except.ok.inj hread, taskCount]

theorem accepted (snapshot : WorkflowSnapshot) : snapshot.graph.Accepted :=
  (Dependencies.create_spec snapshot.created).1

theorem graph_taskCount (snapshot : WorkflowSnapshot) :
    snapshot.graph.taskCount = snapshot.taskCount := by
  simpa [taskCount] using (Dependencies.create_spec snapshot.created).2

end WorkflowSnapshot

end Praktor.Workflow
