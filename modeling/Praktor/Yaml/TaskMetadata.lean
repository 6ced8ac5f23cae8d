/-
# Task metadata

`praktor_yaml_task_metadata_create` turns the mapping of a task into a JSON object.  It
checks the keys, reads each field that is there into a member of the object, and records
which runners the mapping names.  A field may be read under another name: `dotEnv` becomes
`dot_env`, and `retries` the number `retry_count`.

The object is the only thing that a snapshot keeps of these fields.
-/

import Mathlib.Data.List.Forall2
import Praktor.Data.Json
import Praktor.Math.Run
import Praktor.Yaml.TaskFields

namespace Praktor.Yaml

open Praktor.Data Praktor.Math

/-! ## Members -/

/-- `json_create_string` of a decoded text. -/
def textValue (text : CString) : Json := .string text.bytes

/-- `native_list_json`. -/
def listValue (texts : List CString) : Json := .array (texts.map textValue)

/-- The members of a metadata object that one part of the reader adds. -/
abbrev Members := List (Bytes × Json)

namespace YamlDocument

variable (document : YamlDocument)

/-- A field that is read into one member when it is there. -/
def optionalMember (node : YamlNode) (key member : String)
    (read : YamlNode → Except Bytes Json) : Except Bytes Members :=
  match document.field node (ascii key) with
  | none => .ok []
  | some field => (read field).map fun value => [(ascii member, value)]

/-- `add_scalar`. -/
def textScalar (message : String) (field : YamlNode) : Except Bytes Json :=
  (document.fieldScalar field message).map textValue

/-- `add_list`. -/
def stringList (field : YamlNode) : Except Bytes Json :=
  (taskFieldsCreate document .stringList field).map fun fields => listValue (fields.lists 0)

/-- `add_map`. -/
def stringMap (field : YamlNode) : Except Bytes Json :=
  (taskFieldsCreate document .stringMap field).map fun fields =>
    .object (fields.strings.entries.map fun entry => (entry.1.bytes, textValue entry.2))

/-- `add_each_metadata`. -/
def eachValue (field : YamlNode) : Except Bytes Json :=
  (taskFieldsCreate document .each field).map fun fields =>
    .object [(ascii "items", listValue (fields.lists 0)),
      (ascii "matrix",
        .object (fields.matrix.entries.map fun entry => (entry.1.bytes, listValue entry.2))),
      (ascii "as", textValue (fields.itemName.getD (.literal "item"))),
      (ascii "index_variable", textValue (fields.indexVariable.getD (.literal "")))]

/-- `add_triggers_metadata`. -/
def triggersValue (field : YamlNode) : Except Bytes Json :=
  (taskFieldsCreate document .triggers field).map fun fields =>
    .object [(ascii "on_success", listValue (fields.lists 0)),
      (ascii "on_failure", listValue (fields.lists 1)),
      (ascii "on_complete", listValue (fields.lists 2))]

/-- The name of a task. -/
def nameValue (node : YamlNode) : Except Bytes Members :=
  match document.field node (ascii "name") with
  | none => document.failAt node (ascii "task requires a 'name'")
  | some field => do
      let text ← document.fieldScalar field "Expected YAML scalar"
      if text.length = 0 then document.failAt field (ascii "task name cannot be empty")
      else pure [(ascii "name", textValue text)]

/-- The part of `add_timeout_retry` for `timeout`.  Next to a `child` the field is the
runner of the task and no metadata, and so is one that is no scalar. -/
def timeoutValue (node : YamlNode) : Except Bytes Members :=
  match document.field node (ascii "timeout") with
  | none => .ok []
  | some field =>
      if document.hasVal field && (document.field node (ascii "child")).isNone then
        (document.textScalar "Expected YAML scalar" field).map fun value =>
          [(ascii "timeout", value)]
      else .ok []

/-- The digits of a retry count, from the number read so far. -/
def retryDigits : Bytes → Nat → Option Nat
  | [], count => some count
  | digit :: rest, count =>
      if digit < 48 ∨ 57 < digit then none
      else if count > 102 ∨ (count = 102 ∧ digit.toNat - 48 > 4) then none
      else
        let next := count * 10 + (digit.toNat - 48)
        if next > 1024 then none else retryDigits rest next

/-- The part of `add_timeout_retry` for `retries`. -/
def retriesValue (field : YamlNode) : Except Bytes Json := do
  if !document.isMap field then
    document.failAt field (ascii "'retries' must be a map with a finite count")
  else
    document.checkKeys field ["count"]
    match document.field field (ascii "count") with
    | none =>
        document.failAt field (ascii "'retries' requires a non-negative integer 'count'")
    | some count =>
        let text ← document.fieldScalar count "retry count must be a non-negative integer"
        match if text.length = 0 then none else retryDigits text.bytes 0 with
        | none => document.failAt count (ascii "retry count must be between 0 and 1024")
        | some retries => pure (.number (.built retries))

/-- An empty working directory is read and dropped. -/
def workingDirValue (node : YamlNode) : Except Bytes Members :=
  match document.field node (ascii "working_dir") with
  | none => .ok []
  | some field => do
      let text ← document.fieldScalar field "Expected YAML scalar"
      if text.length = 0 then pure [] else pure [(ascii "working_dir", textValue text)]

/-- `add_silent_metadata`. -/
def silentValue (node : YamlNode) : Except Bytes Members :=
  if document.has node (ascii "silent") then
    (document.fieldBoolean (document.fieldGet node (ascii "silent")) "silent").map fun silent =>
      [(ascii "silent", .bool silent)]
  else .ok []

/-- The task that is named by `finally`. -/
def finallyValue (field : YamlNode) : Except Bytes Json := do
  let text ← document.fieldScalar field "'finally' must be a scalar"
  if text.length = 0 then document.failAt field (ascii "'finally' cannot be empty")
  else pure (textValue text)

/-! ## Runners -/

/-- A runner that a mapping names: the kind, and the node type of an orchestration root. -/
structure RunnerCandidate where
  kind : String
  nodeType : Option String

/-- The keys that name a runner of their own kind. -/
def plainRunners : List String :=
  ["command", "actions", "program", "download", "service", "managed_process", "uses",
    "dynamic_tasks", "tool"]

/-- `controls`. -/
def controlRunners : List String :=
  ["sequence", "parallel", "reactive_sequence", "pipeline_sequence", "fallback", "selector"]

/-- `leaves`. -/
def leafRunners : List String :=
  ["shell", "parse_json", "parse_regex", "parse_lines", "parse_keyvalue", "check_exit_code",
    "wait_event", "file_exists", "sleep", "set_variable", "subtree"]

/-- `decorators`. -/
def decoratorRunners : List String :=
  ["inverter", "force_success", "force_failure", "repeat", "timeout", "delay", "run_once",
    "keep_running_until_failure", "consume_queue", "precondition", "entry_updated"]

/-- `is_command_parser_key`. -/
def isCommandParserKey (key : String) : Bool :=
  key ∈ ["parse_json", "parse_regex", "parse_lines", "parse_keyvalue"]

/-- `advanced`, each with the second key its form needs. -/
def advancedRunners : List (String × String) :=
  [("switch", "cases"), ("if", "then"), ("while", "do")]

/-- Whether a decorator key names a runner. -/
def decorates (node : YamlNode) (key : String) : Bool :=
  document.has node (ascii key) &&
    (key ∈ ["inverter", "force_success", "force_failure"] || document.has node (ascii "child"))

/-- The candidates of `add_runner_selection`, in the order in which they are recorded. -/
def runnerCandidates (node : YamlNode) : List RunnerCandidate :=
  (plainRunners.filter fun key => document.has node (ascii key)).map (⟨·, none⟩) ++
    ((controlRunners.filter fun key => document.has node (ascii key)) ++
      (leafRunners.filter fun key => document.has node (ascii key) &&
        !(document.has node (ascii "command") && isCommandParserKey key)) ++
      decoratorRunners.filter (document.decorates node) ++
      (advancedRunners.filter fun keys =>
        document.has node (ascii keys.1) && document.has node (ascii keys.2)).map Prod.fst).map
      fun key => ⟨"orch_root", some key⟩

/-- `add_runner_selection`: the number of candidates and the first of them. -/
def runnerSelection (node : YamlNode) : Members :=
  match document.runnerCandidates node with
  | [] => []
  | first :: rest =>
      [(ascii "runner_count", .number (.built (rest.length + 1))),
        (ascii "runner_kind", .string (ascii first.kind))] ++
        first.nodeType.toList.map fun nodeType =>
          (ascii "orch_node_type", .string (ascii nodeType))

/-! ## The object -/

/-- The keys of a task. -/
def taskKeys : List String :=
  ["name", "description", "depends_on", "vars", "env", "dotEnv", "when", "each", "timeout",
    "retries", "triggers", "working_dir", "silent", "sources", "generates", "finally", "command",
    "program", "args", "stdin", "download", "uses", "dynamic_tasks", "output_format", "service",
    "managed_process", "tool", "with", "script", "actions", "sequence", "parallel",
    "reactive_sequence", "pipeline_sequence", "inverter", "force_success", "force_failure",
    "repeat", "delay", "switch", "if", "then", "else", "while", "do", "max_iterations", "child",
    "cases", "shell", "parse_json", "parse_regex", "parse_lines", "parse_keyvalue",
    "check_exit_code", "wait_event", "file_exists", "sleep", "set_variable", "subtree", "fallback",
    "selector", "run_once", "keep_running_until_failure", "consume_queue", "precondition",
    "entry_updated"]

/-- The keys in force: a flat `set_variable` has two more. -/
def allowedKeys (node : YamlNode) : List String :=
  if document.has node (ascii "set_variable") &&
      (document.has node (ascii "value") || document.has node (ascii "from")) then
    taskKeys ++ ["value", "from"]
  else taskKeys

/-- The parts of the object, in the order in which they are read. -/
def taskParts (node : YamlNode) : List (Except Bytes Members) :=
  [document.nameValue node,
    document.optionalMember node "description" "description"
      (document.textScalar "Expected YAML scalar"),
    document.optionalMember node "depends_on" "depends_on" document.stringList,
    document.optionalMember node "vars" "vars" document.stringMap,
    document.optionalMember node "env" "env" document.stringMap,
    document.optionalMember node "dotEnv" "dot_env" document.stringList,
    document.optionalMember node "when" "when" (document.textScalar "Expected YAML scalar"),
    document.optionalMember node "each" "each" document.eachValue,
    document.timeoutValue node,
    document.optionalMember node "retries" "retry_count" document.retriesValue,
    document.optionalMember node "triggers" "triggers" document.triggersValue,
    document.workingDirValue node,
    document.silentValue node,
    document.optionalMember node "sources" "sources" document.stringList,
    document.optionalMember node "generates" "generates" document.stringList,
    document.optionalMember node "finally" "finally" document.finallyValue,
    .ok (document.runnerSelection node)]

/-- `praktor_yaml_task_metadata_create`. -/
def taskMetadataCreate (node : YamlNode) : Except Bytes Json := do
  if !document.isMap node then document.failAt node (ascii "task must be a map")
  else
    document.checkKeys node (document.allowedKeys node)
    if document.has node (ascii "with") && !document.has node (ascii "tool") then
      document.failAt (document.fieldGet node (ascii "with"))
        (ascii "'with' is valid only with the 'tool' runner")
    else
      let parts ← (document.taskParts node).mapM id
      pure (.object parts.flatten)

/-! ## What the object keeps -/

section Kept

variable {document} {node : YamlNode}

/-- The metadata `timeout` is a scalar of a task without a `child`. -/
def HasTimeout (document : YamlDocument) (node : YamlNode) : Prop :=
  ∃ field, document.field node (ascii "timeout") = some field ∧ document.hasVal field = true ∧
    document.field node (ascii "child") = none

/-- The metadata `working_dir` is a text that is not empty. -/
def HasWorkingDir (document : YamlDocument) (node : YamlNode) : Prop :=
  ∃ field text, document.field node (ascii "working_dir") = some field ∧
    document.fieldDecode field false = .ok text ∧ text.length ≠ 0

end Kept

end YamlDocument

/-! ## Controls -/

/-- The metadata that says whether, how often, where or with what environment a task
runs. -/
inductive TaskControl
  | condition
  | each
  | retries
  | triggers
  | finalTask
  | timeout
  | environment
  | dotEnv
  | workingDir
  deriving DecidableEq, Repr

namespace TaskControl

/-- The key of a control in the mapping of a task. -/
def key : TaskControl → String
  | .condition => "when"
  | .each => "each"
  | .retries => "retries"
  | .triggers => "triggers"
  | .finalTask => "finally"
  | .timeout => "timeout"
  | .environment => "env"
  | .dotEnv => "dotEnv"
  | .workingDir => "working_dir"

/-- The member of the metadata object that keeps a control. -/
def member : TaskControl → String
  | .retries => "retry_count"
  | .dotEnv => "dot_env"
  | control => control.key

/-- The part that reads a control. -/
def place : TaskControl → Nat
  | .environment => 4
  | .dotEnv => 5
  | .condition => 6
  | .each => 7
  | .timeout => 8
  | .retries => 9
  | .triggers => 10
  | .workingDir => 11
  | .finalTask => 15

/-- The mapping of a task gives the control as metadata. -/
def Given (control : TaskControl) (document : YamlDocument) (node : YamlNode) : Prop :=
  match control with
  | .timeout => YamlDocument.HasTimeout document node
  | .workingDir => YamlDocument.HasWorkingDir document node
  | control => (document.field node (ascii control.key)).isSome = true

end TaskControl

section Keeps

variable {document : YamlDocument} {node : YamlNode} {metadata : Json}

/-- The object is made of the parts. -/
theorem taskMetadataCreate_parts (hcreate : document.taskMetadataCreate node = .ok metadata) :
    ∃ parts, metadata = .object parts.flatten ∧
      List.Forall₂ (fun part members => part = .ok members) (document.taskParts node) parts := by
  rw [YamlDocument.taskMetadataCreate] at hcreate
  split_ifs at hcreate
  · simp [YamlDocument.failAt] at hcreate
  · obtain ⟨_, -, hcreate⟩ := except_bind_eq_ok.mp hcreate
    simp [YamlDocument.failAt] at hcreate
  obtain ⟨_, -, hcreate⟩ := except_bind_eq_ok.mp hcreate
  obtain ⟨parts, hparts, hcreate⟩ := except_bind_eq_ok.mp hcreate
  exact ⟨parts, (Except.ok.inj hcreate).symm, mapM_eq_ok hparts⟩

end Keeps

end Praktor.Yaml
