/-
# The orchestration parser

`orch_yaml.c` reads an orchestration tree from a document.  It collects one row for each
node, a parent before its children, and hands the rows to `praktor_orch_from_flat_nodes`.
A node is named by its only key, or it is one of the flat forms, whose parts are siblings
in one mapping; a flat form of a task may have the metadata of the task beside it.

The parser calls itself one level deeper, and a document may refer back to a node above.
What is called one level deeper is a parameter of each function here, and `parse` ties
them together on the levels that are left.
-/

import Praktor.Workflow.FlatNodes
import Praktor.Yaml.Document

namespace Praktor.Yaml

open Praktor.Data Praktor.Workflow

/-- `NAMED_YAML_MAX_DEPTH`. -/
def namedMaxDepth : Nat := 100

/-- `named_row`; the root has no parent. -/
structure NamedRow where
  type : OrchType
  parent : Option Nat
  params : List (CString × CString)

/-- `named_build` without its diagnostic buffer. -/
abbrev NamedRows := List NamedRow

/-- A text in a buffer of `size` bytes. -/
def clip (size : Nat) (text : Bytes) : Bytes := text.take (size - 1)

/-- `fail`. -/
def refuse {α : Type} (message : Bytes) : Except Refusal α := .error ⟨.einval, message⟩

/-! ## Names -/

/-- The loop of `key_is`; `fuel` bounds its rounds. -/
def keyIsLoop : Nat → Bytes → Bytes → Bool
  | fuel + 1, first :: key, second :: expected =>
      if first = 95 then keyIsLoop fuel key (second :: expected)
      else if second = 95 then keyIsLoop fuel (first :: key) expected
      else lower first = lower second && keyIsLoop fuel key expected
  | _, key, expected => key.dropWhile (· = 95) = [] && expected.dropWhile (· = 95) = []

/-- `key_is`. -/
def keyIs (key expected : Bytes) : Bool := keyIsLoop (key.length + expected.length) key expected

/-- The loop of `flat_key_matches`; `fuel` bounds its rounds. -/
def flatKeyLoop : Nat → Bytes → Bytes → Bool
  | 0, _, _ => false
  | fuel + 1, actual, expected =>
      match actual.dropWhile (· = 95), expected.dropWhile (· = 95) with
      | [], [] => true
      | first :: actual, second :: expected =>
          lower first = lower second && flatKeyLoop fuel actual expected
      | _, _ => false

/-- `flat_key_matches`. -/
def flatKeyMatches (actual expected : Bytes) : Bool :=
  flatKeyLoop (actual.length + 1) actual expected

/-- `canonical_param`. -/
def canonicalParam (spec : OrchSpec) (key : Bytes) : Option String :=
  (spec.required ++ spec.optional).find? fun name => keyIs key (ascii name)

/-- The types of the catalog, in order. -/
def orchTypes : List OrchType :=
  [.sequence, .fallback, .selector, .parallel, .reactiveSequence, .switch, .whileDo, .ifThenElse,
    .inverter, .forceSuccess, .forceFailure, .repeat, .timeout, .delay, .subTree,
    .keepRunningUntilFailure, .runOnce, .consumeQueue, .precondition, .entryUpdated,
    .pipelineSequence, .shell, .parseJson, .parseRegex, .parseLines, .parseKeyValue,
    .checkExitCode, .waitEvent, .sleep, .fileExists, .setVariable]

/-- `praktor_orch_find_type`. -/
def orchFindType (name : Bytes) : Option OrchType :=
  orchTypes.find? fun type => orchNameIs name (ascii type.name)

/-! ## Parameters -/

/-- `runtime_scalar`: a text with a brace is left to the runtime. -/
def runtimeScalar (value : Bytes) : Bool := value.any fun byte => byte = 123 || byte = 125

/-- `integer_keys`. -/
def integerKeys : List String :=
  ["capture_group", "expected", "timeout", "num_attempts", "num_cycles", "timeout_ms", "delay_ms",
    "max_iterations"]

/-- `boolean_keys`. -/
def booleanKeys : List String := ["stream_output", "fail_if_missing"]

/-- An optional sign and at least one digit. -/
def isInteger (value : Bytes) : Bool :=
  let digits := match value with
    | sign :: rest => if sign = 43 || sign = 45 then rest else value
    | [] => []
  digits ≠ [] && digits.all fun byte => 48 ≤ byte && byte ≤ 57

/-- `true` or `false` in any case of letters. -/
def isBoolean (value : Bytes) : Bool :=
  value.map lower = ascii "true" || value.map lower = ascii "false"

namespace YamlDocument

variable (document : YamlDocument)

/-- `fail_at`. -/
def refuseAt {α : Type} (node : YamlNode) (message : Bytes) : Except Refusal α :=
  refuse (ascii "Parse error" ++ document.location node ++ ascii ": " ++ message)

/-- `praktor_yaml_get`, with nothing for `ENOENT`. -/
def get? (node : YamlNode) (key : String) : Option YamlNode :=
  if (document.fieldGet node (ascii key)).node.isSome then some (document.fieldGet node (ascii key))
  else none

/-- `validate_param`. -/
def validateParam (type : OrchType) (key value : CString) (source : YamlNode) (typeLower : Bytes) :
    Except Refusal Unit :=
  let integer := integerKeys.any fun name => keyIs key.bytes (ascii name)
  let boolean := booleanKeys.any fun name => keyIs key.bytes (ascii name)
  if runtimeScalar value.bytes then .ok ()
  else if (integer && !isInteger value.bytes) || (boolean && !isBoolean value.bytes) then
    document.refuseAt source (clip 256 (ascii "Orchestration parameter '" ++
      ((canonicalParam type.spec key.bytes).map ascii).getD key.bytes ++
      ascii "' for node type '" ++ typeLower ++ ascii "' must be " ++
      if integer then ascii "an integer" else ascii "a boolean"))
  else .ok ()

/-- `param_with_source` on the row at `index`: an alias of an earlier key takes its
place. -/
def addParam (rows : NamedRows) (index : Nat) (key value : CString) (source : YamlNode)
    (typeLower : Bytes) : Except Refusal NamedRows :=
  match rows[index]? with
  | none => .ok rows
  | some row => do
      document.validateParam row.type key value source typeLower
      match row.params.findIdx? fun param => keyIs param.1.bytes key.bytes with
      | some place => .ok (rows.set index { row with params := row.params.set place (key, value) })
      | none =>
          if row.params.length ≥ maxOrchParams then
            refuse (ascii "Named orchestration parameter limit")
          else .ok (rows.set index { row with params := row.params ++ [(key, value)] })

/-- The rows with parent `index` after it. -/
def childCount (rows : NamedRows) (index : Nat) : Nat :=
  (rows.drop (index + 1)).countP fun row => row.parent = some index

/-- The names of a list, with commas. -/
def nameList (names : List String) : Bytes := ascii (", ".intercalate names)

/-- `validate_named_row`. -/
def validateNamedRow (rows : NamedRows) (index : Nat) (origin : YamlNode) (typeLower : Bytes) :
    Except Refusal Unit :=
  match rows[index]? with
  | none => .ok ()
  | some row =>
      let children := childCount rows index
      let scalar := row.params.any fun param => keyIs param.1.bytes (ascii "condition")
      match row.type.spec.required.find? fun name =>
          !(row.params.any fun param => keyIs param.1.bytes (ascii name)) with
      | some name =>
          document.refuseAt origin (clip 256 (ascii "Missing required parameter '" ++ ascii name ++
            ascii "' for node type '" ++ typeLower ++ ascii "'. Required parameters: " ++
            clip 128 (nameList row.type.spec.required)))
      | none =>
          match row.type with
          | .ifThenElse =>
              if children < (if scalar then 1 else 2) || children > (if scalar then 2 else 3) then
                document.refuseAt origin (ascii "if requires a condition plus then/else branches")
              else .ok ()
          | .whileDo =>
              if children ≠ (if scalar then 1 else 2) then
                document.refuseAt origin (ascii "while requires a condition and a do branch")
              else .ok ()
          | type =>
              if type = .switch && children = 0 then
                document.refuseAt origin (ascii "switch requires at least one case branch")
              else if orchSingleChild type then
                if children ≠ 1 then
                  document.refuseAt origin (clip 256 (clip 64 ((ascii type.name).map lower) ++
                    ascii " must have exactly one child"))
                else .ok ()
              else if type.spec.control && children = 0 then
                document.refuseAt origin (clip 256 (ascii "Control node '" ++ typeLower ++
                  ascii "' must have at least one child"))
              else .ok ()

/-! ## Branches -/

/-- The parser one level deeper: a node, the place of its parent and the rows so far. -/
abbrev Deeper := YamlNode → Option Nat → NamedRows → Except Refusal NamedRows

/-- The nodes of a sequence, each one level deeper. -/
def parseEach (deeper : Deeper) (nodes : List YamlNode) (parent : Nat) (rows : NamedRows) :
    Except Refusal NamedRows :=
  nodes.foldlM (fun rows node => deeper node (some parent) rows) rows

/-- `children`. -/
def parseChildren (deeper : Deeper) (seq : YamlNode) (parent : Nat) (rows : NamedRows) :
    Except Refusal NamedRows :=
  if document.isSeq seq then parseEach deeper (document.children seq) parent rows
  else document.refuseAt seq (ascii "Orchestration children block must be a sequence")

/-- `flat_append_node`. -/
def appendNode (depth : Nat) (type : OrchType) (parent : Option Nat) (rows : NamedRows) :
    Except Refusal NamedRows :=
  if depth > namedMaxDepth then refuse (ascii "Orchestration nesting limit")
  else if rows.length ≥ maxOrchNodes then refuse (ascii "Orchestration node limit")
  else .ok (rows ++ [⟨type, parent, []⟩])

/-- `flat_branch`: a sequence of nodes is wrapped in a node of its own. -/
def flatBranch (depth : Nat) (deeper : Deeper) (branch : YamlNode) (parent : Nat)
    (rows : NamedRows) : Except Refusal NamedRows :=
  if document.isSeq branch then
    if (document.children branch).length = 0 then
      document.refuseAt branch
        (ascii "Orchestration branch sequence must contain at least one child")
    else do
      let next ← appendNode depth .sequence (some parent) rows
      parseEach deeper (document.children branch) rows.length next
  else deeper branch (some parent) rows

/-! ## Flat forms -/

/-- The flat forms. -/
inductive FlatForm
  | conditional
  | loop
  | switch
  | setVariable
  | timeout
  | repeat
  | delay
  | keepRunningUntilFailure
  | precondition
  | entryUpdated
  | consumeQueue
  | runOnce
  deriving DecidableEq, Repr

namespace FlatForm

/-- The key that names a form. -/
def name : FlatForm → String
  | .conditional => "if"
  | .loop => "while"
  | .switch => "switch"
  | .setVariable => "set_variable"
  | .timeout => "timeout"
  | .repeat => "repeat"
  | .delay => "delay"
  | .keepRunningUntilFailure => "keep_running_until_failure"
  | .precondition => "precondition"
  | .entryUpdated => "entry_updated"
  | .consumeQueue => "consume_queue"
  | .runOnce => "run_once"

/-- The node type of a form. -/
def type : FlatForm → OrchType
  | .conditional => .ifThenElse
  | .loop => .whileDo
  | .switch => .switch
  | .setVariable => .setVariable
  | .timeout => .timeout
  | .repeat => .repeat
  | .delay => .delay
  | .keepRunningUntilFailure => .keepRunningUntilFailure
  | .precondition => .precondition
  | .entryUpdated => .entryUpdated
  | .consumeQueue => .consumeQueue
  | .runOnce => .runOnce

/-- `flat_single_child_kind`: the parameter of a form with one child, which `run_once`
does not have. -/
def singleChild : FlatForm → Option (Option String)
  | .timeout => some (some "timeout_ms")
  | .repeat => some (some "num_cycles")
  | .delay => some (some "delay_ms")
  | .keepRunningUntilFailure => some (some "max_iterations")
  | .precondition => some (some "condition")
  | .entryUpdated => some (some "watch_key")
  | .consumeQueue => some (some "queue_key")
  | .runOnce => some none
  | _ => none

end FlatForm

/-- `flat_key_allowed`. -/
def flatKeyAllowed (key : Bytes) (form : FlatForm) : Bool :=
  let named (name : String) : Bool := flatKeyMatches key (ascii name)
  if form.singleChild.isSome then named form.name || named "child"
  else if named "if" then form = .conditional
  else if named "then" || named "else" then form = .conditional
  else if named "while" || named "do" || named "max_iterations" then form = .loop
  else if named "switch" || named "cases" then form = .switch
  else if named "set_variable" || named "value" || named "from" then form = .setVariable
  else false

/-- The keys of `flat_task_metadata_key`. -/
def flatMetadataKeys : List String :=
  ["name", "description", "depends_on", "vars", "env", "dot_env", "fallback", "selector", "when",
    "each", "timeout", "triggers", "working_dir", "silent", "sources", "generates", "finally",
    "command", "uses", "dynamic_tasks", "output_format", "parse_regex", "parse_json",
    "parse_lines", "parse_keyvalue", "script", "actions"]

/-- `flat_task_metadata_key`. -/
def flatTaskMetadataKey (key : Bytes) : Bool :=
  flatMetadataKeys.any fun name => flatKeyMatches key (ascii name)

/-- One round of `flat_validate_keys`. -/
def flatValidateKey (form : FlatForm) (allowMetadata : Bool) (child : YamlNode) :
    Except Refusal Unit :=
  match document.fieldDecode child true with
  | .error _ => document.refuseAt child (ascii "Cannot decode flat orchestration key")
  | .ok key =>
      if flatKeyAllowed key.bytes form || (allowMetadata && flatTaskMetadataKey key.bytes) then
        .ok ()
      else
        document.refuseAt child (clip 256 (ascii "Unknown orchestration parameter '" ++ key.bytes ++
          ascii "' for node type '" ++ ascii form.name ++ ascii "'"))

/-- `flat_validate_keys`. -/
def flatValidateKeys (map : YamlNode) (form : FlatForm) (allowMetadata : Bool) :
    Except Refusal Unit :=
  (document.children map).forM (document.flatValidateKey form allowMetadata)

/-- `flat_require`. -/
def flatRequire (map : YamlNode) (name missing : String) : Except Refusal YamlNode :=
  match document.get? map name with
  | some field => .ok field
  | none => document.refuseAt map (ascii missing)

/-- `praktor_yaml_scalar` of a field, with the message for anything else. -/
def flatScalar (field : YamlNode) (message : Bytes) : Except Refusal CString :=
  match document.scalarText field.node with
  | .ok text => .ok text
  | .error _ => document.refuseAt field message

/-- `flat_add_param`. -/
def flatAddParam (form : FlatForm) (rows : NamedRows) (index : Nat) (key : String)
    (value : CString) (source : YamlNode) : Except Refusal NamedRows :=
  document.addParam rows index (.literal key) value source (ascii form.name)

section Forms

variable (depth : Nat) (deeper : Deeper) (map : YamlNode) (index : Nat) (rows : NamedRows)

/-- A form with one child. -/
def flatDecorator (form : FlatForm) (param : Option String) : Except Refusal NamedRows := do
  let field ← document.flatRequire map form.name
    "Flat decorator requires a scalar and child branch"
  let branch ← document.flatRequire map "child"
    "Flat decorator requires a scalar and child branch"
  let value ← document.flatScalar field (clip 256 (ascii "Orchestration parameter '" ++
    ascii (param.getD form.name) ++ ascii "' for node type '" ++ ascii form.name ++
    ascii "' must be a scalar"))
  match param with
  | some key =>
      let rows ← document.flatAddParam form rows index key value field
      document.flatBranch depth deeper branch index rows
  | none => document.flatBranch depth deeper branch index rows

/-- The condition of `if` and `while`: a scalar is a parameter, anything else a branch. -/
def flatCondition (form : FlatForm) (field : YamlNode) : Except Refusal NamedRows := do
  if document.hasVal field then
    let value ← document.flatScalar field (ascii "Orchestration " ++ ascii form.name ++
      ascii " condition must be a scalar, node, or sequence")
    document.flatAddParam form rows index "condition" value field
  else document.flatBranch depth deeper field index rows

/-- `if`, `then` and `else`. -/
def flatConditional : Except Refusal NamedRows := do
  let field ← document.flatRequire map "if" "if requires an 'if' condition"
  let rows ← document.flatCondition depth deeper index rows .conditional field
  let branch ← document.flatRequire map "then" "if requires a then branch"
  let rows ← document.flatBranch depth deeper branch index rows
  if document.has map (ascii "else") then
    match document.get? map "else" with
    | some branch => document.flatBranch depth deeper branch index rows
    | none => document.refuseAt map (ascii "Cannot read orchestration else branch")
  else pure rows

/-- The bound of a `while`. -/
def flatLimit : Except Refusal NamedRows :=
  if document.has map (ascii "max_iterations") then
    match document.get? map "max_iterations" with
    | some field => do
        let value ← document.flatScalar field (ascii
          "Orchestration parameter 'max_iterations' for node type 'while' must be a scalar")
        document.flatAddParam .loop rows index "max_iterations" value field
    | none => document.refuseAt map (ascii "Cannot read orchestration max_iterations")
  else .ok rows

/-- `while`, `max_iterations` and `do`. -/
def flatLoop : Except Refusal NamedRows := do
  let field ← document.flatRequire map "while" "while requires a 'while' condition"
  let rows ← document.flatCondition depth deeper index rows .loop field
  let rows ← document.flatLimit map index rows
  let branch ← document.flatRequire map "do" "while requires a do branch"
  document.flatBranch depth deeper branch index rows

/-- `switch` and `cases`. -/
def flatSwitch : Except Refusal NamedRows := do
  if !document.has map (ascii "cases") then
    document.refuseAt map (ascii "switch requires a cases branch")
  else
    let field ← document.flatRequire map "switch" "switch requires a selector"
    let value ← document.flatScalar field (ascii "Orchestration switch selector must be a scalar")
    let rows ← document.flatAddParam .switch rows index "variable" value field
    let branch ← document.flatRequire map "cases" "switch requires a cases branch"
    if !document.isSeq branch then
      document.refuseAt branch (ascii "switch cases must be a sequence")
    else if (document.children branch).length = 0 then
      document.refuseAt map (ascii "switch requires at least one case branch")
    else
      (document.children branch).foldlM
        (fun rows node => document.flatBranch depth deeper node index rows) rows

/-- `set_variable` with `value` or `from`. -/
def flatSetVariable : Except Refusal NamedRows := do
  if document.has map (ascii "value") = document.has map (ascii "from") then
    document.refuseAt map (ascii "set_variable requires exactly one of 'value' or 'from'")
  else
    let field ← document.flatRequire map "set_variable" "set_variable requires a key"
    let key ← document.flatScalar field (ascii
      "Orchestration parameter 'key' for node type 'set_variable' must be a scalar")
    let rows ← document.flatAddParam .setVariable rows index "key" key field
    let name := if document.has map (ascii "value") then "value" else "from"
    match document.get? map name with
    | none => document.refuseAt map (ascii "Cannot read orchestration value/from")
    | some field => do
        let text ← document.flatScalar field (clip 256 (ascii "Orchestration parameter '" ++
          ascii name ++ ascii "' for node type 'set_variable' must be a scalar"))
        document.flatAddParam .setVariable rows index name text field

end Forms

/-- `flat_parse`. -/
def flatParse (depth : Nat) (deeper : Deeper) (map : YamlNode) (parent : Option Nat)
    (form : FlatForm) (allowMetadata : Bool) (rows : NamedRows) : Except Refusal NamedRows :=
  if !document.isMap map then refuse (ascii "Flat orchestration form must be a mapping")
  else do
    document.flatValidateKeys map form allowMetadata
    let next ← appendNode depth form.type parent rows
    match form.singleChild with
    | some param => document.flatDecorator depth deeper map rows.length next form param
    | none =>
        match form with
        | .conditional => document.flatConditional depth deeper map rows.length next
        | .loop => document.flatLoop depth deeper map rows.length next
        | .switch => document.flatSwitch depth deeper map rows.length next
        | _ => document.flatSetVariable map rows.length next

/-! ## Named nodes -/

/-- The named spellings that were retired, each with the form to use instead. -/
def retiredTypes : List (String × Option String) :=
  [("IfThenElse", some "Use flat 'if' / 'then' / 'else' syntax"),
    ("WhileDo", some "Use flat 'while' / 'do' syntax"),
    ("Switch", some "Use flat 'switch' with sibling 'cases' syntax"),
    ("SetVariable", some "Use flat 'set_variable' plus sibling 'value' or 'from' syntax"),
    ("Timeout", none), ("Repeat", none), ("Delay", none)]

/-- The message for a retired spelling. -/
def retiredMessage (typeName : Bytes) (guide : Option String) : Bytes :=
  clip 512 (ascii "Legacy orchestration node type '" ++ typeName ++ ascii "' has been removed. " ++
    match guide with
    | some guide => ascii guide
    | none => ascii "Use flat '" ++ (clip 128 typeName).map lower ++
        ascii "' plus sibling 'child' syntax")

/-- One field of a named mapping: a parameter, or one of the two keys for children. -/
def namedField (type : OrchType) (typeLower : Bytes) (index : Nat)
    (state : NamedRows × Bool × Bool) (field : YamlNode) :
    Except Refusal (NamedRows × Bool × Bool) :=
  let (rows, hasChild, hasChildren) := state
  match document.fieldDecode field true with
  | .error _ => document.refuseAt field (ascii "Cannot decode orchestration parameter key")
  | .ok key =>
      if keyIs key.bytes (ascii "child") then .ok (rows, true, hasChildren)
      else if keyIs key.bytes (ascii "children") then .ok (rows, hasChild, true)
      else
        match canonicalParam type.spec key.bytes with
        | none =>
            document.refuseAt field (clip 256 (ascii "Unknown orchestration parameter '" ++
              key.bytes ++ ascii "' for node type '" ++ typeLower ++ ascii "'"))
        | some _ => do
            let text ← document.flatScalar field (clip 256 (ascii "Orchestration parameter '" ++
              key.bytes ++ ascii "' for node type '" ++ typeLower ++ ascii "' must be a scalar"))
            let rows ← document.addParam rows index key text field typeLower
            .ok (rows, hasChild, hasChildren)

section Named

variable (depth : Nat) (deeper : Deeper) (value : YamlNode) (type : OrchType) (typeLower : Bytes)
  (index : Nat) (rows : NamedRows)

/-- The refusal of children below a leaf. -/
def refuseLeaf {α : Type} (node : YamlNode) : Except Refusal α :=
  document.refuseAt node (clip 128 (ascii "Leaf node '" ++ typeLower ++
    ascii "' cannot have children"))

/-- A named node whose value is a sequence. -/
def namedSequence : Except Refusal NamedRows := do
  if !type.spec.allowsChildren then document.refuseLeaf typeLower value
  else
    let rows ← document.parseChildren deeper value index rows
    document.validateNamedRow rows index value typeLower
    pure rows

/-- The children of a named mapping, which are looked up under the exact name. -/
def namedBranch (hasChild hasChildren : Bool) (rows : NamedRows) : Except Refusal NamedRows :=
  if hasChildren || hasChild then
    match document.get? value (if hasChildren then "children" else "child") with
    | none =>
        document.refuseAt value
          (ascii "Orchestration child field is not accessible by its canonical name")
    | some branch =>
        if !type.spec.allowsChildren then document.refuseLeaf typeLower branch
        else if hasChildren then document.parseChildren deeper branch index rows
        else document.flatBranch depth deeper branch index rows
  else .ok rows

/-- A named node whose value is a mapping: the parameters first, then the children. -/
def namedMapping : Except Refusal NamedRows := do
  let (rows, hasChild, hasChildren) ←
    (document.children value).foldlM (document.namedField type typeLower index)
      (rows, false, false)
  if hasChild && hasChildren then
    document.refuseAt value
      (ascii "Orchestration node cannot define both 'child' and 'children'")
  else
    let rows ←
      document.namedBranch depth deeper value type typeLower index hasChild hasChildren rows
    document.validateNamedRow rows index value typeLower
    pure rows

/-- A named node whose value is a scalar: its one required parameter. -/
def namedScalar : Except Refusal NamedRows := do
  if !document.hasVal value then
    document.refuseAt value
      (ascii "Orchestration node value must be a map, sequence, or scalar")
  else
    match type.spec.required with
    | [required] =>
        let text ← document.flatScalar value
          (ascii "Orchestration simplified syntax requires a scalar value")
        let rows ← document.addParam rows index (.literal required) text value typeLower
        document.validateNamedRow rows index value typeLower
        pure rows
    | [] =>
        document.refuseAt value (clip 256 (ascii "Node type '" ++ typeLower ++
          ascii "' does not support simplified syntax (no required parameters)"))
    | required =>
        document.refuseAt value (clip 256 (ascii "Node type '" ++ typeLower ++
          ascii "' requires multiple parameters (" ++ clip 128 (nameList required) ++
          ascii "). Use map syntax"))

end Named

/-- `parse_named_entry`. -/
def parseNamedEntry (depth : Nat) (deeper : Deeper) (value : YamlNode) (parent : Option Nat)
    (rows : NamedRows) : Except Refusal NamedRows :=
  if depth > namedMaxDepth then refuse (ascii "Named orchestration nesting limit")
  else if rows.length ≥ maxOrchNodes then refuse (ascii "Named orchestration node limit")
  else
    match document.fieldDecode value true with
    | .error _ => document.refuseAt value (ascii "Cannot decode orchestration type key")
    | .ok typeName =>
        match retiredTypes.find? fun retired => keyIs typeName.bytes (ascii retired.1) with
        | some retired => document.refuseAt value (retiredMessage typeName.bytes retired.2)
        | none =>
            match orchFindType typeName.bytes with
            | none =>
                document.refuseAt value (clip 256 (ascii "Unknown orchestration node type: '" ++
                  typeName.bytes ++ ascii "'"))
            | some type =>
                let typeLower := (clip 64 typeName.bytes).map lower
                let next := rows ++ [⟨type, parent, []⟩]
                if document.isSeq value then
                  document.namedSequence deeper value type typeLower rows.length next
                else if document.isMap value then
                  document.namedMapping depth deeper value type typeLower rows.length next
                else document.namedScalar value type typeLower rows.length next

/-! ## The parser -/

/-- The flat form that a mapping below a node is read as. -/
def nestedForm (map : YamlNode) : Option FlatForm :=
  let has (key : String) : Bool := document.has map (ascii key)
  if has "if" && has "then" then some .conditional
  else if has "while" && has "do" then some .loop
  else if has "switch" && has "cases" then some .switch
  else if has "set_variable" && (has "value" || has "from") then some .setVariable
  else if has "timeout" && has "child" then some .timeout
  else if has "repeat" && has "child" then some .repeat
  else if has "delay" && has "child" then some .delay
  else none

/-- `parse` at a depth. -/
def parseAt (depth : Nat) (deeper : Deeper) (map : YamlNode) (parent : Option Nat)
    (rows : NamedRows) : Except Refusal NamedRows :=
  match if document.isMap map then document.nestedForm map else none with
  | some form => document.flatParse depth deeper map parent form false rows
  | none =>
      if depth > namedMaxDepth then refuse (ascii "Named orchestration nesting limit")
      else if !document.isMap map then
        document.refuseAt map (ascii "Orchestration node must be a map")
      else
        match document.children map with
        | [entry] => document.parseNamedEntry depth deeper entry parent rows
        | _ =>
            document.refuseAt map
              (ascii "Orchestration node must have exactly one key (node type)")

/-- `parse` with the given number of levels left; at the last depth nothing is called
deeper. -/
def parse : Nat → Deeper
  | 0 => document.parseAt (namedMaxDepth + 1) fun _ _ _ =>
      refuse (ascii "Orchestration nesting limit")
  | levels + 1 => document.parseAt (namedMaxDepth - levels) (parse levels)

/-- The parser below the first level. -/
def belowRoot : Deeper := document.parse namedMaxDepth

/-- The rows of `praktor_orch_from_named_yaml`. -/
def namedRows (node : YamlNode) : Except Refusal NamedRows :=
  document.parse (namedMaxDepth + 1) node none []

/-- The flat form that `praktor_orch_from_flat_yaml` reads a task as, by the exact name of
its runner. -/
def taskForm (node : YamlNode) : Bytes → Option FlatForm := fun nodeType =>
  ([.conditional, .loop, .switch, .setVariable, .timeout, .repeat, .delay,
    .keepRunningUntilFailure, .precondition, .entryUpdated, .consumeQueue, .runOnce] :
      List FlatForm).find? fun form =>
    nodeType = ascii form.name && (form ≠ .runOnce || document.has node (ascii "child"))

/-- The rows of `praktor_orch_from_flat_yaml`. -/
def flatRows (node : YamlNode) (nodeType : CString) : Except Refusal NamedRows :=
  match document.taskForm node nodeType.bytes with
  | some form => document.flatParse 0 document.belowRoot node none form true []
  | none =>
      match document.fieldGet node nodeType.bytes with
      | ⟨none, _⟩ =>
          document.refuseAt node (ascii "Missing named orchestration runner field")
      | value => document.parseNamedEntry 0 document.belowRoot value none []

end YamlDocument

/-- The row as the constructor of trees reads it. -/
def NamedRow.flatNode (row : NamedRow) : OrchFlatNode where
  type := some row.type
  parentIndex := row.parent.getD orchRootParent
  params := some (row.params.map fun param => ⟨some param.1.bytes, some param.2.bytes⟩)

/-- `praktor_orch_from_named_yaml`. -/
def orchFromNamedYaml (document : YamlDocument) (node : YamlNode) : Except Refusal OrchTree := do
  let rows ← document.namedRows node
  fromFlatNodes (rows.map NamedRow.flatNode)

/-- `praktor_orch_from_flat_yaml`. -/
def orchFromFlatYaml (document : YamlDocument) (node : YamlNode) (nodeType : CString) :
    Except Refusal OrchTree := do
  let rows ← document.flatRows node nodeType
  fromFlatNodes (rows.map NamedRow.flatNode)

end Praktor.Yaml
