/-
# Session plans

Before any task runs, `make_plan` turns the orchestration tree of every task into a
session plan.  `create_plan` walks the tree in preorder with an explicit stack and
refuses what the native session does not execute: other node types, binary or
templated parameters, trees beyond the limits.  Its profile says which nodes besides
the default ones are admitted.

The limits of the behaviour-tree library are a parameter.  Each allocation call takes
one outcome of the schedule.
-/

import Praktor.Workflow.Snapshot

namespace Praktor.Runtime

open Praktor.Data Praktor.Workflow

/-- `salts_bt_tree_config`, with the two bounds the library puts on it. -/
structure TreeConfig where
  maxNodes : Nat
  maxDepth : Nat
  maxControlIterations : Nat
  depthBound : Nat
  controlIterationBound : Nat

/-- `orch_plan_profile`. -/
inductive PlanProfile
  | default
  | singleShell
  | singleCommand
  | commandJson
  | commandKeyValue
  | commandRegex
  | commandLines
  deriving DecidableEq, Repr

/-- A node of a plan: its action, its parameters as C strings with their sizes, and its
parent. -/
structure PlanNode where
  action : OrchType
  params : List (CString × CString)
  sizes : List Nat
  children : Nat
  parent : Option Nat
  deriving DecidableEq

/-- `praktor_c11_orch_session_plan`, nodes in preorder. -/
structure SessionPlan where
  nodes : List PlanNode
  requiresNativeProcessOwner : Bool
  deriving DecidableEq

namespace PlanProfile

/-- `parser_type_for`, on the profiles `is_command_parser_profile` accepts. -/
def parserType : PlanProfile → Option OrchType
  | .commandJson => some .parseJson
  | .commandKeyValue => some .parseKeyValue
  | .commandRegex => some .parseRegex
  | .commandLines => some .parseLines
  | _ => none

/-- `parser_profile_name`. -/
def parserName : PlanProfile → String
  | .commandKeyValue => "KeyValue"
  | .commandRegex => "Regex"
  | .commandLines => "Lines"
  | _ => "JSON"

end PlanProfile

/-- `contains_mustache`: two equal adjacent braces. -/
def containsMustache : Bytes → Bool
  | first :: second :: rest =>
      (first = 123 && second = 123) || (first = 125 && second = 125) ||
        containsMustache (second :: rest)
  | _ => false

/-- `supported`. -/
def supported : OrchType → Bool
  | .sequence => true
  | .fallback => true
  | .selector => true
  | .inverter => true
  | .forceSuccess => true
  | .forceFailure => true
  | .setVariable => true
  | .checkExitCode => true
  | .parseJson => true
  | .parseKeyValue => true
  | .parseRegex => true
  | .parseLines => true
  | .sleep => true
  | _ => false

/-- A node has a parameter with this key and this text. -/
def hasBinding (node : OrchNode) (key : CString) (value : Bytes) : Bool :=
  node.params.any fun param => param.key = key && param.value = value

/-- The topology checks of `create_plan` for its profile. -/
def profileRefusal (tree : OrchTree) (profile : PlanProfile) : Option Refusal :=
  match profile with
  | .default => none
  | .singleShell =>
      if tree.nodes.length = 1 ∧ tree.root.map OrchNode.type = some .shell then none
      else some ⟨.enotsup,
        ascii "Native Shell qualification only admits one canonical Shell node"⟩
  | .singleCommand =>
      match tree.nodes with
      | [⟨.sequence, _, [child]⟩, _] =>
          if tree.nodes[child]?.map OrchNode.type = some .shell then none
          else some ⟨.enotsup, commandMessage⟩
      | _ => some ⟨.enotsup, commandMessage⟩
  | _ =>
      match tree.nodes with
      | [⟨.sequence, _, [first, second]⟩, _, _] =>
          match tree.nodes[first]?, tree.nodes[second]? with
          | some ⟨.shell, shellParams, []⟩, some ⟨parser, parserParams, []⟩ =>
              if some parser ≠ profile.parserType then some ⟨.enotsup, shapeMessage⟩
              else if hasBinding ⟨.shell, shellParams, []⟩ (.literal "output_key") (ascii "stdout") ∧
                  hasBinding ⟨parser, parserParams, []⟩ (.literal "input_key") (ascii "stdout") then
                none
              else some ⟨.enotsup, ascii "Native Command " ++ ascii profile.parserName ++
                ascii " requires canonical stdout port binding"⟩
          | _, _ => some ⟨.enotsup, shapeMessage⟩
      | _ => some ⟨.enotsup, shapeMessage⟩
where
  commandMessage : Bytes := ascii
    "Native Command qualification admits only Sequence with one Shell and no postprocessor"
  shapeMessage : Bytes := ascii "Native Command " ++ ascii profile.parserName ++
    ascii " qualification requires one Shell followed by Parse" ++
    ascii (if profile = .commandJson then "Json" else profile.parserName)

/-- A node type the profile admits. -/
def admitsType (tree : OrchTree) (profile : PlanProfile) (type : OrchType) : Bool :=
  supported type ||
    (profile = .singleShell && type = .shell && tree.nodes.length = 1) ||
    (profile = .singleCommand && type = .shell) ||
    (profile.parserType.isSome && type = .shell)

/-- The copies of the parameters of one node, with `retained` bytes copied before. -/
def copyParams : List OrchParam → Nat → AllocSchedule →
    Except Refusal (List (CString × CString) × Nat) × AllocSchedule
  | [], retained, schedule => (.ok ([], retained), schedule)
  | param :: rest, retained, schedule =>
      if hzero : 0 ∈ param.value then
        (.error ⟨.enotsup, ascii "Binary Orch parameter cannot enter native C11 leaf"⟩, schedule)
      else if containsMustache param.value then
        (.error ⟨.enotsup, ascii "Orch Mustache expansion not qualified for native C11 Session"⟩,
          schedule)
      else if retained ≥ maxOrchBytes || param.value.length ≥ maxOrchBytes - retained then
        (.error ⟨.einval, ascii "Orch Session Plan text budget exceeded"⟩, schedule)
      else
        match schedule.alloc with
        | (none, schedule) =>
            (.error ⟨.enomem, ascii "Cannot copy Orch parameter text"⟩, schedule)
        | (some _, schedule) =>
            match copyParams rest (retained + (param.value.length + 1)) schedule with
            | (.error refusal, schedule) => (.error refusal, schedule)
            | (.ok (copies, retained), schedule) =>
                (.ok ((param.key, ⟨param.value, hzero⟩) :: copies, retained), schedule)

/-- The diagnostic of `praktor_c11_compile_node`. -/
def compileRefusal (type : OrchType) (detail : String) : Refusal :=
  ⟨.einval, ascii "Node '" ++ ascii type.name ++ ascii "': " ++ ascii detail⟩

/-- `praktor_c11_compile_node` on the types that `create_plan` passes to it: the
control types among them have no limit, duration or condition to compile, so only
the number of children is checked. -/
def compileNode (config : TreeConfig) (type : OrchType) (children : Nat) : Option Refusal :=
  if config.maxNodes = 0 || config.maxNodes > 4294967295 || config.maxDepth = 0 ||
      config.maxDepth > config.depthBound || config.maxControlIterations = 0 ||
      config.maxControlIterations > config.controlIterationBound then
    some (compileRefusal type "invalid compilation input or BehaviorTree limits")
  else
    match type with
    | .sequence => none
    | .fallback => none
    | .selector => none
    | .inverter => single
    | .forceSuccess => single
    | .forceFailure => single
    | _ =>
        if children ≠ 0 then
          some (compileRefusal type
            "unsupported control has children; refusing to reinterpret as a leaf")
        else none
where
  single : Option Refusal :=
    if children ≠ 1 then some (compileRefusal type "must have exactly one child") else none

/-- `orch_visit`: a node on the stack, with its parent and its depth. -/
structure OrchVisit where
  node : Nat
  parent : Option Nat
  depth : Nat

/-- The copies for one node: the two arrays, requested together, then the texts. -/
def copyNode (node : OrchNode) (retained : Nat) (schedule : AllocSchedule) :
    Except Refusal (List (CString × CString) × Nat) × AllocSchedule :=
  if node.params.length = 0 then (.ok ([], retained), schedule)
  else
    let (copies, schedule) := schedule.alloc
    let (sizes, schedule) := schedule.alloc
    if copies.isNone || sizes.isNone then
      (.error ⟨.enomem, ascii "Cannot allocate C11 typed ports"⟩, schedule)
    else copyParams node.params retained schedule

/-- The traversal between two rounds: the stack with its top first, the nodes of the plan
and the bytes copied for them. -/
structure PlanCursor where
  stack : List OrchVisit
  nodes : List PlanNode
  retained : Nat

/-- The loop that puts the children of a node on the stack, the last one first, `none`
if a child finds the stack full. -/
def pushChildren (capacity index depth : Nat) : List Nat → List OrchVisit → Option (List OrchVisit)
  | [], stack => some stack
  | child :: rest, stack =>
      match pushChildren capacity index depth rest stack with
      | none => none
      | some stack =>
          if stack.length ≥ capacity then none else some (⟨child, some index, depth⟩ :: stack)

/-- Nodes with one parent, as they stand on the stack. -/
def visitsOf (parent : Option Nat) (depth : Nat) (places : List Nat) : List OrchVisit :=
  places.map fun place => ⟨place, parent, depth⟩

theorem pushChildren_ok {capacity index depth : Nat} {children : List Nat}
    {stack result : List OrchVisit}
    (hpush : pushChildren capacity index depth children stack = some result) :
    result = visitsOf (some index) depth children ++ stack := by
  induction children generalizing result with
  | nil => simpa [pushChildren, visitsOf, eq_comm] using hpush
  | cons child rest ih =>
      rw [pushChildren] at hpush
      split at hpush
      · simp at hpush
      rename_i below hbelow
      split_ifs at hpush
      rw [← Option.some.inj hpush, ih hbelow]
      rfl

/-- Children that fit on the stack are put there. -/
theorem pushChildren_fits {capacity : Nat} (index depth : Nat) {children : List Nat}
    {stack : List OrchVisit} (hfits : stack.length + children.length ≤ capacity) :
    pushChildren capacity index depth children stack =
      some (visitsOf (some index) depth children ++ stack) := by
  induction children with
  | nil => rfl
  | cons child rest ih =>
      rw [List.length_cons] at hfits
      have hroom : ¬ (visitsOf (some index) depth rest ++ stack).length ≥ capacity := by
        simp only [List.length_append, visitsOf, List.length_map]
        omega
      rw [pushChildren, ih (by omega)]
      simp only [hroom, if_false]
      rfl

/-- One round of the traversal of `create_plan`, with the visit off the stack and a free
place for its node. -/
def planVisit (tree : OrchTree) (config : TreeConfig) (profile : PlanProfile) (visit : OrchVisit)
    (cursor : PlanCursor) (schedule : AllocSchedule) :
    Except Refusal PlanCursor × AllocSchedule :=
  match tree.nodes[visit.node]? with
  | none => (.error ⟨.einval, ascii "Invalid Orch tree or excessive depth"⟩, schedule)
  | some node =>
      if visit.depth > config.maxDepth then
        (.error ⟨.einval, ascii "Invalid Orch tree or excessive depth"⟩, schedule)
      else if !admitsType tree profile node.type then
        (.error ⟨.enotsup,
          ascii "Orch action not qualified for native C11 Session; no Legacy fallback"⟩, schedule)
      else if node.params.length > maxOrchParams ||
          node.children.length ≥ tree.nodes.length ||
          node.children.length > tree.nodes.length - cursor.stack.length - 1 then
        (.error ⟨.einval, ascii "Invalid Orch parameter/child budget"⟩, schedule)
      else
        match copyNode node cursor.retained schedule with
        | (.error refusal, schedule) => (.error refusal, schedule)
        | (.ok (copies, retained), schedule) =>
            match compileNode config node.type node.children.length with
            | some refusal => (.error refusal, schedule)
            | none =>
                match pushChildren tree.nodes.length cursor.nodes.length (visit.depth + 1)
                    node.children cursor.stack with
                | none =>
                    (.error ⟨.einval, ascii "Broken Orch preorder child reference"⟩, schedule)
                | some stack =>
                    (.ok ⟨stack, cursor.nodes ++ [⟨node.type, copies,
                      node.params.map fun param => param.value.length, node.children.length,
                      visit.parent⟩], retained⟩, schedule)

/-- The traversal of `create_plan`.  `room` counts the nodes that may still be added. -/
def planNodes (tree : OrchTree) (config : TreeConfig) (profile : PlanProfile) :
    Nat → PlanCursor → AllocSchedule → Except Refusal (List PlanNode) × AllocSchedule
  | _, ⟨[], nodes, _⟩, schedule => (.ok nodes, schedule)
  | 0, ⟨_ :: _, _, _⟩, schedule =>
      (.error ⟨.einval, ascii "Invalid Orch tree or excessive depth"⟩, schedule)
  | room + 1, ⟨visit :: stack, nodes, retained⟩, schedule =>
      match planVisit tree config profile visit ⟨stack, nodes, retained⟩ schedule with
      | (.error refusal, schedule) => (.error refusal, schedule)
      | (.ok cursor, schedule) => planNodes tree config profile room cursor schedule

/-- `create_plan`. -/
def createPlan (tree : OrchTree) (config : TreeConfig) (profile : PlanProfile)
    (schedule : AllocSchedule) : Except Refusal SessionPlan × AllocSchedule :=
  if tree.nodes.length = 0 || tree.nodes.length > maxOrchNodes || config.maxNodes = 0 ||
      tree.nodes.length > config.maxNodes || config.maxDepth = 0 ||
      config.maxDepth > config.depthBound || config.maxControlIterations = 0 ||
      config.maxControlIterations > config.controlIterationBound then
    (.error ⟨.einval, ascii "Orch Session Plan exceeds C11 behavior-tree limits"⟩, schedule)
  else
    let (plan, schedule) := schedule.alloc
    if plan.isNone then (.error ⟨.enomem, ascii "Cannot allocate Orch Session Plan"⟩, schedule)
    else
      match profileRefusal tree profile with
      | some refusal => (.error refusal, schedule)
      | none =>
          let (nodes, schedule) := schedule.alloc
          let (stack, schedule) := schedule.alloc
          if nodes.isNone || stack.isNone then
            (.error ⟨.enomem, ascii "Cannot allocate bounded Orch Session Plan nodes"⟩, schedule)
          else
            match planNodes tree config profile tree.nodes.length ⟨[⟨0, none, 1⟩], [], 0⟩ schedule with
            | (.error refusal, schedule) => (.error refusal, schedule)
            | (.ok nodes, schedule) =>
                if nodes.length ≠ tree.nodes.length then
                  (.error ⟨.einval,
                    ascii "Orch Session Plan contains unreachable or repeated nodes"⟩, schedule)
                else (.ok ⟨nodes, profile ≠ .default⟩, schedule)

/-- `make_plan`.  A type it has no profile for leaves the diagnostic buffer empty. -/
def makePlan (config : TreeConfig) (task : SnapshotTask) (schedule : AllocSchedule) :
    Except Refusal SessionPlan × AllocSchedule :=
  match task.tree.root with
  | none => (.error ⟨.einval, []⟩, schedule)
  | some root =>
      match task.kind with
      | .command => createPlan task.tree config .singleCommand schedule
      | .orchestration =>
          match root.type with
          | .shell => createPlan task.tree config .singleShell schedule
          | .setVariable => createPlan task.tree config .default schedule
          | _ => (.error ⟨.enotsup, []⟩, schedule)

end Praktor.Runtime
