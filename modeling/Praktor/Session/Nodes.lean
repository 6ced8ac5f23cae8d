/-
# The nodes of a session

`praktor_c11_compile_node` turns one action with its typed parameters into a node: it checks the
number of children, replaces controls that have nothing to run by leaves, and fixes the limit or
the duration of a control.  A parameter of the form `{key}` is left to the session, which reads it
from the store at every tick; the node then carries a mask.

A text comes with its size, which is that of `text_sizes` or, without these, that of `strlen`.
The bits of a mask are those that the library of behavior trees names.
-/

import Praktor.Runtime.Plan

namespace Praktor.Session

open Praktor.Data
open Praktor.Runtime (TreeConfig)

variable {Number : Type}

/-! ## Parameters -/

/-- The kind of a parameter with its value. -/
inductive ParameterValue (Number : Type)
  | string (text : Bytes)
  | number (value : Number)
  | boolean (value : Bool)
  deriving DecidableEq

/-- `praktor_c11_leaf_parameter` with a name, a known kind, and a text if it is one. -/
structure LeafParameter (Number : Type) where
  name : CString
  value : ParameterValue Number
  deriving DecidableEq

/-- What a session learns of numbers from the C library. -/
structure SessionNumbers (Number : Type) where
  isfinite : Number → Bool
  /-- `snprintf` with `%.6f`. -/
  format : Number → Bytes
  /-- The number as an `int`, when it is finite, integral and in range. -/
  toInt : Number → Option Int
  /-- `strtod`: the number and how much of the text it is, unless nothing was read or the number
  is out of range. -/
  strtod : Bytes → Option (Number × Nat)

/-- `praktor_c11_parse_integer`. -/
def praktorC11ParseInteger (numbers : SessionNumbers Number) (text : Bytes) : Option Int :=
  match numbers.strtod text with
  | none => none
  | some (value, size) => if size ≠ text.length then none else numbers.toInt value

/-- `praktor_c11_parameter_integer`. -/
def praktorC11ParameterInteger (numbers : SessionNumbers Number) :
    ParameterValue Number → Option Int
  | .boolean _ => none
  | .string text => praktorC11ParseInteger numbers text
  | .number value => numbers.toInt value

/-- `find`, and `session_parameter` of a node. -/
def findParameter (parameters : List (LeafParameter Number)) (key : String) :
    Option (ParameterValue Number) :=
  (parameters.find? fun parameter => parameter.name = CString.literal key).map LeafParameter.value

/-- A text in braces. -/
def Braced (text : Bytes) : Prop :=
  2 ≤ text.length ∧ text.head? = some 123 ∧ text.getLast? = some 125

instance (text : Bytes) : Decidable (Braced text) := by
  unfold Braced
  infer_instance

/-- `substituted`. -/
def substituted : Option (ParameterValue Number) → Bool
  | some (.string text) => Braced text
  | _ => false

/-! ## Nodes -/

/-- `salts_bt_node_kind`. -/
inductive NodeKind
  | leaf
  | sequence
  | fallback
  | parallel
  | reactiveSequence
  | reactiveFallback
  | retry
  | repetition
  | switch
  | ifThenElse
  | precondition
  | whileDo
  | inverter
  | forceSuccess
  | forceFailure
  | timeout
  | delay
  | keepRunningUntilFailure
  | runOnce
  | pipelineSequence
  | entryUpdated
  | consumeQueue
  deriving DecidableEq, Repr

/-- The table of `kind`. -/
def kindNames : List (String × NodeKind) :=
  [("Sequence", .sequence), ("Fallback", .fallback), ("Selector", .fallback),
    ("Parallel", .parallel), ("ReactiveSequence", .reactiveSequence),
    ("ReactiveFallback", .reactiveFallback), ("Retry", .retry), ("Repeat", .repetition),
    ("Switch", .switch), ("IfThenElse", .ifThenElse), ("Precondition", .precondition),
    ("WhileDo", .whileDo), ("Inverter", .inverter), ("ForceSuccess", .forceSuccess),
    ("ForceFailure", .forceFailure), ("Timeout", .timeout), ("Delay", .delay),
    ("KeepRunningUntilFailure", .keepRunningUntilFailure), ("RunOnce", .runOnce),
    ("PipelineSequence", .pipelineSequence), ("EntryUpdated", .entryUpdated),
    ("ConsumeQueue", .consumeQueue)]

/-- `kind`. -/
def kindOf (action : CString) : NodeKind :=
  ((kindNames.find? fun entry => action = CString.literal entry.1).map Prod.snd).getD .leaf

/-- The bits of `dynamic_parameter_mask`. -/
structure DynamicMask where
  limit : Bool := false
  durationNs : Bool := false
  deriving DecidableEq, Repr

/-- `praktor_c11_bt_node_desc`. -/
structure BtNodeDesc where
  parentIndex : Option Nat
  kind : NodeKind
  limit : Nat := 0
  durationNs : UInt64 := 0
  dynamicParameterMask : DynamicMask := {}
  conditionCallback : Bool := false
  parallelHooks : Bool := false
  deriving DecidableEq

/-- `praktor_c11_terminal_action`. -/
inductive TerminalAction
  | runtime
  | success
  | failure
  | switchFailure
  deriving DecidableEq, Repr

/-- `praktor_c11_session_node`. -/
structure SessionNode (Number : Type) where
  tree : BtNodeDesc
  action : CString
  parameters : List (LeafParameter Number)
  terminal : TerminalAction := .runtime
  deriving DecidableEq

/-! ## Compilation -/

/-- `fail`. -/
def fail {α : Type} (action : CString) (detail : String) : Except Bytes α :=
  .error (ascii "Node '" ++ action.bytes ++ ascii "': " ++ ascii detail)

/-- The limits are those that the library accepts. -/
def limitsAdmitted (limits : TreeConfig) : Bool :=
  limits.maxNodes ≠ 0 && limits.maxNodes ≤ 4294967295 && limits.maxDepth ≠ 0 &&
    limits.maxDepth ≤ limits.depthBound && limits.maxControlIterations ≠ 0 &&
    limits.maxControlIterations ≤ limits.controlIterationBound

/-- A node that must have one child. -/
def single (action : CString) (children : Nat) : Except Bytes Unit :=
  if children ≠ 1 then fail action "must have exactly one child" else .ok ()

/-- The number of children of a kind; `scalar` says that there is a parameter `condition`. -/
def checkChildren (action : CString) (children : Nat) (scalar : Bool) :
    NodeKind → Except Bytes Unit
  | .leaf =>
      if children ≠ 0 then
        fail action "unsupported control has children; refusing to reinterpret as a leaf"
      else .ok ()
  | .ifThenElse =>
      if children < (if scalar then 1 else 2) ∨ children > (if scalar then 2 else 3) then
        fail action ("IfThenElse requires 1-2 children with a scalar condition or 2-3 " ++
          "with an in-tree condition")
      else .ok ()
  | .whileDo =>
      if children ≠ (if scalar then 1 else 2) then
        fail action ("WhileDo requires one child with a scalar condition or two " ++
          "with an in-tree condition")
      else .ok ()
  | .precondition =>
      if !scalar then fail action "Precondition requires a scalar 'condition' parameter"
      else single action children
  | .inverter | .forceSuccess | .forceFailure | .retry | .repetition | .timeout | .delay
  | .runOnce | .keepRunningUntilFailure | .entryUpdated | .consumeQueue => single action children
  | _ => .ok ()

/-- Whether the condition of a node is asked of the session. -/
def conditionCallback (scalar : Bool) : NodeKind → Bool
  | .ifThenElse => scalar
  | .whileDo => scalar
  | .precondition => true
  | _ => false

/-- What a control without children is replaced by. -/
def emptyTerminal : NodeKind → Option TerminalAction
  | .parallel => some .success
  | .reactiveSequence => some .success
  | .reactiveFallback => some .failure
  | .switch => some .switchFailure
  | _ => none

/-- A node before its control parameter, and whether its descendants are left out. -/
def shapeNode (action : CString) (parameters : List (LeafParameter Number)) (children : Nat)
    (parent : Option Nat) : SessionNode Number × Bool :=
  let scalar := (findParameter parameters "condition").isSome
  let tree : BtNodeDesc :=
    { parentIndex := parent, kind := kindOf action,
      conditionCallback := conditionCallback scalar (kindOf action) }
  match if children = 0 then emptyTerminal (kindOf action) else none with
  | some terminal => (⟨{ tree with kind := .leaf }, action, parameters, terminal⟩, true)
  | none =>
      (⟨{ tree with parallelHooks := kindOf action = .parallel }, action, parameters, .runtime⟩,
        false)

/-- The checks before the control parameter. -/
def checkNode (action : CString) (parameters : List (LeafParameter Number)) (children : Nat) :
    Except Bytes Unit :=
  if action = CString.literal "SubTree" then
    fail action "SubTree must be expanded before plan compilation"
  else do
    checkChildren action children (findParameter parameters "condition").isSome (kindOf action)
    if kindOf action = .switch ∧ (findParameter parameters "variable").isNone then
      fail action "Switch requires parameter 'variable'"
    else if kindOf action = .entryUpdated ∧ (findParameter parameters "watch_key").isNone then
      fail action "EntryUpdated requires parameter 'watch_key'"
    else .ok ()

/-- The numeric parameter of a control, with its default. -/
def controlParameter : NodeKind → Option (String × Int)
  | .retry => some ("num_attempts", 3)
  | .repetition => some ("num_cycles", 0)
  | .whileDo => some ("max_iterations", 100)
  | .keepRunningUntilFailure => some ("max_iterations", 1000)
  | .timeout => some ("timeout_ms", 1000)
  | .delay => some ("delay_ms", 100)
  | _ => none

/-- `is_timed_kind`. -/
def isTimedKind (kind : NodeKind) : Bool := kind = .timeout || kind = .delay

/-- The value of a control parameter at compile time. -/
def controlValue (numbers : SessionNumbers Number) (limits : TreeConfig) (kind : NodeKind)
    (fallback : Int) (parameter : Option (ParameterValue Number)) : Option Int :=
  if substituted parameter then
    if kind = .repetition then some 0
    else if !isTimedKind kind && fallback.toNat > limits.maxControlIterations then
      some limits.maxControlIterations
    else some fallback
  else
    match parameter with
    | none => some fallback
    | some value => praktorC11ParameterInteger numbers value

/-- What a control without iterations is replaced by. -/
def zeroTerminal (kind : NodeKind) : TerminalAction :=
  if kind = .whileDo then .success else .failure

/-- The control parameter of a node. -/
def compileControl (numbers : SessionNumbers Number) (limits : TreeConfig)
    (node : SessionNode Number) (skip : Bool) : Except Bytes (SessionNode Number × Bool) :=
  match controlParameter node.tree.kind with
  | none => .ok (node, skip)
  | some (key, fallback) =>
      let parameter := findParameter node.parameters key
      let dynamic := substituted parameter
      if parameter.isNone ∧ node.tree.kind = .repetition then
        fail node.action "Repeat requires parameter 'num_cycles'"
      else
        match controlValue numbers limits node.tree.kind fallback parameter with
        | none => fail node.action "control parameter must be a 32-bit integer"
        | some value =>
            if value < 0 then fail node.action "control parameter must be non-negative"
            else if isTimedKind node.tree.kind then
              .ok ({ node with tree := { node.tree with
                durationNs := UInt64.ofNat value.toNat * 1000000
                dynamicParameterMask := { durationNs := dynamic } } }, skip)
            else if value.toNat > limits.maxControlIterations then
              fail node.action "control parameter exceeds the configured iteration budget"
            else if value = 0 ∧ !dynamic ∧ node.tree.kind ≠ .repetition then
              .ok ({ node with
                terminal := zeroTerminal node.tree.kind
                tree := { node.tree with kind := .leaf, conditionCallback := false } }, true)
            else
              .ok ({ node with tree := { node.tree with
                limit := value.toNat
                dynamicParameterMask := { limit := dynamic } } }, skip)

/-- `praktor_c11_compile_node`: the node and whether its descendants are left out.  A parameter
without a name, a kind or a text is `none`. -/
def praktorC11CompileNode (numbers : SessionNumbers Number) (limits : TreeConfig)
    (action : CString) (parameters : List (Option (LeafParameter Number))) (children : Nat)
    (parent : Option Nat) : Except Bytes (SessionNode Number × Bool) :=
  if !limitsAdmitted limits || action.length = 0 then
    fail action "invalid compilation input or BehaviorTree limits"
  else if parameters.any Option.isNone then fail action "invalid typed parameter"
  else do
    let parameters := parameters.filterMap id
    checkNode action parameters children
    let (node, skip) := shapeNode action parameters children parent
    compileControl numbers limits node skip

/-! ## The contract of the callbacks -/

/-- Which functions of `praktor_c11_bt_host` are there. -/
structure HostTable where
  tickLeaf : Bool
  condition : Bool
  selectChild : Bool
  resolveDynamicParameters : Bool
  parallelEnter : Bool
  parallelStep : Bool
  parallelJoin : Bool
  parallelFinish : Bool
  parallelAbort : Bool
  pipelinePrepare : Bool
  pipelineComplete : Bool
  entryChanged : Bool
  queueBegin : Bool
  queueFinish : Bool

/-- The table that `praktor_c11_session_init` passes on. -/
def sessionTable : HostTable :=
  ⟨true, true, true, true, true, true, true, true, true, true, true, true, true, true⟩

/-- `is_condition_kind`. -/
def isConditionKind (kind : NodeKind) : Bool :=
  kind = .ifThenElse || kind = .precondition || kind = .whileDo

/-- `has_limit`. -/
def hasLimit (kind : NodeKind) : Bool :=
  kind = .retry || kind = .repetition || kind = .keepRunningUntilFailure || kind = .whileDo

/-- `callback_contract_valid`. -/
def callbackContractValid (desc : BtNodeDesc) (host : HostTable) : Bool :=
  if desc.conditionCallback ∧ (!isConditionKind desc.kind ∨ !host.condition) then false
  else if desc.parallelHooks ∧ (desc.kind ≠ .parallel ∨ !host.parallelEnter ∨ !host.parallelStep ∨
      !host.parallelJoin ∨ !host.parallelFinish ∨ !host.parallelAbort) then false
  else if desc.kind = .leaf ∧ !host.tickLeaf then false
  else if desc.kind = .switch ∧ !host.selectChild then false
  else if desc.kind = .pipelineSequence ∧ (!host.pipelinePrepare ∨ !host.pipelineComplete) then
    false
  else if desc.kind = .entryUpdated ∧ !host.entryChanged then false
  else if desc.kind = .consumeQueue ∧ (!host.queueBegin ∨ !host.queueFinish) then false
  else if !hasLimit desc.kind ∧ desc.limit ≠ 0 then false
  else if !isTimedKind desc.kind ∧ desc.durationNs ≠ 0 then false
  else if desc.dynamicParameterMask = ⟨true, true⟩ then false
  else if desc.dynamicParameterMask ≠ ⟨false, false⟩ ∧ !host.resolveDynamicParameters then false
  else if desc.dynamicParameterMask.limit ∧ !hasLimit desc.kind then false
  else if desc.dynamicParameterMask.durationNs ∧ !isTimedKind desc.kind then false
  else if desc.parallelHooks ∧ desc.kind ≠ .parallel then false
  else if desc.conditionCallback ∧ !isConditionKind desc.kind then false
  else if desc.kind ≠ .whileDo ∧ desc.kind ≠ .ifThenElse ∧ desc.kind ≠ .precondition ∧
      desc.conditionCallback then false
  else true

end Praktor.Session
