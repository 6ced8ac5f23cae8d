/-
# The controls of a session

Some controls of a session work on the value store.  A pipeline hands the output of every child to
the next, an entry is watched for changes, a queue is taken item by item, and a condition and a
switch read a value.  What a control remembers stands in the flags of its node and in the pool of
cached texts.

The controls are those of a host that brings none of its own.  A callback of the host in place of
one of them restores the input of the pipeline and changes the store, and both are calls here.
-/

import Praktor.Data.Json
import Praktor.Runtime.Execution
import Praktor.Session.CacheRun
import Praktor.Session.Values

namespace Praktor.Session

open Praktor.Data Praktor.Math
open Praktor.Runtime (NodeStatus)

/-- What the controls learn of numbers from the C library. -/
structure ControlNumbers (Number : Type) extends SessionNumbers Number where
  /-- `fpclassify` is `FP_ZERO`. -/
  isZero : Number → Bool

/-- `json_parse` and `json_serialize`. -/
structure QueueLibrary where
  parse : Bytes → Option Json
  serialize : Json → Bytes

/-- A session whose nodes come after their parents, as `praktor_c11_bt_tree_init` admits them. -/
structure PlannedSession (Number : Type) (count : Nat) extends SessionImpl Number count where
  parent : Fin count → Option (Fin count)
  parent_eq : ∀ node, (nodes node).tree.parentIndex = (parent node).map Fin.val
  parent_lt : ∀ {node above}, parent node = some above → above < node

variable {Store Number : Type} {count : Nat}

namespace PlannedSession

variable (session : PlannedSession Number count)

/-- The children of a node, in their order. -/
def children (node : Fin count) : List (Fin count) :=
  (List.finRange count).filter fun other => session.parent other = some node

/-- The ancestors of a node, each with the node below it on the way. -/
def ancestry (node : Fin count) : List (Fin count × Fin count) :=
  match habove : session.parent node with
  | none => []
  | some above =>
      have : above < node := session.parent_lt habove
      (node, above) :: ancestry above
termination_by node.val

/-- The nodes below a parallel node with hooks. -/
def branch (node : Fin count) : Bool :=
  (session.ancestry node).any fun step =>
    (session.nodes step.2).tree.kind = .parallel && (session.nodes step.2).tree.parallelHooks

end PlannedSession

/-! ## State -/

/-- The state of a node changes. -/
def changeNode (node : Fin count) (change : NodeState → NodeState) : SessionM Store count PUnit :=
  modify fun s => { s with state := Function.update s.state node (change (s.state node)) }

/-- The state of a node. -/
def nodeState (node : Fin count) : SessionM Store count NodeState := do return (← get).state node

/-- `session_uncache` in a session. -/
def uncacheText (place : SlotPlace count) : SessionM Store count PUnit :=
  modify fun s => { s with pool := s.pool.sessionUncache place }

/-- A request for memory: whether it is met. -/
def takeMemory : SessionM Store count Bool := do
  let s ← get
  modify fun s => { s with fresh := s.fresh.tail }
  return (s.fresh.headD (some fun _ => 0)).isSome

section Values

variable (session : SessionImpl Number count)

/-- `session_cache` in a session. -/
def cacheText (place : SlotPlace count) (value : SessionText) : SessionM Store count PUnit := do
  let text ← textOf value
  let s ← get
  let outcome := s.pool.sessionCache session.config.maxStateBytes place text
    (s.fresh.headD (some fun _ => 0))
  modify fun s => { s with pool := outcome.2, fresh := s.fresh.tail }
  if outcome.1 = .ok then return ⟨⟩ else throw outcome.1

variable (hooks : ValueHooks Store)

/-- The input of the next child is written. -/
def setInput (text : Bytes) : SessionM Store count PUnit :=
  sessionSet hooks session (.bytes (ascii "pipeline_input")) (.bytes text)

/-- The value of a key that is there, or an empty text. -/
def getOrEmpty (key : SessionText) (scratch : Fin 4) : SessionM Store count SessionText := do
  if ← sessionHas hooks key then sessionGet hooks session key scratch else return .bytes []

end Values

/-! ## Pipelines -/

section Pipelines

variable (numbers : SessionNumbers Number) (hooks : ValueHooks Store)
  (session : PlannedSession Number count)

/-- The loop of `session_restore_pipeline` over the ancestors of a node. -/
def restoreAlong : List (Fin count × Fin count) → SessionM Store count PUnit
  | [] => return ⟨⟩
  | (descendant, parent) :: rest => do
      let s ← get
      let st := s.state parent
      if st.pipeline ∧ st.restoreTick ≠ s.generation ∧
          (session.children parent)[st.activeChild]? = some descendant then
        setInput session.toSessionImpl hooks (s.pool.sessionCached (parent, .pipeData))
        changeNode parent fun st => { st with restoreTick := s.generation }
      else restoreAlong rest

/-- `session_restore_pipeline`. -/
def sessionRestorePipeline (node : Fin count) : SessionM Store count PUnit :=
  restoreAlong hooks session (session.ancestry node)

/-- `restore`. -/
def restore (node : Fin count) : SessionM Store count PUnit := do
  if (← nodeState node).branch then return ⟨⟩ else sessionRestorePipeline hooks session node

/-- `clear_pipeline`. -/
def clearPipeline (node : Fin count) : SessionM Store count PUnit := do
  changeNode node fun st => { st with pipeline := false, restoreTick := 0 }
  uncacheText (node, .pipeData)
  uncacheText (node, .pipeKey)

/-- What `session_pipeline_prepare` takes over when a pipeline begins. -/
def capturePipeline (node : Fin count) : SessionM Store count PUnit := do
  let outputKey ← sessionKey numbers hooks session.toSessionImpl node "output_key"
    (some "pipeline_result") 0
  cacheText session.toSessionImpl (node, .pipeKey) outputKey
  let inputKey ← sessionKey numbers hooks session.toSessionImpl node "input_key"
    (some "pipeline_input") 0
  let data ← getOrEmpty session.toSessionImpl hooks inputKey 1
  cacheText session.toSessionImpl (node, .pipeData) data

/-- What fails is followed by `clear_pipeline`. -/
def orClear (node : Fin count) (program : SessionM Store count PUnit) : SessionM Store count PUnit :=
  tryCatch program fun code => do
    clearPipeline node
    throw code

/-- A pipeline that does not run begins. -/
def beginPipeline (node : Fin count) : SessionM Store count PUnit := do
  orClear node (capturePipeline numbers hooks session node)
  changeNode node fun st => { st with pipeline := true }

/-- `session_pipeline_prepare`. -/
def sessionPipelinePrepare (node : Fin count) (child : Nat) : SessionM Store count PUnit := do
  restore hooks session node
  let st ← nodeState node
  if st.branch then throw .enotsup
  else if child ≥ st.childCount then throw .einval
  else
    if !st.pipeline then beginPipeline numbers hooks session node
    changeNode node fun st => { st with activeChild := child }
    setInput session.toSessionImpl hooks ((← get).pool.sessionCached (node, .pipeData))

/-- The output of a child is taken over, when there is one. -/
def takeOutput (node : Fin count) : SessionM Store count PUnit := do
  if ← sessionHas hooks (.bytes (ascii "pipeline_output")) then
    let data ← sessionGet hooks session.toSessionImpl (.bytes (ascii "pipeline_output")) 0
    cacheText session.toSessionImpl (node, .pipeData) data
  else return ⟨⟩

/-- `session_pipeline_complete`; `succeeded` says that the child did. -/
def sessionPipelineComplete (node : Fin count) (child : Nat) (succeeded : Bool) :
    SessionM Store count PUnit := do
  let st ← nodeState node
  if st.branch then throw .enotsup
  else if !st.pipeline || child ≥ st.childCount then throw .einval
  else if succeeded then
    takeOutput hooks session node
    if child + 1 = st.childCount then
      let pool := (← get).pool
      orClear node (sessionSet hooks session.toSessionImpl
        (.bytes (pool.sessionCached (node, .pipeKey)))
        (.bytes (pool.sessionCached (node, .pipeData))))
      clearPipeline node
    else return ⟨⟩
  else clearPipeline node

/-- `session_pipeline_abort`. -/
def sessionPipelineAbort (node : Fin count) : SessionM Store count PUnit := clearPipeline node

end Pipelines

/-! ## Entries and queues -/

section Entries

variable (numbers : SessionNumbers Number) (hooks : ValueHooks Store)
  (session : PlannedSession Number count)

/-- `session_entry_changed`. -/
def sessionEntryChanged (node : Fin count) : SessionM Store count Bool := do
  restore hooks session node
  if (← nodeState node).branch then throw .enotsup
  else
    let key ← sessionKey numbers hooks session.toSessionImpl node "watch_key" none 0
    if key.size = 0 then throw .einval
    else
      let current ← getOrEmpty session.toSessionImpl hooks key 1
      let s ← get
      let changed := !(s.state node).observed ||
        current.read s ≠ s.pool.sessionCached (node, .entryValue)
      cacheText session.toSessionImpl (node, .entryValue) current
      changeNode node fun st => { st with observed := true }
      return changed

variable (library : QueueLibrary)

/-- `json_serialize`. -/
def jsonSerialize (value : Json) : SessionM Store count Bytes := do
  if ← takeMemory then return library.serialize value else throw .enomem

/-- The items behind the first of a queue are cloned and added to an array one by one. -/
def cloneItems : List Json → SessionM Store count (List Json)
  | [] => return []
  | item :: rest => do
      if !(← takeMemory) then throw .enomem
      else if !(← takeMemory) then throw .enomem
      else return item :: (← cloneItems rest)

/-- An item is taken from the queue under a key. -/
def takeItem (node : Fin count) (key : SessionText) (item : Json) (rest : List Json) :
    SessionM Store count PUnit := do
  let first ← jsonSerialize library item
  if !(← takeMemory) then throw .enomem
  else
    let tail ← cloneItems rest
    let remaining ← jsonSerialize library (.array tail)
    let itemKey ← sessionKey numbers hooks session.toSessionImpl node "item_key"
      (some "current_item") 2
    sessionSet hooks session.toSessionImpl key (.bytes remaining)
    sessionSet hooks session.toSessionImpl itemKey (.bytes first)
    changeNode node fun st => { st with queueActive := true, queueMore := !rest.isEmpty }

/-- `session_queue_begin`. -/
def sessionQueueBegin (node : Fin count) : SessionM Store count Bool := do
  restore hooks session node
  if (← nodeState node).branch then throw .enotsup
  else
    changeNode node fun st => { st with queueActive := false, queueMore := false }
    let key ← sessionKey numbers hooks session.toSessionImpl node "queue_key" (some "task_queue") 0
    if !(← sessionHas hooks key) then return false
    else
      let input ← sessionGet hooks session.toSessionImpl key 1
      match library.parse (← textOf input) with
      | some (.array (item :: rest)) =>
          takeItem numbers hooks session library node key item rest
          return true
      | _ => return false

/-- `session_queue_finish`. -/
def sessionQueueFinish (node : Fin count) : SessionM Store count Bool := do
  let st ← nodeState node
  if st.branch then throw .enotsup
  else if !st.queueActive then throw .einval
  else
    changeNode node fun st => { st with queueActive := false, queueMore := false }
    return st.queueMore

/-- `session_queue_abort`. -/
def sessionQueueAbort (node : Fin count) : SessionM Store count PUnit :=
  changeNode node fun st => { st with queueActive := false, queueMore := false }

end Entries

/-! ## Conditions and switches -/

section Conditions

variable (numbers : ControlNumbers Number) (hooks : ValueHooks Store)
  (session : PlannedSession Number count)

/-- `equals_fold`. -/
def equalsFold (text : Bytes) (literal : String) : Bool := text.map lower = ascii literal

/-- The texts that are false. -/
def falseTexts : List String := ["0", "false", "no", "off", "null"]

/-- A text as a condition. -/
def textTruth (text : Bytes) : Bool :=
  text ≠ [] && falseTexts.all fun literal => !equalsFold text literal

/-- `session_condition`. -/
def sessionCondition (node : Fin count) : SessionM Store count NodeStatus := do
  if (← nodeState node).branch then throw .enotsup
  else
    restore hooks session node
    let truth ←
      match sessionParameter session.toSessionImpl node "condition" with
      | none => throw .einval
      | some (.boolean value) => pure value
      | some (.number value) => pure !numbers.isZero value
      | some (.string _) => do
          let text ← sessionResolve numbers.toSessionNumbers hooks session.toSessionImpl node
            "condition" none 0
          pure (textTruth (← textOf text))
    return if truth then .success else .failure

/-- The text of a switch: a text that names a value stands for it. -/
def switchText (node : Fin count) (own : Bytes) : SessionM Store count SessionText := do
  let value ← sessionResolve numbers.toSessionNumbers hooks session.toSessionImpl node
    "variable" none 0
  let text ← textOf value
  if text ≠ own then return value
  else if 0 ∈ text then throw .einval
  else if ← sessionHas hooks value then sessionGet hooks session.toSessionImpl value 1
  else return value

/-- `session_switch`. -/
def sessionSwitch (node : Fin count) : SessionM Store count Nat := do
  let parsed ←
    match sessionParameter session.toSessionImpl node "variable" with
    | none => throw .einval
    | some (.boolean _) => throw .einval
    | some (.number _) =>
        sessionInteger numbers.toSessionNumbers hooks session.toSessionImpl node "variable" 0
    | some (.string own) => do
        let value ← switchText numbers hooks session node own
        match praktorC11ParseInteger numbers.toSessionNumbers (← textOf value) with
        | none => throw .einval
        | some parsed => pure parsed
  let st ← nodeState node
  return if parsed < 0 then st.childCount else parsed.toNat

/-- `session_select`. -/
def sessionSelect (node : Fin count) : SessionM Store count Nat := do
  if (← nodeState node).branch then throw .enotsup
  else
    restore hooks session node
    sessionSwitch numbers hooks session node

end Conditions

/-! ## Sessions -/

/-- The next generation: `++generation`, without 0. -/
def nextGeneration (generation : Nat) : Nat :=
  if (generation + 1) % (uint64Max + 1) = 0 then 1 else (generation + 1) % (uint64Max + 1)

/-- The part of `clear_execution` that is about the controls of a node. -/
def clearNode (node : Fin count) : SessionM Store count PUnit := do
  changeNode node fun st =>
    { st with
      pipeline := false, observed := false, queueActive := false, queueMore := false
      restoreTick := 0 }
  uncacheText (node, .pipeData)
  uncacheText (node, .pipeKey)
  uncacheText (node, .entryValue)

/-- The loop of `clear_execution`. -/
def clearNodes : List (Fin count) → SessionM Store count PUnit
  | [] => return ⟨⟩
  | node :: rest => do
      clearNode node
      clearNodes rest

/-- The texts that a control caches. -/
def SlotKind.ofControl : SlotKind → Bool
  | .pipeData => true
  | .pipeKey => true
  | .entryValue => true
  | _ => false

/-- The calls that reach a session while it runs.  `restore` is the call of
`session_restore_pipeline` for a leaf and for the hooks of a parallel node; a process of a leaf
caches texts of its own, and the store is changed by leaves and by callbacks of the host. -/
inductive ControlCall (Store : Type) (count : Nat)
  | tick
  | restore (node : Fin count)
  | condition (node : Fin count)
  | select (node : Fin count)
  | prepare (node : Fin count) (child : Nat)
  | complete (node : Fin count) (child : Nat) (succeeded : Bool)
  | abort (node : Fin count)
  | entryChanged (node : Fin count)
  | queueBegin (node : Fin count)
  | queueFinish (node : Fin count)
  | queueAbort (node : Fin count)
  | clear
  | process (request : CacheRequest count) (own : request.place.2.ofControl = false)
  | change (store : Store)

/-- What a call returns. -/
inductive ControlReply
  | done
  | status (value : NodeStatus)
  | child (index : Nat)
  | flag (value : Bool)
  deriving DecidableEq, Repr

section Serving

variable (numbers : ControlNumbers Number) (hooks : ValueHooks Store)
  (session : PlannedSession Number count) (library : QueueLibrary)

/-- A call. -/
def control : ControlCall Store count → SessionM Store count ControlReply
  | .tick => do
      modify fun s => { s with generation := nextGeneration s.generation }
      return .done
  | .restore node => do
      sessionRestorePipeline hooks session node
      return .done
  | .condition node => do return .status (← sessionCondition numbers hooks session node)
  | .select node => do return .child (← sessionSelect numbers hooks session node)
  | .prepare node child => do
      sessionPipelinePrepare numbers.toSessionNumbers hooks session node child
      return .done
  | .complete node child succeeded => do
      sessionPipelineComplete hooks session node child succeeded
      return .done
  | .abort node => do
      sessionPipelineAbort node
      return .done
  | .entryChanged node => do
      return .flag (← sessionEntryChanged numbers.toSessionNumbers hooks session node)
  | .queueBegin node => do
      return .flag (← sessionQueueBegin numbers.toSessionNumbers hooks session library node)
  | .queueFinish node => do return .flag (← sessionQueueFinish node)
  | .queueAbort node => do
      sessionQueueAbort node
      return .done
  | .clear => do
      clearNodes (List.finRange count)
      return .done
  | .process request _ => do
      modify fun s =>
        { s with pool := (cacheStep session.config.maxStateBytes s.pool request).1 }
      return .done
  | .change store => do
      modify fun s => { s with store }
      return .done

/-- A call with the outcomes of the requests for memory in it. -/
def serveControl (s : SessionState Store count) (call : List Fresh × ControlCall Store count) :
    SessionState Store count × Except Salts ControlReply :=
  let outcome := Stateful.on (control numbers hooks session library call.2) { s with fresh := call.1 }
  (outcome.2, outcome.1)

/-- A session that has just been initialized. -/
def startControls (store : Store) : SessionState Store count where
  store := store
  scratch := fun _ => []
  fresh := []
  pool := .empty count
  state := fun node =>
    { branch := session.branch node, childCount := (session.children node).length }
  generation := 0
  queries := []

end Serving

end Praktor.Session
