/-
# What the controls of a session are for

The controls over a plain store of values.  A pipeline that runs is its result key, the text that
the next child is given, and the child that runs; an entry is the text that was seen last; a queue
is whether an item is out, and whether more are left.  A call that is accepted does what `perform`
says, and one that fails leaves what `Refuses` says.
-/

import Mathlib.Logic.Function.Basic
import Praktor.Session.Controls

namespace Praktor.Session

open Praktor.Data Praktor.Math
open Praktor.Runtime (NodeStatus)

variable {Store Number : Type} {count : Nat}

/-- A pipeline that runs.  Its input was restored last in the generation `restored`. -/
structure Flow where
  key : CString
  data : Bytes
  child : Nat
  restored : Nat

/-- The store and what the controls remember. -/
@[ext]
structure Controls (count : Nat) where
  values : CString → Option Bytes
  generation : Nat
  flow : Fin count → Option Flow
  entry : Fin count → Option Bytes
  queue : Fin count → Option Bool

/-- `pipeline_input`. -/
def inputKey : CString := CString.ofBuffer (ascii "pipeline_input")

/-- `pipeline_output`. -/
def outputKey : CString := CString.ofBuffer (ascii "pipeline_output")

namespace Controls

variable (c : Controls count)

/-- A text is stored. -/
def put (key : CString) (text : Bytes) : Controls count :=
  { c with values := Function.update c.values key (some text) }

@[simp]
theorem put_values (key : CString) (text : Bytes) : (c.put key text).values key = some text :=
  Function.update_self _ _ _

/-- The pipeline of a node changes. -/
def setFlow (node : Fin count) (flow : Option Flow) : Controls count :=
  { c with flow := Function.update c.flow node flow }

/-- The entry of a node changes. -/
def setEntry (node : Fin count) (entry : Option Bytes) : Controls count :=
  { c with entry := Function.update c.entry node entry }

@[simp]
theorem setFlow_flow (node : Fin count) (flow : Option Flow) : (c.setFlow node flow).flow node = flow :=
  Function.update_self _ _ _

@[simp]
theorem setFlow_setFlow (node : Fin count) (first second : Option Flow) :
    (c.setFlow node first).setFlow node second = c.setFlow node second := by
  unfold setFlow
  rw [Function.update_idem]

theorem setFlow_put (node : Fin count) (flow : Option Flow) (key : CString) (text : Bytes) :
    (c.setFlow node flow).put key text = (c.put key text).setFlow node flow := rfl

theorem setFlow_eq_self {node : Fin count} {flow : Option Flow} (hflow : c.flow node = flow) :
    c.setFlow node flow = c := by
  unfold setFlow
  rw [← hflow, Function.update_eq_self]

/-- The queue of a node changes. -/
def setQueue (node : Fin count) (queue : Option Bool) : Controls count :=
  { c with queue := Function.update c.queue node queue }

end Controls

/-! ## Texts of parameters -/

section Texts

variable (numbers : SessionNumbers Number) (session : SessionImpl Number count)
  (values : CString → Option Bytes)

/-- The text of a parameter: that of the plan, or the value whose key it has in braces. -/
def resolvedText (node : Fin count) (name : String) (fallback : Option String) : Option Bytes :=
  match sessionParameter session node name with
  | none => fallback.map ascii
  | some (.boolean value) => some (ascii (if value then "true" else "false"))
  | some (.number value) => if numbers.isfinite value then some (numbers.format value) else none
  | some (.string text) =>
      if 3 ≤ text.length ∧ text.head? = some 123 ∧ text.getLast? = some 125 then
        (CString.ofBytes ((text.drop 1).take (text.length - 2))).bind values
      else some text

/-- The key that a parameter names. -/
def namedKey (node : Fin count) (name : String) (fallback : Option String) : Option CString :=
  (resolvedText numbers session values node name fallback).bind CString.ofBytes

/-- The value of a key, which is empty when there is none. -/
def valueAt (key : CString) : Bytes := (values key).getD []

end Texts

/-! ## Pipelines -/

namespace Controls

variable (session : PlannedSession Number count) (c : Controls count)

/-- The nearest pipeline whose child that runs is on the way, and whose input was not restored in
this generation. -/
def dueAlong : List (Fin count × Fin count) → Option (Fin count × Flow)
  | [] => none
  | (descendant, parent) :: rest =>
      match c.flow parent with
      | none => dueAlong rest
      | some flow =>
          if flow.restored ≠ c.generation ∧
              (session.children parent)[flow.child]? = some descendant then some (parent, flow)
          else dueAlong rest

/-- The input of a pipeline is restored. -/
def renew (parent : Fin count) (flow : Flow) : Controls count :=
  (c.put inputKey flow.data).setFlow parent (some { flow with restored := c.generation })

/-- The input of the pipeline that is due on the way is restored. -/
def restoredAlong (path : List (Fin count × Fin count)) : Controls count :=
  match c.dueAlong session path with
  | none => c
  | some (parent, flow) => c.renew parent flow

/-- The input of the pipeline that is due for a node is restored. -/
def restored (node : Fin count) : Controls count := c.restoredAlong session (session.ancestry node)

section Along

variable {session c} {descendant parent : Fin count} {flow : Flow}
  (rest : List (Fin count × Fin count))

theorem restoredAlong_idle (hflow : c.flow parent = none) :
    c.restoredAlong session ((descendant, parent) :: rest) = c.restoredAlong session rest := by
  unfold restoredAlong
  rw [dueAlong, hflow]

theorem restoredAlong_due (hflow : c.flow parent = some flow)
    (hdue : flow.restored ≠ c.generation ∧ (session.children parent)[flow.child]? = some descendant) :
    c.restoredAlong session ((descendant, parent) :: rest) = c.renew parent flow := by
  unfold restoredAlong
  rw [dueAlong, hflow]
  dsimp only
  rw [if_pos hdue]

theorem restoredAlong_later (hflow : c.flow parent = some flow)
    (hlater : ¬(flow.restored ≠ c.generation ∧
      (session.children parent)[flow.child]? = some descendant)) :
    c.restoredAlong session ((descendant, parent) :: rest) = c.restoredAlong session rest := by
  unfold restoredAlong
  rw [dueAlong, hflow]
  dsimp only
  rw [if_neg hlater]

end Along

variable (numbers : SessionNumbers Number)

/-- The pipeline of a node that begins now. -/
def captured (node : Fin count) : Option Flow := do
  let key ← namedKey numbers session.toSessionImpl c.values node "output_key"
    (some "pipeline_result")
  let input ← namedKey numbers session.toSessionImpl c.values node "input_key"
    (some "pipeline_input")
  return ⟨key, valueAt c.values input, 0, 0⟩

/-- The pipeline of a node, which begins unless it runs. -/
def flowAt (node : Fin count) : Option Flow := (c.flow node).or (c.captured session numbers node)

/-- The text that a child of a pipeline leaves for the next. -/
def handedOn (flow : Flow) : Bytes := (c.values outputKey).getD flow.data

end Controls

/-! ## Calls -/

section Calls

variable (numbers : ControlNumbers Number) (session : PlannedSession Number count)
  (library : QueueLibrary) (view : Store → CString → Option Bytes) (c : Controls count)

/-- Whether a condition holds. -/
def conditionTruth (node : Fin count) : Option Bool :=
  match sessionParameter session.toSessionImpl node "condition" with
  | none => none
  | some (.boolean value) => some value
  | some (.number value) => some !numbers.isZero value
  | some (.string _) =>
      (resolvedText numbers.toSessionNumbers session.toSessionImpl c.values node "condition"
        none).map textTruth

/-- The text of a switch: a text that names a value stands for it. -/
def switchedText (node : Fin count) (own : Bytes) : Option Bytes := do
  let text ← resolvedText numbers.toSessionNumbers session.toSessionImpl c.values node "variable"
    none
  if text = own then
    let key ← CString.ofBytes own
    return (c.values key).getD own
  else return text

/-- What a switch selects by. -/
def switchValue (node : Fin count) : Option Int :=
  match sessionParameter session.toSessionImpl node "variable" with
  | none => none
  | some (.boolean _) => none
  | some (.number value) => numbers.toInt value
  | some (.string own) =>
      (switchedText numbers session c node own).bind
        (praktorC11ParseInteger numbers.toSessionNumbers)

/-- The items of the queue under a key, when there are some. -/
def queuedItems (key : CString) : Option (Json × List Json) :=
  match (c.values key).bind library.parse with
  | some (.array (item :: rest)) => some (item, rest)
  | _ => none

/-- The queue under a key without its first item. -/
def Controls.dequeued (key : CString) (rest : List Json) : Controls count :=
  c.put key (library.serialize (.array rest))

/-- An item is out of the queue that a node names. -/
def Controls.takes (node : Fin count) (key : CString) : Option (ControlReply × Controls count) :=
  match queuedItems library c key with
  | none => some (.flag false, c)
  | some (item, rest) => do
      let itemKey ← namedKey numbers.toSessionNumbers session.toSessionImpl c.values node "item_key"
        (some "current_item")
      return (.flag true, ((c.dequeued library key rest).put itemKey
        (library.serialize item)).setQueue node (some !rest.isEmpty))

section Takes

variable {numbers session library c} {node : Fin count} {key : CString}

theorem Controls.takes_none (hitems : queuedItems library c key = none) :
    c.takes numbers session library node key = some (.flag false, c) := by
  unfold takes
  rw [hitems]

theorem Controls.takes_some {item : Json} {rest : List Json} {itemKey : CString}
    (hitems : queuedItems library c key = some (item, rest))
    (hitemKey : namedKey numbers.toSessionNumbers session.toSessionImpl c.values node "item_key"
      (some "current_item") = some itemKey) :
    c.takes numbers session library node key = some (.flag true,
      ((c.dequeued library key rest).put itemKey (library.serialize item)).setQueue node
        (some !rest.isEmpty)) := by
  unfold takes
  rw [hitems]
  dsimp only
  rw [hitemKey]
  rfl

end Takes

/-- What a call that is accepted does, and what it returns. -/
def perform : ControlCall Store count → Option (ControlReply × Controls count)
  | .tick => some (.done, { c with generation := nextGeneration c.generation })
  | .restore node => some (.done, c.restored session node)
  | .condition node =>
      let c := c.restored session node
      (conditionTruth numbers session c node).map fun truth =>
        (.status (if truth then .success else .failure), c)
  | .select node =>
      let c := c.restored session node
      (switchValue numbers session c node).map fun parsed =>
        (.child (if parsed < 0 then (session.children node).length else parsed.toNat), c)
  | .prepare node child =>
      let c := c.restored session node
      if (session.children node).length ≤ child then none
      else
        (c.flowAt session numbers.toSessionNumbers node).map fun flow =>
          (.done, (c.setFlow node (some { flow with child })).put inputKey flow.data)
  | .complete node child succeeded => do
      let flow ← c.flow node
      if (session.children node).length ≤ child then none
      else if !succeeded then return (.done, c.setFlow node none)
      else if child + 1 = (session.children node).length then
        return (.done, (c.put flow.key (c.handedOn flow)).setFlow node none)
      else return (.done, c.setFlow node (some { flow with data := c.handedOn flow }))
  | .abort node => some (.done, c.setFlow node none)
  | .entryChanged node => do
      let c := c.restored session node
      let key ← namedKey numbers.toSessionNumbers session.toSessionImpl c.values node "watch_key"
        none
      if key.bytes = [] then none
      else
        return (.flag (c.entry node ≠ some (valueAt c.values key)),
          c.setEntry node (some (valueAt c.values key)))
  | .queueBegin node => do
      let c := (c.restored session node).setQueue node none
      let key ← namedKey numbers.toSessionNumbers session.toSessionImpl c.values node "queue_key"
        (some "task_queue")
      c.takes numbers session library node key
  | .queueFinish node => do
      let more ← c.queue node
      return (.flag more, c.setQueue node none)
  | .queueAbort node => some (.done, c.setQueue node none)
  | .clear =>
      some (.done, { c with flow := fun _ => none, entry := fun _ => none, queue := fun _ => none })
  | .process _ _ => some (.done, c)
  | .change store => some (.done, { c with values := view store })

/-- The node whose pipeline a call restores first. -/
def ControlCall.renews : ControlCall Store count → Option (Fin count)
  | .restore node => some node
  | .condition node => some node
  | .select node => some node
  | .prepare node _ => some node
  | .entryChanged node => some node
  | .queueBegin node => some node
  | _ => none

/-- What a call that fails may leave.  The input of a pipeline may have been restored, a pipeline
may have begun whose input was not written, a result that is not written is given up with its
pipeline, and an item may be out of its queue and nowhere else. -/
inductive Refuses : ControlCall Store count → Controls count → Prop
  | nothing (call : ControlCall Store count) : Refuses call c
  | renewed {call : ControlCall Store count} {node : Fin count} (hcall : call.renews = some node) :
      Refuses call (c.restored session node)
  | prepared {node : Fin count} {child : Nat} {flow : Flow}
      (hflow : (c.restored session node).flowAt session numbers.toSessionNumbers node = some flow) :
      Refuses (.prepare node child)
        ((c.restored session node).setFlow node (some { flow with child }))
  | completed {node : Fin count} {child : Nat}
      (hlast : child + 1 = (session.children node).length) :
      Refuses (.complete node child true) (c.setFlow node none)
  | begun (node : Fin count) :
      Refuses (.queueBegin node) ((c.restored session node).setQueue node none)
  | dequeued {node : Fin count} {key : CString} {item : Json} {rest : List Json}
      (hkey : namedKey numbers.toSessionNumbers session.toSessionImpl
        (c.restored session node).values node "queue_key" (some "task_queue") = some key)
      (hitems : queuedItems library (c.restored session node) key = some (item, rest)) :
      Refuses (.queueBegin node)
        (((c.restored session node).setQueue node none).dequeued library key rest)

end Calls

end Praktor.Session
