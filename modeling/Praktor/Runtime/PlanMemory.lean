/-
# The memory of a plan in the making

`create_plan` frees what it has built through one destructor, also when it stops halfway.
A node is published with its number of parameters before the arrays for them exist, so the
destructor may meet a node whose array is missing, and reads through it.

The requests of `create_plan` are followed here with the pointers that the plan holds.
Whatever request fails first, the call is refused and every block is released once, unless
it was the request for the parameters of a node.
-/

import Mathlib.Data.List.ModifyLast
import Praktor.Math.Allocation
import Praktor.Runtime.Plan

namespace Praktor.Runtime

open Praktor.Data Praktor.Math Praktor.Workflow

/-- What a block of `create_plan` is for. -/
inductive PlanBlock
  | plan
  | nodes
  | stack
  | ports
  | sizes
  | text
  deriving DecidableEq, Repr

/-- The pointers of a `praktor_c11_session_node`: the array of parameters, with the text of
each, and the array of their sizes. -/
structure PortSlot where
  parameterCount : Nat
  parameters : Option (Nat × List (Option Nat))
  textSizes : Option Nat

/-- The pointers of `create_plan`, with the nodes below `plan->count`. -/
structure PlanFrame where
  plan : Option Nat
  nodes : Option Nat
  stack : Option Nat
  slots : List PortSlot

namespace PlanFrame

/-- Before anything is allocated. -/
def blank : PlanFrame := ⟨none, none, none, []⟩

/-- The next node, without arrays. -/
def reserve (frame : PlanFrame) (count : Nat) : PlanFrame :=
  { frame with slots := frame.slots ++ [⟨count, none, none⟩] }

/-- Change the last node. -/
def modifyLast (frame : PlanFrame) (change : PortSlot → PortSlot) : PlanFrame :=
  { frame with slots := frame.slots.modifyLast change }

/-- The arrays of the last node; `calloc` leaves the texts of new parameters empty. -/
def setArrays (frame : PlanFrame) (ports sizes : Option Nat) : PlanFrame :=
  frame.modifyLast fun slot =>
    { slot with
      parameters := ports.map fun block => (block, List.replicate slot.parameterCount none)
      textSizes := sizes }

/-- A text of the last node. -/
def setText (frame : PlanFrame) (index block : Nat) : PlanFrame :=
  frame.modifyLast fun slot =>
    { slot with parameters := slot.parameters.map fun ports =>
        (ports.1, ports.2.set index (some block)) }

end PlanFrame

/-- A result of `create_plan` or of a part of it, with the pointers at that point. -/
abbrev PlanResult (α : Type) := Except Refusal α × PlanFrame

/-! ## The requests of `create_plan` -/

/-- The texts of the parameters of the last node, from parameter `index` on. -/
def copyTexts : List OrchParam → Nat → Nat → PlanFrame →
    Allocating PlanBlock (PlanResult (List (CString × CString) × Nat))
  | [], _, retained, frame => .done (.ok ([], retained), frame)
  | param :: rest, index, retained, frame =>
      if hzero : 0 ∈ param.value then
        .done (.error ⟨.enotsup, ascii "Binary Orch parameter cannot enter native C11 leaf"⟩, frame)
      else if containsMustache param.value then
        .done (.error ⟨.enotsup,
          ascii "Orch Mustache expansion not qualified for native C11 Session"⟩, frame)
      else if retained ≥ maxOrchBytes || param.value.length ≥ maxOrchBytes - retained then
        .done (.error ⟨.einval, ascii "Orch Session Plan text budget exceeded"⟩, frame)
      else do
        match ← Allocating.ask .text with
        | none => .done (.error ⟨.enomem, ascii "Cannot copy Orch parameter text"⟩, frame)
        | some block =>
            match ← copyTexts rest (index + 1) (retained + (param.value.length + 1))
                (frame.setText index block) with
            | (.error refusal, frame) => .done (.error refusal, frame)
            | (.ok (copies, retained), frame) =>
                .done (.ok ((param.key, ⟨param.value, hzero⟩) :: copies, retained), frame)

/-- The slot of a node, its arrays and its texts. -/
def copyPorts (node : OrchNode) (retained : Nat) (frame : PlanFrame) :
    Allocating PlanBlock (PlanResult (List (CString × CString) × Nat)) :=
  if node.params.length = 0 then .done (.ok ([], retained), frame.reserve node.params.length)
  else do
    let ports ← Allocating.ask .ports
    let sizes ← Allocating.ask .sizes
    let frame := (frame.reserve node.params.length).setArrays ports sizes
    if ports.isNone || sizes.isNone then
      .done (.error ⟨.enomem, ascii "Cannot allocate C11 typed ports"⟩, frame)
    else copyTexts node.params 0 retained frame

/-- One round of the traversal. -/
def visitNode (tree : OrchTree) (config : TreeConfig) (profile : PlanProfile) (visit : OrchVisit)
    (cursor : PlanCursor) (frame : PlanFrame) :
    Allocating PlanBlock (PlanResult PlanCursor) :=
  match tree.nodes[visit.node]? with
  | none => .done (.error ⟨.einval, ascii "Invalid Orch tree or excessive depth"⟩, frame)
  | some node =>
      if visit.depth > config.maxDepth then
        .done (.error ⟨.einval, ascii "Invalid Orch tree or excessive depth"⟩, frame)
      else if !admitsType tree profile node.type then
        .done (.error ⟨.enotsup,
          ascii "Orch action not qualified for native C11 Session; no Legacy fallback"⟩, frame)
      else if node.params.length > maxOrchParams ||
          node.children.length ≥ tree.nodes.length ||
          node.children.length > tree.nodes.length - cursor.stack.length - 1 then
        .done (.error ⟨.einval, ascii "Invalid Orch parameter/child budget"⟩, frame)
      else do
        match ← copyPorts node cursor.retained frame with
        | (.error refusal, frame) => .done (.error refusal, frame)
        | (.ok (copies, retained), frame) =>
            match compileNode config node.type node.children.length with
            | some refusal => .done (.error refusal, frame)
            | none =>
                match pushChildren tree.nodes.length cursor.nodes.length (visit.depth + 1)
                    node.children cursor.stack with
                | none =>
                    .done (.error ⟨.einval, ascii "Broken Orch preorder child reference"⟩, frame)
                | some stack =>
                    .done (.ok ⟨stack, cursor.nodes ++ [⟨node.type, copies,
                      node.params.map fun param => param.value.length, node.children.length,
                      visit.parent⟩], retained⟩, frame)

/-- The traversal. -/
def visitNodes (tree : OrchTree) (config : TreeConfig) (profile : PlanProfile) :
    Nat → PlanCursor → PlanFrame → Allocating PlanBlock (PlanResult (List PlanNode))
  | _, ⟨[], nodes, _⟩, frame => .done (.ok nodes, frame)
  | 0, ⟨_ :: _, _, _⟩, frame =>
      .done (.error ⟨.einval, ascii "Invalid Orch tree or excessive depth"⟩, frame)
  | room + 1, ⟨visit :: stack, nodes, retained⟩, frame => do
      match ← visitNode tree config profile visit ⟨stack, nodes, retained⟩ frame with
      | (.error refusal, frame) => .done (.error refusal, frame)
      | (.ok cursor, frame) => visitNodes tree config profile room cursor frame

/-- `create_plan` up to its label `done`. -/
def createPlanFrame (tree : OrchTree) (config : TreeConfig) (profile : PlanProfile) :
    Allocating PlanBlock (PlanResult SessionPlan) :=
  if tree.nodes.length = 0 || tree.nodes.length > maxOrchNodes || config.maxNodes = 0 ||
      tree.nodes.length > config.maxNodes || config.maxDepth = 0 ||
      config.maxDepth > config.depthBound || config.maxControlIterations = 0 ||
      config.maxControlIterations > config.controlIterationBound then
    .done (.error ⟨.einval, ascii "Orch Session Plan exceeds C11 behavior-tree limits"⟩, .blank)
  else do
    let plan ← Allocating.ask .plan
    if plan.isNone then
      .done (.error ⟨.enomem, ascii "Cannot allocate Orch Session Plan"⟩, .blank)
    else
      match profileRefusal tree profile with
      | some refusal => .done (.error refusal, ⟨plan, none, none, []⟩)
      | none => do
          let nodes ← Allocating.ask .nodes
          let stack ← Allocating.ask .stack
          if nodes.isNone || stack.isNone then
            .done (.error ⟨.enomem, ascii "Cannot allocate bounded Orch Session Plan nodes"⟩,
              ⟨plan, nodes, stack, []⟩)
          else
            match ← visitNodes tree config profile tree.nodes.length ⟨[⟨0, none, 1⟩], [], 0⟩
                ⟨plan, nodes, stack, []⟩ with
            | (.error refusal, frame) => .done (.error refusal, frame)
            | (.ok planned, frame) =>
                if planned.length ≠ tree.nodes.length then
                  .done (.error ⟨.einval,
                    ascii "Orch Session Plan contains unreachable or repeated nodes"⟩, frame)
                else .done (.ok ⟨planned, profile ≠ .default⟩, frame)

/-! ## The same plan -/

/-! ## The destructor -/

/-- A node of `praktor_c11_orch_session_plan_destroy`: the blocks it frees, or nothing when
it reads a parameter through an array that is missing. -/
def PortSlot.destroy (slot : PortSlot) : Option (List Nat) :=
  match slot.parameters with
  | none => if slot.parameterCount = 0 then some slot.textSizes.toList else none
  | some (array, texts) =>
      some ((texts.take slot.parameterCount).filterMap id ++ array :: slot.textSizes.toList)

/-- `praktor_c11_orch_session_plan_destroy`. -/
def PlanFrame.destroy (frame : PlanFrame) : Option (List Nat) := do
  let freed ← frame.slots.mapM PortSlot.destroy
  some (freed.flatten ++ frame.nodes.toList ++ frame.plan.toList)

/-- The blocks that a node points to. -/
def PortSlot.blocks (slot : PortSlot) : List Nat :=
  (match slot.parameters with
    | none => []
    | some (array, texts) => texts.filterMap id ++ [array]) ++ slot.textSizes.toList

/-- The blocks that `create_plan` points to, in the order in which it frees them. -/
def PlanFrame.blocks (frame : PlanFrame) : List Nat :=
  frame.stack.toList ++ frame.slots.flatMap PortSlot.blocks ++ frame.nodes.toList ++
    frame.plan.toList

/-- Every block of the call is held in one place, and an array has an entry for each of its
parameters. -/
structure Held (heap : Heap) (frame : PlanFrame) : Prop where
  numbered : heap.Numbered
  owned : frame.blocks.Perm heap.live
  sized : ∀ slot ∈ frame.slots, ∀ ports, slot.parameters = some ports →
    ports.2.length = slot.parameterCount

/-- Every node with parameters has an array for them. -/
def Whole (frame : PlanFrame) : Prop :=
  ∀ slot ∈ frame.slots, 0 < slot.parameterCount → slot.parameters ≠ none

section Held

variable {heap : Heap} {frame next : PlanFrame}

/-- A new block, held in one place. -/
theorem Held.grant (hheld : Held heap frame) {before after : List Nat}
    (hold : frame.blocks = before ++ after) (hnew : next.blocks = before ++ heap.requests :: after)
    (hsized : ∀ slot ∈ next.slots, ∀ ports, slot.parameters = some ports →
      ports.2.length = slot.parameterCount) : Held heap.grant next := by
  refine ⟨hheld.numbered.grant, ?_, hsized⟩
  rw [hnew]
  calc before ++ heap.requests :: after
      _ |>.Perm (heap.requests :: (before ++ after)) := List.perm_middle
      _ |>.Perm (heap.requests :: heap.live) := (hold ▸ hheld.owned).cons _
      _ |>.Perm (heap.live ++ [heap.requests]) := (List.perm_append_singleton _ _).symm

/-- A request that fails. -/
theorem Held.deny (hheld : Held heap frame) : Held heap.deny frame :=
  ⟨hheld.numbered.deny, hheld.owned, hheld.sized⟩

theorem Held.reserve (hheld : Held heap frame) (count : Nat) : Held heap (frame.reserve count) := by
  refine ⟨hheld.numbered, ?_, fun slot hslot ports hports => ?_⟩
  · have hblocks : (frame.reserve count).blocks = frame.blocks := by
      simp [PlanFrame.blocks, PlanFrame.reserve, PortSlot.blocks]
    rw [hblocks]
    exact hheld.owned
  · rcases List.mem_append.mp hslot with hslot | hslot
    · exact hheld.sized slot hslot ports hports
    · simp [List.mem_singleton.mp hslot] at hports

end Held

/-- The result at the end of the spine. -/
def Kept {α : Type} (heap : Heap) (result : PlanResult α) : Prop :=
  Held heap result.2 ∧ Whole result.2

/-- The result after a request that failed. -/
def Stopped {α : Type} (purpose : PlanBlock) (heap : Heap) (result : PlanResult α) : Prop :=
  (∃ refusal, result.1 = .error refusal) ∧ Held heap result.2 ∧
    (Whole result.2 ↔ purpose ≠ .ports)

/-- What holds of all runs of a part of `create_plan`. -/
abbrev Sound {α : Type} (computation : Allocating PlanBlock (PlanResult α)) (heap : Heap) : Prop :=
  computation.Spine Kept Stopped heap

section Sound

variable {heap : Heap} {frame : PlanFrame}

/-- The part goes on after a success and ends after a refusal. -/
theorem Sound.next {α β : Type} {computation : Allocating PlanBlock (PlanResult α)}
    {later : PlanResult α → Allocating PlanBlock (PlanResult β)}
    (hsound : Sound computation heap)
    (hrefused : ∀ refusal frame, later (.error refusal, frame) = .done (.error refusal, frame))
    (hnext : ∀ value frame heap, Held heap frame → Whole frame →
      Sound (later (.ok value, frame)) heap) : Sound (computation >>= later) heap := by
  refine Allocating.Spine.bind hsound (fun heap result hkept => ?_)
    fun purpose heap result hstopped => ?_
  · obtain ⟨result, frame⟩ := result
    cases result with
    | error refusal =>
        rw [hrefused]
        exact hkept
    | ok value => exact hnext value frame heap hkept.1 hkept.2
  · obtain ⟨result, frame⟩ := result
    obtain ⟨⟨refusal, rfl⟩, hheld, hwhole⟩ := hstopped
    exact ⟨_, hrefused refusal frame, ⟨refusal, rfl⟩, hheld, hwhole⟩

/-- The texts of the last node, of which some are there. -/
theorem copyTexts_sound {params : List OrchParam} {retained array : Nat} {filled : List Nat}
    {before : List PortSlot} {sizes : Option Nat} (hheld : Held heap frame) (hwhole : Whole frame)
    (hslots : frame.slots = before ++ [⟨filled.length + params.length,
      some (array, filled.map some ++ List.replicate params.length none), sizes⟩]) :
    Sound (copyTexts params filled.length retained frame) heap := by
  induction params generalizing heap frame retained filled with
  | nil => exact ⟨hheld, hwhole⟩
  | cons param rest ih =>
      rw [copyTexts]
      split_ifs with hzero hmustache hbudget
      · exact ⟨hheld, hwhole⟩
      · exact ⟨hheld, hwhole⟩
      · exact ⟨hheld, hwhole⟩
      refine ⟨fun outcomes => ⟨⟨_, rfl⟩, hheld.deny, ?_⟩, ?_⟩
      · exact iff_of_true hwhole (by decide)
      have hset : frame.setText filled.length heap.requests = { frame with
          slots := before ++ [⟨filled.length + (rest.length + 1),
            some (array, (filled ++ [heap.requests]).map some ++ List.replicate rest.length none),
            sizes⟩] } := by
        rw [PlanFrame.setText, PlanFrame.modifyLast, hslots, List.modifyLast_concat]
        simp [List.replicate_succ]
      have hblocks : frame.blocks =
          (frame.stack.toList ++ before.flatMap PortSlot.blocks ++ filled) ++
            (array :: sizes.toList ++ frame.nodes.toList ++ frame.plan.toList) := by
        simp [PlanFrame.blocks, hslots, PortSlot.blocks]
      have hfilled : filled.length + 1 = (filled ++ [heap.requests]).length := by simp
      have hlater : Held heap.grant (frame.setText filled.length heap.requests) := by
        refine hheld.grant hblocks ?_ fun slot hslot ports hports => ?_
        · simp [hset, PlanFrame.blocks, PortSlot.blocks]
        · rw [hset] at hslot
          rcases List.mem_append.mp hslot with hslot | hslot
          · exact hheld.sized slot (by simp [hslots, hslot]) ports hports
          · obtain rfl := List.mem_singleton.mp hslot
            obtain rfl := Option.some.inj hports
            simp
      have hstill : Whole (frame.setText filled.length heap.requests) := by
        intro slot hslot hcount
        rw [hset] at hslot
        rcases List.mem_append.mp hslot with hslot | hslot
        · exact hwhole slot (by simp [hslots, hslot]) hcount
        · simp [List.mem_singleton.mp hslot]
      have hrest := @ih heap.grant (frame.setText filled.length heap.requests)
        (retained + (param.value.length + 1)) (filled ++ [heap.requests]) hlater hstill (by
          rw [hset]
          simp [Nat.add_assoc, Nat.add_comm 1])
      rw [← hfilled] at hrest
      exact hrest.next (fun _ _ => rfl) fun value frame heap hheld hwhole => ⟨hheld, hwhole⟩

/-- The frame with a new node and its arrays. -/
theorem setArrays_reserve (frame : PlanFrame) (count : Nat) (ports sizes : Option Nat) :
    (frame.reserve count).setArrays ports sizes = { frame with
      slots := frame.slots ++ [⟨count, ports.map fun block => (block, List.replicate count none),
        sizes⟩] } := by
  rw [PlanFrame.setArrays, PlanFrame.modifyLast, PlanFrame.reserve, List.modifyLast_concat]

theorem blocks_setArrays (frame : PlanFrame) (count : Nat) (ports sizes : Option Nat) :
    ((frame.reserve count).setArrays ports sizes).blocks =
      (frame.stack.toList ++ frame.slots.flatMap PortSlot.blocks ++ ports.toList) ++
        (sizes.toList ++ frame.nodes.toList ++ frame.plan.toList) := by
  rw [setArrays_reserve]
  cases ports <;> simp [PlanFrame.blocks, PortSlot.blocks]

theorem Held.setArrays (hheld : Held heap frame) (count : Nat) (ports sizes : Option Nat) :
    ∀ slot ∈ ((frame.reserve count).setArrays ports sizes).slots, ∀ found,
      slot.parameters = some found → found.2.length = slot.parameterCount := by
  intro slot hslot found hfound
  rw [setArrays_reserve] at hslot
  rcases List.mem_append.mp hslot with hslot | hslot
  · exact hheld.sized slot hslot found hfound
  · obtain rfl := List.mem_singleton.mp hslot
    obtain ⟨block, -, rfl⟩ := Option.map_eq_some_iff.mp hfound
    simp

/-- A request for one of the arrays. -/
theorem Held.arrays (hheld : Held heap frame) (count : Nat) :
    Held heap ((frame.reserve count).setArrays none none) ∧
      Held heap.grant ((frame.reserve count).setArrays (some heap.requests) none) ∧
      Held heap.grant ((frame.reserve count).setArrays none (some heap.requests)) ∧
      Held heap.grant.grant
        ((frame.reserve count).setArrays (some heap.requests) (some heap.grant.requests)) := by
  have hblank : Held heap ((frame.reserve count).setArrays none none) := by
    have hreserve := hheld.reserve count
    rwa [setArrays_reserve]
  have hports : Held heap.grant ((frame.reserve count).setArrays (some heap.requests) none) := by
    refine hblank.grant (blocks_setArrays frame count none none) ?_ (hheld.setArrays _ _ _)
    rw [blocks_setArrays]
    simp
  have hsizes : Held heap.grant ((frame.reserve count).setArrays none (some heap.requests)) := by
    refine hblank.grant (blocks_setArrays frame count none none) ?_ (hheld.setArrays _ _ _)
    rw [blocks_setArrays]
    simp
  refine ⟨hblank, hports, hsizes, ?_⟩
  refine hports.grant (blocks_setArrays frame count _ none) ?_ (hheld.setArrays _ _ _)
  rw [blocks_setArrays]
  simp

theorem Whole.setArrays_iff (hwhole : Whole frame) {count : Nat} (hcount : count ≠ 0)
    (ports sizes : Option Nat) :
    Whole ((frame.reserve count).setArrays ports sizes) ↔ ports.isSome = true := by
  rw [setArrays_reserve]
  constructor
  · intro hstill
    have hlast := hstill _ (List.mem_append_right _ (List.mem_singleton_self _))
      (Nat.pos_of_ne_zero hcount)
    rw [Option.isSome_iff_ne_none]
    simpa using hlast
  · intro hports slot hslot hpositive
    rcases List.mem_append.mp hslot with hslot | hslot
    · exact hwhole slot hslot hpositive
    · obtain rfl := List.mem_singleton.mp hslot
      rw [Option.isSome_iff_ne_none] at hports
      simpa using hports

theorem copyPorts_sound (node : OrchNode) (retained : Nat) (hheld : Held heap frame)
    (hwhole : Whole frame) : Sound (copyPorts node retained frame) heap := by
  have hreserved := hheld.reserve node.params.length
  rw [copyPorts]
  split_ifs with hnone
  · refine ⟨hreserved, fun slot hslot hcount => ?_⟩
    rcases List.mem_append.mp hslot with hslot | hslot
    · exact hwhole slot hslot hcount
    · rw [List.mem_singleton.mp hslot, hnone] at hcount
      simp at hcount
  obtain ⟨-, hports, hsizes, hboth⟩ := hheld.arrays node.params.length
  obtain ⟨hneither, -, hlate, -⟩ := hheld.deny.arrays node.params.length
  have hiff := hwhole.setArrays_iff hnone
  refine ⟨fun outcomes => ?_, fun outcomes => ?_, ?_⟩
  · match outcomes with
    | [] => exact ⟨⟨_, rfl⟩, hlate, (hiff _ _).trans (by simp)⟩
    | some _ :: rest => exact ⟨⟨_, rfl⟩, hlate, (hiff _ _).trans (by simp)⟩
    | none :: rest => exact ⟨⟨_, rfl⟩, hneither.deny, (hiff _ _).trans (by simp)⟩
  · exact ⟨⟨_, rfl⟩, hports.deny, (hiff _ _).trans (by simp)⟩
  · exact @copyTexts_sound heap.grant.grant _ node.params retained heap.requests [] frame.slots
      (some heap.grant.requests) hboth ((hiff _ _).mpr rfl) (by rw [setArrays_reserve]; simp)

variable (tree : OrchTree) (config : TreeConfig) (profile : PlanProfile)

theorem visitNode_sound (visit : OrchVisit) (cursor : PlanCursor) (hheld : Held heap frame)
    (hwhole : Whole frame) : Sound (visitNode tree config profile visit cursor frame) heap := by
  rw [visitNode]
  cases tree.nodes[visit.node]? with
  | none => exact ⟨hheld, hwhole⟩
  | some node =>
      simp only
      split_ifs
      · exact ⟨hheld, hwhole⟩
      · exact ⟨hheld, hwhole⟩
      · exact ⟨hheld, hwhole⟩
      refine (copyPorts_sound node cursor.retained hheld hwhole).next (fun _ _ => rfl)
        fun copied frame heap hheld hwhole => ?_
      simp only
      split
      · exact ⟨hheld, hwhole⟩
      split
      · exact ⟨hheld, hwhole⟩
      · exact ⟨hheld, hwhole⟩

theorem visitNodes_sound (room : Nat) (cursor : PlanCursor) (hheld : Held heap frame)
    (hwhole : Whole frame) : Sound (visitNodes tree config profile room cursor frame) heap := by
  induction room generalizing heap frame cursor with
  | zero =>
      obtain ⟨stack, nodes, retained⟩ := cursor
      cases stack <;> exact ⟨hheld, hwhole⟩
  | succ room ih =>
      obtain ⟨stack, nodes, retained⟩ := cursor
      cases stack with
      | nil => exact ⟨hheld, hwhole⟩
      | cons visit stack =>
          rw [visitNodes]
          exact (visitNode_sound tree config profile visit _ hheld hwhole).next (fun _ _ => rfl)
            fun cursor frame heap hheld hwhole => ih cursor hheld hwhole

/-- A frame with blocks for itself and for no node. -/
theorem held_start (plan nodes stack : Option Nat) (heap : Heap)
    (hlive : (stack.toList ++ nodes.toList ++ plan.toList).Perm heap.live)
    (hnumbered : heap.Numbered) : Held heap ⟨plan, nodes, stack, []⟩ :=
  ⟨hnumbered, by simpa [PlanFrame.blocks] using hlive, by simp⟩

theorem createPlanFrame_sound : Sound (createPlanFrame tree config profile) ⟨0, []⟩ := by
  have hwhole (plan nodes stack : Option Nat) : Whole ⟨plan, nodes, stack, []⟩ := by simp [Whole]
  have hstopped (purpose : PlanBlock) (hpurpose : purpose ≠ .ports) (plan nodes stack : Option Nat) :
      Whole ⟨plan, nodes, stack, []⟩ ↔ purpose ≠ .ports := iff_of_true (hwhole _ _ _) hpurpose
  have hempty : (⟨0, []⟩ : Heap).Numbered := ⟨by simp, by simp⟩
  rw [createPlanFrame]
  split_ifs
  · exact ⟨held_start none none none _ (by simp) hempty, hwhole _ _ _⟩
  refine ⟨fun outcomes => ?_, ?_⟩
  · exact ⟨⟨_, rfl⟩, held_start none none none (⟨0, []⟩ : Heap).deny (by simp [Heap.deny])
      hempty.deny, hstopped _ (by decide) _ _ _⟩
  have hplan := hempty.grant
  change Sound (match profileRefusal tree profile with
    | some refusal => _
    | none => _) _
  cases profileRefusal tree profile with
  | some refusal =>
      exact ⟨held_start (some 0) none none _ (by simp [Heap.grant]) hplan, hwhole _ _ _⟩
  | none =>
      refine ⟨fun outcomes => ?_, fun outcomes => ?_, ?_⟩
      · -- the stack is asked for whether or not the nodes were granted
        rcases outcomes with _ | ⟨_ | granted, rest⟩
        · exact ⟨⟨_, rfl⟩, held_start (some 0) none (some 2) (⟨0, []⟩ : Heap).grant.deny.grant
            (by decide) hplan.deny.grant, hstopped _ (by decide) _ _ _⟩
        · exact ⟨⟨_, rfl⟩, held_start (some 0) none none (⟨0, []⟩ : Heap).grant.deny.deny
            (by decide) hplan.deny.deny, hstopped _ (by decide) _ _ _⟩
        · exact ⟨⟨_, rfl⟩, held_start (some 0) none (some 2) (⟨0, []⟩ : Heap).grant.deny.grant
            (by decide) hplan.deny.grant, hstopped _ (by decide) _ _ _⟩
      · exact ⟨⟨_, rfl⟩, held_start (some 0) (some 1) none (⟨0, []⟩ : Heap).grant.grant.deny
          (by decide) hplan.grant.deny, hstopped _ (by decide) _ _ _⟩
      · have hstart := held_start (some 0) (some 1) (some 2) (⟨0, []⟩ : Heap).grant.grant.grant
          (by decide) hplan.grant.grant
        refine (visitNodes_sound tree config profile tree.nodes.length ⟨[⟨0, none, 1⟩], [], 0⟩
          hstart (hwhole _ _ _)).next (fun _ _ => rfl) fun planned frame heap hheld hwhole => ?_
        simp only
        split_ifs
        · exact ⟨hheld, hwhole⟩
        · exact ⟨hheld, hwhole⟩

end Sound

/-! ## Every pattern of failures -/

theorem PortSlot.destroy_eq {slot : PortSlot}
    (hsized : ∀ ports, slot.parameters = some ports → ports.2.length = slot.parameterCount)
    (hwhole : 0 < slot.parameterCount → slot.parameters ≠ none) :
    slot.destroy = some slot.blocks := by
  obtain ⟨count, parameters, textSizes⟩ := slot
  cases parameters with
  | none =>
      have hzero : count = 0 := by
        by_contra hcount
        exact hwhole (Nat.pos_of_ne_zero hcount) rfl
      simp [PortSlot.destroy, PortSlot.blocks, hzero]
  | some ports =>
      have hlength : ports.2.take count = ports.2 :=
        List.take_of_length_le (hsized ports rfl).le
      simp [PortSlot.destroy, PortSlot.blocks, hlength]

/-- The destructor and the `free` of the stack release all that the call holds. -/
theorem PlanFrame.destroy_eq {heap : Heap} {frame : PlanFrame} (hheld : Held heap frame)
    (hwhole : Whole frame) :
    ∃ freed, frame.destroy = some freed ∧ frame.stack.toList ++ freed = frame.blocks := by
  have hslots : ∀ slots ⊆ frame.slots,
      slots.mapM PortSlot.destroy = some (slots.map PortSlot.blocks) := by
    intro slots hsubset
    induction slots with
    | nil => rfl
    | cons slot rest ih =>
        obtain ⟨hslot, hrest⟩ := List.cons_subset.mp hsubset
        rw [List.mapM_cons, PortSlot.destroy_eq (hheld.sized slot hslot) (hwhole slot hslot),
          ih hrest]
        rfl
  refine ⟨_, by rw [PlanFrame.destroy, hslots _ (List.Subset.refl _)]; rfl, ?_⟩
  simp [PlanFrame.blocks, List.flatMap]

/-- The call of `create_plan` under a pattern of failures comes to a safe end. -/
structure Survives (tree : OrchTree) (config : TreeConfig) (profile : PlanProfile)
    (schedule : AllocSchedule) (result : Except Refusal SessionPlan) (frame : PlanFrame)
    (heap : Heap) : Prop where
  /-- This is how the call ends. -/
  ends : ((createPlanFrame tree config profile).run ⟨0, []⟩ schedule).1 = ((result, frame), heap)
  /-- A failed request is reported, and `*out` is not written. -/
  refused : ∀ request < heap.requests, schedule[request]? = some none →
    ∃ refusal, result = .error refusal
  /-- The array of parameters is there wherever the destructor reads it. -/
  arrays : ∀ refusal, result = .error refusal →
    ∀ slot ∈ frame.slots, 0 < slot.parameterCount → slot.parameters ≠ none
  /-- A text is empty or a block of this call. -/
  texts : ∀ slot ∈ frame.slots, ∀ array texts, slot.parameters = some (array, texts) →
    ∀ block, some block ∈ texts → block ∈ heap.live
  /-- All blocks of a refused call are freed, and each of them once. -/
  released : ∀ refusal, result = .error refusal → ∃ freed, frame.destroy = some freed ∧
    (frame.stack.toList ++ freed).Perm heap.live ∧ (frame.stack.toList ++ freed).Nodup

theorem Held.texts {heap : Heap} {frame : PlanFrame} (hheld : Held heap frame) {slot : PortSlot}
    (hslot : slot ∈ frame.slots) {array : Nat} {texts : List (Option Nat)}
    (hports : slot.parameters = some (array, texts)) {block : Nat} (hblock : some block ∈ texts) :
    block ∈ heap.live := by
  rw [← hheld.owned.mem_iff]
  have hmem : block ∈ slot.blocks := by
    simp [PortSlot.blocks, hports, hblock]
  have hslots : block ∈ frame.slots.flatMap PortSlot.blocks :=
    List.mem_flatMap.mpr ⟨slot, hslot, hmem⟩
  simp [PlanFrame.blocks, hslots]

theorem survives_of_held {tree : OrchTree} {config : TreeConfig} {profile : PlanProfile}
    {schedule : AllocSchedule} {result : Except Refusal SessionPlan} {frame : PlanFrame}
    {heap : Heap}
    (hends : ((createPlanFrame tree config profile).run ⟨0, []⟩ schedule).1 =
      ((result, frame), heap))
    (hrefused : ∀ request < heap.requests, schedule[request]? = some none →
      ∃ refusal, result = .error refusal)
    (hheld : Held heap frame) (hwhole : Whole frame) :
    Survives tree config profile schedule result frame heap := by
  refine ⟨hends, hrefused, fun _ _ => hwhole, fun slot hslot array texts hports block hblock =>
    hheld.texts hslot hports hblock, fun _ _ => ?_⟩
  obtain ⟨freed, hdestroy, hblocks⟩ := PlanFrame.destroy_eq hheld hwhole
  refine ⟨freed, hdestroy, hblocks ▸ hheld.owned, hblocks ▸ ?_⟩
  exact hheld.owned.nodup_iff.mpr hheld.numbered.1

/-- A request that fails is not before the first one. -/
theorem firstFailure_le {schedule : AllocSchedule} {request : Nat}
    (hfailed : schedule[request]? = some none) :
    ∃ place ≤ request, Allocating.firstFailure schedule = some place := by
  obtain ⟨hlength, hrequest⟩ := List.getElem?_eq_some_iff.mp hfailed
  have hsome : (Allocating.firstFailure schedule).isSome := by
    rw [Allocating.firstFailure, List.findIdx?_isSome, List.any_eq_true]
    exact ⟨none, hrequest ▸ List.getElem_mem hlength, rfl⟩
  obtain ⟨place, hplace⟩ := Option.isSome_iff_exists.mp hsome
  refine ⟨place, Nat.le_of_not_lt fun hlt => ?_, hplace⟩
  obtain ⟨_, -, hearlier⟩ := List.findIdx?_eq_some_iff_getElem.mp hplace
  simpa [hrequest] using hearlier request hlt

/-- The call ends safely exactly when the request that fails first, if there is one, is not
for the parameters of a node. -/
theorem createPlan_survives_iff (tree : OrchTree) (config : TreeConfig) (profile : PlanProfile)
    (schedule : AllocSchedule) :
    (∃ result frame heap, Survives tree config profile schedule result frame heap) ↔
      ∀ place, Allocating.firstFailure schedule = some place →
        ((createPlanFrame tree config profile).purposes ⟨0, []⟩)[place]? ≠ some .ports := by
  rcases hrun : (createPlanFrame tree config profile).run ⟨0, []⟩ schedule with
    ⟨⟨⟨result, frame⟩, heap⟩, rest⟩
  have hcases := (createPlanFrame_sound tree config profile).run schedule
  rw [hrun] at hcases
  rcases hcases with ⟨place, purpose, hplace, hpurpose, ⟨refusal, hrefusal⟩, hheld, hwhole⟩ |
    ⟨hlater, hcount, hheld, hwhole⟩
  · -- the run leaves the spine at its first failure
    constructor
    · rintro ⟨result', frame', heap', hsurvives⟩ place' hplace' hports
      obtain ⟨⟨rfl, rfl⟩, rfl⟩ : (result = result' ∧ frame = frame') ∧ heap = heap' := by
        simpa [hrun] using hsurvives.ends
      rw [hplace] at hplace'
      obtain rfl := Option.some.inj hplace'
      rw [hpurpose] at hports
      exact hwhole.mp (hsurvives.arrays refusal hrefusal) (Option.some.inj hports)
    · intro hnot
      refine ⟨result, frame, heap, survives_of_held (by rw [hrun]) (fun _ _ _ => ⟨refusal, hrefusal⟩)
        hheld (hwhole.mpr fun hports => ?_)⟩
      exact hnot place hplace (hpurpose.trans (congrArg some hports))
  · -- no request of this run fails
    constructor
    · intro _ place hplace hports
      have hlength := (List.getElem?_eq_some_iff.mp hports).1
      exact absurd (hlater place hplace) (Nat.not_le.mpr hlength)
    · intro _
      refine ⟨result, frame, heap, survives_of_held (by rw [hrun]) (fun request hmade hfailed => ?_)
        hheld hwhole⟩
      obtain ⟨place, hle, hplace⟩ := firstFailure_le hfailed
      have hlate := hlater place hplace
      simp only [Nat.zero_add] at hcount
      omega

/-- A tree with one SetVariable node. -/
def setVariableTree : OrchTree :=
  (SnapshotTask.ofSetVariable (ascii "a") [] (ascii "k") "value" (ascii "v")).tree

/-- The fourth request is for the two parameters of the node. -/
theorem not_survives_ports :
    ¬ ∃ result frame heap, Survives setVariableTree ⟨16, 8, 64, 8, 64⟩ .default
      [some 0, some 0, some 0, none] result frame heap := by
  rintro ⟨result, frame, heap, hsurvives⟩
  have hends := hsurvives.ends
  have hrun : ((createPlanFrame setVariableTree ⟨16, 8, 64, 8, 64⟩ .default).run ⟨0, []⟩
      [some 0, some 0, some 0, none]).1 =
        ((.error ⟨.enomem, ascii "Cannot allocate C11 typed ports"⟩,
          ⟨some 0, some 1, some 2, [⟨2, none, some 4⟩]⟩), ⟨5, [0, 1, 2, 4]⟩) := by
    rfl
  rw [hrun] at hends
  simp only [Prod.mk.injEq] at hends
  obtain ⟨⟨rfl, rfl⟩, rfl⟩ := hends
  exact hsurvives.arrays _ rfl _ (List.mem_singleton_self _) (by decide) rfl

end Praktor.Runtime
