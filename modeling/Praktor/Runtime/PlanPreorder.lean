/-
# A plan is its tree in preorder

`create_plan` replaces the recursion over a tree by a stack with as many places as the
tree has nodes.  For a tree that was built, the nodes on the stack are the roots of a
forest that the plan does not have yet.  The plan and that forest together have each
node once, so there is always room for the children of the next node, and the checks on
the child budget, on the stack and on the number of nodes refuse nothing.

A plan that is returned has the nodes of the tree in preorder.  Grouped by their
parents they give the tree back.
-/

import Praktor.Runtime.Ports
import Praktor.Workflow.FlatNodes

namespace Praktor.Runtime

open Praktor.Data Praktor.Math Praktor.Workflow

/-! ## What is compared -/

/-- What a node carries besides its place: the name of its type, and the names, texts and
sizes of its parameters. -/
structure NodeLabel where
  type : String
  names : List CString
  texts : List Bytes
  sizes : List Nat
  deriving DecidableEq

/-- The label of a node of a tree. -/
def nodeLabel (node : OrchNode) : NodeLabel where
  type := node.type.name
  names := node.params.map OrchParam.key
  texts := node.params.map OrchParam.value
  sizes := node.params.map fun param => param.value.length

/-- The label of a node of a plan. -/
def PlanNode.label (planned : PlanNode) : NodeLabel where
  type := planned.action.name
  names := planned.params.map Prod.fst
  texts := planned.params.map fun param => param.2.bytes
  sizes := planned.sizes

/-- The plan has the nodes of the tree in the preorder of its shape, each with a parent
before it, and grouped by their parents they have the shape of the tree. -/
structure PreorderPlan (tree : OrchTree) (shape : Forest Nat) (plan : SessionPlan) : Prop where
  length_eq : plan.nodes.length = tree.nodes.length
  label_eq : ∀ index place : Nat, shape.preorder[index]? = some place → ∃ node planned,
    tree.nodes[place]? = some node ∧ plan.nodes[index]? = some planned ∧
      PlanNode.label planned = nodeLabel node
  root_parent : ∃ root, plan.nodes[0]? = some root ∧ root.parent = none
  parent_lt : ∀ (index : Nat) (planned : PlanNode), plan.nodes[index]? = some planned → index ≠ 0 →
    ∃ parent < index, planned.parent = some parent
  regroups : ∃ regrouped,
    Forest.Unfolds (Forest.grouped (plan.nodes.map PlanNode.parent))
      (Forest.placesOf none (plan.nodes.map PlanNode.parent) 0) regrouped ∧
    regrouped.map (fun index => plan.nodes[index]?.map PlanNode.label) =
      shape.map fun place => tree.nodes[place]?.map nodeLabel

/-- The refusals of the checks on the child budget, on the stack and on the number of
nodes. -/
def structuralRefusals : List Refusal :=
  [⟨.einval, ascii "Invalid Orch parameter/child budget"⟩,
    ⟨.einval, ascii "Broken Orch preorder child reference"⟩,
    ⟨.einval, ascii "Orch Session Plan contains unreachable or repeated nodes"⟩]

/-- The type of a node, its texts and its compilation are admitted. -/
structure NodeAdmitted (tree : OrchTree) (config : TreeConfig) (profile : PlanProfile)
    (node : OrchNode) : Prop where
  type_admitted : admitsType tree profile node.type = true
  text_admitted : ∀ param ∈ node.params, 0 ∉ param.value ∧ containsMustache param.value = false
  compiled : compileNode config node.type node.children.length = none

/-- The states between two rounds of the traversal, whatever the outcomes of the
allocations. -/
inductive Traversal (tree : OrchTree) (config : TreeConfig) (profile : PlanProfile) :
    PlanCursor → Prop
  | start : Traversal tree config profile ⟨[⟨0, none, 1⟩], [], 0⟩
  | visit {visit : OrchVisit} {stack : List OrchVisit} {nodes : List PlanNode} {retained : Nat}
      {schedule after : AllocSchedule} {next : PlanCursor} :
      Traversal tree config profile ⟨visit :: stack, nodes, retained⟩ →
        planVisit tree config profile visit ⟨stack, nodes, retained⟩ schedule = (.ok next, after) →
          Traversal tree config profile next

/-! ## One round -/

theorem alloc_mem {schedule after : AllocSchedule} {outcome : Option Nat}
    (halloc : schedule.alloc = (outcome, after)) (hnever : none ∉ schedule) :
    outcome ≠ none ∧ none ∉ after := by
  cases schedule with
  | nil =>
      obtain ⟨rfl, rfl⟩ := Prod.mk.inj halloc
      exact ⟨Option.some_ne_none 0, List.not_mem_nil⟩
  | cons first rest =>
      obtain ⟨rfl, rfl⟩ := Prod.mk.inj halloc
      rw [List.mem_cons, not_or] at hnever
      exact ⟨Ne.symm hnever.1, hnever.2⟩

/-- The texts of parameters are copied, or one of them or an allocation is at fault. -/
theorem copyParams_cases (params : List OrchParam) (retained : Nat) (schedule : AllocSchedule) :
    (∃ refusal after, copyParams params retained schedule = (.error refusal, after) ∧
      refusal ∉ structuralRefusals ∧
      ¬ ((∀ param ∈ params, 0 ∉ param.value ∧ containsMustache param.value = false) ∧
        retained + (params.map fun param => param.value.length + 1).sum ≤ maxOrchBytes ∧
        none ∉ schedule)) ∨
    ∃ after, copyParams params retained schedule =
        (.ok (textParams params,
          retained + (params.map fun param => param.value.length + 1).sum), after) ∧
      (none ∉ schedule → none ∉ after) := by
  induction params generalizing retained schedule with
  | nil => exact .inr ⟨schedule, rfl, id⟩
  | cons param params ih =>
      rw [copyParams]
      split_ifs with hzero hmustache hbytes
      · exact .inl ⟨_, _, rfl, by decide +kernel, fun hclean => by simp [hzero] at hclean⟩
      · exact .inl ⟨_, _, rfl, by decide +kernel, fun hclean => by simp [hmustache] at hclean⟩
      · refine .inl ⟨_, _, rfl, by decide +kernel, fun hclean => ?_⟩
        have hsum := hclean.2.1
        rw [List.map_cons, List.sum_cons] at hsum
        simp only [Bool.or_eq_true, decide_eq_true_eq] at hbytes
        omega
      split
      · rename_i after halloc
        refine .inl ⟨_, _, rfl, by decide +kernel, fun hclean => ?_⟩
        exact (alloc_mem halloc hclean.2.2).1 rfl
      rename_i address after halloc
      rcases ih (retained + (param.value.length + 1)) after with
        ⟨refusal, last, hcopy, hkind, hfault⟩ | ⟨last, hcopy, hnever⟩
      · rw [hcopy]
        refine .inl ⟨refusal, last, rfl, hkind, fun hclean => hfault ⟨?_, ?_, ?_⟩⟩
        · exact fun other hother => hclean.1 other (List.mem_cons_of_mem _ hother)
        · have hsum := hclean.2.1
          rw [List.map_cons, List.sum_cons] at hsum
          omega
        · exact (alloc_mem halloc hclean.2.2).2
      · rw [hcopy]
        refine .inr ⟨last, ?_, fun hschedule => hnever (alloc_mem halloc hschedule).2⟩
        simp [textParams, CString.ofBytes, hzero, Nat.add_assoc]

theorem copyNode_cases (node : OrchNode) (retained : Nat) (schedule : AllocSchedule) :
    (∃ refusal after, copyNode node retained schedule = (.error refusal, after) ∧
      refusal ∉ structuralRefusals ∧
      ¬ ((∀ param ∈ node.params, 0 ∉ param.value ∧ containsMustache param.value = false) ∧
        retained + node.textBytes ≤ maxOrchBytes ∧ none ∉ schedule)) ∨
    ∃ after, copyNode node retained schedule =
        (.ok (textParams node.params, retained + node.textBytes), after) ∧
      (none ∉ schedule → none ∉ after) := by
  simp only [copyNode]
  split_ifs with hempty hfailed
  · rw [List.length_eq_zero_iff] at hempty
    exact .inr ⟨schedule, by simp [hempty, OrchNode.textBytes, textParams], id⟩
  · refine .inl ⟨_, _, rfl, by decide +kernel, fun hclean => ?_⟩
    obtain ⟨hfirst, hafter⟩ := alloc_mem rfl hclean.2.2
    have hsecond := (alloc_mem rfl hafter).1
    simp only [Bool.or_eq_true, Option.isNone_iff_eq_none] at hfailed
    exact hfailed.elim hfirst hsecond
  · have hnever (hschedule : none ∉ schedule) : none ∉ schedule.alloc.2.alloc.2 :=
      (alloc_mem rfl (alloc_mem rfl hschedule).2).2
    rcases copyParams_cases node.params retained schedule.alloc.2.alloc.2 with
      ⟨refusal, after, hcopy, hkind, hfault⟩ | ⟨after, hcopy, hafter⟩
    · exact .inl ⟨refusal, after, hcopy, hkind, fun hclean =>
        hfault ⟨hclean.1, hclean.2.1, hnever hclean.2.2⟩⟩
    · exact .inr ⟨after, hcopy, fun hschedule => hafter (hnever hschedule)⟩

section Round

variable {tree : OrchTree} {config : TreeConfig} {profile : PlanProfile}

theorem compileNode_refusal {type : OrchType} {children : Nat} {refusal : Refusal}
    (hcompile : compileNode config type children = some refusal) :
    ∃ detail, refusal = compileRefusal type detail := by
  have hsingle (hcompile : compileNode.single type children = some refusal) :
      ∃ detail, refusal = compileRefusal type detail := by
    rw [compileNode.single] at hcompile
    split_ifs at hcompile
    exact ⟨_, (Option.some.inj hcompile).symm⟩
  unfold compileNode at hcompile
  split at hcompile
  · exact ⟨_, (Option.some.inj hcompile).symm⟩
  split at hcompile
  · simp at hcompile
  · simp at hcompile
  · simp at hcompile
  · exact hsingle hcompile
  · exact hsingle hcompile
  · exact hsingle hcompile
  · split_ifs at hcompile
    exact ⟨_, (Option.some.inj hcompile).symm⟩

/-- The diagnostics of the compiler begin like no other. -/
theorem compileNode_kind {type : OrchType} {children : Nat} {refusal : Refusal}
    (hcompile : compileNode config type children = some refusal) :
    refusal ∉ structuralRefusals := by
  obtain ⟨detail, rfl⟩ := compileNode_refusal hcompile
  intro hmem
  have hheads : ∀ other ∈ structuralRefusals, other.message.head? ≠ some 78 := by decide +kernel
  exact hheads _ hmem rfl

/-- One round with room for the children of its node: the node goes to the plan and its
children on the stack, or the node, its texts or an allocation is at fault. -/
theorem planVisit_cases {visit : OrchVisit} {cursor : PlanCursor} {node : OrchNode}
    (schedule : AllocSchedule) (hnode : tree.nodes[visit.node]? = some node)
    (hparams : node.params.length ≤ maxOrchParams)
    (hroom : cursor.stack.length + node.children.length < tree.nodes.length) :
    (∃ refusal after, planVisit tree config profile visit cursor schedule =
        (.error refusal, after) ∧ refusal ∉ structuralRefusals ∧
      ¬ (visit.depth ≤ config.maxDepth ∧ NodeAdmitted tree config profile node ∧
        cursor.retained + node.textBytes ≤ maxOrchBytes ∧ none ∉ schedule)) ∨
    ∃ after, planVisit tree config profile visit cursor schedule =
        (.ok ⟨visitsOf (some cursor.nodes.length) (visit.depth + 1) node.children ++ cursor.stack,
          cursor.nodes ++ [.ofNode node visit.parent], cursor.retained + node.textBytes⟩, after) ∧
      (∀ param ∈ node.params, 0 ∉ param.value) ∧ (none ∉ schedule → none ∉ after) := by
  simp only [planVisit, hnode]
  split_ifs with hdepth htype hbudget
  · exact .inl ⟨_, _, rfl, by decide +kernel, fun hadmitted => by omega⟩
  · refine .inl ⟨_, _, rfl, by decide +kernel, fun hadmitted => ?_⟩
    simp [hadmitted.2.1.type_admitted] at htype
  · simp only [Bool.or_eq_true, decide_eq_true_eq] at hbudget
    omega
  rcases copyNode_cases node cursor.retained schedule with
    ⟨refusal, after, hcopy, hkind, hfault⟩ | ⟨after, hcopy, hnever⟩
  · rw [hcopy]
    exact .inl ⟨refusal, after, rfl, hkind, fun hadmitted =>
      hfault ⟨hadmitted.2.1.text_admitted, hadmitted.2.2⟩⟩
  rw [hcopy]
  cases hcompile : compileNode config node.type node.children.length with
  | some refusal =>
      refine .inl ⟨refusal, after, rfl, compileNode_kind hcompile, fun hadmitted => ?_⟩
      have hcompiled := hadmitted.2.1.compiled
      rw [hcompile] at hcompiled
      exact absurd hcompiled (Option.some_ne_none refusal)
  | none =>
      rw [pushChildren_fits _ _ (Nat.le_of_lt hroom)]
      exact .inr ⟨after, rfl, (copyNode_ok hcopy).2, hnever⟩

end Round

/-! ## A whole forest -/

/-- The node at a place of the tree. -/
def nodeAt (tree : OrchTree) (place : Nat) : OrchNode := tree.nodes[place]?.getD ⟨.sequence, [], []⟩

/-- The nodes of a plan for a forest whose first position is `start`. -/
def plannedForest (tree : OrchTree) (forest : Forest Nat) (parent : Option Nat) (start : Nat) :
    List PlanNode :=
  List.zipWith (fun place parent => .ofNode (nodeAt tree place) parent) forest.preorder
    (forest.parents parent start)

/-- The bytes that the texts of a forest take. -/
def forestBytes (tree : OrchTree) (forest : Forest Nat) : Nat :=
  (forest.preorder.map fun place => (nodeAt tree place).textBytes).sum

theorem nodeAt_eq {tree : OrchTree} {place : Nat} {node : OrchNode}
    (hnode : tree.nodes[place]? = some node) : nodeAt tree place = node := by
  rw [nodeAt, hnode, Option.getD_some]

theorem length_plannedForest (tree : OrchTree) (forest : Forest Nat) (parent : Option Nat)
    (start : Nat) : (plannedForest tree forest parent start).length = forest.preorder.length := by
  simp [plannedForest]

theorem plannedForest_tree (tree : OrchTree) (place : Nat) (children siblings : Forest Nat)
    (parent : Option Nat) (start : Nat) :
    plannedForest tree (.tree place children siblings) parent start =
      .ofNode (nodeAt tree place) parent :: (plannedForest tree children (some start) (start + 1) ++
        plannedForest tree siblings parent (start + 1 + children.preorder.length)) := by
  simp only [plannedForest, Forest.preorder, Forest.parents, List.zipWith_cons_cons]
  rw [List.zipWith_append (by simp)]

theorem forestBytes_tree (tree : OrchTree) (place : Nat) (children siblings : Forest Nat) :
    forestBytes tree (.tree place children siblings) = (nodeAt tree place).textBytes +
      (forestBytes tree children + forestBytes tree siblings) := by
  simp [forestBytes, Forest.preorder]

section Traversal

variable {tree : OrchTree} {config : TreeConfig} {profile : PlanProfile}

/-- Nothing in a forest is at fault: its roots stand at `depth`, and `retained` bytes were
copied before it. -/
structure ForestAdmitted (tree : OrchTree) (config : TreeConfig) (profile : PlanProfile)
    (forest : Forest Nat) (depth retained : Nat) (schedule : AllocSchedule) : Prop where
  nodes_admitted : ∀ node ∈ tree.nodes, NodeAdmitted tree config profile node
  depth_le : depth + forest.height ≤ config.maxDepth + 1
  bytes_le : retained + forestBytes tree forest ≤ maxOrchBytes
  allocates : none ∉ schedule

namespace ForestAdmitted

variable {place depth retained : Nat} {children siblings : Forest Nat}
  {schedule after : AllocSchedule}

theorem root_fits (hadmitted : ForestAdmitted tree config profile (.tree place children siblings)
    depth retained schedule) : depth ≤ config.maxDepth ∧
      retained + (nodeAt tree place).textBytes ≤ maxOrchBytes := by
  have hdepth := hadmitted.depth_le
  have hbytes := hadmitted.bytes_le
  simp only [Forest.height, forestBytes_tree] at hdepth hbytes
  omega

theorem below (hadmitted : ForestAdmitted tree config profile (.tree place children siblings)
    depth retained schedule) (hafter : none ∉ after) :
    ForestAdmitted tree config profile children (depth + 1)
      (retained + (nodeAt tree place).textBytes) after := by
  have hdepth := hadmitted.depth_le
  have hbytes := hadmitted.bytes_le
  simp only [Forest.height, forestBytes_tree] at hdepth hbytes
  exact ⟨hadmitted.nodes_admitted, by omega, by omega, hafter⟩

theorem beside (hadmitted : ForestAdmitted tree config profile (.tree place children siblings)
    depth retained schedule) (hafter : none ∉ after) :
    ForestAdmitted tree config profile siblings depth
      (retained + (nodeAt tree place).textBytes + forestBytes tree children) after := by
  have hdepth := hadmitted.depth_le
  have hbytes := hadmitted.bytes_le
  simp only [Forest.height, forestBytes_tree] at hdepth hbytes
  exact ⟨hadmitted.nodes_admitted, by omega, by omega, hafter⟩

end ForestAdmitted

/-- The first round of a traversal with a node on its stack. -/
theorem planNodes_round {place : Nat} {node : OrchNode} (hnode : tree.nodes[place]? = some node)
    (hparams : node.params.length ≤ maxOrchParams) (room : Nat) (parent : Option Nat) (depth : Nat)
    {stack : List OrchVisit} (hspace : stack.length + node.children.length < tree.nodes.length)
    (nodes : List PlanNode) (retained : Nat) (schedule : AllocSchedule) :
    (∃ refusal after, planNodes tree config profile (room + 1)
        ⟨⟨place, parent, depth⟩ :: stack, nodes, retained⟩ schedule = (.error refusal, after) ∧
      refusal ∉ structuralRefusals ∧
      ¬ (depth ≤ config.maxDepth ∧ NodeAdmitted tree config profile node ∧
        retained + node.textBytes ≤ maxOrchBytes ∧ none ∉ schedule)) ∨
    ∃ after, planNodes tree config profile (room + 1)
        ⟨⟨place, parent, depth⟩ :: stack, nodes, retained⟩ schedule =
        planNodes tree config profile room
          ⟨visitsOf (some nodes.length) (depth + 1) node.children ++ stack,
            nodes ++ [.ofNode node parent], retained + node.textBytes⟩ after ∧
      (∀ param ∈ node.params, 0 ∉ param.value) ∧ (none ∉ schedule → none ∉ after) := by
  rw [planNodes]
  rcases @planVisit_cases tree config profile ⟨place, parent, depth⟩ ⟨stack, nodes, retained⟩ node
      schedule hnode hparams hspace with
    ⟨refusal, after, hvisit, hkind, hfault⟩ | ⟨after, hvisit, hclean, hnever⟩
  · rw [hvisit]
    exact .inl ⟨refusal, after, rfl, hkind, hfault⟩
  · rw [hvisit]
    exact .inr ⟨after, rfl, hclean, hnever⟩

/-- The traversal plans the forest on top of its stack and goes on with the rest, or
something in the forest is at fault. -/
theorem planNodes_forest (hparams : ∀ node ∈ tree.nodes, node.params.length ≤ maxOrchParams)
    {places : List Nat} {forest : Forest Nat}
    (hunfolds : Forest.Unfolds (childTable tree.nodes) places forest) (parent : Option Nat)
    (depth : Nat) (rest : List OrchVisit) (nodes : List PlanNode) (retained : Nat)
    (schedule : AllocSchedule) (room : Nat) (hroom : nodes.length + room = tree.nodes.length)
    (hfits : nodes.length + forest.preorder.length + rest.length ≤ tree.nodes.length) :
    (∃ refusal after, planNodes tree config profile room
        ⟨visitsOf parent depth places ++ rest, nodes, retained⟩ schedule = (.error refusal, after) ∧
      refusal ∉ structuralRefusals ∧
      ¬ ForestAdmitted tree config profile forest depth retained schedule) ∨
    ∃ after, planNodes tree config profile room
        ⟨visitsOf parent depth places ++ rest, nodes, retained⟩ schedule =
        planNodes tree config profile (room - forest.preorder.length)
          ⟨rest, nodes ++ plannedForest tree forest parent nodes.length,
            retained + forestBytes tree forest⟩ after ∧
      (∀ place ∈ forest.preorder, ∀ param ∈ (nodeAt tree place).params, 0 ∉ param.value) ∧
      (none ∉ schedule → none ∉ after) := by
  induction hunfolds generalizing parent depth rest nodes retained schedule room with
  | nil =>
      refine .inr ⟨schedule, ?_, by simp [Forest.preorder], id⟩
      simp [visitsOf, Forest.preorder, plannedForest, forestBytes]
  | @cons place below beside children siblings hrow hbelow hbeside ihbelow ihbeside =>
      obtain ⟨node, hnode, rfl⟩ := Option.map_eq_some_iff.mp hrow
      have hmem := List.mem_of_getElem? hnode
      obtain rfl := nodeAt_eq hnode
      have hbelowLength := children.length_roots_le
      rw [hbelow.roots_eq] at hbelowLength
      have hbesideLength := siblings.length_roots_le
      rw [hbeside.roots_eq] at hbesideLength
      simp only [Forest.preorder, List.length_cons, List.length_append] at hfits
      obtain ⟨room, rfl⟩ : ∃ later, room = later + 1 := ⟨room - 1, by omega⟩
      have hspace : (visitsOf parent depth beside ++ rest).length +
          (nodeAt tree place).children.length < tree.nodes.length := by
        simp only [List.length_append, visitsOf, List.length_map]
        omega
      -- the node itself, then the forest of its children, then that of its siblings
      rcases planNodes_round hnode (hparams _ hmem) room parent depth hspace nodes retained
          schedule with ⟨refusal, after, hplan, hkind, hfault⟩ | ⟨after, hplan, hclean, hnever⟩
      · refine .inl ⟨refusal, after, hplan, hkind, fun hadmitted => hfault ?_⟩
        exact ⟨hadmitted.root_fits.1, hadmitted.nodes_admitted _ hmem, hadmitted.root_fits.2,
          hadmitted.allocates⟩
      rcases ihbelow (some nodes.length) (depth + 1) (visitsOf parent depth beside ++ rest)
          (nodes ++ [.ofNode (nodeAt tree place) parent])
          (retained + (nodeAt tree place).textBytes) after room
          (by simp only [List.length_append, List.length_singleton]; omega)
          (by
            simp only [List.length_append, List.length_singleton, visitsOf, List.length_map]
            omega) with
        ⟨refusal, last, hplanBelow, hkind, hfault⟩ | ⟨between, hplanBelow, hcleanBelow, hbetween⟩
      · exact .inl ⟨refusal, last, hplan.trans hplanBelow, hkind, fun hadmitted =>
          hfault (hadmitted.below (hnever hadmitted.allocates))⟩
      rcases ihbeside parent depth rest
          (nodes ++ [.ofNode (nodeAt tree place) parent] ++
            plannedForest tree children (some nodes.length) (nodes.length + 1))
          (retained + (nodeAt tree place).textBytes + forestBytes tree children) between
          (room - children.preorder.length)
          (by
            simp only [List.length_append, List.length_singleton, length_plannedForest]
            omega)
          (by
            simp only [List.length_append, List.length_singleton, length_plannedForest]
            omega) with
        ⟨refusal, last, hplanBeside, hkind, hfault⟩ | ⟨last, hplanBeside, hcleanBeside, hlast⟩
      all_goals
        rw [List.length_append, List.length_singleton] at hplanBelow
      · exact .inl ⟨refusal, last, hplan.trans (hplanBelow.trans hplanBeside), hkind,
          fun hadmitted => hfault (hadmitted.beside (hbetween (hnever hadmitted.allocates)))⟩
      refine .inr ⟨last, hplan.trans (hplanBelow.trans (hplanBeside.trans ?_)), ?_,
        fun hschedule => hlast (hbetween (hnever hschedule))⟩
      · have hlength : (nodes ++ [PlanNode.ofNode (nodeAt tree place) parent] ++
            plannedForest tree children (some nodes.length) (nodes.length + 1)).length =
            nodes.length + 1 + children.preorder.length := by
          simp only [List.length_append, List.length_singleton, length_plannedForest]
        have hrooms : room - children.preorder.length - siblings.preorder.length =
            room + 1 - (Forest.tree place children siblings).preorder.length := by
          simp only [Forest.preorder, List.length_cons, List.length_append]
          omega
        have hnodes : nodes ++ [PlanNode.ofNode (nodeAt tree place) parent] ++
            plannedForest tree children (some nodes.length) (nodes.length + 1) ++
            plannedForest tree siblings parent (nodes.length + 1 + children.preorder.length) =
            nodes ++ plannedForest tree (.tree place children siblings) parent nodes.length := by
          simp [plannedForest_tree]
        rw [hlength, hrooms, hnodes, forestBytes_tree, Nat.add_assoc, Nat.add_assoc]
      · intro other hother
        rcases List.mem_cons.mp hother with rfl | hother
        · exact hclean
        rcases List.mem_append.mp hother with hother | hother
        · exact hcleanBelow other hother
        · exact hcleanBeside other hother

/-- The stack of every state is the roots of a forest that has, with the plan so far, as
many nodes as the tree. -/
theorem Traversal.pending {shape : Forest Nat}
    (hspans : Forest.Spans (childTable tree.nodes) tree.nodes.length shape) {cursor : PlanCursor}
    (htraversal : Traversal tree config profile cursor) :
    ∃ forest, Forest.Unfolds (childTable tree.nodes) (cursor.stack.map OrchVisit.node) forest ∧
      cursor.nodes.length + forest.preorder.length = tree.nodes.length := by
  induction htraversal with
  | start => exact ⟨shape, hspans.unfolds, by simp [hspans.perm.length_eq]⟩
  | @visit visit stack nodes retained schedule after next _ hvisit ih =>
      obtain ⟨forest, hunfolds, hlength⟩ := ih
      cases hunfolds with
      | @cons _ below _ children siblings hrow hbelow hbeside =>
          obtain ⟨node, planned, hplanned, hstack, hnodes⟩ := planVisit_ok hvisit
          obtain rfl : node.children = below := by
            simpa [childTable, hplanned.found] using hrow
          refine ⟨children.append siblings, ?_, ?_⟩
          · have hmap : next.stack.map OrchVisit.node =
                node.children ++ stack.map OrchVisit.node := by
              simp [hstack, visitsOf, Function.comp_def]
            rw [hmap]
            exact hbelow.append hbeside
          · simp only [Forest.preorder, List.length_cons, List.length_append] at hlength
            rw [hnodes, Forest.preorder_append]
            simp only [List.length_append, List.length_singleton]
            omega

/-- The stack never has more nodes than it has places for. -/
theorem Traversal.stack_le {shape : Forest Nat}
    (hspans : Forest.Spans (childTable tree.nodes) tree.nodes.length shape) {cursor : PlanCursor}
    (htraversal : Traversal tree config profile cursor) :
    cursor.nodes.length + cursor.stack.length ≤ tree.nodes.length := by
  obtain ⟨forest, hunfolds, hlength⟩ := htraversal.pending hspans
  have hroots := forest.length_roots_le
  rw [hunfolds.roots_eq, List.length_map] at hroots
  omega

/-- The texts of the whole tree. -/
theorem forestBytes_shape {shape : Forest Nat}
    (hspans : Forest.Spans (childTable tree.nodes) tree.nodes.length shape) :
    forestBytes tree shape = (tree.nodes.map OrchNode.textBytes).sum := by
  have hnodes : (List.range tree.nodes.length).map (fun place => (nodeAt tree place).textBytes) =
      tree.nodes.map OrchNode.textBytes := by
    apply List.ext_getElem
    · simp
    · intro index hindex _
      rw [List.length_map, List.length_range] at hindex
      simp [nodeAt, hindex]
  rw [forestBytes, (hspans.perm.map _).sum_eq, hnodes]

end Traversal

/-! ## The plan of a tree -/

/-- Texts without a NUL are kept as they are. -/
theorem label_ofNode {node : OrchNode} (hclean : ∀ param ∈ node.params, 0 ∉ param.value)
    (parent : Option Nat) : (PlanNode.ofNode node parent).label = nodeLabel node := by
  have hparams (params : List OrchParam) (hclean : ∀ param ∈ params, 0 ∉ param.value) :
      (textParams params).map Prod.fst = params.map OrchParam.key ∧
        ((textParams params).map fun param => param.2.bytes) = params.map OrchParam.value := by
    induction params with
    | nil => exact ⟨rfl, rfl⟩
    | cons param rest ih =>
        have hzero : 0 ∉ param.value := hclean param List.mem_cons_self
        have hrest := ih fun other hother => hclean other (List.mem_cons_of_mem _ hother)
        have htext : CString.ofBytes param.value = some ⟨param.value, hzero⟩ := dif_neg hzero
        simp only [textParams] at hrest ⊢
        simp [htext, hrest]
  obtain ⟨hnames, htexts⟩ := hparams node.params hclean
  simp [PlanNode.label, PlanNode.ofNode, nodeLabel, hnames, htexts]

section Plan

variable {tree : OrchTree} {config : TreeConfig} {profile : PlanProfile} {shape : Forest Nat}

theorem map_parent_plannedForest (forest : Forest Nat) (parent : Option Nat) (start : Nat) :
    (plannedForest tree forest parent start).map PlanNode.parent = forest.parents parent start := by
  rw [plannedForest, List.map_zipWith]
  have hzip := @List.map_snd_zip _ _ forest.preorder (forest.parents parent start) (by simp)
  rwa [List.zip, List.map_zipWith] at hzip

/-- The forest of the tree, planned node by node, is the tree in preorder. -/
theorem preorderPlan_planned
    (hspans : Forest.Spans (childTable tree.nodes) tree.nodes.length shape)
    (hclean : ∀ place ∈ shape.preorder, ∀ param ∈ (nodeAt tree place).params, 0 ∉ param.value)
    {plan : SessionPlan} (hplan : plan.nodes = plannedForest tree shape none 0) :
    PreorderPlan tree shape plan := by
  have hlabel : ∀ index place : Nat, shape.preorder[index]? = some place → ∃ node planned,
      tree.nodes[place]? = some node ∧ plan.nodes[index]? = some planned ∧
        PlanNode.label planned = nodeLabel node := by
    intro index place hplace
    have hindex : index < (shape.parents none 0).length := by
      rw [Forest.length_parents]
      exact (List.getElem?_eq_some_iff.mp hplace).1
    have hmem := List.mem_of_getElem? hplace
    obtain ⟨_, hrow⟩ := Option.isSome_iff_exists.mp (hspans.unfolds.isSome_of_mem hmem)
    obtain ⟨node, hnode, _⟩ := Option.map_eq_some_iff.mp hrow
    refine ⟨node, .ofNode node (shape.parents none 0)[index], hnode, ?_, ?_⟩
    · rw [hplan, plannedForest, List.getElem?_zipWith_eq_some]
      exact ⟨place, _, hplace, List.getElem?_eq_getElem hindex, by rw [nodeAt_eq hnode]⟩
    · exact label_ofNode (nodeAt_eq hnode ▸ hclean place hmem) _
  have hparents : plan.nodes.map PlanNode.parent = shape.parents none 0 := by
    rw [hplan, map_parent_plannedForest]
  have hparent {index : Nat} {planned : PlanNode} (hplanned : plan.nodes[index]? = some planned) :
      (shape.parents none 0)[index]? = some planned.parent := by
    rw [← hparents, List.getElem?_map, hplanned, Option.map_some]
  obtain ⟨children, hshape⟩ : ∃ children, shape = .tree 0 children .empty := by
    cases hspans.unfolds with
    | cons _ _ hbeside =>
        cases hbeside
        exact ⟨_, rfl⟩
  refine ⟨?_, hlabel, ?_, fun index planned hplanned hlater => ?_, ?_⟩
  · rw [hplan, length_plannedForest, hspans.perm.length_eq, List.length_range]
  · obtain ⟨_, root, _, hroot, _⟩ := hlabel 0 0 (by rw [hshape]; rfl)
    refine ⟨root, hroot, ?_⟩
    simpa [hshape, Forest.parents, eq_comm] using hparent hroot
  · have hfound := hparent hplanned
    obtain ⟨index, rfl⟩ := Nat.exists_eq_succ_of_ne_zero hlater
    rw [hshape, Forest.parents, List.getElem?_cons_succ, Forest.parents, List.append_nil] at hfound
    rcases children.parents_cases hfound with hroot | ⟨position, hposition, _, hbefore, _⟩
    · exact ⟨0, Nat.succ_pos _, hroot⟩
    · exact ⟨position, by omega, hposition⟩
  · rw [hparents]
    refine ⟨shape.positions 0, shape.unfolds_grouped, shape.map_positions 0 ?_⟩
    intro index place hplace
    obtain ⟨node, planned, hnode, hplanned, hsame⟩ := hlabel index place hplace
    simp [hnode, hplanned, hsame]

/-- The number of nodes, the limits, the depth, the nodes and the topology that the profile
asks for are admitted. -/
structure TreeAdmitted (tree : OrchTree) (config : TreeConfig) (profile : PlanProfile)
    (shape : Forest Nat) : Prop where
  count_le : tree.nodes.length ≤ maxOrchNodes ∧ tree.nodes.length ≤ config.maxNodes
  depth_bound : 0 < config.maxDepth ∧ config.maxDepth ≤ config.depthBound
  control_bound : 0 < config.maxControlIterations ∧
    config.maxControlIterations ≤ config.controlIterationBound
  depth_le : shape.height ≤ config.maxDepth
  nodes_admitted : ∀ node ∈ tree.nodes, NodeAdmitted tree config profile node
  profile_admitted : profileRefusal tree profile = none

theorem profileRefusal_kind {refusal : Refusal} (hprofile : profileRefusal tree profile = some refusal) :
    refusal ∉ structuralRefusals := by
  have hstatus : refusal.status = .enotsup := by
    unfold profileRefusal at hprofile
    split at hprofile
    · simp at hprofile
    · split_ifs at hprofile
      rw [← Option.some.inj hprofile]
    · split at hprofile
      · split_ifs at hprofile
        rw [← Option.some.inj hprofile]
      · rw [← Option.some.inj hprofile]
    · split at hprofile
      · split at hprofile
        · split_ifs at hprofile
          all_goals rw [← Option.some.inj hprofile]
        · rw [← Option.some.inj hprofile]
      · rw [← Option.some.inj hprofile]
  intro hmem
  have hinvalid : ∀ other ∈ structuralRefusals, other.status ≠ .enotsup := by decide +kernel
  exact hinvalid refusal hmem hstatus

/-- A tree with its nodes in place gets a plan, or something other than its structure is at
fault. -/
theorem createPlan_cases (hspans : Forest.Spans (childTable tree.nodes) tree.nodes.length shape)
    (hparams : ∀ node ∈ tree.nodes, node.params.length ≤ maxOrchParams)
    (hbytes : (tree.nodes.map OrchNode.textBytes).sum ≤ maxOrchBytes) (schedule : AllocSchedule) :
    (∃ refusal after, createPlan tree config profile schedule = (.error refusal, after) ∧
      refusal ∉ structuralRefusals ∧
      ¬ (TreeAdmitted tree config profile shape ∧ none ∉ schedule)) ∨
    ∃ plan after, createPlan tree config profile schedule = (.ok plan, after) ∧
      PreorderPlan tree shape plan := by
  have hcount : shape.preorder.length = tree.nodes.length := by
    rw [hspans.perm.length_eq, List.length_range]
  have hpos : 0 < tree.nodes.length := by
    rw [← hcount]
    cases hspans.unfolds with
    | cons _ _ _ => exact Nat.succ_pos _
  have hallocs (hnever : none ∉ schedule) : schedule.alloc.1 ≠ none ∧
      schedule.alloc.2.alloc.1 ≠ none ∧ schedule.alloc.2.alloc.2.alloc.1 ≠ none ∧
        none ∉ schedule.alloc.2.alloc.2.alloc.2 := by
    obtain ⟨hfirst, hnever⟩ := alloc_mem rfl hnever
    obtain ⟨hsecond, hnever⟩ := alloc_mem rfl hnever
    obtain ⟨hthird, hnever⟩ := alloc_mem rfl hnever
    exact ⟨hfirst, hsecond, hthird, hnever⟩
  simp only [createPlan]
  split
  · rename_i hlimits
    refine .inl ⟨_, _, rfl, by decide +kernel, fun hadmitted => ?_⟩
    obtain ⟨⟨hnodes, hmaxNodes⟩, ⟨hdepthPos, hdepth⟩, ⟨hcontrolPos, hcontrol⟩, _⟩ := hadmitted.1
    simp only [Bool.or_eq_true, decide_eq_true_eq] at hlimits
    omega
  split
  · rename_i hplan
    refine .inl ⟨_, _, rfl, by decide +kernel, fun hadmitted => ?_⟩
    exact (hallocs hadmitted.2).1 (Option.isNone_iff_eq_none.mp hplan)
  split
  · rename_i refusal hprofile
    refine .inl ⟨_, _, rfl, profileRefusal_kind hprofile, fun hadmitted => ?_⟩
    rw [hadmitted.1.profile_admitted] at hprofile
    exact Option.some_ne_none _ hprofile.symm
  split
  · rename_i hfailed
    refine .inl ⟨_, _, rfl, by decide +kernel, fun hadmitted => ?_⟩
    simp only [Bool.or_eq_true, Option.isNone_iff_eq_none] at hfailed
    exact hfailed.elim (hallocs hadmitted.2).2.1 (hallocs hadmitted.2).2.2.1
  rcases @planNodes_forest tree config profile hparams [0] shape hspans.unfolds none 1 [] [] 0
      schedule.alloc.2.alloc.2.alloc.2 tree.nodes.length (Nat.zero_add _) (by simp [hcount]) with
    ⟨refusal, after, hplan, hkind, hfault⟩ | ⟨after, hplan, hclean, _⟩
  · rw [show [⟨0, none, 1⟩] = visitsOf none 1 [0] ++ [] from rfl, hplan]
    refine .inl ⟨refusal, after, rfl, hkind, fun hadmitted => hfault ?_⟩
    refine ⟨hadmitted.1.nodes_admitted, ?_, ?_, (hallocs hadmitted.2).2.2.2⟩
    · have := hadmitted.1.depth_le
      omega
    · rwa [Nat.zero_add, forestBytes_shape hspans]
  · rw [show [⟨0, none, 1⟩] = visitsOf none 1 [0] ++ [] from rfl, hplan]
    have hlength : (plannedForest tree shape none 0).length = tree.nodes.length := by
      rw [length_plannedForest, hcount]
    simp only [planNodes, List.nil_append, List.length_nil, hlength, ne_eq, not_true, if_false]
    exact .inr ⟨_, _, rfl, preorderPlan_planned hspans hclean rfl⟩

/-- A plan of a tree that was built is the tree in depth-first preorder.  The stack of the
traversal never overflows, no refusal is one of its structure, and a tree that is
admitted otherwise gets a plan when its allocations succeed. -/
theorem createPlan_preorder {tree : OrchTree} (hbuilt : BuiltTree tree) (config : TreeConfig)
    (profile : PlanProfile) :
    ∃ shape, Forest.Spans (childTable tree.nodes) tree.nodes.length shape ∧
      (∀ other, Forest.Unfolds (childTable tree.nodes) [0] other → other = shape) ∧
      (∀ schedule plan after, createPlan tree config profile schedule = (.ok plan, after) →
        PreorderPlan tree shape plan) ∧
      (∀ cursor, Traversal tree config profile cursor →
        cursor.stack.length ≤ tree.nodes.length) ∧
      (∀ schedule refusal after, createPlan tree config profile schedule = (.error refusal, after) →
        refusal ∉ structuralRefusals) ∧
      (TreeAdmitted tree config profile shape → ∀ schedule, none ∉ schedule →
        ∃ plan after, createPlan tree config profile schedule = (.ok plan, after)) := by
  obtain ⟨build, hnodes, ⟨shape, hspans⟩, hfits⟩ := hbuilt.sound
  have hbytes : (build.nodes.map OrchNode.textBytes).sum ≤ maxOrchBytes :=
    hfits.bytes_eq ▸ hfits.bytes_le
  have hparams := hfits.params_le
  rw [hnodes] at hspans hbytes hparams
  have hcases := @createPlan_cases tree config profile shape hspans hparams hbytes
  refine ⟨shape, hspans, fun other hother => hother.unique hspans.unfolds, fun schedule plan after hplan => ?_, fun cursor htraversal => ?_,
    fun schedule refusal after hplan => ?_, fun hadmitted schedule hnever => ?_⟩
  · rcases hcases schedule with ⟨_, _, herror, _⟩ | ⟨planned, _, hplanned, hpreorder⟩
    · simp [hplan] at herror
    · obtain ⟨rfl, _⟩ : plan = planned ∧ _ := by simpa using hplan.symm.trans hplanned
      exact hpreorder
  · exact Nat.le_trans (Nat.le_add_left _ _) (htraversal.stack_le hspans)
  · rcases hcases schedule with ⟨found, _, herror, hkind, _⟩ | ⟨_, _, hplanned, _⟩
    · obtain ⟨rfl, _⟩ : refusal = found ∧ _ := by simpa using hplan.symm.trans herror
      exact hkind
    · simp [hplan] at hplanned
  · rcases hcases schedule with ⟨_, _, _, _, hfault⟩ | ⟨plan, after, hplan, _⟩
    · exact absurd ⟨hadmitted, hnever⟩ hfault
    · exact ⟨plan, after, hplan⟩

end Plan

/-! ## A tree whose table is not in preorder -/

/-- A Sequence over a Fallback and a SetVariable, and after these the child of the Fallback. -/
def branchingInputs : List OrchFlatNode :=
  [⟨some .sequence, orchRootParent, some []⟩, ⟨some .fallback, 0, some []⟩,
    ⟨some .setVariable, 0, some [⟨some (ascii "Key"), some (ascii "last")⟩]⟩,
    ⟨some .setVariable, 1, some [⟨some (ascii "key"), some (ascii "first")⟩,
      ⟨some (ascii "value"), some []⟩]⟩]

/-- The tree built from them. -/
def branchingTree : OrchTree :=
  ⟨[⟨.sequence, [], [1, 2]⟩, ⟨.fallback, [], [3]⟩,
    ⟨.setVariable, [⟨.literal "key", ascii "last"⟩], []⟩,
    ⟨.setVariable, [⟨.literal "key", ascii "first"⟩, ⟨.literal "value", []⟩], []⟩]⟩

/-- Its shape. -/
def branchingShape : Forest Nat :=
  .tree 0 (.tree 1 (.tree 3 .empty .empty) (.tree 2 .empty .empty)) .empty

theorem createPlan_preorder_branching :
    BuiltTree branchingTree ∧ branchingShape.preorder = [0, 1, 3, 2] ∧
      ∃ plan after, createPlan branchingTree plainConfig .default [] = (.ok plan, after) ∧
        PreorderPlan branchingTree branchingShape plan := by
  have hbuilt : BuiltTree branchingTree := .flat branchingInputs (by decide +kernel)
  obtain ⟨shape, _, hunique, hpreorder, _, _, hplanned⟩ :=
    createPlan_preorder hbuilt plainConfig .default
  obtain rfl : branchingShape = shape := hunique branchingShape
    (.cons rfl (.cons rfl (.cons rfl .nil .nil) (.cons rfl .nil .nil)) .nil)
  have hnodes : ∀ node ∈ branchingTree.nodes, admitsType branchingTree .default node.type = true ∧
      (∀ param ∈ node.params, 0 ∉ param.value ∧ containsMustache param.value = false) ∧
      compileNode plainConfig node.type node.children.length = none := by decide +kernel
  have hadmitted : TreeAdmitted branchingTree plainConfig .default branchingShape :=
    ⟨by decide, by decide, by decide, by decide,
      fun node hnode => ⟨(hnodes node hnode).1, (hnodes node hnode).2.1, (hnodes node hnode).2.2⟩,
      rfl⟩
  obtain ⟨plan, after, hplan⟩ := hplanned hadmitted [] List.not_mem_nil
  exact ⟨hbuilt, rfl, plan, after, hplan, hpreorder [] plan after hplan⟩

end Praktor.Runtime
