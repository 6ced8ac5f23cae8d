/-
# Ports of a plan and ports of its publication

The keys of a task are decided twice.  Its leaf writes under the keys its parameters
stand for when it runs; `publish_success` reads under the fixed names of a Shell, or
under the literal text of the parameter `key`.  The two agree on every run that ends
with success exactly when the parameters stand for the names that are read.

A lowered command never agrees: `praktor_orch_from_command` gives its Shell the output
key `stdout`.
-/

import Praktor.Runtime.Leaf

namespace Praktor.Runtime

open Praktor.Data Praktor.Values Praktor.Workflow

/-! ## Agreement -/

/-- The parameters of a node as a leaf sees them. -/
def textParams (params : List OrchParam) : LeafParams :=
  params.filterMap fun param => (CString.ofBytes param.value).map fun text => (param.key, text)

/-- The parameters of the leaf of a task: its tree is in preorder and the leaf is last. -/
def leafParams (task : SnapshotTask) : LeafParams :=
  textParams ((task.tree.nodes.getLast?.map OrchNode.params).getD [])

/-- What the ports of a publication are read for, in the order of `outputPorts`. -/
def leafPorts : Option CString → List LeafPort
  | none => [.exitCode, .output, .errors]
  | some _ => [.variable]

/-- The keys a publication reads, with what it reads them for. -/
def portReads (setKey : Option CString) : List (LeafPort × CString) :=
  (leafPorts setKey).zip (portKeys setKey)

/-- The publication of a task finds, for each of its ports, the text that the leaf wrote
for it in this run, under the key it wrote it to. -/
def PortsAgree (task : SnapshotTask) (result : LeafRun) : Prop :=
  ∃ setKey, taskSetKey task = .ok setKey ∧ ∀ port key, (port, key) ∈ portReads setKey →
    ∃ text, ⟨port, key, text.bytes⟩ ∈ result.writes ∧
      readOutput result.scope key (maxValue + 1) = .ok text

/-- The parameters of a task stand for the names its publication reads: the default names
of a Shell, or a key that stands for itself and fits the buffer of the publication. -/
def PortsDefault (task : SnapshotTask) (scope : ValueStore) : Prop :=
  if isShell task then
    ShellKeys (leafParams task) scope (.literal "shell_output") (.literal "shell_stderr")
      (.literal "shell_exit_code")
  else
    ∃ key, parameter (leafParams task) (.literal "key") = some key ∧
      resolved scope key = some key ∧ key.length < 128

/-! ## The leaf of an admitted plan -/

/-- Copies of parameters are their texts. -/
theorem copyParams_ok (params : List OrchParam) (retained : Nat) (schedule : AllocSchedule)
    {copies : List (CString × CString)} {total : Nat} {rest : AllocSchedule}
    (hcopy : copyParams params retained schedule = (.ok (copies, total), rest)) :
    copies = textParams params ∧ ∀ param ∈ params, 0 ∉ param.value := by
  induction params generalizing retained schedule copies total rest with
  | nil =>
      obtain ⟨⟨rfl, _⟩, _⟩ : ([] = copies ∧ retained = total) ∧ schedule = rest := by
        simpa [copyParams] using hcopy
      simp [textParams]
  | cons param params ih =>
      rw [copyParams] at hcopy
      split_ifs at hcopy with hzero
      · simp at hcopy
      · simp at hcopy
      · simp at hcopy
      split at hcopy
      · simp at hcopy
      split at hcopy
      · simp at hcopy
      rename_i later _ _ hlater
      obtain ⟨rfl, hclean⟩ := ih _ _ hlater
      obtain ⟨⟨rfl, _⟩, _⟩ := by simpa using hcopy
      refine ⟨by simp [textParams, CString.ofBytes, hzero], ?_⟩
      simpa [hzero] using hclean

theorem copyNode_ok {node : OrchNode} {retained : Nat} {schedule : AllocSchedule}
    {copies : List (CString × CString)} {total : Nat} {rest : AllocSchedule}
    (hcopy : copyNode node retained schedule = (.ok (copies, total), rest)) :
    copies = textParams node.params ∧ ∀ param ∈ node.params, 0 ∉ param.value := by
  simp only [copyNode] at hcopy
  split_ifs at hcopy with hempty
  · obtain ⟨⟨rfl, _⟩, _⟩ : ([] = copies ∧ retained = total) ∧ schedule = rest := by
      simpa using hcopy
    rw [List.length_eq_zero_iff.mp hempty]
    simp [textParams]
  · simp at hcopy
  · exact copyParams_ok _ _ _ hcopy

/-- The node of a plan for a node of the tree. -/
def PlanNode.ofNode (node : OrchNode) (parent : Option Nat) : PlanNode where
  action := node.type
  params := textParams node.params
  sizes := node.params.map fun param => param.value.length
  children := node.children.length
  parent := parent

/-- A node that was planned, as it stands in the plan. -/
structure PlannedNode (tree : OrchTree) (config : TreeConfig) (visit : OrchVisit) (node : OrchNode)
    (planned : PlanNode) : Prop where
  found : tree.nodes[visit.node]? = some node
  planned_eq : planned = .ofNode node visit.parent
  clean : ∀ param ∈ node.params, 0 ∉ param.value
  compiled : compileNode config node.type node.children.length = none

/-- A round that succeeds. -/
theorem planVisit_ok {tree : OrchTree} {config : TreeConfig} {profile : PlanProfile}
    {visit : OrchVisit} {cursor next : PlanCursor} {schedule rest : AllocSchedule}
    (hvisit : planVisit tree config profile visit cursor schedule = (.ok next, rest)) :
    ∃ node planned, PlannedNode tree config visit node planned ∧
      next.stack =
        visitsOf (some cursor.nodes.length) (visit.depth + 1) node.children ++ cursor.stack ∧
      next.nodes = cursor.nodes ++ [planned] := by
  rw [planVisit] at hvisit
  split at hvisit
  · simp at hvisit
  rename_i node hnode
  split_ifs at hvisit
  · simp at hvisit
  · simp at hvisit
  · simp at hvisit
  split at hvisit
  · simp at hvisit
  rename_i copies total _ hcopy
  split at hvisit
  · simp at hvisit
  rename_i hcompile
  split at hvisit
  · simp at hvisit
  rename_i stack hpush
  obtain ⟨rfl, hclean⟩ := copyNode_ok hcopy
  obtain ⟨rfl, _⟩ := by simpa using hvisit
  exact ⟨node, _, ⟨hnode, rfl, hclean, hcompile⟩, pushChildren_ok hpush, rfl⟩

/-- One round of the traversal. -/
theorem planNodes_visit {tree : OrchTree} {config : TreeConfig} {profile : PlanProfile}
    {room : Nat} {visit : OrchVisit} {stack : List OrchVisit} {nodes result : List PlanNode}
    {retained : Nat} {schedule rest : AllocSchedule}
    (hplan : planNodes tree config profile (room + 1) ⟨visit :: stack, nodes, retained⟩ schedule =
      (.ok result, rest)) :
    ∃ node planned total next, PlannedNode tree config visit node planned ∧
      planNodes tree config profile room
        ⟨visitsOf (some nodes.length) (visit.depth + 1) node.children ++ stack, nodes ++ [planned],
          total⟩ next = (.ok result, rest) := by
  rw [planNodes] at hplan
  split at hplan
  · simp at hplan
  rename_i cursor next hvisit
  obtain ⟨node, planned, hplanned, hstack, hnodes⟩ := planVisit_ok hvisit
  obtain ⟨_, _, total⟩ := cursor
  simp only at hstack hnodes
  subst hstack hnodes
  exact ⟨node, planned, total, next, hplanned, hplan⟩

/-- A Shell or a SetVariable in a plan has no children. -/
theorem PlannedNode.children_eq {tree : OrchTree} {config : TreeConfig} {visit : OrchVisit}
    {node : OrchNode} {planned : PlanNode} (hplanned : PlannedNode tree config visit node planned)
    (hleaf : node.type = .shell ∨ node.type = .setVariable) : node.children = [] := by
  have hcompiled := hplanned.compiled
  by_contra hchildren
  rcases hleaf with hleaf | hleaf
  all_goals
    simp only [compileNode, hleaf] at hcompiled
    split_ifs at hcompiled with _ hlength
    exact hchildren (List.length_eq_zero_iff.mp (not_not.mp hlength))

/-- The plan of a task, seen from its leaf. -/
structure LeafPlan (task : SnapshotTask) (plan : SessionPlan) (leaf : PlanNode) : Prop where
  session_eq : ∀ parse scope process outcomes,
    runSession parse plan scope process outcomes = tickLeaf parse leaf scope process outcomes
  action_eq : leaf.action = if isShell task then .shell else .setVariable
  params_eq : leaf.params = leafParams task
  setKey_eq : isShell task = false → ∃ node, task.tree.root = some node ∧
    node.type = .setVariable ∧ leafParams task = textParams node.params ∧
    ∀ param ∈ node.params, 0 ∉ param.value

theorem createPlan_ok {tree : OrchTree} {config : TreeConfig} {profile : PlanProfile}
    {schedule rest : AllocSchedule} {plan : SessionPlan}
    (hplan : createPlan tree config profile schedule = (.ok plan, rest)) :
    profileRefusal tree profile = none ∧ plan.nodes.length = tree.nodes.length ∧
      ∃ before after, planNodes tree config profile tree.nodes.length
        ⟨[⟨0, none, 1⟩], [], 0⟩ before = (.ok plan.nodes, after) := by
  simp only [createPlan] at hplan
  split at hplan
  · simp at hplan
  split at hplan
  · simp at hplan
  split at hplan
  · simp at hplan
  rename_i hprofile
  split at hplan
  · simp at hplan
  split at hplan
  · simp at hplan
  rename_i nodes after hnodes
  split_ifs at hplan with hlength
  · simp at hplan
  · obtain ⟨rfl, _⟩ : ⟨nodes, decide (profile ≠ .default)⟩ = plan ∧ after = rest := by
      simpa using hplan
    exact ⟨hprofile, not_not.mp hlength, _, after, hnodes⟩

/-- A plan whose root is a leaf has no other node. -/
theorem createPlan_single {tree : OrchTree} {config : TreeConfig} {profile : PlanProfile}
    {schedule rest : AllocSchedule} {plan : SessionPlan} {root : OrchNode}
    (hplan : createPlan tree config profile schedule = (.ok plan, rest))
    (hroot : tree.root = some root) (hleaf : root.type = .shell ∨ root.type = .setVariable) :
    tree.nodes = [root] ∧ plan.nodes = [.ofNode root none] ∧
      ∀ param ∈ root.params, 0 ∉ param.value := by
  obtain ⟨_, hlength, before, after, hnodes⟩ := createPlan_ok hplan
  obtain ⟨rest, hrest⟩ : ∃ rest, tree.nodes = root :: rest := by
    cases hnodes : tree.nodes with
    | nil => simp [OrchTree.root, hnodes] at hroot
    | cons first rest => exact ⟨rest, by simpa [OrchTree.root, hnodes] using hroot⟩
  rw [hrest, List.length_cons] at hnodes
  obtain ⟨node, planned, total, next, hplanned, hnodes⟩ := planNodes_visit hnodes
  obtain rfl : root = node := by simpa [hrest] using hplanned.found
  rw [hplanned.children_eq hleaf] at hnodes
  have hplanNodes : plan.nodes = [planned] := by
    simpa [planNodes, visitsOf, eq_comm] using congrArg Prod.fst hnodes
  have hsingle : rest = [] := by
    rw [hplanNodes, hrest] at hlength
    simpa using hlength.symm
  rw [hplanNodes, hplanned.planned_eq, hrest, hsingle]
  exact ⟨rfl, rfl, hplanned.clean⟩

/-- The plan of a command is a Sequence over its Shell. -/
theorem createPlan_command {tree : OrchTree} {config : TreeConfig}
    {schedule rest : AllocSchedule} {plan : SessionPlan}
    (hplan : createPlan tree config .singleCommand schedule = (.ok plan, rest)) :
    ∃ sequence shell planned, tree.nodes = [sequence, shell] ∧ shell.type = .shell ∧
      planned.action = .sequence ∧
      plan.nodes = [planned, .ofNode shell (some 0)] := by
  obtain ⟨hprofile, _, before, after, hnodes⟩ := createPlan_ok hplan
  rw [profileRefusal] at hprofile
  split at hprofile
  · rename_i params child last htree
    split_ifs at hprofile with hshell
    obtain rfl : child = 1 := by
      rcases child with _ | _ | child
      · simp [htree] at hshell
      · rfl
      · simp [htree] at hshell
    have htype : last.type = .shell := by simpa [htree] using hshell
    rw [htree, List.length_cons, List.length_singleton] at hnodes
    obtain ⟨first, sequence, total, next, hsequence, hnodes⟩ := planNodes_visit hnodes
    obtain rfl : ⟨.sequence, params, [1]⟩ = first := by simpa [htree] using hsequence.found
    obtain ⟨second, planned, total, next, hplanned, hnodes⟩ := planNodes_visit hnodes
    obtain rfl : last = second := by simpa [htree] using hplanned.found
    rw [hplanned.children_eq (.inl htype)] at hnodes
    refine ⟨_, last, sequence, htree, htype, by rw [hsequence.planned_eq]; rfl, ?_⟩
    have hplanNodes : plan.nodes = [sequence, planned] := by
      simpa [planNodes, visitsOf, eq_comm] using congrArg Prod.fst hnodes
    rw [hplanNodes, hplanned.planned_eq]
    rfl
  · simp at hprofile

/-- Every plan that `make_plan` makes has a leaf with the parameters of the task. -/
theorem makePlan_leaf {config : TreeConfig} {task : SnapshotTask} {schedule rest : AllocSchedule}
    {plan : SessionPlan} (hplan : makePlan config task schedule = (.ok plan, rest)) :
    ∃ leaf, LeafPlan task plan leaf := by
  rw [makePlan] at hplan
  split at hplan
  · simp at hplan
  rename_i root hroot
  split at hplan
  · rename_i hkind
    obtain ⟨sequence, shell, planned, htree, htype, haction, hnodes⟩ := createPlan_command hplan
    have hshell : isShell task = true := by simp [isShell, hkind]
    refine ⟨.ofNode shell (some 0), fun parse scope process outcomes => ?_,
      by simp [hshell, PlanNode.ofNode, htype], by simp [PlanNode.ofNode, leafParams, htree],
      by simp [hshell]⟩
    obtain ⟨_, _, _, _, _⟩ := planned
    simp only at haction
    subst haction
    simp [runSession, hnodes]
  · rename_i hkind
    split at hplan
    · rename_i htype
      obtain ⟨htree, hnodes, _⟩ := createPlan_single hplan hroot (.inl htype)
      have hshell : isShell task = true := by simp [isShell, hroot, htype]
      refine ⟨.ofNode root none, fun parse scope process outcomes => ?_,
        by simp [hshell, PlanNode.ofNode, htype], by simp [PlanNode.ofNode, leafParams, htree],
        by simp [hshell]⟩
      simp [runSession, hnodes]
    · rename_i htype
      obtain ⟨htree, hnodes, hclean⟩ := createPlan_single hplan hroot (.inr htype)
      have hshell : isShell task = false := by simp [isShell, hroot, htype, hkind]
      refine ⟨.ofNode root none, fun parse scope process outcomes => ?_,
        by simp [hshell, PlanNode.ofNode, htype], by simp [PlanNode.ofNode, leafParams, htree],
        fun _ => ⟨root, hroot, htype, by simp [leafParams, htree], hclean⟩⟩
      simp [runSession, hnodes]
    · simp at hplan

/-! ## What a publication reads -/

theorem readOutput_found {store : ValueStore} {key text : CString}
    (hfound : store.findEntry key = some text) (hlength : text.length ≤ maxValue) :
    readOutput store key (maxValue + 1) = .ok text := by
  have hadmits : store.admitsKey key = true :=
    ValueStore.admitsKey_iff.mpr (ValueStore.fitsKey_of_findEntry hfound)
  simp [readOutput, ValueStore.get, hadmits, hfound, Nat.not_le.mpr (Nat.lt_succ_of_le hlength)]

/-- The first parameter with a name, as text. -/
theorem parameter_textParams {params : List OrchParam}
    (hclean : ∀ param ∈ params, 0 ∉ param.value) (name : CString) :
    parameter (textParams params) name =
      (params.find? fun param => param.key = name).bind fun param =>
        CString.ofBytes param.value := by
  induction params with
  | nil => rfl
  | cons param params ih =>
      have hparam : 0 ∉ param.value := hclean param (by simp)
      have hrest := ih fun other hother => hclean other (by simp [hother])
      simp only [textParams, parameter] at hrest ⊢
      by_cases hname : param.key = name
      · simp [CString.ofBytes, hparam, hname]
      · have hne : (name == param.key) = false := beq_eq_false_iff_ne.mpr (Ne.symm hname)
        simpa [CString.ofBytes, hparam, hname, List.lookup_cons, hne] using hrest

/-- The key of the publication of a SetVariable is the literal text of its parameter. -/
theorem taskSetKey_eq_ok_iff {task : SnapshotTask} (hshell : isShell task = false)
    {node : OrchNode} (hroot : task.tree.root = some node) (htype : node.type = .setVariable)
    (hclean : ∀ param ∈ node.params, 0 ∉ param.value) (setKey : Option CString) :
    taskSetKey task = .ok setKey ↔
      ∃ key, setKey = some key ∧ parameter (textParams node.params) (.literal "key") = some key ∧
        0 < key.length ∧ key.length < 128 := by
  obtain ⟨type, params, children⟩ := node
  simp only at htype
  subst htype
  rw [parameter_textParams hclean]
  simp only [taskSetKey, hshell, nativeSetKey, hroot, Bool.false_eq_true, if_false]
  cases hfind : params.find? fun param => param.key = .literal "key" with
  | none => simp [Except.map]
  | some param =>
      have hparam : 0 ∉ param.value := hclean param (List.mem_of_find?_eq_some hfind)
      simp only [Option.bind_some, CString.ofBytes, hparam, dif_neg, not_false_eq_true]
      by_cases hlength : 0 < param.value.length ∧ param.value.length < 128
      · have hinside : (decide (param.value.length = 0) || decide (param.value.length ≥ 128)) =
            false := by
          simp only [Bool.or_eq_false_iff, decide_eq_false_iff_not]
          omega
        simp only [hinside, Bool.false_eq_true, if_false, Except.map, Except.ok.injEq,
          Option.some.injEq]
        constructor
        · rintro rfl
          exact ⟨_, rfl, rfl, hlength⟩
        · rintro ⟨key, rfl, hkey, _⟩
          exact congrArg some hkey
      · have houtside : (decide (param.value.length = 0) || decide (param.value.length ≥ 128)) =
            true := by
          simp only [Bool.or_eq_true, decide_eq_true_eq]
          omega
        simp only [houtside, if_true, Except.map, reduceCtorEq, Option.some.injEq, false_iff]
        rintro ⟨key, _, rfl, hbounds⟩
        exact hlength hbounds

/-! ## Agreement of the two -/

section Agreement

variable {task : SnapshotTask} {scope : ValueStore} {result : LeafRun}

/-- A Shell agrees with its publication when its keys are the default ones. -/
theorem shell_portsAgree_iff (hshell : isShell task = true)
    (hlimits : scope.limits.maxValueBytes = maxValue) {output errors exitCode : CString}
    (hkeys : ShellKeys (leafParams task) scope output errors exitCode) {stdout stderr code : Bytes}
    (hwrites : writeAll scope [⟨.output, output, stdout⟩, ⟨.errors, errors, stderr⟩,
      ⟨.exitCode, exitCode, code⟩] = (result.scope, .ok, result.writes)) :
    PortsAgree task result ↔ PortsDefault task scope := by
  obtain ⟨hdone, _, _, hfound⟩ := writeAll_ok hwrites
  rw [PortsDefault, if_pos hshell]
  constructor
  · rintro ⟨setKey, hset, hports⟩
    obtain rfl : none = setKey := by simpa [taskSetKey, hshell] using hset
    obtain ⟨_, houtput, _⟩ := hports .output (.literal "shell_output") (by decide)
    obtain ⟨_, herrors, _⟩ := hports .errors (.literal "shell_stderr") (by decide)
    obtain ⟨_, hexit, _⟩ := hports .exitCode (.literal "shell_exit_code") (by decide)
    rw [hdone] at houtput herrors hexit
    obtain ⟨rfl, _⟩ := by simpa using houtput
    obtain ⟨rfl, _⟩ := by simpa using herrors
    obtain ⟨rfl, _⟩ := by simpa using hexit
    exact hkeys
  · rintro ⟨houtput, herrors, hexit⟩
    obtain ⟨houtput', herrors', hexit'⟩ := hkeys
    obtain rfl := Option.some.inj (houtput'.symm.trans houtput)
    obtain rfl := Option.some.inj (herrors'.symm.trans herrors)
    obtain rfl := Option.some.inj (hexit'.symm.trans hexit)
    refine ⟨none, by simp [taskSetKey, hshell], fun port key hread => ?_⟩
    obtain ⟨write, hmem, rfl, rfl⟩ : ∃ write ∈ result.writes, write.port = port ∧
        write.key = key := by
      rw [hdone]
      simp only [portReads, leafPorts, portKeys, outputPorts, shellPorts, List.map_cons,
        List.map_nil, List.zip_cons_cons, List.zip_nil_right, List.mem_cons, Prod.mk.injEq,
        List.not_mem_nil, or_false] at hread
      rcases hread with ⟨rfl, rfl⟩ | ⟨rfl, rfl⟩ | ⟨rfl, rfl⟩ <;> simp
    rw [hdone] at hmem
    obtain ⟨text, htext, _, hvalue, hentry⟩ := hfound (by simp; decide) write hmem
    refine ⟨text, ?_, readOutput_found hentry (hlimits ▸ hvalue)⟩
    rw [hdone, htext]
    exact hmem

/-- A SetVariable agrees with its publication when its key stands for itself and fits. -/
theorem setVariable_portsAgree_iff (hshell : isShell task = false)
    (hlimits : scope.limits.maxValueBytes = maxValue) {node : OrchNode}
    (hroot : task.tree.root = some node) (htype : node.type = .setVariable)
    (hparams : leafParams task = textParams node.params)
    (hclean : ∀ param ∈ node.params, 0 ∉ param.value) {text key value : CString}
    (htext : parameter (leafParams task) (.literal "key") = some text)
    (hkey : resolved scope text = some key) (hfitsKey : scope.limits.fitsKey key)
    (hfitsValue : scope.limits.fitsValue value)
    (hwrites : result.writes = [⟨.variable, key, value.bytes⟩])
    (hentry : result.scope.findEntry = Function.update scope.findEntry key (some value)) :
    PortsAgree task result ↔ PortsDefault task scope := by
  have hset := taskSetKey_eq_ok_iff hshell hroot htype hclean
  rw [← hparams] at hset
  rw [PortsDefault, if_neg (by simp [hshell])]
  constructor
  · rintro ⟨setKey, hok, hports⟩
    obtain ⟨literal, rfl, hliteral, _, hlength⟩ := (hset setKey).mp hok
    obtain ⟨_, hwritten, _⟩ := hports .variable literal (by simp [portReads, leafPorts, portKeys,
      outputPorts])
    rw [hwrites] at hwritten
    obtain ⟨rfl, _⟩ : literal = key ∧ _ := by simpa using hwritten
    obtain rfl := Option.some.inj (htext.symm.trans hliteral)
    exact ⟨text, htext, hkey, hlength⟩
  · rintro ⟨literal, hliteral, hself, hlength⟩
    obtain rfl := Option.some.inj (htext.symm.trans hliteral)
    obtain rfl := Option.some.inj (hkey.symm.trans hself)
    refine ⟨some key, (hset _).mpr ⟨key, rfl, htext, hfitsKey.1, hlength⟩,
      fun port read hread => ?_⟩
    obtain ⟨rfl, rfl⟩ : port = .variable ∧ read = key := by
      simpa [portReads, leafPorts, portKeys, outputPorts] using hread
    refine ⟨value, by simp [hwrites], readOutput_found ?_ (hlimits ▸ hfitsValue)⟩
    rw [hentry, Function.update_self]

/-- For every task that `make_plan` admits, every scope with the value bound of the
runtime and every session that ends with success, the publication finds what the leaf
wrote in this run exactly when the parameters stand for the names that are read. -/
theorem portsAgree_iff {config : TreeConfig} {schedule rest : AllocSchedule} {plan : SessionPlan}
    (hplan : makePlan config task schedule = (.ok plan, rest))
    (hlimits : scope.limits.maxValueBytes = maxValue) {parse : CString → Option Int}
    {process : ProcessRun} {outcomes : AllocSchedule}
    (hrun : runSession parse plan scope process outcomes = some result) (hpassed : result.Passed) :
    PortsAgree task result ↔ PortsDefault task scope := by
  obtain ⟨leaf, hleaf⟩ := makePlan_leaf hplan
  rw [hleaf.session_eq, tickLeaf, hleaf.action_eq, hleaf.params_eq] at hrun
  split at hrun
  · obtain rfl := Option.some.inj hrun
    simp [LeafRun.Passed] at hpassed
  cases hshell : isShell task with
  | true =>
      simp only [hshell, if_true] at hrun
      obtain ⟨output, errors, exitCode, hkeys, code, hwrites⟩ :=
        tickProcess_passed (Option.some.inj hrun) hpassed
      exact shell_portsAgree_iff hshell hlimits hkeys hwrites
  | false =>
      simp only [hshell, Bool.false_eq_true, if_false] at hrun
      obtain ⟨node, hroot, htype, hparams, hclean⟩ := hleaf.setKey_eq hshell
      obtain ⟨text, key, value, htext, hkey, hfitsKey, hfitsValue, hwrites, hentry⟩ :=
        tickSetVariable_passed (Option.some.inj hrun) hpassed
      exact setVariable_portsAgree_iff hshell hlimits hroot htype hparams hclean htext hkey hfitsKey
        hfitsValue hwrites hentry

end Agreement

/-! ## A variable and a command -/

/-- The limits of the behaviour-tree library in the two runs below. -/
def plainConfig : TreeConfig := ⟨1024, 64, 1024, 64, 1048576⟩

/-- A scope with room for four values. -/
def plainScope : ValueStore := .blank ⟨4, maxKey, maxValue⟩ (by decide)

/-- A process that prints a line and exits with code zero. -/
def greeting : ProcessRun := ⟨true, true, false, false, true, 0, ascii "hi\n", [], true⟩

/-- The native task that sets `answer`. -/
def answerTask : SnapshotTask :=
  .ofSetVariable (ascii "first") [] (ascii "answer") "value" (ascii "ready")

/-- Its plan. -/
def answerPlan : SessionPlan :=
  ⟨[⟨.setVariable, [(.literal "key", .literal "answer"), (.literal "value", .literal "ready")],
    [6, 5], 0, none⟩], false⟩

theorem makePlan_answer : makePlan plainConfig answerTask [] = (.ok answerPlan, []) := by
  decide +kernel

theorem portsAgree_iff_answer :
    ∃ result, runSession (fun _ => none) answerPlan plainScope greeting [] = some result ∧
      result.Passed ∧ PortsAgree answerTask result := by
  have hstatus : (runSession (fun _ => none) answerPlan plainScope greeting []).map
      (fun result => (result.code, result.status)) = some (.ok, .success) := by decide +kernel
  obtain ⟨result, hrun, hresult⟩ := Option.map_eq_some_iff.mp hstatus
  have hpassed : result.Passed := Prod.mk.inj hresult
  have hdefault : PortsDefault answerTask plainScope := by
    rw [PortsDefault, if_neg (by decide)]
    exact ⟨.literal "answer", by decide, by decide, by decide⟩
  exact ⟨result, hrun, hpassed, (portsAgree_iff makePlan_answer rfl hrun hpassed).mpr hdefault⟩

/-- A command task that prints a line. -/
def echoTask : SnapshotTask where
  metadata := .object [(ascii "name", .string (ascii "echo")), (ascii "runner_count", .number (.built 1)),
    (ascii "runner_kind", .string (ascii "command"))]
  kind := .command
  tree := ⟨[⟨.sequence, [], [1]⟩, ⟨.shell, [⟨.literal "cmd", ascii "echo hi"⟩,
    ⟨.literal "output_key", ascii "stdout"⟩], []⟩]⟩

/-- Its plan. -/
def echoPlan : SessionPlan :=
  ⟨[⟨.sequence, [], [], 1, none⟩, ⟨.shell, [(.literal "cmd", .literal "echo hi"),
    (.literal "output_key", .literal "stdout")], [7, 6], 0, some 0⟩], true⟩

/-- The command runs and ends well, and its publication reads `shell_output`, which the
run did not write. -/
theorem portsDisagree_echo :
    fromCommand ⟨false, ascii "echo hi", [], false, none, none, none, none⟩ = .ok echoTask.tree ∧
      makePlan plainConfig echoTask [] = (.ok echoPlan, []) ∧
      ∃ result, runSession (fun _ => none) echoPlan plainScope greeting [] = some result ∧
        result.Passed ∧ ¬ PortsAgree echoTask result := by
  refine ⟨by decide +kernel, by decide +kernel, ?_⟩
  have hstatus : (runSession (fun _ => none) echoPlan plainScope greeting []).map
      (fun result => (result.code, result.status, result.writes.map LeafWrite.key)) =
      some (.ok, .success, [.literal "stdout", .literal "shell_stderr",
        .literal "shell_exit_code"]) := by decide +kernel
  obtain ⟨result, hrun, hresult⟩ := Option.map_eq_some_iff.mp hstatus
  obtain ⟨hcode, hresult⟩ := Prod.mk.inj hresult
  obtain ⟨hsuccess, hkeys⟩ := Prod.mk.inj hresult
  refine ⟨result, hrun, ⟨hcode, hsuccess⟩, ?_⟩
  rintro ⟨setKey, hset, hports⟩
  obtain rfl : none = setKey := by simpa [taskSetKey, isShell, echoTask] using hset
  obtain ⟨text, hwritten, _⟩ := hports .output (.literal "shell_output") (by decide)
  have hmem : CString.literal "shell_output" ∈ result.writes.map LeafWrite.key :=
    List.mem_map.mpr ⟨_, hwritten, rfl⟩
  rw [hkeys] at hmem
  exact absurd hmem (by decide)

end Praktor.Runtime
