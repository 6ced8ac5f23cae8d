/-
# Orchestration trees from flat nodes

`praktor_orch_from_flat_nodes` builds a tree from a list of nodes, each with the place
of its parent before it.  The catalog says which parameters a type has and whether it
may have children.

Both constructors of a tree add one node at a time, the last child of an earlier one.
So the table of every tree they build unfolds from its root to one forest with each
node once, and its texts stay within the budget of a tree.
-/

import Mathlib.Algebra.Order.Ring.Nat
import Praktor.Math.OrderedForest
import Praktor.Workflow.Snapshot

namespace Praktor.Workflow

open Praktor.Data Praktor.Math

/-! ## The catalog -/

/-- `praktor_orch_spec` without its name. -/
structure OrchSpec where
  control : Bool
  allowsChildren : Bool
  required : List String
  optional : List String

/-- `praktor_orch_spec_for`, one line of `orch_nodes.def` each. -/
def OrchType.spec : OrchType → OrchSpec
  | .sequence => ⟨true, true, [], []⟩
  | .fallback => ⟨true, true, [], []⟩
  | .selector => ⟨true, true, [], []⟩
  | .parallel => ⟨true, true, [], []⟩
  | .reactiveSequence => ⟨true, true, [], []⟩
  | .switch => ⟨true, true, ["variable"], []⟩
  | .whileDo => ⟨true, true, [], ["condition", "max_iterations"]⟩
  | .ifThenElse => ⟨true, true, [], ["condition"]⟩
  | .inverter => ⟨true, true, [], []⟩
  | .forceSuccess => ⟨true, true, [], []⟩
  | .forceFailure => ⟨true, true, [], []⟩
  | .repeat => ⟨true, true, [], ["num_cycles"]⟩
  | .timeout => ⟨true, true, [], ["timeout_ms"]⟩
  | .delay => ⟨true, true, [], ["delay_ms"]⟩
  | .subTree => ⟨false, false, ["tree"], []⟩
  | .keepRunningUntilFailure => ⟨true, true, [], ["max_iterations"]⟩
  | .runOnce => ⟨true, true, [], []⟩
  | .consumeQueue => ⟨true, true, ["queue_key"], ["item_key"]⟩
  | .precondition => ⟨true, true, ["condition"], []⟩
  | .entryUpdated => ⟨true, true, ["watch_key"], []⟩
  | .pipelineSequence => ⟨true, true, [], ["input_key", "output_key"]⟩
  | .shell => ⟨false, false, ["cmd"], ["output_key", "stderr_key", "exit_code_key", "working_dir",
      "timeout", "stream_output"]⟩
  | .parseJson => ⟨false, false, ["input_key"], ["path", "output_key"]⟩
  | .parseRegex => ⟨false, false, ["input_key", "pattern"], ["capture_group", "output_key"]⟩
  | .parseLines => ⟨false, false, ["input_key"], ["filter", "output_key"]⟩
  | .parseKeyValue => ⟨false, false, ["input_key"], ["delimiter", "line_separator", "output_key"]⟩
  | .checkExitCode => ⟨false, false, ["expected"], ["input_key"]⟩
  | .waitEvent => ⟨false, false, ["event"], ["timeout"]⟩
  | .sleep => ⟨false, false, ["duration"], []⟩
  | .fileExists => ⟨false, false, ["path"], ["output_key", "fail_if_missing"]⟩
  | .setVariable => ⟨false, false, ["key"], ["value", "from"]⟩

/-- `orch_name_is`: underscores and the case of letters are left out. -/
def orchNameIs : Bytes → Bytes → Bool
  | [], canonical => canonical.dropWhile (· = 95) = []
  | byte :: rest, canonical =>
      if byte = 95 then orchNameIs rest canonical
      else
        match canonical.dropWhile (· = 95) with
        | [] => false
        | expected :: canonical => lower byte = lower expected && orchNameIs rest canonical

/-- `orch_param_key`. -/
def orchParamKey (spec : OrchSpec) (key : Bytes) : Option CString :=
  ((spec.required ++ spec.optional).find? fun name => orchNameIs key (ascii name)).map .literal

/-- `orch_has_param`. -/
def orchHasParam (node : OrchNode) (key : CString) : Bool :=
  node.params.any fun param => param.key = key

/-- `orch_single_child`. -/
def orchSingleChild : OrchType → Bool
  | .inverter => true
  | .forceSuccess => true
  | .forceFailure => true
  | .repeat => true
  | .timeout => true
  | .delay => true
  | .keepRunningUntilFailure => true
  | .runOnce => true
  | .consumeQueue => true
  | .precondition => true
  | .entryUpdated => true
  | _ => false

/-! ## The constructor -/

/-- `praktor_orch_input_param`, `none` for a view that is not valid. -/
structure OrchInputParam where
  key : Option Bytes
  value : Option Bytes

/-- `praktor_orch_flat_node`: its type is `none` outside the catalog, its parameters are
`none` where there is no array for them. -/
structure OrchFlatNode where
  type : Option OrchType
  parentIndex : Nat
  params : Option (List OrchInputParam)

/-- `PRAKTOR_ORCH_ROOT_PARENT`. -/
def orchRootParent : Nat := sizeMax

namespace OrchBuild

/-- `orch_append`. -/
def appendTo (build : OrchBuild) (parent child : Nat) : Except Refusal OrchBuild :=
  if ((build.nodes[parent]?.map OrchNode.children).getD []).length = maxOrchCommands + 1 then
    .error ⟨.enomem, ascii "Failed to construct orchestration tree"⟩
  else
    .ok { build with nodes := build.nodes.modify parent fun node =>
      { node with children := node.children ++ [child] } }

/-- The parameters of a flat node, on the node at `index`. -/
def addInputParams (spec : OrchSpec) (index : Nat) :
    List OrchInputParam → OrchBuild → Except Refusal OrchBuild
  | [], build => .ok build
  | param :: rest, build =>
      match param.key, param.value with
      | some name, some value =>
          match orchParamKey spec name with
          | none => .error ⟨.einval, ascii "Unknown orchestration parameter"⟩
          | some key =>
              if (build.nodes[index]?).any (orchHasParam · key) then
                .error ⟨.einval, ascii "Duplicate orchestration parameter"⟩
              else do addInputParams spec index rest (← build.addParam index key value)
      | _, _ => .error ⟨.einval, ascii "Invalid orchestration parameter view"⟩

/-- A flat node: its type, parent and parameters, then its place below the parent. -/
def addFlatNode (build : OrchBuild) (input : OrchFlatNode) : Except Refusal OrchBuild :=
  let index := build.nodes.length
  match input.type, input.params with
  | some type, some params =>
      if (if index = 0 then input.parentIndex ≠ orchRootParent else input.parentIndex ≥ index) ∨
          params.length > maxOrchParams then
        .error ⟨.einval, ascii "Invalid orchestration node type, parent or params"⟩
      else do
        let build ← build.addNode type
        let build ← addInputParams type.spec index params build
        if index = 0 then .ok build
        else if (build.nodes[input.parentIndex]?).any fun parent =>
            !parent.type.spec.allowsChildren then
          .error ⟨.einval, ascii "Leaf orchestration node cannot have children"⟩
        else build.appendTo input.parentIndex index
  | _, _ => .error ⟨.einval, ascii "Invalid orchestration node type, parent or params"⟩

/-- The flat nodes, in order. -/
def addFlatNodes : List OrchFlatNode → OrchBuild → Except Refusal OrchBuild
  | [], build => .ok build
  | input :: rest, build => do addFlatNodes rest (← build.addFlatNode input)

end OrchBuild

/-- The checks on a finished node: its required parameters and the number of its
children. -/
def checkFlatNode (node : OrchNode) : Except Refusal Unit :=
  let children := node.children.length
  let scalar := orchHasParam node (.literal "condition")
  if node.type.spec.required.any fun name => !orchHasParam node (.literal name) then
    .error ⟨.einval, ascii "Missing required orchestration parameter"⟩
  else
    match node.type with
    | .ifThenElse =>
        if children < (if scalar then 1 else 2) || children > (if scalar then 2 else 3) then
          .error ⟨.einval, ascii "if requires a condition plus then/else branches"⟩
        else .ok ()
    | .whileDo =>
        if children ≠ (if scalar then 1 else 2) then
          .error ⟨.einval, ascii "while requires a condition and a do branch"⟩
        else .ok ()
    | type =>
        if (type.spec.control && children = 0) || (orchSingleChild type && children ≠ 1) then
          .error ⟨.einval, ascii "Invalid orchestration control child count"⟩
        else .ok ()

/-- `praktor_orch_from_flat_nodes`. -/
def fromFlatNodes (inputs : List OrchFlatNode) : Except Refusal OrchTree :=
  if inputs.length = 0 || inputs.length > maxOrchNodes then
    .error ⟨.einval, ascii "Invalid orchestration flat-node input or node limit"⟩
  else do
    let build ← OrchBuild.addFlatNodes inputs ⟨[], 0⟩
    build.nodes.forM checkFlatNode
    .ok ⟨build.nodes⟩

/-- A tree that one of the two constructors returned. -/
inductive BuiltTree (tree : OrchTree) : Prop
  | flat (inputs : List OrchFlatNode) (hbuild : fromFlatNodes inputs = .ok tree)
  | command (input : OrchCommand) (hbuild : fromCommand input = .ok tree)

/-! ## What both constructors keep -/

/-- The bytes that the texts of a node take, with their terminators. -/
def OrchNode.textBytes (node : OrchNode) : Nat :=
  (node.params.map fun param => param.value.length + 1).sum

/-- The children at each place of a table of nodes. -/
def childTable (nodes : List OrchNode) (place : Nat) : Option (List Nat) :=
  nodes[place]?.map OrchNode.children

namespace OrchBuild

/-- The children of the nodes, in order. -/
def childLists (build : OrchBuild) : List (List Nat) := build.nodes.map OrchNode.children

/-- The bytes counted for a tree are those of its texts and within its budget, and no node
has too many parameters. -/
structure TextFits (build : OrchBuild) : Prop where
  bytes_eq : build.retainedBytes = (build.nodes.map OrchNode.textBytes).sum
  bytes_le : build.retainedBytes ≤ maxOrchBytes
  params_le : ∀ node ∈ build.nodes, node.params.length ≤ maxOrchParams

/-- One more node, without a parent yet. -/
structure Adds (build next : OrchBuild) : Prop where
  lists_eq : next.childLists = build.childLists ++ [[]]
  textFits : build.TextFits → next.TextFits

/-- One more node, the last child of an earlier one. -/
structure Grows (build next : OrchBuild) : Prop where
  lists_eq : ∃ parent < build.nodes.length, next.childLists =
    (build.childLists ++ [[]]).modify parent (· ++ [build.nodes.length])
  textFits : build.TextFits → next.TextFits

theorem map_modify_congr {α β : Type} {f : α → β} {g : α → α} {h : β → β}
    (hstep : ∀ value, f (g value) = h (f value)) (values : List α) (index : Nat) :
    (values.modify index g).map f = (values.map f).modify index h := by
  induction values generalizing index with
  | nil => simp
  | cons value rest ih =>
      cases index with
      | zero => simp [hstep]
      | succ index => simp [ih]

/-- A change that a function does not see. -/
theorem map_modify_same {α β : Type} {f : α → β} {g : α → α} (hsame : ∀ value, f (g value) = f value)
    (values : List α) (index : Nat) : (values.modify index g).map f = values.map f := by
  have hid := map_modify_congr (f := f) (g := g) (h := id) hsame values index
  rwa [List.modify_id] at hid

theorem sum_modify {values : List Nat} {index : Nat} (hindex : index < values.length)
    (more : Nat) : (values.modify index (· + more)).sum = values.sum + more := by
  induction values generalizing index with
  | nil => simp at hindex
  | cons value rest ih =>
      cases index with
      | zero =>
          simp only [List.modify_zero_cons, List.sum_cons]
          omega
      | succ index =>
          simp only [List.modify_succ_cons, List.sum_cons, ih (Nat.lt_of_succ_lt_succ hindex)]
          omega

theorem length_childLists (build : OrchBuild) : build.childLists.length = build.nodes.length :=
  List.length_map _

theorem Adds.length_eq {build next : OrchBuild} (hadds : build.Adds next) :
    next.nodes.length = build.nodes.length + 1 := by
  rw [← length_childLists, hadds.lists_eq, List.length_append, length_childLists]
  rfl

theorem addNode_adds {build next : OrchBuild} {type : OrchType}
    (hadd : build.addNode type = .ok next) : build.Adds next := by
  rw [addNode] at hadd
  split_ifs at hadd
  rw [← Except.ok.inj hadd]
  refine ⟨by simp [childLists], fun hfits => ⟨?_, hfits.bytes_le, fun node hnode => ?_⟩⟩
  · simp [hfits.bytes_eq, OrchNode.textBytes]
  · rcases List.mem_append.mp hnode with hnode | hnode
    · exact hfits.params_le node hnode
    · rw [List.mem_singleton.mp hnode]
      exact Nat.zero_le _

/-- A parameter stays within the budget. -/
theorem addParam_textFits {build next : OrchBuild} {index : Nat} {key : CString} {value : Bytes}
    (hadd : build.addParam index key value = .ok next) (hindex : index < build.nodes.length)
    (hfits : build.TextFits) : next.TextFits := by
  rw [addParam] at hadd
  split_ifs at hadd with hbytes hparams
  rw [← Except.ok.inj hadd]
  have hroom : build.retainedBytes + (value.length + 1) ≤ maxOrchBytes := by omega
  refine ⟨?_, hroom, fun node hnode => ?_⟩
  · have hmodify : ((build.nodes.modify index fun node =>
        { node with params := node.params ++ [⟨key, value⟩] }).map OrchNode.textBytes) =
        (build.nodes.map OrchNode.textBytes).modify index (· + (value.length + 1)) :=
      map_modify_congr (fun node => by simp [OrchNode.textBytes]) build.nodes index
    rw [hmodify, sum_modify (by simpa using hindex), hfits.bytes_eq]
  · obtain ⟨place, hplace⟩ := List.mem_iff_getElem?.mp hnode
    rw [List.getElem?_modify] at hplace
    obtain ⟨before, hbefore, rfl⟩ := Option.map_eq_some_iff.mp hplace
    have hold := hfits.params_le before (List.mem_of_getElem? hbefore)
    split_ifs with hsame
    · subst hsame
      rw [hbefore] at hparams
      have : before.params.length ≠ maxOrchParams := hparams
      simp only [List.length_append, List.length_singleton]
      omega
    · exact hold

theorem addParam_childLists {build next : OrchBuild} {index : Nat} {key : CString} {value : Bytes}
    (hadd : build.addParam index key value = .ok next) : next.childLists = build.childLists := by
  rw [childLists, addParam_ok hadd]
  apply map_modify_same
  exact fun _ => rfl

/-- A parameter of the new node. -/
theorem Adds.addParam {build between next : OrchBuild} {key : CString} {value : Bytes}
    (hadds : build.Adds between)
    (hadd : between.addParam build.nodes.length key value = .ok next) : build.Adds next := by
  refine ⟨(addParam_childLists hadd).trans hadds.lists_eq, fun hfits => ?_⟩
  have hindex : build.nodes.length < between.nodes.length := by
    rw [hadds.length_eq]
    exact Nat.lt_succ_self _
  exact addParam_textFits hadd hindex (hadds.textFits hfits)

theorem Adds.addPairs {build between next : OrchBuild} {pairs : List (CString × Bytes)}
    (hadds : build.Adds between)
    (hadd : OrchBuild.addPairs build.nodes.length pairs between = .ok next) : build.Adds next := by
  induction pairs generalizing between with
  | nil => rwa [← Except.ok.inj hadd]
  | cons pair rest ih =>
      rw [OrchBuild.addPairs] at hadd
      obtain ⟨later, hfirst, hrest⟩ := except_bind_eq_ok.mp hadd
      exact ih (hadds.addParam hfirst) hrest

theorem Adds.addInputParams {spec : OrchSpec} {build between next : OrchBuild}
    {params : List OrchInputParam} (hadds : build.Adds between)
    (hadd : OrchBuild.addInputParams spec build.nodes.length params between = .ok next) :
    build.Adds next := by
  induction params generalizing between with
  | nil => rwa [← Except.ok.inj hadd]
  | cons param rest ih =>
      rw [OrchBuild.addInputParams] at hadd
      split at hadd
      · split at hadd
        · simp at hadd
        split_ifs at hadd
        obtain ⟨later, hfirst, hrest⟩ := except_bind_eq_ok.mp hadd
        exact ih (hadds.addParam hfirst) hrest
      · simp at hadd

/-- The new node below a parent. -/
theorem Adds.grows {build between next : OrchBuild} {parent : Nat} (hadds : build.Adds between)
    (hparent : parent < build.nodes.length) (hbytes : next.retainedBytes = between.retainedBytes)
    (hnodes : next.nodes = between.nodes.modify parent fun node =>
      { node with children := node.children ++ [build.nodes.length] }) : build.Grows next := by
  refine ⟨⟨parent, hparent, ?_⟩, fun hfits => ?_⟩
  · rw [← hadds.lists_eq, childLists, hnodes, childLists]
    apply map_modify_congr
    exact fun _ => rfl
  · obtain ⟨hsum, hbudget, hparams⟩ := hadds.textFits hfits
    have htexts : next.nodes.map OrchNode.textBytes = between.nodes.map OrchNode.textBytes := by
      rw [hnodes]
      apply map_modify_same
      exact fun _ => rfl
    have hcounts : (next.nodes.map fun node => node.params.length) =
        between.nodes.map fun node => node.params.length := by
      rw [hnodes]
      apply map_modify_same
      exact fun _ => rfl
    refine ⟨by rw [hbytes, hsum, htexts], by rwa [hbytes], fun node hnode => ?_⟩
    have hcount : node.params.length ∈ next.nodes.map fun node => node.params.length :=
      List.mem_map_of_mem hnode
    rw [hcounts] at hcount
    obtain ⟨before, hbefore, hsame⟩ := List.mem_map.mp hcount
    exact hsame ▸ hparams before hbefore

/-- A tree in the making: from its first place every node once, its texts in the budget. -/
structure Sound (build : OrchBuild) : Prop where
  spans : ∃ forest, Forest.Spans (childTable build.nodes) build.nodes.length forest
  textFits : build.TextFits

theorem childTable_eq (build : OrchBuild) (place : Nat) :
    childTable build.nodes place = build.childLists[place]? := by
  rw [childTable, childLists, List.getElem?_map]

theorem Sound.pos {build : OrchBuild} (hsound : build.Sound) : 0 < build.nodes.length := by
  obtain ⟨forest, hunfolds, hperm⟩ := hsound.spans
  cases hunfolds with
  | cons _ _ _ => exact List.mem_range.mp (hperm.subset (by simp [Forest.preorder]))

/-- The first node. -/
theorem Adds.sound {next : OrchBuild} (hadds : Adds ⟨[], 0⟩ next) : next.Sound := by
  refine ⟨⟨.tree 0 .empty .empty, ?_, ?_⟩,
    hadds.textFits ⟨rfl, Nat.zero_le _, fun node hnode => absurd hnode List.not_mem_nil⟩⟩
  · have hroot : childTable next.nodes 0 = some [] := by
      rw [childTable_eq, hadds.lists_eq]
      rfl
    exact .cons hroot .nil .nil
  · rw [hadds.length_eq]
    exact List.Perm.refl _

/-- Every later one. -/
theorem Grows.sound {build next : OrchBuild} (hgrows : build.Grows next) (hsound : build.Sound) :
    next.Sound := by
  obtain ⟨forest, hspans⟩ := hsound.spans
  obtain ⟨parent, hparent, hlists⟩ := hgrows.lists_eq
  have hlength : next.nodes.length = build.nodes.length + 1 := by
    rw [← length_childLists, hlists, List.length_modify, List.length_append, length_childLists]
    rfl
  have hplace (place : Nat) : childTable next.nodes place =
      ((build.childLists ++ [[]])[place]?).map fun below =>
        if parent = place then below ++ [build.nodes.length] else below := by
    rw [childTable_eq, hlists, List.getElem?_modify]
    rfl
  have hold {place : Nat} {below : List Nat} (hbelow : childTable build.nodes place = some below) :
      (build.childLists ++ [[]])[place]? = some below := by
    rw [childTable_eq] at hbelow
    rw [List.getElem?_append_left (List.getElem?_eq_some_iff.mp hbelow).1, hbelow]
  refine ⟨⟨forest.graft parent build.nodes.length, ?_⟩, hgrows.textFits hsound.textFits⟩
  rw [hlength]
  refine hspans.graft hparent ?_ (fun below hbelow => ?_) fun place below hother hbelow => ?_
  · have hnew : (build.childLists ++ [[]])[build.nodes.length]? = some [] := by
      rw [← length_childLists, List.getElem?_concat_length]
    simp [hplace, hnew, Nat.ne_of_lt hparent]
  · simp [hplace, hold hbelow]
  · simp [hplace, hold hbelow, Ne.symm hother]

theorem addShell_grows {build next : OrchBuild} {command : Bytes} {last : Bool}
    (hpos : 0 < build.nodes.length) (hadd : build.addShell command last = .ok next) :
    build.Grows next := by
  rw [addShell] at hadd
  obtain ⟨first, hfirst, hadd⟩ := except_bind_eq_ok.mp hadd
  obtain ⟨second, hsecond, hadd⟩ := except_bind_eq_ok.mp hadd
  have hcommand := (addNode_adds hfirst).addParam hsecond
  have hlast : ∃ third : OrchBuild, build.Adds third ∧ third.append build.nodes.length = next := by
    cases last with
    | true =>
        obtain ⟨third, hthird, hadd⟩ := except_bind_eq_ok.mp hadd
        exact ⟨third, hcommand.addParam hthird, Except.ok.inj hadd⟩
    | false => exact ⟨second, hcommand, Except.ok.inj hadd⟩
  obtain ⟨third, hthird, rfl⟩ := hlast
  exact hthird.grows hpos rfl rfl

theorem addShells_sound {commands : List Bytes} {build next : OrchBuild} (hsound : build.Sound)
    (hadd : addShells commands build = .ok next) : next.Sound := by
  induction commands generalizing build with
  | nil => rwa [← Except.ok.inj hadd]
  | cons command rest ih =>
      cases rest with
      | nil => exact (addShell_grows hsound.pos hadd).sound hsound
      | cons second rest =>
          rw [addShells] at hadd
          · obtain ⟨between, hfirst, hrest⟩ := except_bind_eq_ok.mp hadd
            exact ih ((addShell_grows hsound.pos hfirst).sound hsound) hrest
          · simp

theorem addPostprocessor_sound {build next : OrchBuild} {input : OrchCommand}
    (hsound : build.Sound) (hadd : build.addPostprocessor input = .ok next) : next.Sound := by
  rw [addPostprocessor] at hadd
  split at hadd
  · rwa [← Except.ok.inj hadd]
  obtain ⟨first, hfirst, hadd⟩ := except_bind_eq_ok.mp hadd
  obtain ⟨second, hsecond, hadd⟩ := except_bind_eq_ok.mp hadd
  obtain ⟨third, hthird, hadd⟩ := except_bind_eq_ok.mp hadd
  have hadds := ((addNode_adds hfirst).addParam hsecond).addPairs hthird
  have hgrows : build.Grows (third.append build.nodes.length) := hadds.grows hsound.pos rfl rfl
  rw [← Except.ok.inj hadd]
  exact hgrows.sound hsound

/-- A flat node is the first one or grows the tree. -/
theorem addFlatNode_cases {build next : OrchBuild} {input : OrchFlatNode}
    (hadd : build.addFlatNode input = .ok next) :
    (build.nodes.length = 0 ∧ build.Adds next) ∨ build.Grows next := by
  simp only [addFlatNode] at hadd
  split at hadd
  · by_cases hfirst : build.nodes.length = 0
    · simp only [if_pos hfirst] at hadd
      split at hadd
      · simp at hadd
      obtain ⟨first, hnode, hadd⟩ := except_bind_eq_ok.mp hadd
      obtain ⟨second, hparams, hadd⟩ := except_bind_eq_ok.mp hadd
      rw [← Except.ok.inj hadd]
      exact .inl ⟨hfirst, (addNode_adds hnode).addInputParams hparams⟩
    · simp only [if_neg hfirst] at hadd
      split at hadd
      · simp at hadd
      rename_i hguard
      obtain ⟨first, hnode, hadd⟩ := except_bind_eq_ok.mp hadd
      obtain ⟨second, hparams, hadd⟩ := except_bind_eq_ok.mp hadd
      split at hadd
      · simp at hadd
      rw [appendTo] at hadd
      split at hadd
      · simp at hadd
      have hparent : input.parentIndex < build.nodes.length := by
        rw [not_or] at hguard
        omega
      rw [← Except.ok.inj hadd]
      exact .inr (((addNode_adds hnode).addInputParams hparams).grows hparent rfl rfl)
  · simp at hadd

theorem addFlatNodes_sound {inputs : List OrchFlatNode} {build next : OrchBuild}
    (hsound : build.Sound) (hadd : addFlatNodes inputs build = .ok next) : next.Sound := by
  induction inputs generalizing build with
  | nil => rwa [← Except.ok.inj hadd]
  | cons input rest ih =>
      rw [addFlatNodes] at hadd
      obtain ⟨between, hfirst, hrest⟩ := except_bind_eq_ok.mp hadd
      rcases addFlatNode_cases hfirst with ⟨hempty, _⟩ | hgrows
      · exact absurd hempty (Nat.ne_of_gt hsound.pos)
      · exact ih (hgrows.sound hsound) hrest

end OrchBuild

/-- Every tree that was built is one. -/
theorem BuiltTree.sound {tree : OrchTree} (hbuilt : BuiltTree tree) :
    ∃ build : OrchBuild, build.nodes = tree.nodes ∧ build.Sound := by
  cases hbuilt with
  | flat inputs hbuild =>
      rw [fromFlatNodes] at hbuild
      split at hbuild
      · simp at hbuild
      rename_i hcount
      obtain ⟨build, hnodes, hbuild⟩ := except_bind_eq_ok.mp hbuild
      obtain ⟨_, _, hbuild⟩ := except_bind_eq_ok.mp hbuild
      refine ⟨build, by rw [← Except.ok.inj hbuild], ?_⟩
      cases inputs with
      | nil => simp at hcount
      | cons input rest =>
          rw [OrchBuild.addFlatNodes] at hnodes
          obtain ⟨first, hfirst, hrest⟩ := except_bind_eq_ok.mp hnodes
          rcases OrchBuild.addFlatNode_cases hfirst with ⟨_, hadds⟩ | hgrows
          · exact OrchBuild.addFlatNodes_sound hadds.sound hrest
          · obtain ⟨parent, hparent, _⟩ := hgrows.lists_eq
            simp at hparent
  | command input hbuild =>
      simp only [fromCommand] at hbuild
      split at hbuild
      · simp [bind, Except.bind] at hbuild
      obtain ⟨root, hroot, hbuild⟩ := except_bind_eq_ok.mp hbuild
      obtain ⟨shells, hshells, hbuild⟩ := except_bind_eq_ok.mp hbuild
      obtain ⟨last, hlast, hbuild⟩ := except_bind_eq_ok.mp hbuild
      have hsound := OrchBuild.addShells_sound (OrchBuild.addNode_adds hroot).sound hshells
      exact ⟨last, by rw [← Except.ok.inj hbuild], OrchBuild.addPostprocessor_sound hsound hlast⟩

end Praktor.Workflow
