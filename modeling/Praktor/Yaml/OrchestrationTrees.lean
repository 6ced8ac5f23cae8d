/-
# Trees from collected rows

The constructor of trees on the rows that the parser collects.  It adds one node for each
row, with the parameters under their names in the catalog, below the node of its parent.
As the catalog admits every row with its children, each of its checks passes: what is left
is the room for texts and for children.
-/

import Praktor.Yaml.OrchestrationRows

namespace Praktor.Yaml

open Praktor.Data Praktor.Math Praktor.Workflow

/-- The texts of a tree are limited, and so are the children of a node. -/
def OutOfRoom (refusal : Refusal) : Prop :=
  refusal = ⟨.einval, ascii "Orchestration retained text exceeds maximum of 1048576 bytes"⟩ ∨
    refusal = ⟨.enomem, ascii "Failed to construct orchestration tree"⟩

/-- The names of the parameters of a row in the catalog. -/
def catalogKeys (type : OrchType) (params : List (CString × CString)) : List (Option CString) :=
  params.map fun param => orchParamKey type.spec param.1.bytes

/-- The names of the parameters of a node. -/
def nodeKeys (node : OrchNode) : List (Option CString) := node.params.map fun param => some param.key

/-- A parameter as the constructor reads it. -/
def inputParam (param : CString × CString) : OrchInputParam := ⟨some param.1.bytes, some param.2.bytes⟩

theorem modify_concat {α : Type} (before : List α) (last : α) (change : α → α) :
    (before ++ [last]).modify before.length change = before ++ [change last] := by
  induction before with
  | nil => rfl
  | cons first rest ih => simp [ih]

section Constructor

variable {before : List OrchNode} {node : OrchNode} {bytes : Nat}

/-- One more parameter of the last node. -/
theorem addParam_last (key : CString) (value : Bytes) (hroom : node.params.length < maxOrchParams) :
    (∃ refusal, OrchBuild.addParam ⟨before ++ [node], bytes⟩ before.length key value =
        .error refusal ∧ OutOfRoom refusal) ∨
      ∃ more, OrchBuild.addParam ⟨before ++ [node], bytes⟩ before.length key value =
        .ok ⟨before ++ [{ node with params := node.params ++ [⟨key, value⟩] }], more⟩ := by
  rw [OrchBuild.addParam]
  split_ifs with hbudget hcount
  · exact .inl ⟨_, rfl, .inl rfl⟩
  · simp at hcount
    omega
  · refine .inr ⟨bytes + (value.length + 1), ?_⟩
    simp only [modify_concat]

/-- The parameters of the last node: what the catalog knows and has not been given yet. -/
theorem addInputParams_last {params : List (CString × CString)}
    (hknown : ∀ param ∈ params, (orchParamKey node.type.spec param.1.bytes).isSome = true)
    (hdistinct : (nodeKeys node ++ catalogKeys node.type params).Nodup)
    (hroom : node.params.length + params.length ≤ maxOrchParams) :
    (∃ refusal, OrchBuild.addInputParams node.type.spec before.length (params.map inputParam)
        ⟨before ++ [node], bytes⟩ = .error refusal ∧ OutOfRoom refusal) ∨
      ∃ added more, OrchBuild.addInputParams node.type.spec before.length (params.map inputParam)
          ⟨before ++ [node], bytes⟩ = .ok ⟨before ++ [added], more⟩ ∧
        added.type = node.type ∧ added.children = node.children ∧
        nodeKeys added = nodeKeys node ++ catalogKeys node.type params := by
  induction params generalizing node bytes with
  | nil => exact .inr ⟨node, bytes, rfl, rfl, rfl, by simp [catalogKeys]⟩
  | cons param rest ih =>
      obtain ⟨key, hkey⟩ := Option.isSome_iff_exists.mp (hknown param (by simp))
      have hfresh : orchHasParam node key = false := by
        rw [Bool.eq_false_iff, orchHasParam]
        intro hany
        obtain ⟨given, hgiven, hsame⟩ := List.any_eq_true.mp hany
        have hmem : some key ∈ nodeKeys node :=
          List.mem_map.mpr ⟨given, hgiven, by rw [of_decide_eq_true hsame]⟩
        have hlater : some key ∈ catalogKeys node.type (param :: rest) := by
          simp [catalogKeys, hkey]
        exact (List.nodup_append'.mp hdistinct).2.2 hmem hlater
      simp only [List.length_cons] at hroom
      simp only [List.map_cons, inputParam, OrchBuild.addInputParams, hkey]
      simp only [List.getElem?_concat_length, Option.any_some, hfresh, Bool.false_eq_true,
        if_false]
      rcases @addParam_last before node bytes key param.2.bytes (by omega) with
        ⟨refusal, hadd, hout⟩ | ⟨more, hadd⟩
      · exact .inl ⟨refusal, by rw [hadd]; rfl, hout⟩
      have hkeys : nodeKeys { node with params := node.params ++ [⟨key, param.2.bytes⟩] } =
          nodeKeys node ++ [some key] := by simp [nodeKeys]
      have hrest := @ih { node with params := node.params ++ [⟨key, param.2.bytes⟩] } more
        (fun other hother => hknown other (List.mem_cons_of_mem _ hother))
        (by rw [hkeys, List.append_assoc]; simpa [catalogKeys, hkey] using hdistinct)
        (by simp; omega)
      rw [hadd]
      rcases hrest with ⟨refusal, hrest, hout⟩ | ⟨added, more, hrest, htype, hchildren, hadded⟩
      · exact .inl ⟨refusal, hrest, hout⟩
      · refine .inr ⟨added, more, hrest, htype, hchildren, ?_⟩
        rw [hadded, hkeys, List.append_assoc]
        simp [catalogKeys, hkey]

end Constructor

/-! ## Names in the catalog -/

theorem bytes_literal {name : String} (hname : 0 ∉ ascii name) :
    (CString.literal name).bytes = ascii name :=
  List.filter_eq_self.mpr fun byte hbyte => by
    have : byte ≠ 0 := fun hzero => hname (hzero ▸ hbyte)
    simpa using this

/-- The names of a type in the catalog are texts, and no two of them are aliases. -/
theorem catalog_names (type : OrchType) :
    (∀ name ∈ type.spec.required ++ type.spec.optional, 0 ∉ ascii name) ∧
      ((type.spec.required ++ type.spec.optional).map fun name => foldName (ascii name)).Nodup := by
  cases type <;> decide

theorem orchParamKey_iff {type : OrchType} {name : String}
    (hname : name ∈ type.spec.required ++ type.spec.optional) (key : Bytes) :
    orchParamKey type.spec key = some (.literal name) ↔ foldName key = foldName (ascii name) := by
  obtain ⟨hnul, hdistinct⟩ := catalog_names type
  rw [orchParamKey_eq, canonicalParam]
  constructor
  · intro hfind
    obtain ⟨found, hfound, hsame⟩ := Option.map_eq_some_iff.mp hfind
    have hbytes := congrArg CString.bytes hsame
    rw [bytes_literal (hnul _ (List.mem_of_find?_eq_some hfound)), bytes_literal (hnul _ hname)]
      at hbytes
    have hkey : keyIs key (ascii found) = true := by simpa using List.find?_some hfound
    rw [← hbytes]
    exact (keyIs_iff _ _).mp hkey
  · intro hfold
    cases hfind : (type.spec.required ++ type.spec.optional).find? fun name =>
        keyIs key (ascii name) with
    | none =>
        have hnone := List.find?_eq_none.mp hfind name hname
        exact absurd ((keyIs_iff _ _).mpr hfold) hnone
    | some found =>
        have hkey : keyIs key (ascii found) = true := by simpa using List.find?_some hfind
        have hfound := (keyIs_iff _ _).mp hkey
        rw [List.inj_on_of_nodup_map hdistinct (List.mem_of_find?_eq_some hfind) hname
          (hfound.symm.trans hfold)]
        rfl

theorem foldName_of_orchParamKey {type : OrchType} {key : Bytes} {name : CString}
    (hkey : orchParamKey type.spec key = some name) : foldName name.bytes = foldName key := by
  obtain ⟨found, hfound, rfl⟩ := Option.map_eq_some_iff.mp hkey
  have hmem := List.mem_of_find?_eq_some hfound
  rw [bytes_literal ((catalog_names type).1 found hmem)]
  exact ((orchParamKey_iff hmem key).mp hkey).symm

section Params

variable {type : OrchType} {params : List (CString × CString)}

/-- Distinct names are distinct in the catalog. -/
theorem ParamsFit.catalogKeys_nodup (hfit : ParamsFit type.spec params) :
    (catalogKeys type params).Nodup := by
  have hfold : (catalogKeys type params).map (Option.map fun key => foldName key.bytes) =
      (foldedKeys params).map some := by
    rw [catalogKeys, foldedKeys, List.map_map, List.map_map]
    refine List.map_congr_left fun param hparam => ?_
    have hknown := hfit.known param hparam
    rw [← Option.isSome_map (f := CString.literal), ← orchParamKey_eq] at hknown
    obtain ⟨name, hname⟩ := Option.isSome_iff_exists.mp hknown
    simp [hname, foldName_of_orchParamKey hname]
  have hnodup : ((foldedKeys params).map some).Nodup :=
    hfit.distinct.map (Option.some_injective _)
  rw [← hfold] at hnodup
  exact hnodup.of_map _

/-- The constructor finds a parameter under the names under which the parser does. -/
theorem orchHasParam_eq {node : OrchNode} {row : NamedRow} {name : String}
    (hkeys : nodeKeys node = catalogKeys row.type row.params)
    (hname : name ∈ row.type.spec.required ++ row.type.spec.optional) :
    orchHasParam node (.literal name) = row.hasParam name := by
  have hnode : orchHasParam node (.literal name) = true ↔ some (.literal name) ∈ nodeKeys node := by
    simp [orchHasParam, nodeKeys]
  have hrow : row.hasParam name = true ↔ some (.literal name) ∈ catalogKeys row.type row.params := by
    simp [NamedRow.hasParam_iff, foldedKeys, catalogKeys, orchParamKey_iff hname]
  rw [Bool.eq_iff_iff, hnode, hrow, hkeys]

end Params

/-! ## The rows of one tree -/

/-- The rows stand in preorder and the catalog admits each of them. -/
structure Arranged (rows : NamedRows) : Prop where
  length_le : rows.length ≤ maxOrchNodes
  first : ∀ row, rows[0]? = some row → row.parent = none
  parent_lt : ∀ index row, rows[index + 1]? = some row →
    ∃ place ≤ index, row.parent = some place
  admitted : ∀ index row, rows[index]? = some row →
    RowAdmitted row ((rows.map NamedRow.parent).count (some index))

theorem Grown.arranged {rows : NamedRows} (hgrown : Grown none [] rows) : Arranged rows := by
  obtain ⟨tree, hroots, hrows, hparents, hall, hlimit⟩ := hgrown
  rw [List.nil_append] at hrows
  subst hrows
  rw [List.length_nil] at hparents
  have hat {index : Nat} {row : NamedRow} (hrow : tree.preorder[index]? = some row) :
      (tree.parents none 0)[index]? = some row.parent := by
    rw [← hparents, List.getElem?_map, hrow]
    rfl
  cases tree with
  | empty => simp [Forest.roots] at hroots
  | tree root below siblings =>
      cases siblings with
      | tree => simp [Forest.roots] at hroots
      | empty =>
          refine ⟨hlimit, fun row hrow => ?_, fun index row hrow => ?_, fun index row hrow => ?_⟩
          · have hparent := hat hrow
            simpa [Forest.parents, eq_comm] using hparent
          · have hparent := hat hrow
            simp only [Forest.parents, List.append_nil, List.getElem?_cons_succ, Nat.zero_add]
              at hparent
            rcases below.parents_cases hparent with hroot | ⟨place, hplace, -, hbefore, -⟩
            · exact ⟨0, Nat.zero_le _, hroot⟩
            · exact ⟨place, by omega, hplace⟩
          · have hcount : RowAdmitted row (((Forest.tree root below .empty).parents none 0).count
                (some (0 + index))) := hall.count (by simp) hrow
            rwa [Nat.zero_add, ← hparents] at hcount

/-- What the constructor has made of the rows so far. -/
structure Built (rows : NamedRows) (build : OrchBuild) : Prop where
  length_eq : build.nodes.length = rows.length
  node : ∀ place node, build.nodes[place]? = some node → ∃ row, rows[place]? = some row ∧
    node.type = row.type ∧ nodeKeys node = catalogKeys row.type row.params ∧
    node.children.length = (rows.map NamedRow.parent).count (some place)

theorem Built.nil : Built [] ⟨[], 0⟩ := ⟨rfl, by simp⟩

section Step

variable {rows : NamedRows} {row : NamedRow} {build next : OrchBuild}

/-- One more node: the last one, and one more child of its parent. -/
theorem Built.concat (hbuilt : Built rows build) (hlength : next.nodes.length = rows.length + 1)
    (hparents : some rows.length ∉ (rows ++ [row]).map NamedRow.parent)
    (hold : ∀ place old, build.nodes[place]? = some old → ∃ node, next.nodes[place]? = some node ∧
      node.type = old.type ∧ nodeKeys node = nodeKeys old ∧
      node.children.length = old.children.length + if row.parent = some place then 1 else 0)
    (hnew : ∃ node, next.nodes[rows.length]? = some node ∧ node.type = row.type ∧
      nodeKeys node = catalogKeys row.type row.params ∧ node.children = []) :
    Built (rows ++ [row]) next := by
  refine ⟨by simp [hlength], fun place node hnode => ?_⟩
  have hplace := (List.getElem?_eq_some_iff.mp hnode).1
  by_cases hlast : place = rows.length
  · subst hlast
    obtain ⟨found, hfound, htype, hkeys, hleaf⟩ := hnew
    obtain rfl := Option.some.inj (hnode.symm.trans hfound)
    refine ⟨row, by simp, htype, hkeys, ?_⟩
    rw [hleaf, List.count_eq_zero.mpr hparents, List.length_nil]
  · have hbefore : place < build.nodes.length := by
      rw [hbuilt.length_eq]
      omega
    have hgot := List.getElem?_eq_getElem hbefore
    obtain ⟨found, hfound, htype, hkeys, hcount⟩ := hold place _ hgot
    obtain rfl := Option.some.inj (hnode.symm.trans hfound)
    obtain ⟨given, hgiven, hgivenType, hgivenKeys, hgivenCount⟩ := hbuilt.node place _ hgot
    refine ⟨given, ?_, htype.trans hgivenType, hkeys.trans hgivenKeys, ?_⟩
    · rwa [List.getElem?_append_left (List.getElem?_eq_some_iff.mp hgiven).1]
    · rw [hcount, hgivenCount, List.map_append, List.count_append, List.map_singleton,
        List.count_singleton]
      simp

/-- A row whose parent, if it has one, is before it and may have children. -/
structure Follows (rows : NamedRows) (row : NamedRow) : Prop where
  room : rows.length < maxOrchNodes
  params : ParamsFit row.type.spec row.params
  root : rows = [] → row.parent = none
  parent : rows ≠ [] → ∃ place above, row.parent = some place ∧ rows[place]? = some above ∧
    above.type.spec.allowsChildren = true
  earlier : some rows.length ∉ rows.map NamedRow.parent

/-- The new node below its parent. -/
theorem appendTo_built {nodes : List OrchNode} {bytes more place : Nat} {above : NamedRow}
    {added : OrchNode} (hbuilt : Built rows ⟨nodes, bytes⟩) (hplace : row.parent = some place)
    (habove : rows[place]? = some above) (hearlier : some rows.length ∉ rows.map NamedRow.parent)
    (htype : added.type = row.type) (hkeys : nodeKeys added = catalogKeys row.type row.params)
    (hleaf : added.children = []) :
    (∃ refusal, OrchBuild.appendTo ⟨nodes ++ [added], more⟩ place nodes.length = .error refusal ∧
        OutOfRoom refusal) ∨
      ∃ next, OrchBuild.appendTo ⟨nodes ++ [added], more⟩ place nodes.length = .ok next ∧
        Built (rows ++ [row]) next := by
  have hlength : nodes.length = rows.length := hbuilt.length_eq
  have hbefore := (List.getElem?_eq_some_iff.mp habove).1
  have hother : rows.length ≠ place := Nat.ne_of_gt hbefore
  rw [OrchBuild.appendTo]
  split_ifs with hfull
  · exact .inl ⟨_, rfl, .inr rfl⟩
  refine .inr ⟨_, rfl, hbuilt.concat (by simp [hlength]) ?_ (fun index old hold => ?_)
    ⟨added, ?_, htype, hkeys, hleaf⟩⟩
  · rw [List.map_append, List.mem_append, not_or]
    exact ⟨hearlier, by simp [hplace, hother]⟩
  · have hindex := (List.getElem?_eq_some_iff.mp hold).1
    simp only [List.getElem?_modify, List.getElem?_append_left hindex, hold, hplace,
      Option.some.injEq]
    by_cases hsame : place = index
    · exact ⟨_, rfl, by simp [hsame, nodeKeys]⟩
    · exact ⟨_, rfl, by simp [hsame, nodeKeys]⟩
  · have hsame : place ≠ nodes.length := by omega
    simp [← hlength, hsame]

/-- The constructor adds the node of a row, unless it runs out of room. -/
theorem addFlatNode_built (hbuilt : Built rows build) (hfollows : Follows rows row) :
    (∃ refusal, build.addFlatNode row.flatNode = .error refusal ∧ OutOfRoom refusal) ∨
      ∃ next, build.addFlatNode row.flatNode = .ok next ∧ Built (rows ++ [row]) next := by
  obtain ⟨nodes, bytes⟩ := build
  have hlength : nodes.length = rows.length := hbuilt.length_eq
  have hcount : (row.params.map inputParam).length ≤ maxOrchParams := by
    rw [List.length_map]
    exact hfollows.params.length_le
  have hnode : OrchBuild.addNode ⟨nodes, bytes⟩ row.type =
      .ok ⟨nodes ++ [⟨row.type, [], []⟩], bytes⟩ := by
    have := hfollows.room
    rw [OrchBuild.addNode, if_neg (by simp only; omega)]
  have hparams := @addInputParams_last nodes ⟨row.type, [], []⟩ bytes row.params
    (fun param hparam => by
      rw [orchParamKey_eq, Option.isSome_map]
      exact hfollows.params.known param hparam)
    (by simpa [nodeKeys] using hfollows.params.catalogKeys_nodup)
    (by simpa using hfollows.params.length_le)
  have hguard : ¬((if nodes.length = 0 then row.parent.getD orchRootParent ≠ orchRootParent
      else row.parent.getD orchRootParent ≥ nodes.length) ∨
        (row.params.map inputParam).length > maxOrchParams) := by
    rw [not_or]
    refine ⟨?_, Nat.not_lt.mpr hcount⟩
    split_ifs with hempty
    · have hnil : rows = [] := List.eq_nil_of_length_eq_zero (hlength.symm.trans hempty)
      simp [hfollows.root hnil]
    · have hsome : rows ≠ [] := fun hnil => hempty (by simp [hlength, hnil])
      obtain ⟨place, above, hplace, habove, -⟩ := hfollows.parent hsome
      have hbefore := (List.getElem?_eq_some_iff.mp habove).1
      simp only [hplace, Option.getD_some]
      omega
  have hstart : OrchBuild.addFlatNode ⟨nodes, bytes⟩ row.flatNode = (do
      let build ← OrchBuild.addInputParams row.type.spec nodes.length (row.params.map inputParam)
        ⟨nodes ++ [⟨row.type, [], []⟩], bytes⟩
      if nodes.length = 0 then .ok build
      else if (build.nodes[row.parent.getD orchRootParent]?).any fun parent =>
          !parent.type.spec.allowsChildren then
        .error ⟨.einval, ascii "Leaf orchestration node cannot have children"⟩
      else build.appendTo (row.parent.getD orchRootParent) nodes.length) := by
    simp only [OrchBuild.addFlatNode, NamedRow.flatNode]
    exact (if_neg hguard).trans (by rw [hnode]; rfl)
  rw [hstart]
  rcases hparams with ⟨refusal, hrefused, hout⟩ | ⟨added, more, hadded, htype, hleaf, hkeys⟩
  · exact .inl ⟨refusal, by rw [hrefused]; rfl, hout⟩
  rw [hadded]
  change added.type = row.type at htype
  change nodeKeys added = catalogKeys row.type row.params at hkeys
  by_cases hempty : nodes.length = 0
  · have hnil : rows = [] := List.eq_nil_of_length_eq_zero (hlength.symm.trans hempty)
    refine .inr ⟨⟨nodes ++ [added], more⟩, if_pos hempty, ?_⟩
    refine hbuilt.concat (by simp [hlength]) ?_ (fun place old hold => ?_)
      ⟨added, by simp [← hlength], htype, hkeys, hleaf⟩
    · simp [hnil, hfollows.root hnil]
    · have := (List.getElem?_eq_some_iff.mp hold).1
      simp only at this
      omega
  · have hsome : rows ≠ [] := fun hnil => hempty (by simp [hlength, hnil])
    obtain ⟨place, above, hplace, habove, hallows⟩ := hfollows.parent hsome
    have hbefore := (List.getElem?_eq_some_iff.mp habove).1
    have hparent := List.getElem?_eq_getElem (hlength.symm ▸ hbefore : place < nodes.length)
    obtain ⟨found, hfound, hfoundType, -, -⟩ := hbuilt.node place _ hparent
    obtain rfl := Option.some.inj (habove.symm.trans hfound)
    have hin : (nodes ++ [added])[place]? = some nodes[place] := by
      rw [List.getElem?_append_left (by omega), hparent]
    have hlast : ¬((nodes ++ [added])[place]?.any fun parent => !parent.type.spec.allowsChildren) =
        true := by simp [hin, hfoundType, hallows]
    have hdone := @appendTo_built rows row nodes bytes more place above added hbuilt hplace habove
      hfollows.earlier htype hkeys hleaf
    simp only [hplace, Option.getD_some, bind, Except.bind]
    rwa [if_neg hempty, if_neg hlast]

end Step

/-! ## The whole run -/

theorem Arranged.follows {rows rest : NamedRows} {row : NamedRow}
    (harranged : Arranged (rows ++ row :: rest)) : Follows rows row := by
  have hrow : (rows ++ row :: rest)[rows.length]? = some row := by simp
  have hlimit := harranged.length_le
  simp only [List.length_append, List.length_cons] at hlimit
  have hparent (index : Nat) (given : NamedRow)
      (hgiven : (rows ++ row :: rest)[index]? = some given) (place : Nat)
      (hplace : given.parent = some place) : place < index := by
    cases index with
    | zero => simp [harranged.first given hgiven] at hplace
    | succ index =>
        obtain ⟨found, hfound, hsame⟩ := harranged.parent_lt index given hgiven
        obtain rfl := Option.some.inj (hplace.symm.trans hsame)
        omega
  refine ⟨by omega, (harranged.admitted _ _ hrow).params, fun hnil => ?_, fun hsome => ?_,
    fun hmem => ?_⟩
  · subst hnil
    exact harranged.first row hrow
  · obtain ⟨before, hbefore⟩ := Nat.exists_eq_succ_of_ne_zero
      (fun hzero => hsome (List.eq_nil_of_length_eq_zero hzero))
    rw [hbefore] at hrow
    obtain ⟨place, hplace, hparent⟩ := harranged.parent_lt before row hrow
    have hlt : place < rows.length := by omega
    refine ⟨place, rows[place], hparent, List.getElem?_eq_getElem hlt, ?_⟩
    refine (harranged.admitted place rows[place] ?_).leaf ?_
    · rw [List.getElem?_append_left hlt, List.getElem?_eq_getElem hlt]
    · rw [← Nat.pos_iff_ne_zero, List.count_pos_iff, ← hparent]
      simp
  · obtain ⟨given, hgiven, hsame⟩ := List.mem_map.mp hmem
    obtain ⟨index, hindex⟩ := List.mem_iff_getElem?.mp hgiven
    have hlt := (List.getElem?_eq_some_iff.mp hindex).1
    have := hparent index given (by rw [List.getElem?_append_left hlt, hindex]) _ hsame
    omega

theorem addFlatNodes_built {rows rest : NamedRows} {build : OrchBuild}
    (harranged : Arranged (rows ++ rest)) (hbuilt : Built rows build) :
    (∃ refusal, OrchBuild.addFlatNodes (rest.map NamedRow.flatNode) build = .error refusal ∧
        OutOfRoom refusal) ∨
      ∃ next, OrchBuild.addFlatNodes (rest.map NamedRow.flatNode) build = .ok next ∧
        Built (rows ++ rest) next := by
  induction rest generalizing rows build with
  | nil => exact .inr ⟨build, rfl, by simpa using hbuilt⟩
  | cons row rest ih =>
      rw [List.map_cons, OrchBuild.addFlatNodes]
      rcases addFlatNode_built hbuilt harranged.follows with ⟨refusal, hadd, hout⟩ | ⟨next, hadd, hnext⟩
      · exact .inl ⟨refusal, by rw [hadd]; rfl, hout⟩
      · rw [hadd]
        have hrest := @ih (rows ++ [row]) next (by simpa using harranged) hnext
        rwa [List.append_assoc, List.singleton_append] at hrest

/-- The checks of a finished node pass. -/
theorem checkFlatNode_ok {node : OrchNode} {row : NamedRow} (htype : node.type = row.type)
    (hkeys : nodeKeys node = catalogKeys row.type row.params)
    (hadmitted : RowAdmitted row node.children.length) : checkFlatNode node = .ok () := by
  have hrequired : ¬(node.type.spec.required.any fun name => !orchHasParam node (.literal name)) =
      true := by
    simp only [List.any_eq_true, Bool.not_eq_true', not_exists, not_and, Bool.not_eq_false]
    intro name hname
    rw [htype] at hname
    rw [orchHasParam_eq hkeys (List.mem_append_left _ hname)]
    exact hadmitted.required name hname
  have hchildren := hadmitted.children
  simp only [checkFlatNode]
  rw [if_neg hrequired]
  split
  · rename_i hif
    have hrow : row.type = .ifThenElse := htype.symm.trans hif
    rw [orchHasParam_eq hkeys (by rw [hrow]; decide)]
    rw [hrow] at hchildren
    obtain ⟨hmin, hmax⟩ := hchildren
    rw [if_neg]
    simp only [Bool.or_eq_true, decide_eq_true_eq]
    omega
  · rename_i hwhile
    have hrow : row.type = .whileDo := htype.symm.trans hwhile
    rw [orchHasParam_eq hkeys (by rw [hrow]; decide)]
    rw [hrow] at hchildren
    exact if_neg (not_not.mpr hchildren)
  · rename_i hif hwhile
    have hother := (childrenAdmitted_iff (htype ▸ hif) (htype ▸ hwhile)).mp hchildren
    rw [← htype] at hother
    rw [if_neg]
    simp only [Bool.or_eq_true, Bool.and_eq_true, decide_eq_true_eq]
    rintro (⟨hcontrol, hnone⟩ | ⟨hsingle, hmany⟩)
    · exact hother.1 hcontrol hnone
    · exact hmany (hother.2 hsingle)

/-- The constructor refuses the rows of the parser only when it runs out of room. -/
theorem Arranged.outOfRoom {rows : NamedRows} (harranged : Arranged rows) (hsome : rows ≠ [])
    {refusal : Refusal} (hrefused : fromFlatNodes (rows.map NamedRow.flatNode) = .error refusal) :
    OutOfRoom refusal := by
  have hlimit := harranged.length_le
  have hpos := List.length_pos_iff.mpr hsome
  have hcount : ¬(decide ((rows.map NamedRow.flatNode).length = 0) ||
      decide ((rows.map NamedRow.flatNode).length > maxOrchNodes)) = true := by
    simp only [List.length_map, Bool.or_eq_true, decide_eq_true_eq]
    omega
  rw [fromFlatNodes, if_neg hcount] at hrefused
  rcases @addFlatNodes_built [] rows ⟨[], 0⟩ harranged .nil with
    ⟨found, hadd, hout⟩ | ⟨build, hadd, hbuilt⟩
  · rw [hadd] at hrefused
    obtain rfl := Except.error.inj hrefused
    exact hout
  · rw [List.nil_append] at hbuilt
    have hchecks : build.nodes.forM checkFlatNode = .ok () := by
      refine forM_eq_ok.mpr fun node hnode => ?_
      obtain ⟨place, hplace⟩ := List.mem_iff_getElem?.mp hnode
      obtain ⟨row, hrow, htype, hkeys, hcount⟩ := hbuilt.node place node hplace
      exact checkFlatNode_ok htype hkeys (hcount ▸ harranged.admitted place row hrow)
    rw [hadd] at hrefused
    simp [bind, Except.bind, hchecks] at hrefused

/-! ## Aliases -/

/-- A parameter goes by this name. -/
def goesBy (name : Bytes) (param : CString × CString) : Bool := keyIs param.1.bytes name

theorem goesBy_congr {name : Bytes} {first second : CString × CString}
    (hsame : foldName first.1.bytes = foldName second.1.bytes) :
    goesBy name first = goesBy name second := by
  rw [goesBy, goesBy, Bool.eq_iff_iff, keyIs_iff, keyIs_iff, hsame]

/-- One more parameter is found under each of its names, and hides no other. -/
theorem find?_withParam (params : List (CString × CString)) (key value : CString) (name : Bytes) :
    (withParam params key value).find? (goesBy name) =
      if goesBy name (key, value) then some (key, value) else params.find? (goesBy name) := by
  induction params with
  | nil => cases hname : goesBy name (key, value) <;> simp [withParam, hname]
  | cons first rest ih =>
      have hcons : withParam (first :: rest) key value =
          if keyIs first.1.bytes key.bytes then (key, value) :: rest
          else first :: withParam rest key value := by
        simp only [withParam, List.findIdx?_cons]
        split_ifs with hfirst
        · simp
        · cases rest.findIdx? fun param => keyIs param.1.bytes key.bytes with
          | none => simp
          | some place => simp
      rw [hcons]
      by_cases hfirst : keyIs first.1.bytes key.bytes = true
      · rw [if_pos hfirst]
        have hsame : goesBy name first = goesBy name (key, value) :=
          goesBy_congr ((keyIs_iff first.1.bytes key.bytes).mp hfirst)
        cases hname : goesBy name (key, value) <;> simp [hsame, hname]
      · rw [if_neg hfirst, List.find?_cons, List.find?_cons, ih]
        cases hname : goesBy name (key, value) with
        | false => rfl
        | true =>
            have hother : goesBy name first = false := by
              rw [Bool.eq_false_iff]
              intro hfound
              simp only [goesBy, keyIs_iff] at hname hfound hfirst
              exact hfirst (hfound.trans hname.symm)
            simp [hother]

/-- Of several parameters of one name the last is the one that is found. -/
theorem find?_withParams (row : NamedRow) (given : List (CString × CString)) (name : Bytes) :
    (row.withParams given).params.find? (goesBy name) =
      (given.reverse.find? (goesBy name)).or (row.params.find? (goesBy name)) := by
  induction given generalizing row with
  | nil => simp [NamedRow.withParams]
  | cons param rest ih =>
      change ((row.withParam param.1 param.2).withParams rest).params.find? _ = _
      rw [ih, List.reverse_cons, List.find?_append, Option.or_assoc]
      congr 1
      rw [NamedRow.withParam, find?_withParam]
      split_ifs with hname
      · simp [hname]
      · simp [hname]

/-! ## Agreement -/

/-- The rows of one tree in preorder, each with parameters and children that the catalog
has for it. -/
structure CatalogRows (rows : NamedRows) : Prop where
  preorder : ∃ tree : Forest NamedRow, tree.roots.length = 1 ∧ tree.preorder = rows ∧
    rows.map NamedRow.parent = tree.parents none 0
  known : ∀ row ∈ rows, none ∉ catalogKeys row.type row.params
  once : ∀ row ∈ rows, (catalogKeys row.type row.params).Nodup
  required : ∀ row ∈ rows, ∀ name ∈ row.type.spec.required,
    some (.literal name) ∈ catalogKeys row.type row.params
  leaf : ∀ row ∈ rows, ∀ parent above, row.parent = some parent → rows[parent]? = some above →
    above.type.spec.allowsChildren = true
  children : ∀ index row, rows[index]? = some row → ChildrenAdmitted row.type
    (row.hasParam "condition") ((rows.map NamedRow.parent).count (some index))

/-- The rows are those of the catalog, and the constructor refuses them only when it runs
out of room. -/
def Constructible (rows : NamedRows) : Prop :=
  CatalogRows rows ∧
    ∀ refusal, fromFlatNodes (rows.map NamedRow.flatNode) = .error refusal → OutOfRoom refusal

theorem Grown.catalogRows {rows : NamedRows} (hgrown : Grown none [] rows) : CatalogRows rows := by
  have harranged := hgrown.arranged
  obtain ⟨tree, hroots, hrows, hparents, -, -⟩ := hgrown
  rw [List.nil_append] at hrows
  have hrow (row : NamedRow) (hmem : row ∈ rows) : ∃ children, RowAdmitted row children := by
    obtain ⟨index, hindex⟩ := List.mem_iff_getElem?.mp hmem
    exact ⟨_, harranged.admitted index row hindex⟩
  refine ⟨⟨tree, hroots, hrows.symm, hrows ▸ hparents⟩, fun row hmem hnone => ?_,
    fun row hmem => ?_, fun row hmem name hname => ?_, fun row hmem parent above hparent habove => ?_,
    fun index row hindex => (harranged.admitted index row hindex).children⟩
  · obtain ⟨children, hadmitted⟩ := hrow row hmem
    obtain ⟨param, hparam, hkey⟩ := List.mem_map.mp hnone
    have hknown := hadmitted.params.known param hparam
    rw [orchParamKey_eq, Option.map_eq_none_iff] at hkey
    simp [hkey] at hknown
  · obtain ⟨children, hadmitted⟩ := hrow row hmem
    exact hadmitted.params.catalogKeys_nodup
  · obtain ⟨children, hadmitted⟩ := hrow row hmem
    have hparam := (row.hasParam_iff name).mp (hadmitted.required name hname)
    obtain ⟨param, hgiven, hfold⟩ := List.mem_map.mp hparam
    exact List.mem_map.mpr
      ⟨param, hgiven, (orchParamKey_iff (List.mem_append_left _ hname) _).mpr hfold⟩
  · refine (harranged.admitted parent above habove).leaf ?_
    rw [← Nat.pos_iff_ne_zero, List.count_pos_iff, ← hparent]
    exact List.mem_map_of_mem hmem

theorem Grown.constructible {rows : NamedRows} (hgrown : Grown none [] rows) :
    Constructible rows := by
  refine ⟨hgrown.catalogRows, fun refusal hrefused => hgrown.arranged.outOfRoom ?_ hrefused⟩
  obtain ⟨tree, hroots, rfl, -⟩ := hgrown
  have := tree.length_roots_le
  rw [List.nil_append, ← List.length_pos_iff]
  omega

theorem flatRows_grown {document : YamlDocument} {node : YamlNode} {nodeType : CString}
    {rows : NamedRows} (hrows : document.flatRows node nodeType = .ok rows) :
    Grown none [] rows := by
  have hgrows := parse_grows document namedMaxDepth
  rw [YamlDocument.flatRows] at hrows
  split at hrows
  · exact flatParse_grown hgrows hrows
  split at hrows
  · simp [YamlDocument.refuseAt, refuse] at hrows
  · exact parseNamedEntry_grown hgrows hrows

/-- The parameters of a named mapping are its last ones of each name. -/
theorem parseNamedEntry_last {document : YamlDocument} {depth levels : Nat} {value : YamlNode}
    {parent : Option Nat} {rows next : NamedRows} (hmap : document.isMap value = true)
    (hparse : document.parseNamedEntry depth (document.parse levels) value parent rows = .ok next) :
    ∃ row, next[rows.length]? = some row ∧ ∀ name,
      row.params.find? (goesBy name) =
        (givenParams document value).reverse.find? (goesBy name) := by
  have hseq : document.isSeq value = false := by
    simp only [YamlDocument.isMap, YamlDocument.isSeq] at hmap ⊢
    split at hmap
    · rename_i hcontent
      simp [hcontent]
    · simp at hmap
  rw [YamlDocument.parseNamedEntry] at hparse
  split at hparse
  · simp [refuse] at hparse
  split at hparse
  · simp [refuse] at hparse
  rename_i hlimit
  split at hparse
  · simp [YamlDocument.refuseAt, refuse] at hparse
  split at hparse
  · simp [YamlDocument.refuseAt, refuse] at hparse
  split at hparse
  · simp [YamlDocument.refuseAt, refuse] at hparse
  rename_i type _
  simp only [hseq, Bool.false_eq_true, if_false] at hparse
  obtain ⟨children, hdone, -⟩ := namedMapping_open (parse_grows document levels) hparse
    (Open.start ⟨type, parent, []⟩ (Nat.lt_of_not_le hlimit))
  refine ⟨_, hdone.row_eq, fun name => ?_⟩
  rw [find?_withParams]
  simp

/-- Whatever the parser accepts, the constructor of trees accepts. -/
theorem parsed_rows_constructible (document : YamlDocument) :
    (∀ node rows, document.namedRows node = .ok rows → Constructible rows) ∧
      (∀ node nodeType rows, document.flatRows node nodeType = .ok rows → Constructible rows) ∧
      ∀ depth levels value parent rows next, document.isMap value = true →
        document.parseNamedEntry depth (document.parse levels) value parent rows = .ok next →
        ∃ row, next[rows.length]? = some row ∧ ∀ name, row.params.find? (goesBy name) =
          (givenParams document value).reverse.find? (goesBy name) := by
  refine ⟨fun node rows hrows => ?_, fun node nodeType rows hrows => ?_, ?_⟩
  · exact (parse_grows document _ node none [] rows hrows).constructible
  · exact (flatRows_grown hrows).constructible
  · intro depth levels value parent rows next
    exact parseNamedEntry_last

/-- A named sequence with one command, given twice, and a variable in the flat form. -/
def sampleCells : List YamlCell :=
  let scalar (text : String) : YamlCell := ⟨.scalar (.literal text), 1, 1⟩
  [⟨.mapping [(1, 2)], 1, 1⟩, scalar "Sequence", ⟨.sequence [3], 1, 1⟩, ⟨.mapping [(4, 5)], 1, 1⟩,
    scalar "shell", ⟨.mapping [(6, 7), (8, 9)], 1, 1⟩, scalar "cmd", scalar "true", scalar "C_md",
    scalar "false", ⟨.mapping [(11, 7), (12, 9)], 1, 1⟩, scalar "set_variable", scalar "value"]

/-- The document with these cells. -/
def sampleDocument : YamlDocument := ⟨sampleCells, some 0, YamlDocument.plainLookup sampleCells⟩

theorem parsed_rows_constructible_sample :
    (∃ rows, sampleDocument.namedRows ⟨some 0, none⟩ = .ok rows ∧ Constructible rows) ∧
      (∃ rows, sampleDocument.flatRows ⟨some 10, none⟩ (.literal "set_variable") = .ok rows ∧
        Constructible rows) ∧
      ∃ next row, sampleDocument.parseNamedEntry 1 (sampleDocument.parse 99) ⟨some 5, some 4⟩ none
        [] = .ok next ∧ next[0]? = some row ∧
        row.params.find? (goesBy (ascii "cmd")) = some (.literal "C_md", .literal "false") := by
  obtain ⟨rows, hrows⟩ := exists_eq_ok
    (show (sampleDocument.namedRows ⟨some 0, none⟩).isOk = true by decide +kernel)
  obtain ⟨flat, hflat⟩ := exists_eq_ok
    (show (sampleDocument.flatRows ⟨some 10, none⟩ (.literal "set_variable")).isOk = true by
      decide +kernel)
  obtain ⟨next, hnext⟩ := exists_eq_ok
    (show (sampleDocument.parseNamedEntry 1 (sampleDocument.parse 99) ⟨some 5, some 4⟩ none
      []).isOk = true by decide +kernel)
  obtain ⟨hnamed, hform, hlast⟩ := parsed_rows_constructible sampleDocument
  obtain ⟨row, hrow, hfind⟩ := hlast 1 99 ⟨some 5, some 4⟩ none [] next (by decide +kernel) hnext
  refine ⟨⟨rows, hrows, hnamed _ _ hrows⟩, ⟨flat, hflat, hform _ _ _ hflat⟩,
    next, row, hnext, hrow, ?_⟩
  rw [hfind]
  decide +kernel

end Praktor.Yaml
