/-
# What the orchestration parser collects

The rules of the catalog are checked twice: by the parser, on the rows it collects, and by
the constructor of trees, on the same rows again.  The two agree.  Whatever the parser
accepts is a tree in preorder whose nodes the catalog admits, so the constructor finds
nothing wrong with it and fails only when it runs out of room.

The three functions that compare names do it in different ways, but each compares what
is left of the names without underscores and in lower case.
-/

import Mathlib.Data.List.Forall2
import Praktor.Yaml.Orchestration

namespace Praktor.Yaml

open Praktor.Data Praktor.Math Praktor.Workflow

/-! ## Names -/

/-- A name without underscores, in lower case. -/
def foldName (name : Bytes) : Bytes := (name.filter (· ≠ 95)).map lower

theorem foldName_underscore (name : Bytes) : foldName (95 :: name) = foldName name := rfl

theorem foldName_cons {byte : UInt8} (hbyte : byte ≠ 95) (name : Bytes) :
    foldName (byte :: name) = lower byte :: foldName name := by
  simp [foldName, hbyte]

theorem foldName_dropWhile (name : Bytes) :
    foldName (name.dropWhile (· = 95)) = foldName name := by
  induction name with
  | nil => rfl
  | cons byte rest ih =>
      by_cases hbyte : byte = 95
      · subst hbyte
        rw [foldName_underscore, ← ih]
        rfl
      · simp [hbyte]

theorem ne_of_dropWhile_eq_cons {name rest : Bytes} {byte : UInt8}
    (hdrop : name.dropWhile (· = 95) = byte :: rest) : byte ≠ 95 := by
  have hhead := List.head?_dropWhile_not (fun byte : UInt8 => byte = 95) name
  simpa [hdrop] using hhead

theorem dropWhile_eq_nil_iff (name : Bytes) :
    name.dropWhile (· = 95) = [] ↔ foldName name = [] := by
  rw [← foldName_dropWhile]
  cases hdrop : name.dropWhile (· = 95) with
  | nil => simp [foldName]
  | cons byte rest => simp [foldName_cons (ne_of_dropWhile_eq_cons hdrop)]

theorem orchNameIs_iff (name canonical : Bytes) :
    orchNameIs name canonical = true ↔ foldName name = foldName canonical := by
  induction name generalizing canonical with
  | nil =>
      rw [orchNameIs, decide_eq_true_eq, dropWhile_eq_nil_iff]
      exact eq_comm
  | cons byte rest ih =>
      by_cases hbyte : byte = 95
      · subst hbyte
        rw [foldName_underscore, ← ih, orchNameIs, if_pos rfl]
      rw [orchNameIs, if_neg hbyte, ← foldName_dropWhile canonical, foldName_cons hbyte]
      cases hdrop : canonical.dropWhile (· = 95) with
      | nil => simp [foldName]
      | cons expected others =>
          simp [foldName_cons (ne_of_dropWhile_eq_cons hdrop), ih]

theorem keyIsLoop_iff (fuel : Nat) (key expected : Bytes)
    (hfuel : key.length + expected.length ≤ fuel) :
    keyIsLoop fuel key expected = true ↔ foldName key = foldName expected := by
  induction fuel generalizing key expected with
  | zero =>
      obtain rfl : key = [] := List.eq_nil_of_length_eq_zero (by omega)
      obtain rfl : expected = [] := List.eq_nil_of_length_eq_zero (by simpa using hfuel)
      simp [keyIsLoop]
  | succ fuel ih =>
      cases key with
      | nil =>
          rw [eq_comm]
          simp [keyIsLoop, dropWhile_eq_nil_iff, foldName]
      | cons first key =>
          cases expected with
          | nil => simp [keyIsLoop, dropWhile_eq_nil_iff, foldName]
          | cons second expected =>
              simp only [List.length_cons] at hfuel
              rw [keyIsLoop]
              split_ifs with hfirst hsecond
              · subst hfirst
                rw [foldName_underscore]
                exact ih _ _ (by simp only [List.length_cons]; omega)
              · subst hsecond
                rw [foldName_underscore]
                exact ih _ _ (by simp only [List.length_cons]; omega)
              · rw [foldName_cons hfirst, foldName_cons hsecond]
                simp [ih key expected (by omega)]

theorem keyIs_iff (key expected : Bytes) :
    keyIs key expected = true ↔ foldName key = foldName expected :=
  keyIsLoop_iff _ key expected (Nat.le_refl _)

/-- The parser and the constructor find the same parameter. -/
theorem orchParamKey_eq (spec : OrchSpec) (key : Bytes) :
    orchParamKey spec key = (canonicalParam spec key).map .literal := by
  have hsame : (fun name : String => orchNameIs key (ascii name)) =
      fun name => keyIs key (ascii name) := by
    funext name
    rw [Bool.eq_iff_iff, orchNameIs_iff, keyIs_iff]
  rw [orchParamKey, canonicalParam, hsame]

/-! ## Parameters of a row -/

/-- The parameters of a row with one more, in the place of an alias if there is one. -/
def withParam (params : List (CString × CString)) (key value : CString) :
    List (CString × CString) :=
  match params.findIdx? fun param => keyIs param.1.bytes key.bytes with
  | some place => params.set place (key, value)
  | none => params ++ [(key, value)]

/-- The names of the parameters of a row. -/
def foldedKeys (params : List (CString × CString)) : List Bytes :=
  params.map fun param => foldName param.1.bytes

/-- What holds of the parameters of a row from its first one on. -/
structure ParamsFit (spec : OrchSpec) (params : List (CString × CString)) : Prop where
  known : ∀ param ∈ params, (canonicalParam spec param.1.bytes).isSome = true
  distinct : (foldedKeys params).Nodup
  length_le : params.length ≤ maxOrchParams

theorem ParamsFit.nil (spec : OrchSpec) : ParamsFit spec [] :=
  ⟨by simp, by simp [foldedKeys], Nat.zero_le _⟩

section WithParam

variable {params : List (CString × CString)} {key value : CString}

theorem mem_withParam {param : CString × CString} (hparam : param ∈ withParam params key value) :
    param ∈ params ∨ param = (key, value) := by
  rw [withParam] at hparam
  split at hparam
  · exact List.mem_or_eq_of_mem_set hparam
  · simpa using hparam

/-- An alias leaves the names as they are; otherwise there is one more name. -/
theorem foldedKeys_withParam :
    (foldName key.bytes ∈ foldedKeys params ∧
        foldedKeys (withParam params key value) = foldedKeys params ∧
        (withParam params key value).length = params.length) ∨
      (foldName key.bytes ∉ foldedKeys params ∧
        withParam params key value = params ++ [(key, value)]) := by
  rw [withParam]
  cases hfind : params.findIdx? fun param => keyIs param.1.bytes key.bytes with
  | none =>
      refine .inr ⟨fun hmem => ?_, rfl⟩
      obtain ⟨param, hparam, hname⟩ := List.mem_map.mp hmem
      have hkey := List.findIdx?_eq_none_iff.mp hfind param hparam
      rw [Bool.eq_false_iff, ne_eq, keyIs_iff] at hkey
      exact hkey hname
  | some place =>
      obtain ⟨hlt, hkey, -⟩ := List.findIdx?_eq_some_iff_getElem.mp hfind
      rw [keyIs_iff] at hkey
      refine .inl ⟨List.mem_map.mpr ⟨_, List.getElem_mem hlt, hkey⟩, ?_, by simp⟩
      have hplace : place < (foldedKeys params).length := by simpa [foldedKeys] using hlt
      have hname : (foldedKeys params)[place] = foldName key.bytes := by simpa [foldedKeys] using hkey
      rw [foldedKeys, List.map_set]
      exact hname ▸ List.set_getElem_self hplace

theorem foldedKeys_append (params : List (CString × CString)) (key value : CString) :
    foldedKeys (params ++ [(key, value)]) = foldedKeys params ++ [foldName key.bytes] := by
  simp [foldedKeys]

theorem foldedKeys_subset : foldedKeys params ⊆ foldedKeys (withParam params key value) := by
  rcases @foldedKeys_withParam params key value with ⟨-, hkeys, -⟩ | ⟨-, hkeys⟩
  · rw [hkeys]
    exact List.Subset.refl _
  · rw [hkeys, foldedKeys_append]
    exact List.subset_append_left _ _

theorem mem_foldedKeys_withParam :
    foldName key.bytes ∈ foldedKeys (withParam params key value) := by
  rcases @foldedKeys_withParam params key value with ⟨hmem, hkeys, -⟩ | ⟨-, hkeys⟩
  · rwa [hkeys]
  · rw [hkeys, foldedKeys_append]
    exact List.mem_append_right _ (List.mem_singleton_self _)

theorem ParamsFit.withParam {spec : OrchSpec} (hfit : ParamsFit spec params)
    (hknown : (canonicalParam spec key.bytes).isSome = true)
    (hroom : foldName key.bytes ∈ foldedKeys params ∨ params.length < maxOrchParams) :
    ParamsFit spec (withParam params key value) := by
  refine ⟨fun param hparam => ?_, ?_, ?_⟩
  · rcases mem_withParam hparam with hparam | rfl
    · exact hfit.known param hparam
    · exact hknown
  · rcases @foldedKeys_withParam params key value with ⟨-, hkeys, -⟩ | ⟨hnew, hkeys⟩
    · rw [hkeys]
      exact hfit.distinct
    · rw [hkeys, foldedKeys_append, ← List.concat_eq_append]
      exact hfit.distinct.concat hnew
  · rcases @foldedKeys_withParam params key value with ⟨-, -, hlength⟩ | ⟨hnew, hkeys⟩
    · rw [hlength]
      exact hfit.length_le
    · rw [hkeys, List.length_append]
      exact hroom.resolve_left hnew

end WithParam

/-! ## Rows -/

/-- The numbers of children that a type admits.  The condition of `if` and `while` is a
parameter or a child. -/
def ChildrenAdmitted (type : OrchType) (scalar : Bool) (children : Nat) : Prop :=
  match type with
  | .ifThenElse => (if scalar then 1 else 2) ≤ children ∧ children ≤ if scalar then 2 else 3
  | .whileDo => children = if scalar then 1 else 2
  | type => (type.spec.control = true → children ≠ 0) ∧ (orchSingleChild type = true → children = 1)

/-- A row has a parameter of this name. -/
def NamedRow.hasParam (row : NamedRow) (name : String) : Bool :=
  row.params.any fun param => keyIs param.1.bytes (ascii name)

/-- The catalog admits a row with its children. -/
structure RowAdmitted (row : NamedRow) (children : Nat) : Prop where
  params : ParamsFit row.type.spec row.params
  required : ∀ name ∈ row.type.spec.required, row.hasParam name = true
  leaf : children ≠ 0 → row.type.spec.allowsChildren = true
  children : ChildrenAdmitted row.type (row.hasParam "condition") children

/-- The rows of one tree below a parent have been added. -/
def Grown (parent : Option Nat) (rows next : NamedRows) : Prop :=
  ∃ tree : Forest NamedRow, tree.roots.length = 1 ∧ next = rows ++ tree.preorder ∧
    tree.preorder.map NamedRow.parent = tree.parents parent rows.length ∧ tree.All RowAdmitted ∧
    next.length ≤ maxOrchNodes

/-- One more row is being read, and so many children of it have been added. -/
def Open (rows : NamedRows) (row : NamedRow) (children : Nat) (next : NamedRows) : Prop :=
  ∃ below : Forest NamedRow, below.roots.length = children ∧
    next = rows ++ row :: below.preorder ∧
    below.preorder.map NamedRow.parent = below.parents (some rows.length) (rows.length + 1) ∧
    below.All RowAdmitted ∧ next.length ≤ maxOrchNodes

section Open

variable {rows between next : NamedRows} {row : NamedRow} {children : Nat}

theorem Open.start (row : NamedRow) (hroom : rows.length < maxOrchNodes) :
    Open rows row 0 (rows ++ [row]) :=
  ⟨.empty, rfl, rfl, rfl, trivial, by rw [List.length_append]; exact hroom⟩

theorem Open.row_eq (hopen : Open rows row children next) : next[rows.length]? = some row := by
  obtain ⟨below, -, rfl, -⟩ := hopen
  simp

/-- A row that is complete. -/
theorem Open.close (hopen : Open rows row children next) (hrow : RowAdmitted row children) :
    Grown row.parent rows next := by
  obtain ⟨below, rfl, rfl, hparents, hall, hlimit⟩ := hopen
  refine ⟨.tree row below .empty, rfl, by simp [Forest.preorder], ?_, ⟨hrow, hall, trivial⟩, hlimit⟩
  simp [Forest.preorder, Forest.parents, hparents]

/-- One more child. -/
theorem Open.grow (hopen : Open rows row children between)
    (hgrown : Grown (some rows.length) between next) : Open rows row (children + 1) next := by
  obtain ⟨below, rfl, rfl, hparents, hall, -⟩ := hopen
  obtain ⟨tree, hroots, rfl, htree, hadmitted, hlimit⟩ := hgrown
  have hlength : (rows ++ row :: below.preorder).length =
      rows.length + 1 + below.preorder.length := by
    simp only [List.length_append, List.length_cons]
    omega
  refine ⟨below.append tree, ?_, ?_, ?_, hall.append hadmitted, hlimit⟩
  · rw [Forest.roots_append, List.length_append, hroots]
  · rw [Forest.preorder_append]
    simp
  · rw [Forest.preorder_append, List.map_append, hparents, htree, Forest.parents_append, hlength]

/-- Another version of the row. -/
theorem Open.set (hopen : Open rows row children between) (other : NamedRow) :
    Open rows other children (between.set rows.length other) := by
  obtain ⟨below, hroots, rfl, hparents, hall, hlimit⟩ := hopen
  refine ⟨below, hroots, ?_, hparents, hall, by rwa [List.length_set]⟩
  rw [List.set_append_right _ _ (Nat.le_refl _), Nat.sub_self, List.set_cons_zero]

/-- The children that the row has are the rows that name it. -/
theorem Open.childCount_eq (hopen : Open rows row children next) :
    YamlDocument.childCount next rows.length = children := by
  obtain ⟨below, rfl, rfl, hparents, -, -⟩ := hopen
  have hdrop : (rows ++ row :: below.preorder).drop (rows.length + 1) = below.preorder := by
    rw [← List.drop_drop]
    simp
  have hcount : below.preorder.countP (fun row => decide (row.parent = some rows.length)) =
      (below.preorder.map NamedRow.parent).count (some rows.length) := by
    rw [List.count, List.countP_map]
    congr 1
    funext row
    exact (beq_eq_decide _ _).symm
  rw [YamlDocument.childCount, hdrop, hcount, hparents,
    below.count_parents (Nat.lt_succ_self rows.length)]

end Open

/-! ## What the parser keeps -/

/-- Whatever the parser accepts one level deeper is a tree below its parent. -/
def Grows (deeper : YamlDocument.Deeper) : Prop :=
  ∀ node parent rows next, deeper node parent rows = .ok next → Grown parent rows next

/-- The row with one more parameter. -/
def NamedRow.withParam (row : NamedRow) (key value : CString) : NamedRow :=
  { row with params := Yaml.withParam row.params key value }

theorem NamedRow.hasParam_iff (row : NamedRow) (name : String) :
    row.hasParam name = true ↔ foldName (ascii name) ∈ foldedKeys row.params := by
  simp [hasParam, foldedKeys, keyIs_iff, List.any_eq_true]

theorem NamedRow.hasParam_withParam (row : NamedRow) (key : String) (value : CString) {name : String}
    (hname : (CString.literal key).bytes = ascii name) :
    (row.withParam (.literal key) value).hasParam name = true := by
  rw [hasParam_iff, ← hname]
  exact mem_foldedKeys_withParam

theorem NamedRow.hasParam_withParam_ne (row : NamedRow) (key value : CString) {name : String}
    (hname : foldName key.bytes ≠ foldName (ascii name)) :
    (row.withParam key value).hasParam name = row.hasParam name := by
  rw [Bool.eq_iff_iff, hasParam_iff, hasParam_iff, withParam]
  rcases @foldedKeys_withParam row.params key value with ⟨-, hkeys, -⟩ | ⟨-, hkeys⟩
  · rw [hkeys]
  · rw [hkeys, foldedKeys_append]
    simp [hname.symm]

section Readers

variable {document : YamlDocument} {deeper : YamlDocument.Deeper} {depth : Nat}
  {rows between next : NamedRows} {row : NamedRow} {children : Nat}

theorem addParam_open {key value : CString} {source : YamlNode} {typeLower : Bytes}
    (hadd : document.addParam between rows.length key value source typeLower = .ok next)
    (hopen : Open rows row children between) (hfit : ParamsFit row.type.spec row.params)
    (hknown : (canonicalParam row.type.spec key.bytes).isSome = true) :
    Open rows (row.withParam key value) children next ∧
      ParamsFit row.type.spec (row.withParam key value).params := by
  simp only [YamlDocument.addParam, hopen.row_eq] at hadd
  obtain ⟨_, -, hadd⟩ := except_bind_eq_ok.mp hadd
  have hkeys := @foldedKeys_withParam row.params key value
  split at hadd
  · rename_i place hfind
    have hparams : withParam row.params key value = row.params.set place (key, value) := by
      rw [withParam, hfind]
    obtain rfl := Except.ok.inj hadd
    have hroom : foldName key.bytes ∈ foldedKeys row.params := by
      rcases hkeys with ⟨hmem, -⟩ | ⟨-, hnew⟩
      · exact hmem
      · have hlength := congrArg List.length (hparams.symm.trans hnew)
        simp at hlength
    rw [← hparams]
    exact ⟨hopen.set _, hfit.withParam hknown (.inl hroom)⟩
  · rename_i hfind
    have hparams : withParam row.params key value = row.params ++ [(key, value)] := by
      rw [withParam, hfind]
    split_ifs at hadd with hroom
    · simp [refuse] at hadd
    obtain rfl := Except.ok.inj hadd
    rw [← hparams]
    exact ⟨hopen.set _, hfit.withParam hknown (.inr (Nat.lt_of_not_le hroom))⟩

theorem foldlM_open {step : NamedRows → YamlNode → Except Refusal NamedRows}
    (hstep : ∀ node before after, step before node = .ok after →
      Grown (some rows.length) before after) {nodes : List YamlNode}
    (hparse : nodes.foldlM step between = .ok next) (hopen : Open rows row children between) :
    Open rows row (children + nodes.length) next := by
  induction nodes generalizing between children with
  | nil =>
      obtain rfl := Except.ok.inj hparse
      exact hopen
  | cons node rest ih =>
      rw [List.foldlM_cons] at hparse
      obtain ⟨later, hnode, hrest⟩ := except_bind_eq_ok.mp hparse
      have hlater := ih hrest (hopen.grow (hstep node _ _ hnode))
      rwa [List.length_cons, Nat.add_comm rest.length, ← Nat.add_assoc]

theorem parseEach_open (hgrows : Grows deeper) {nodes : List YamlNode}
    (hparse : YamlDocument.parseEach deeper nodes rows.length between = .ok next)
    (hopen : Open rows row children between) : Open rows row (children + nodes.length) next :=
  foldlM_open (fun node before after => hgrows node _ before after) hparse hopen

theorem parseChildren_open (hgrows : Grows deeper) {seq : YamlNode}
    (hparse : document.parseChildren deeper seq rows.length between = .ok next)
    (hopen : Open rows row children between) :
    Open rows row (children + (document.children seq).length) next := by
  rw [YamlDocument.parseChildren] at hparse
  split_ifs at hparse
  · exact parseEach_open hgrows hparse hopen
  · simp [YamlDocument.refuseAt, refuse] at hparse

theorem appendNode_open {type : OrchType} {parent : Option Nat}
    (happend : YamlDocument.appendNode depth type parent rows = .ok next) :
    Open rows ⟨type, parent, []⟩ 0 next := by
  rw [YamlDocument.appendNode] at happend
  split_ifs at happend with hdepth hlimit
  · simp [refuse] at happend
  · simp [refuse] at happend
  · obtain rfl := Except.ok.inj happend
    exact Open.start _ (Nat.lt_of_not_le hlimit)

/-- A node that wraps a sequence of nodes. -/
theorem sequence_admitted (parent : Option Nat) {count : Nat} (hcount : count ≠ 0) :
    RowAdmitted ⟨.sequence, parent, []⟩ count where
  params := .nil _
  required := by simp [OrchType.spec]
  leaf := fun _ => rfl
  children := ⟨fun _ => hcount, by simp [orchSingleChild]⟩

theorem flatBranch_grown (hgrows : Grows deeper) {branch : YamlNode} {parent : Nat}
    (hparse : document.flatBranch depth deeper branch parent rows = .ok next) :
    Grown (some parent) rows next := by
  rw [YamlDocument.flatBranch] at hparse
  split_ifs at hparse with hseq hempty
  · simp [YamlDocument.refuseAt, refuse] at hparse
  · obtain ⟨between, happend, hparse⟩ := except_bind_eq_ok.mp hparse
    have hopen := parseEach_open hgrows hparse (appendNode_open happend)
    exact hopen.close (sequence_admitted _ (by omega))
  · exact hgrows branch _ _ _ hparse

theorem flatBranch_open (hgrows : Grows deeper) {branch : YamlNode}
    (hparse : document.flatBranch depth deeper branch rows.length between = .ok next)
    (hopen : Open rows row children between) : Open rows row (children + 1) next :=
  hopen.grow (flatBranch_grown hgrows hparse)

theorem childrenAdmitted_iff {type : OrchType} (hif : type ≠ .ifThenElse)
    (hwhile : type ≠ .whileDo) {scalar : Bool} : ChildrenAdmitted type scalar children ↔
      (type.spec.control = true → children ≠ 0) ∧ (orchSingleChild type = true → children = 1) := by
  cases type with
  | ifThenElse => exact absurd rfl hif
  | whileDo => exact absurd rfl hwhile
  | _ => exact Iff.rfl

/-- The check of a finished row is the one of the catalog. -/
theorem validateNamedRow_admitted {origin : YamlNode} {typeLower : Bytes}
    (hvalid : document.validateNamedRow next rows.length origin typeLower = .ok ())
    (hopen : Open rows row children next) (hfit : ParamsFit row.type.spec row.params)
    (hleaf : children ≠ 0 → row.type.spec.allowsChildren = true) : RowAdmitted row children := by
  have hrefuse (message : Bytes) : document.refuseAt origin message ≠ .ok () := by
    simp [YamlDocument.refuseAt, refuse]
  simp only [YamlDocument.validateNamedRow, hopen.row_eq, hopen.childCount_eq] at hvalid
  split at hvalid
  · exact absurd hvalid (hrefuse _)
  rename_i hfind
  have hrequired : ∀ name ∈ row.type.spec.required, row.hasParam name = true := by
    intro name hname
    have hpresent := List.find?_eq_none.mp hfind name hname
    simpa [NamedRow.hasParam] using hpresent
  refine ⟨hfit, hrequired, hleaf, ?_⟩
  have hcondition : (row.params.any fun param => keyIs param.1.bytes (ascii "condition")) =
      row.hasParam "condition" := rfl
  rw [hcondition] at hvalid
  generalize row.hasParam "condition" = scalar at hvalid
  split at hvalid
  · rename_i htype
    rw [htype, ChildrenAdmitted]
    cases scalar <;> simp [hrefuse] at hvalid ⊢ <;> omega
  · rename_i htype
    rw [htype, ChildrenAdmitted]
    cases scalar <;> simpa [hrefuse] using hvalid
  · rename_i hif hwhile
    refine (childrenAdmitted_iff hif hwhile).mpr ⟨fun hcontrol hnone => ?_, fun hsingle => ?_⟩
    · by_cases hsingle : orchSingleChild row.type = true
      · by_cases hswitch : row.type = .switch <;> simp [hswitch, hsingle, hnone, hrefuse] at hvalid
      · by_cases hswitch : row.type = .switch <;>
          simp [hswitch, hsingle, hnone, hcontrol, hrefuse] at hvalid
    · have hswitch : row.type ≠ .switch := by
        intro hswitch
        simp [hswitch, orchSingleChild] at hsingle
      simpa [hswitch, hsingle, hrefuse] using hvalid

/-! ## Flat forms -/

theorem flatAddParam_open {form : YamlDocument.FlatForm} {key : String} {value : CString}
    {source : YamlNode}
    (hadd : document.flatAddParam form between rows.length key value source = .ok next)
    (hopen : Open rows row children between) (hfit : ParamsFit row.type.spec row.params)
    (hknown : (canonicalParam row.type.spec (CString.literal key).bytes).isSome = true) :
    Open rows (row.withParam (.literal key) value) children next ∧
      ParamsFit row.type.spec (row.withParam (.literal key) value).params :=
  addParam_open hadd hopen hfit hknown

/-- The parameter of a form with one child is the one that its type requires, if any. -/
theorem singleChild_param {form : YamlDocument.FlatForm} {param : Option String}
    (hform : form.singleChild = some param) :
    (∀ name ∈ form.type.spec.required, param = some name) ∧
      (∀ key ∈ param, (canonicalParam form.type.spec (CString.literal key).bytes).isSome = true ∧
        (CString.literal key).bytes = ascii key) ∧
      form.type.spec.allowsChildren = true ∧ orchSingleChild form.type = true := by
  cases form with
  | conditional => simp [YamlDocument.FlatForm.singleChild] at hform
  | loop => simp [YamlDocument.FlatForm.singleChild] at hform
  | switch => simp [YamlDocument.FlatForm.singleChild] at hform
  | setVariable => simp [YamlDocument.FlatForm.singleChild] at hform
  | _ =>
      obtain rfl := Option.some.inj hform
      decide +kernel

theorem single_admitted {type : OrchType} (hsingle : orchSingleChild type = true)
    (hallows : type.spec.allowsChildren = true) {parent : Option Nat}
    {params : List (CString × CString)} (hfit : ParamsFit type.spec params)
    (hrequired : ∀ name ∈ type.spec.required, NamedRow.hasParam ⟨type, parent, params⟩ name = true) :
    RowAdmitted ⟨type, parent, params⟩ 1 where
  params := hfit
  required := hrequired
  leaf := fun _ => hallows
  children := by
    cases type with
    | ifThenElse => simp [orchSingleChild] at hsingle
    | whileDo => simp [orchSingleChild] at hsingle
    | _ => exact ⟨fun _ => Nat.one_ne_zero, fun _ => rfl⟩

theorem flatDecorator_grown (hgrows : Grows deeper) {map : YamlNode}
    {form : YamlDocument.FlatForm} {param : Option String} {parent : Option Nat}
    (hform : form.singleChild = some param)
    (hparse : document.flatDecorator depth deeper map rows.length between form param = .ok next)
    (hopen : Open rows ⟨form.type, parent, []⟩ 0 between) : Grown parent rows next := by
  obtain ⟨hrequired, hknown, hallows, hsingle⟩ := singleChild_param hform
  rw [YamlDocument.flatDecorator] at hparse
  obtain ⟨field, -, hparse⟩ := except_bind_eq_ok.mp hparse
  obtain ⟨branch, -, hparse⟩ := except_bind_eq_ok.mp hparse
  obtain ⟨value, -, hparse⟩ := except_bind_eq_ok.mp hparse
  cases param with
  | none =>
      have hdone := flatBranch_open hgrows hparse hopen
      refine hdone.close (single_admitted hsingle hallows (.nil _) fun name hname => ?_)
      simp at hrequired
      exact absurd hname (hrequired name)
  | some key =>
      obtain ⟨later, hlater, hparse⟩ := except_bind_eq_ok.mp hparse
      obtain ⟨hkey, hbytes⟩ := hknown key rfl
      obtain ⟨hwith, hfit⟩ := flatAddParam_open hlater hopen (.nil _) hkey
      have hdone := flatBranch_open hgrows hparse hwith
      refine hdone.close (single_admitted hsingle hallows hfit fun name hname => ?_)
      obtain rfl : key = name := Option.some.inj (hrequired name hname)
      exact NamedRow.hasParam_withParam _ key value hbytes

/-- After its condition a row has it as a parameter or as a child. -/
def Conditioned (rows : NamedRows) (type : OrchType) (parent : Option Nat) (row : NamedRow)
    (children : Nat) (next : NamedRows) : Prop :=
  Open rows row children next ∧ row.type = type ∧ row.parent = parent ∧
    ParamsFit type.spec row.params ∧ children = if row.hasParam "condition" then 0 else 1

theorem flatCondition_open (hgrows : Grows deeper) {form : YamlDocument.FlatForm}
    (hform : (canonicalParam form.type.spec (CString.literal "condition").bytes).isSome = true)
    {field : YamlNode} {parent : Option Nat}
    (hparse : document.flatCondition depth deeper rows.length between form field = .ok next)
    (hopen : Open rows ⟨form.type, parent, []⟩ 0 between) :
    ∃ row children, Conditioned rows form.type parent row children next := by
  rw [YamlDocument.flatCondition] at hparse
  split_ifs at hparse
  · obtain ⟨value, -, hparse⟩ := except_bind_eq_ok.mp hparse
    obtain ⟨hwith, hfit⟩ := flatAddParam_open hparse hopen (.nil _) hform
    have hhas : (NamedRow.withParam ⟨form.type, parent, []⟩ (.literal "condition") value).hasParam
        "condition" = true := NamedRow.hasParam_withParam _ _ _ (by decide)
    exact ⟨_, _, hwith, rfl, rfl, hfit, by rw [hhas]; rfl⟩
  · exact ⟨_, _, flatBranch_open hgrows hparse hopen, rfl, rfl, .nil _, rfl⟩

theorem flatConditional_grown (hgrows : Grows deeper) {map : YamlNode} {parent : Option Nat}
    (hparse : document.flatConditional depth deeper map rows.length between = .ok next)
    (hopen : Open rows ⟨.ifThenElse, parent, []⟩ 0 between) : Grown parent rows next := by
  rw [YamlDocument.flatConditional] at hparse
  obtain ⟨field, -, hparse⟩ := except_bind_eq_ok.mp hparse
  obtain ⟨conditioned, hcondition, hparse⟩ := except_bind_eq_ok.mp hparse
  obtain ⟨row, children, hrow, htype, rfl, hfit, hchildren⟩ :=
    @flatCondition_open _ _ _ _ _ _ hgrows .conditional (by decide) _ _ hcondition hopen
  obtain ⟨branch, -, hparse⟩ := except_bind_eq_ok.mp hparse
  obtain ⟨later, hthen, hparse⟩ := except_bind_eq_ok.mp hparse
  have hlater := flatBranch_open hgrows hthen hrow
  have hadmitted (count : Nat) (hcount : count = children + 1 ∨ count = children + 2) :
      RowAdmitted row count := by
    refine ⟨htype ▸ hfit, by simp [htype, OrchType.spec, YamlDocument.FlatForm.type],
      fun _ => by rw [htype]; rfl, ?_⟩
    rw [htype]
    show _ ≤ _ ∧ _ ≤ _
    split_ifs at hchildren ⊢ <;> omega
  split_ifs at hparse
  · split at hparse
    · exact (flatBranch_open hgrows hparse hlater).close (hadmitted _ (.inr rfl))
    · simp [YamlDocument.refuseAt, refuse] at hparse
  · obtain rfl := Except.ok.inj hparse
    exact hlater.close (hadmitted _ (.inl rfl))

theorem flatLoop_grown (hgrows : Grows deeper) {map : YamlNode} {parent : Option Nat}
    (hparse : document.flatLoop depth deeper map rows.length between = .ok next)
    (hopen : Open rows ⟨.whileDo, parent, []⟩ 0 between) : Grown parent rows next := by
  rw [YamlDocument.flatLoop] at hparse
  obtain ⟨field, -, hparse⟩ := except_bind_eq_ok.mp hparse
  obtain ⟨conditioned, hcondition, hparse⟩ := except_bind_eq_ok.mp hparse
  obtain ⟨row, children, hrow, htype, hparent, hfit, hchildren⟩ :=
    @flatCondition_open _ _ _ _ _ _ hgrows .loop (by decide) _ _ hcondition hopen
  change row.type = .whileDo at htype
  obtain ⟨counted, hcounted, hparse⟩ := except_bind_eq_ok.mp hparse
  have hlimited : ∃ row, Conditioned rows .whileDo parent row children counted := by
    rw [YamlDocument.flatLimit] at hcounted
    split_ifs at hcounted
    · split at hcounted
      · obtain ⟨value, -, hcounted⟩ := except_bind_eq_ok.mp hcounted
        obtain ⟨hwith, hmore⟩ :=
          flatAddParam_open hcounted hrow (htype ▸ hfit) (by rw [htype]; decide)
        have hhas := row.hasParam_withParam_ne (.literal "max_iterations") value
          (by decide : foldName (CString.literal "max_iterations").bytes ≠
            foldName (ascii "condition"))
        exact ⟨_, hwith, htype, hparent, htype ▸ hmore, by rw [hhas]; exact hchildren⟩
      · simp [YamlDocument.refuseAt, refuse] at hcounted
    · obtain rfl := Except.ok.inj hcounted
      exact ⟨row, hrow, htype, hparent, hfit, hchildren⟩
  obtain ⟨row, hrow, htype, rfl, hfit, hchildren⟩ := hlimited
  obtain ⟨branch, -, hparse⟩ := except_bind_eq_ok.mp hparse
  refine (flatBranch_open hgrows hparse hrow).close ⟨htype ▸ hfit, by simp [htype, OrchType.spec],
    fun _ => by rw [htype]; rfl, ?_⟩
  rw [htype]
  show _ = _
  split_ifs at hchildren ⊢ <;> omega

theorem flatSwitch_grown (hgrows : Grows deeper) {map : YamlNode} {parent : Option Nat}
    (hparse : document.flatSwitch depth deeper map rows.length between = .ok next)
    (hopen : Open rows ⟨.switch, parent, []⟩ 0 between) : Grown parent rows next := by
  rw [YamlDocument.flatSwitch] at hparse
  split_ifs at hparse with hcases
  · simp [YamlDocument.refuseAt, refuse] at hparse
  obtain ⟨field, -, hparse⟩ := except_bind_eq_ok.mp hparse
  obtain ⟨value, -, hparse⟩ := except_bind_eq_ok.mp hparse
  obtain ⟨later, hlater, hparse⟩ := except_bind_eq_ok.mp hparse
  have hvariable : (canonicalParam OrchType.switch.spec (CString.literal "variable").bytes).isSome =
      true := by decide
  obtain ⟨hwith, hfit⟩ := flatAddParam_open hlater hopen (.nil _) hvariable
  obtain ⟨branch, -, hparse⟩ := except_bind_eq_ok.mp hparse
  split_ifs at hparse with hseq hempty
  · simp [YamlDocument.refuseAt, refuse] at hparse
  · simp [YamlDocument.refuseAt, refuse] at hparse
  have hdone := foldlM_open (fun _ _ _ hbranch => flatBranch_grown hgrows hbranch) hparse hwith
  refine hdone.close ⟨hfit, fun name hname => ?_, fun _ => rfl, ?_⟩
  · obtain rfl : name = "variable" := by simpa [NamedRow.withParam, OrchType.spec] using hname
    exact NamedRow.hasParam_withParam _ _ _ (by decide)
  · exact ⟨fun _ => by omega, by simp [NamedRow.withParam, orchSingleChild]⟩

theorem flatSetVariable_grown {map : YamlNode} {parent : Option Nat}
    (hparse : document.flatSetVariable map rows.length between = .ok next)
    (hopen : Open rows ⟨.setVariable, parent, []⟩ 0 between) : Grown parent rows next := by
  have hkey : (canonicalParam OrchType.setVariable.spec (CString.literal "key").bytes).isSome =
      true := by decide
  have hnames : ∀ name ∈ ["value", "from"],
      (canonicalParam OrchType.setVariable.spec (CString.literal name).bytes).isSome = true := by
    decide
  rw [YamlDocument.flatSetVariable] at hparse
  split at hparse
  · simp [YamlDocument.refuseAt, refuse] at hparse
  obtain ⟨field, -, hparse⟩ := except_bind_eq_ok.mp hparse
  obtain ⟨key, -, hparse⟩ := except_bind_eq_ok.mp hparse
  obtain ⟨later, hlater, hparse⟩ := except_bind_eq_ok.mp hparse
  obtain ⟨hwith, hfit⟩ := flatAddParam_open hlater hopen (.nil _) hkey
  generalize hname : (if document.has map (ascii "value") = true then "value" else "from") = name
    at hparse
  have hmem : name ∈ ["value", "from"] := by
    rw [← hname]
    split_ifs <;> simp
  simp only at hparse
  split at hparse
  · simp [YamlDocument.refuseAt, refuse] at hparse
  obtain ⟨text, -, hparse⟩ := except_bind_eq_ok.mp hparse
  obtain ⟨hdone, hfit⟩ := flatAddParam_open hparse hwith hfit (hnames name hmem)
  refine hdone.close ⟨hfit, fun required hrequired => ?_, fun h => absurd rfl h, ?_⟩
  · obtain rfl : required = "key" := by
      simpa [NamedRow.withParam, OrchType.spec] using hrequired
    rw [NamedRow.hasParam_iff]
    refine foldedKeys_subset ?_
    rw [← NamedRow.hasParam_iff]
    exact NamedRow.hasParam_withParam _ _ _ (by decide)
  · exact ⟨by simp [NamedRow.withParam, OrchType.spec], by simp [NamedRow.withParam, orchSingleChild]⟩

theorem flatParse_grown (hgrows : Grows deeper) {map : YamlNode} {parent : Option Nat}
    {form : YamlDocument.FlatForm} {allowMetadata : Bool}
    (hparse : document.flatParse depth deeper map parent form allowMetadata rows = .ok next) :
    Grown parent rows next := by
  rw [YamlDocument.flatParse] at hparse
  split at hparse
  · simp [refuse] at hparse
  obtain ⟨_, -, hparse⟩ := except_bind_eq_ok.mp hparse
  obtain ⟨between, happend, hparse⟩ := except_bind_eq_ok.mp hparse
  have hopen := appendNode_open happend
  split at hparse
  · rename_i param hform
    exact flatDecorator_grown hgrows hform hparse hopen
  · rename_i hform
    cases form with
    | conditional => exact flatConditional_grown hgrows hparse hopen
    | loop => exact flatLoop_grown hgrows hparse hopen
    | switch => exact flatSwitch_grown hgrows hparse hopen
    | setVariable => exact flatSetVariable_grown hparse hopen
    | _ => simp [YamlDocument.FlatForm.singleChild] at hform

/-! ## Named nodes -/

/-- The parameter that a field of a named mapping gives: any field but the two for
children. -/
def fieldParam (document : YamlDocument) (field : YamlNode) : Option (CString × CString) :=
  match document.fieldDecode field true, document.scalarText field.node with
  | .ok key, .ok text =>
      if keyIs key.bytes (ascii "child") || keyIs key.bytes (ascii "children") then none
      else some (key, text)
  | _, _ => none

/-- The parameters of a named mapping, in the order of its fields. -/
def givenParams (document : YamlDocument) (value : YamlNode) : List (CString × CString) :=
  (document.children value).filterMap (fieldParam document)

/-- The row with several more parameters. -/
def NamedRow.withParams (row : NamedRow) (params : List (CString × CString)) : NamedRow :=
  params.foldl (fun row param => row.withParam param.1 param.2) row

theorem NamedRow.withParams_type (row : NamedRow) (params : List (CString × CString)) :
    (row.withParams params).type = row.type := by
  induction params generalizing row with
  | nil => rfl
  | cons param rest ih => exact ih _

theorem NamedRow.withParams_parent (row : NamedRow) (params : List (CString × CString)) :
    (row.withParams params).parent = row.parent := by
  induction params generalizing row with
  | nil => rfl
  | cons param rest ih => exact ih _

theorem namedField_open {typeLower : Bytes} {field : YamlNode} {flags : Bool × Bool}
    {result : NamedRows × Bool × Bool}
    (hfield : document.namedField row.type typeLower rows.length (between, flags) field =
      .ok result) (hopen : Open rows row 0 between) (hfit : ParamsFit row.type.spec row.params) :
    Open rows (row.withParams (fieldParam document field).toList) 0 result.1 ∧
      ParamsFit row.type.spec (row.withParams (fieldParam document field).toList).params := by
  obtain ⟨hasChild, hasChildren⟩ := flags
  simp only [YamlDocument.namedField] at hfield
  split at hfield
  · simp [YamlDocument.refuseAt, refuse] at hfield
  rename_i key hkey
  have hskip (hchild : (keyIs key.bytes (ascii "child") ||
      keyIs key.bytes (ascii "children")) = true) : fieldParam document field = none := by
    rw [fieldParam, hkey]
    split
    · rename_i hdecoded _
      obtain rfl := Except.ok.inj hdecoded
      rw [if_pos hchild]
    · rfl
  split_ifs at hfield with hchild hchildren
  · obtain rfl := Except.ok.inj hfield
    rw [hskip (by simp [hchild])]
    exact ⟨hopen, hfit⟩
  · obtain rfl := Except.ok.inj hfield
    rw [hskip (by simp [hchildren])]
    exact ⟨hopen, hfit⟩
  split at hfield
  · simp [YamlDocument.refuseAt, refuse] at hfield
  rename_i name hname
  obtain ⟨text, htext, hfield⟩ := except_bind_eq_ok.mp hfield
  obtain ⟨later, hlater, hfield⟩ := except_bind_eq_ok.mp hfield
  obtain rfl := Except.ok.inj hfield
  have hscalar : document.scalarText field.node = .ok text := by
    rw [YamlDocument.flatScalar] at htext
    split at htext
    · rename_i found hfound
      rw [hfound, Except.ok.inj htext]
    · simp [YamlDocument.refuseAt, refuse] at htext
  have hparam : fieldParam document field = some (key, text) := by
    simp [fieldParam, hkey, hscalar, hchild, hchildren]
  rw [hparam]
  exact addParam_open hlater hopen hfit (by rw [hname]; rfl)

theorem namedFields_open {typeLower : Bytes} {fields : List YamlNode} {flags : Bool × Bool}
    {result : NamedRows × Bool × Bool}
    (hfields : fields.foldlM (document.namedField row.type typeLower rows.length)
      (between, flags) = .ok result) (hopen : Open rows row 0 between)
    (hfit : ParamsFit row.type.spec row.params) :
    Open rows (row.withParams (fields.filterMap (fieldParam document))) 0 result.1 ∧
      ParamsFit row.type.spec (row.withParams (fields.filterMap (fieldParam document))).params := by
  induction fields generalizing between flags row with
  | nil =>
      obtain rfl := Except.ok.inj hfields
      exact ⟨hopen, hfit⟩
  | cons field rest ih =>
      rw [List.foldlM_cons] at hfields
      obtain ⟨later, hfield, hrest⟩ := except_bind_eq_ok.mp hfields
      obtain ⟨hlater, hlaterFit⟩ := namedField_open hfield hopen hfit
      have htype := row.withParams_type (fieldParam document field).toList
      rw [← htype] at hrest hlaterFit ⊢
      have hdone := ih hrest hlater hlaterFit
      cases hparam : fieldParam document field with
      | none =>
          rw [hparam] at hdone
          rw [List.filterMap_cons_none hparam]
          exact hdone
      | some param =>
          rw [hparam] at hdone
          rw [List.filterMap_cons_some hparam]
          exact hdone

/-- A finished row that was checked. -/
theorem checked_admitted {origin : YamlNode} {typeLower : Bytes}
    (hcheck : (do
      document.validateNamedRow between rows.length origin typeLower
      pure between) = .ok next)
    (hopen : Open rows row children between) (hfit : ParamsFit row.type.spec row.params)
    (hleaf : children ≠ 0 → row.type.spec.allowsChildren = true) :
    Open rows row children next ∧ RowAdmitted row children := by
  obtain ⟨_, hvalid, hcheck⟩ := except_bind_eq_ok.mp hcheck
  obtain rfl := Except.ok.inj hcheck
  exact ⟨hopen, validateNamedRow_admitted hvalid hopen hfit hleaf⟩

theorem namedSequence_grown (hgrows : Grows deeper) {value : YamlNode} {type : OrchType}
    {typeLower : Bytes} {parent : Option Nat}
    (hparse : document.namedSequence deeper value type typeLower rows.length between = .ok next)
    (hopen : Open rows ⟨type, parent, []⟩ 0 between) : Grown parent rows next := by
  rw [YamlDocument.namedSequence] at hparse
  split at hparse
  · simp [YamlDocument.refuseLeaf, YamlDocument.refuseAt, refuse] at hparse
  rename_i hallows
  obtain ⟨later, hlater, hparse⟩ := except_bind_eq_ok.mp hparse
  obtain ⟨hdone, hadmitted⟩ := checked_admitted hparse (parseChildren_open hgrows hlater hopen)
    (.nil _) fun _ => by simpa using hallows
  exact hdone.close hadmitted

theorem namedBranch_open (hgrows : Grows deeper) {value : YamlNode} {typeLower : Bytes}
    {hasChild hasChildren : Bool}
    (hparse : document.namedBranch depth deeper value row.type typeLower rows.length hasChild
      hasChildren between = .ok next) (hopen : Open rows row 0 between) :
    ∃ children, Open rows row children next ∧
      (children ≠ 0 → row.type.spec.allowsChildren = true) := by
  rw [YamlDocument.namedBranch] at hparse
  split at hparse
  · split at hparse
    · simp [YamlDocument.refuseAt, refuse] at hparse
    split at hparse
    · simp [YamlDocument.refuseLeaf, YamlDocument.refuseAt, refuse] at hparse
    rename_i hallows
    have hleaf : row.type.spec.allowsChildren = true := by simpa using hallows
    split at hparse
    · exact ⟨_, parseChildren_open hgrows hparse hopen, fun _ => hleaf⟩
    · exact ⟨_, flatBranch_open hgrows hparse hopen, fun _ => hleaf⟩
  · obtain rfl := Except.ok.inj hparse
    exact ⟨0, hopen, fun h => absurd rfl h⟩

/-- The row of a named mapping has the parameters that its fields give. -/
theorem namedMapping_open (hgrows : Grows deeper) {value : YamlNode} {type : OrchType}
    {typeLower : Bytes} {parent : Option Nat}
    (hparse : document.namedMapping depth deeper value type typeLower rows.length between =
      .ok next) (hopen : Open rows ⟨type, parent, []⟩ 0 between) :
    ∃ children,
      Open rows (NamedRow.withParams ⟨type, parent, []⟩ (givenParams document value)) children
        next ∧
      RowAdmitted (NamedRow.withParams ⟨type, parent, []⟩ (givenParams document value))
        children := by
  rw [YamlDocument.namedMapping] at hparse
  obtain ⟨⟨read, hasChild, hasChildren⟩, hfields, hparse⟩ := except_bind_eq_ok.mp hparse
  obtain ⟨hread, hfit⟩ :=
    @namedFields_open document rows between ⟨type, parent, []⟩ _ _ _ _ hfields hopen (.nil _)
  simp only at hparse
  split at hparse
  · simp [YamlDocument.refuseAt, refuse] at hparse
  obtain ⟨later, hbranch, hparse⟩ := except_bind_eq_ok.mp hparse
  have htype := NamedRow.withParams_type ⟨type, parent, []⟩ (givenParams document value)
  change _ = type at htype
  have hbelow := @namedBranch_open document deeper depth rows read later
    (NamedRow.withParams ⟨type, parent, []⟩ (givenParams document value)) hgrows value typeLower
    hasChild hasChildren
  rw [htype] at hbelow
  obtain ⟨children, hlater, hleaf⟩ := hbelow hbranch hread
  exact ⟨children, checked_admitted hparse hlater (by rw [htype]; exact hfit)
    (by rw [htype]; exact hleaf)⟩

theorem namedScalar_grown {value : YamlNode} {type : OrchType} {typeLower : Bytes}
    {parent : Option Nat}
    (hparse : document.namedScalar value type typeLower rows.length between = .ok next)
    (hopen : Open rows ⟨type, parent, []⟩ 0 between) : Grown parent rows next := by
  rw [YamlDocument.namedScalar] at hparse
  split at hparse
  · simp [YamlDocument.refuseAt, refuse] at hparse
  split at hparse
  · rename_i required hrequired
    obtain ⟨text, -, hparse⟩ := except_bind_eq_ok.mp hparse
    obtain ⟨later, hlater, hparse⟩ := except_bind_eq_ok.mp hparse
    have hknown : (canonicalParam type.spec (CString.literal required).bytes).isSome = true := by
      cases type <;> simp only [OrchType.spec, reduceCtorEq, List.cons.injEq, List.ne_cons_self,
        and_true, and_false] at hrequired <;> subst hrequired <;> decide
    obtain ⟨hwith, hfit⟩ := addParam_open hlater hopen (.nil _) hknown
    obtain ⟨hdone, hadmitted⟩ := checked_admitted hparse hwith hfit fun h => absurd rfl h
    exact hdone.close hadmitted
  · simp [YamlDocument.refuseAt, refuse] at hparse
  · simp [YamlDocument.refuseAt, refuse] at hparse

theorem parseNamedEntry_grown (hgrows : Grows deeper) {value : YamlNode} {parent : Option Nat}
    (hparse : document.parseNamedEntry depth deeper value parent rows = .ok next) :
    Grown parent rows next := by
  rw [YamlDocument.parseNamedEntry] at hparse
  split at hparse
  · simp [refuse] at hparse
  split at hparse
  · simp [refuse] at hparse
  rename_i hlimit
  split at hparse
  · simp [YamlDocument.refuseAt, refuse] at hparse
  split at hparse
  · simp [YamlDocument.refuseAt, refuse] at hparse
  split at hparse
  · simp [YamlDocument.refuseAt, refuse] at hparse
  rename_i type _
  have hopen := Open.start ⟨type, parent, []⟩ (Nat.lt_of_not_le hlimit)
  simp only at hparse
  split_ifs at hparse
  · exact namedSequence_grown hgrows hparse hopen
  · obtain ⟨children, hdone, hadmitted⟩ := namedMapping_open hgrows hparse hopen
    have hgrown := hdone.close hadmitted
    rwa [NamedRow.withParams_parent] at hgrown
  · exact namedScalar_grown hparse hopen

theorem parseAt_grows (hgrows : Grows deeper) : Grows (document.parseAt depth deeper) := by
  intro map parent rows next hparse
  rw [YamlDocument.parseAt] at hparse
  split at hparse
  · exact flatParse_grown hgrows hparse
  split at hparse
  · simp [refuse] at hparse
  split at hparse
  · simp [YamlDocument.refuseAt, refuse] at hparse
  split at hparse
  · exact parseNamedEntry_grown hgrows hparse
  · simp [YamlDocument.refuseAt, refuse] at hparse

/-- Whatever the parser accepts is a tree that the catalog admits. -/
theorem parse_grows (document : YamlDocument) (levels : Nat) : Grows (document.parse levels) := by
  induction levels with
  | zero => exact parseAt_grows fun _ _ _ _ hnever => by simp [refuse] at hnever
  | succ levels ih => exact parseAt_grows ih

end Readers

end Praktor.Yaml
