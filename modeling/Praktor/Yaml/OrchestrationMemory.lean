/-
# The orchestration parser on its rows

The parser keeps its rows in memory that is allocated once, with room for the largest tree,
and reaches every row by its place.  Here each access checks the place, the rows that were
written stay when the parser gives up, and the function `parse` is given a number of calls
that may be open at the same time.

What the parser does to its rows is what the rules on lists say.  So no place is outside,
the rows never exceed their room, and the nesting limit bounds the calls, whatever nodes a
document shares and however it refers back to nodes above.
-/

import Praktor.Yaml.Orchestration

namespace Praktor.Yaml

open Praktor.Data Praktor.Workflow

/-- Why the parser gives up: for a reason of its own, at a row outside of the memory, or for
lack of calls. -/
inductive ParseStop
  | refused (refusal : Refusal)
  | outside
  | unfinished

/-- `named_build` with the rows that were allocated. -/
structure NamedBuild where
  rows : List NamedRow
  count : Nat

/-- A computation on the rows. -/
abbrev Build (α : Type) := ExceptT ParseStop (StateM NamedBuild) α

namespace NamedBuild

/-- The row that `calloc` leaves. -/
def blankRow : NamedRow := ⟨.sequence, some 0, []⟩

/-- The rows of a parser that starts. -/
def start : NamedBuild := ⟨List.replicate maxOrchNodes blankRow, 0⟩

/-- The rows in use. -/
def live (build : NamedBuild) : NamedRows := build.rows.take build.count

/-- What a computation ends in and what it leaves. -/
def outcome {α : Type} (program : Build α) (build : NamedBuild) : Except ParseStop α × NamedBuild :=
  StateT.run (ExceptT.run program) build

/-- What reads the document only. -/
def lift {α : Type} (result : Except Refusal α) : Build α := fun build =>
  (result.mapError .refused, build)

/-- `b->rows[index]`. -/
def readRow (index : Nat) : Build NamedRow := fun build =>
  match build.rows[index]? with
  | none => (.error .outside, build)
  | some row => (.ok row, build)

/-- A row is written in its place. -/
def writeRow (index : Nat) (row : NamedRow) : Build Unit := fun build =>
  if index < build.rows.length then (.ok (), { build with rows := build.rows.set index row })
  else (.error .outside, build)

/-- `b->count`. -/
def readCount : Build Nat := fun build => (.ok build.count, build)

/-- `b->count++`. -/
def takeCount : Build Nat := fun build => (.ok build.count, { build with count := build.count + 1 })

/-- The next row is taken; its parameters stay as they are. -/
def takeRow (type : OrchType) (parent : Option Nat) : Build Nat := do
  let index ← takeCount
  let row ← readRow index
  writeRow index ⟨type, parent, row.params⟩
  pure index

section Functions

variable (document : YamlDocument)

/-- `param_with_source`. -/
def addParam (index : Nat) (key value : CString) (source : YamlNode) (typeLower : Bytes) :
    Build Unit := do
  let row ← readRow index
  lift (document.validateParam row.type key value source typeLower)
  match row.params.findIdx? fun param => keyIs param.1.bytes key.bytes with
  | some place => writeRow index { row with params := row.params.set place (key, value) }
  | none =>
      if row.params.length ≥ maxOrchParams then
        lift (refuse (ascii "Named orchestration parameter limit"))
      else writeRow index { row with params := row.params ++ [(key, value)] }

/-- The loop of `validate_named_row` that counts the children of a row. -/
def countChildren (index : Nat) : Build Nat := do
  let count ← readCount
  (List.range' (index + 1) (count - (index + 1))).foldlM
    (fun children place => do
      let row ← readRow place
      pure (if row.parent = some index then children + 1 else children)) 0

/-- `validate_named_row` of a row with its children. -/
def checkRow (row : NamedRow) (children : Nat) (origin : YamlNode) (typeLower : Bytes) :
    Except Refusal Unit :=
  let scalar := row.params.any fun param => keyIs param.1.bytes (ascii "condition")
  match row.type.spec.required.find? fun name =>
      !(row.params.any fun param => keyIs param.1.bytes (ascii name)) with
  | some name =>
      document.refuseAt origin (clip 256 (ascii "Missing required parameter '" ++ ascii name ++
        ascii "' for node type '" ++ typeLower ++ ascii "'. Required parameters: " ++
        clip 128 (YamlDocument.nameList row.type.spec.required)))
  | none =>
      match row.type with
      | .ifThenElse =>
          if children < (if scalar then 1 else 2) || children > (if scalar then 2 else 3) then
            document.refuseAt origin (ascii "if requires a condition plus then/else branches")
          else .ok ()
      | .whileDo =>
          if children ≠ (if scalar then 1 else 2) then
            document.refuseAt origin (ascii "while requires a condition and a do branch")
          else .ok ()
      | type =>
          if type = .switch && children = 0 then
            document.refuseAt origin (ascii "switch requires at least one case branch")
          else if orchSingleChild type then
            if children ≠ 1 then
              document.refuseAt origin (clip 256 (clip 64 ((ascii type.name).map lower) ++
                ascii " must have exactly one child"))
            else .ok ()
          else if type.spec.control && children = 0 then
            document.refuseAt origin (clip 256 (ascii "Control node '" ++ typeLower ++
              ascii "' must have at least one child"))
          else .ok ()

/-- `validate_named_row`. -/
def validateNamedRow (index : Nat) (origin : YamlNode) (typeLower : Bytes) : Build Unit := do
  let row ← readRow index
  let children ← countChildren index
  lift (checkRow document row children origin typeLower)

/-- A call of `parse`. -/
abbrev Call := YamlNode → Option Nat → Build Unit

/-- The nodes of a sequence, each one level deeper. -/
def parseEach (deeper : Call) (nodes : List YamlNode) (parent : Nat) : Build Unit :=
  nodes.forM fun node => deeper node (some parent)

/-- `children`. -/
def parseChildren (deeper : Call) (seq : YamlNode) (parent : Nat) : Build Unit :=
  if document.isSeq seq then parseEach deeper (document.children seq) parent
  else lift (document.refuseAt seq (ascii "Orchestration children block must be a sequence"))

/-- `flat_append_node`. -/
def appendNode (depth : Nat) (type : OrchType) (parent : Option Nat) : Build Nat := do
  if depth > namedMaxDepth then lift (refuse (ascii "Orchestration nesting limit"))
  else
    let count ← readCount
    if count ≥ maxOrchNodes then lift (refuse (ascii "Orchestration node limit"))
    else takeRow type parent

/-- `flat_branch`. -/
def flatBranch (depth : Nat) (deeper : Call) (branch : YamlNode) (parent : Nat) : Build Unit :=
  if document.isSeq branch then
    if (document.children branch).length = 0 then
      lift (document.refuseAt branch
        (ascii "Orchestration branch sequence must contain at least one child"))
    else do
      let index ← appendNode depth .sequence (some parent)
      parseEach deeper (document.children branch) index
  else deeper branch (some parent)

/-! ## Flat forms -/

/-- `flat_add_param`. -/
def flatAddParam (form : YamlDocument.FlatForm) (index : Nat) (key : String) (value : CString)
    (source : YamlNode) : Build Unit :=
  addParam document index (.literal key) value source (ascii form.name)

section Forms

variable (depth : Nat) (deeper : Call) (map : YamlNode) (index : Nat)

/-- A form with one child. -/
def flatDecorator (form : YamlDocument.FlatForm) (param : Option String) : Build Unit := do
  let field ← lift (document.flatRequire map form.name
    "Flat decorator requires a scalar and child branch")
  let branch ← lift (document.flatRequire map "child"
    "Flat decorator requires a scalar and child branch")
  let value ← lift (document.flatScalar field (clip 256 (ascii "Orchestration parameter '" ++
    ascii (param.getD form.name) ++ ascii "' for node type '" ++ ascii form.name ++
    ascii "' must be a scalar")))
  match param with
  | some key =>
      flatAddParam document form index key value field
      flatBranch document depth deeper branch index
  | none => flatBranch document depth deeper branch index

/-- The condition of `if` and `while`. -/
def flatCondition (form : YamlDocument.FlatForm) (field : YamlNode) : Build Unit := do
  if document.hasVal field then
    let value ← lift (document.flatScalar field (ascii "Orchestration " ++ ascii form.name ++
      ascii " condition must be a scalar, node, or sequence"))
    flatAddParam document form index "condition" value field
  else flatBranch document depth deeper field index

/-- `if`, `then` and `else`. -/
def flatConditional : Build Unit := do
  let field ← lift (document.flatRequire map "if" "if requires an 'if' condition")
  flatCondition document depth deeper index .conditional field
  let branch ← lift (document.flatRequire map "then" "if requires a then branch")
  flatBranch document depth deeper branch index
  if document.has map (ascii "else") then
    match document.get? map "else" with
    | some branch => flatBranch document depth deeper branch index
    | none => lift (document.refuseAt map (ascii "Cannot read orchestration else branch"))
  else pure ()

/-- The bound of a `while`. -/
def flatLimit : Build Unit :=
  if document.has map (ascii "max_iterations") then
    match document.get? map "max_iterations" with
    | some field => do
        let value ← lift (document.flatScalar field (ascii
          "Orchestration parameter 'max_iterations' for node type 'while' must be a scalar"))
        flatAddParam document .loop index "max_iterations" value field
    | none => lift (document.refuseAt map (ascii "Cannot read orchestration max_iterations"))
  else pure ()

/-- `while`, `max_iterations` and `do`. -/
def flatLoop : Build Unit := do
  let field ← lift (document.flatRequire map "while" "while requires a 'while' condition")
  flatCondition document depth deeper index .loop field
  flatLimit document map index
  let branch ← lift (document.flatRequire map "do" "while requires a do branch")
  flatBranch document depth deeper branch index

/-- `switch` and `cases`. -/
def flatSwitch : Build Unit := do
  if !document.has map (ascii "cases") then
    lift (document.refuseAt map (ascii "switch requires a cases branch"))
  else
    let field ← lift (document.flatRequire map "switch" "switch requires a selector")
    let value ← lift
      (document.flatScalar field (ascii "Orchestration switch selector must be a scalar"))
    flatAddParam document .switch index "variable" value field
    let branch ← lift (document.flatRequire map "cases" "switch requires a cases branch")
    if !document.isSeq branch then
      lift (document.refuseAt branch (ascii "switch cases must be a sequence"))
    else if (document.children branch).length = 0 then
      lift (document.refuseAt map (ascii "switch requires at least one case branch"))
    else (document.children branch).forM fun node => flatBranch document depth deeper node index

/-- `set_variable` with `value` or `from`. -/
def flatSetVariable : Build Unit := do
  if document.has map (ascii "value") = document.has map (ascii "from") then
    lift (document.refuseAt map
      (ascii "set_variable requires exactly one of 'value' or 'from'"))
  else
    let field ← lift (document.flatRequire map "set_variable" "set_variable requires a key")
    let key ← lift (document.flatScalar field (ascii
      "Orchestration parameter 'key' for node type 'set_variable' must be a scalar"))
    flatAddParam document .setVariable index "key" key field
    let name := if document.has map (ascii "value") then "value" else "from"
    match document.get? map name with
    | none => lift (document.refuseAt map (ascii "Cannot read orchestration value/from"))
    | some field => do
        let text ← lift (document.flatScalar field (clip 256 (ascii "Orchestration parameter '" ++
          ascii name ++ ascii "' for node type 'set_variable' must be a scalar")))
        flatAddParam document .setVariable index name text field

end Forms

/-- `flat_parse`. -/
def flatParse (depth : Nat) (deeper : Call) (map : YamlNode) (parent : Option Nat)
    (form : YamlDocument.FlatForm) (allowMetadata : Bool) : Build Unit := do
  if !document.isMap map then
    lift (refuse (ascii "Flat orchestration form must be a mapping"))
  else
    lift (document.flatValidateKeys map form allowMetadata)
    let index ← appendNode depth form.type parent
    match form.singleChild with
    | some param => flatDecorator document depth deeper map index form param
    | none =>
        match form with
        | .conditional => flatConditional document depth deeper map index
        | .loop => flatLoop document depth deeper map index
        | .switch => flatSwitch document depth deeper map index
        | _ => flatSetVariable document map index

/-! ## Named nodes -/

/-- One field of a named mapping. -/
def namedField (type : OrchType) (typeLower : Bytes) (index : Nat) (state : Bool × Bool)
    (field : YamlNode) : Build (Bool × Bool) :=
  match document.fieldDecode field true with
  | .error _ => lift (document.refuseAt field (ascii "Cannot decode orchestration parameter key"))
  | .ok key =>
      if keyIs key.bytes (ascii "child") then pure (true, state.2)
      else if keyIs key.bytes (ascii "children") then pure (state.1, true)
      else
        match canonicalParam type.spec key.bytes with
        | none =>
            lift (document.refuseAt field (clip 256 (ascii "Unknown orchestration parameter '" ++
              key.bytes ++ ascii "' for node type '" ++ typeLower ++ ascii "'")))
        | some _ => do
            let text ← lift (document.flatScalar field (clip 256
              (ascii "Orchestration parameter '" ++ key.bytes ++ ascii "' for node type '" ++
                typeLower ++ ascii "' must be a scalar")))
            addParam document index key text field typeLower
            pure state

section Named

variable (depth : Nat) (deeper : Call) (value : YamlNode) (type : OrchType) (typeLower : Bytes)
  (index : Nat)

/-- A named node whose value is a sequence. -/
def namedSequence : Build Unit := do
  if !type.spec.allowsChildren then lift (document.refuseLeaf typeLower value)
  else
    parseChildren document deeper value index
    validateNamedRow document index value typeLower

/-- The children of a named mapping. -/
def namedBranch (hasChild hasChildren : Bool) : Build Unit :=
  if hasChildren || hasChild then
    match document.get? value (if hasChildren then "children" else "child") with
    | none =>
        lift (document.refuseAt value
          (ascii "Orchestration child field is not accessible by its canonical name"))
    | some branch =>
        if !type.spec.allowsChildren then lift (document.refuseLeaf typeLower branch)
        else if hasChildren then parseChildren document deeper branch index
        else flatBranch document depth deeper branch index
  else pure ()

/-- A named node whose value is a mapping. -/
def namedMapping : Build Unit := do
  let (hasChild, hasChildren) ←
    (document.children value).foldlM (namedField document type typeLower index) (false, false)
  if hasChild && hasChildren then
    lift (document.refuseAt value
      (ascii "Orchestration node cannot define both 'child' and 'children'"))
  else
    namedBranch document depth deeper value type typeLower index hasChild hasChildren
    validateNamedRow document index value typeLower

/-- A named node whose value is a scalar. -/
def namedScalar : Build Unit := do
  if !document.hasVal value then
    lift (document.refuseAt value
      (ascii "Orchestration node value must be a map, sequence, or scalar"))
  else
    match type.spec.required with
    | [required] =>
        let text ← lift (document.flatScalar value
          (ascii "Orchestration simplified syntax requires a scalar value"))
        addParam document index (.literal required) text value typeLower
        validateNamedRow document index value typeLower
    | [] =>
        lift (document.refuseAt value (clip 256 (ascii "Node type '" ++ typeLower ++
          ascii "' does not support simplified syntax (no required parameters)")))
    | required =>
        lift (document.refuseAt value (clip 256 (ascii "Node type '" ++ typeLower ++
          ascii "' requires multiple parameters (" ++ clip 128 (YamlDocument.nameList required) ++
          ascii "). Use map syntax")))

end Named

/-- `parse_named_entry`. -/
def parseNamedEntry (depth : Nat) (deeper : Call) (value : YamlNode) (parent : Option Nat) :
    Build Unit := do
  if depth > namedMaxDepth then lift (refuse (ascii "Named orchestration nesting limit"))
  else
    let count ← readCount
    if count ≥ maxOrchNodes then lift (refuse (ascii "Named orchestration node limit"))
    else
      match document.fieldDecode value true with
      | .error _ =>
          lift (document.refuseAt value (ascii "Cannot decode orchestration type key"))
      | .ok typeName =>
          match YamlDocument.retiredTypes.find? fun retired =>
              keyIs typeName.bytes (ascii retired.1) with
          | some retired =>
              lift (document.refuseAt value
                (YamlDocument.retiredMessage typeName.bytes retired.2))
          | none =>
              match orchFindType typeName.bytes with
              | none =>
                  lift (document.refuseAt value (clip 256
                    (ascii "Unknown orchestration node type: '" ++ typeName.bytes ++ ascii "'")))
              | some type =>
                  let typeLower := (clip 64 typeName.bytes).map lower
                  let index ← takeRow type parent
                  if document.isSeq value then
                    namedSequence document deeper value type typeLower index
                  else if document.isMap value then
                    namedMapping document depth deeper value type typeLower index
                  else namedScalar document value type typeLower index

/-- The body of `parse`. -/
def parseAt (depth : Nat) (deeper : Call) (map : YamlNode) (parent : Option Nat) : Build Unit :=
  match if document.isMap map then document.nestedForm map else none with
  | some form => flatParse document depth deeper map parent form false
  | none =>
      if depth > namedMaxDepth then lift (refuse (ascii "Named orchestration nesting limit"))
      else if !document.isMap map then
        lift (document.refuseAt map (ascii "Orchestration node must be a map"))
      else
        match document.children map with
        | [entry] => parseNamedEntry document depth deeper entry parent
        | _ =>
            lift (document.refuseAt map
              (ascii "Orchestration node must have exactly one key (node type)"))

/-- `parse` at a depth, with the calls of it that may be open. -/
def parse : Nat → Nat → Call
  | 0, _ => fun _ _ build => (.error .unfinished, build)
  | calls + 1, depth => parseAt document depth (parse calls (depth + 1))

/-- The rows that `praktor_orch_from_named_yaml` reads. -/
def namedRows (calls : Nat) (node : YamlNode) : Build Unit := parse document calls 0 node none

/-- The rows that `praktor_orch_from_flat_yaml` reads. -/
def flatRows (calls : Nat) (node : YamlNode) (nodeType : CString) : Build Unit :=
  match document.taskForm node nodeType.bytes with
  | some form => flatParse document 0 (parse document calls 1) node none form true
  | none =>
      match document.fieldGet node nodeType.bytes with
      | ⟨none, _⟩ =>
          lift (document.refuseAt node (ascii "Missing named orchestration runner field"))
      | value => parseNamedEntry document 0 (parse document calls 1) value none

end Functions

/-! ## The rules on lists -/

/-- The rows fit into the memory, and what is not in use is blank. -/
structure Fits (build : NamedBuild) : Prop where
  rows_eq : build.rows.length = maxOrchNodes
  count_le : build.count ≤ maxOrchNodes
  blank : ∀ row ∈ build.rows.drop build.count, row.params = []

/-- A computation ends as a function does on the list of the rows; `view` is what the list and
the result of the computation stand for. -/
def Matches {α β : Type} (view : α → NamedRows → β) (reached : Except ParseStop α × NamedBuild) :
    Except Refusal β → Prop
  | .ok result => ∃ value, reached.1 = .ok value ∧ result = view value reached.2.live
  | .error refusal => reached.1 = .error (.refused refusal)

/-- From here a computation does on the rows what a function does on their list. -/
def Does {α β : Type} (view : α → NamedRows → β) (build : NamedBuild) (program : Build α)
    (function : NamedRows → Except Refusal β) : Prop :=
  (outcome program build).2.Fits ∧ build.count ≤ (outcome program build).2.count ∧
    Matches view (outcome program build) (function build.live)

/-- A computation does on the rows what a function does on their list, once `index` rows are in
use. -/
def FollowsAs {α β : Type} (view : α → NamedRows → β) (index : Nat) (program : Build α)
    (function : NamedRows → Except Refusal β) : Prop :=
  ∀ build : NamedBuild, build.Fits → index ≤ build.count → Does view build program function

/-- A computation without a result. -/
abbrev Follows (index : Nat) (program : Build Unit)
    (function : NamedRows → Except Refusal NamedRows) : Prop :=
  FollowsAs (fun _ rows => rows) index program function

theorem outcome_bind {α β : Type} (first : Build α) (second : α → Build β) (build : NamedBuild) :
    outcome (first >>= second) build =
      match outcome first build with
      | (.ok value, next) => outcome (second value) next
      | (.error stop, next) => (.error stop, next) := by
  unfold outcome
  rw [ExceptT.run_bind, StateT.run_bind]
  show (match StateT.run (ExceptT.run first) build with
    | (result, next) => _) = _
  rcases StateT.run (ExceptT.run first) build with ⟨result, next⟩
  cases result with
  | ok value => rfl
  | error stop => rfl

section Rules

variable {α β γ δ : Type} {view : α → NamedRows → β} {index : Nat}

theorem FollowsAs.mono {program : Build α} {function : NamedRows → Except Refusal β}
    (hfollows : FollowsAs view index program function) {later : Nat} (hlater : index ≤ later) :
    FollowsAs view later program function :=
  fun build hfits hcount => hfollows build hfits (Nat.le_trans hlater hcount)

/-- One computation after another. -/
theorem FollowsAs.bind {program : Build α} {function : NamedRows → Except Refusal β}
    (hfirst : FollowsAs view index program function) {next : γ → NamedRows → δ}
    {second : α → Build γ} {after : β → Except Refusal δ}
    (hsecond : ∀ value, FollowsAs next index (second value) fun rows => after (view value rows)) :
    FollowsAs next index (program >>= second) fun rows => function rows >>= after := by
  intro build hfits hcount
  obtain ⟨hlater, hgrows, hresult⟩ := hfirst build hfits hcount
  rw [Does, outcome_bind]
  rcases hreached : outcome program build with ⟨reached, between⟩
  rw [hreached] at hlater hgrows hresult
  cases hfunction : function build.live with
  | error refusal =>
      rw [hfunction] at hresult
      obtain rfl : reached = .error (.refused refusal) := hresult
      exact ⟨hlater, hgrows, rfl⟩
  | ok result =>
      rw [hfunction] at hresult
      obtain ⟨value, hvalue, rfl⟩ := hresult
      obtain rfl : reached = .ok value := hvalue
      obtain ⟨hlast, hmore, hafter⟩ := hsecond value between hlater (Nat.le_trans hcount hgrows)
      exact ⟨hlast, Nat.le_trans hgrows hmore, hafter⟩

/-- What reads the document only. -/
theorem FollowsAs.lift {next : γ → NamedRows → δ} (result : Except Refusal α) {second : α → Build γ}
    {after : α → NamedRows → Except Refusal δ}
    (hsecond : ∀ value, FollowsAs next index (second value) (after value)) :
    FollowsAs next index (NamedBuild.lift result >>= second)
      fun rows => result >>= fun value => after value rows := by
  intro build hfits hcount
  rw [Does, outcome_bind]
  cases result with
  | error refusal => exact ⟨hfits, Nat.le_refl _, rfl⟩
  | ok value => exact hsecond value build hfits hcount

theorem followsAs_error {result : Except Refusal α} {other : Except Refusal β} {refusal : Refusal}
    (hresult : result = .error refusal) (hother : other = .error refusal) :
    FollowsAs view index (lift result) fun _ => other := by
  subst hresult
  subst hother
  exact fun build hfits _ => ⟨hfits, Nat.le_refl _, rfl⟩

theorem followsAs_refuse (message : Bytes) :
    FollowsAs view index (lift (refuse message)) fun _ => refuse message :=
  followsAs_error rfl rfl

theorem followsAs_refuseAt (document : YamlDocument) (node : YamlNode) (message : Bytes) :
    FollowsAs view index (lift (document.refuseAt node message))
      fun _ => document.refuseAt node message :=
  followsAs_error rfl rfl

theorem followsAs_pure (value : α) : FollowsAs view index (pure value) fun rows => .ok (view value rows) :=
  fun _ hfits _ => ⟨hfits, Nat.le_refl _, value, rfl, rfl⟩

end Rules

/-! ## Rows -/

theorem length_live {build : NamedBuild} (hfits : build.Fits) : build.live.length = build.count := by
  rw [live, List.length_take, Nat.min_eq_left]
  rw [hfits.rows_eq]
  exact hfits.count_le

theorem start_fits : start.Fits where
  rows_eq := List.length_replicate
  count_le := Nat.zero_le _
  blank := fun row hrow => by
    rw [start, List.drop_zero] at hrow
    rw [(List.mem_replicate.mp hrow).2]
    rfl

theorem outcome_readRow {build : NamedBuild} {index : Nat} {row : NamedRow}
    (hrow : build.rows[index]? = some row) : outcome (readRow index) build = (.ok row, build) := by
  show readRow index build = _
  rw [readRow, hrow]

theorem outcome_writeRow {build : NamedBuild} {index : Nat} (hinside : index < build.rows.length)
    (row : NamedRow) : outcome (writeRow index row) build =
      (.ok (), { build with rows := build.rows.set index row }) := if_pos hinside

/-- A row that is in use is inside of the memory. -/
theorem Fits.inside {build : NamedBuild} (hfits : build.Fits) {index : Nat}
    (hindex : index < build.count) : index < build.rows.length := by
  rw [hfits.rows_eq]
  exact Nat.lt_of_lt_of_le hindex hfits.count_le

/-- A row that is in use is read. -/
theorem readRow_eq {build : NamedBuild} (hfits : build.Fits) {index : Nat}
    (hindex : index < build.count) :
    ∃ row, build.live[index]? = some row ∧ outcome (readRow index) build = (.ok row, build) := by
  have hinside := hfits.inside hindex
  have hrow := List.getElem?_eq_getElem hinside
  refine ⟨build.rows[index], ?_, outcome_readRow hrow⟩
  rw [live, List.getElem?_take_of_lt hindex, hrow]

/-- A row that is in use is written. -/
theorem writeRow_eq {build : NamedBuild} (hfits : build.Fits) {index : Nat}
    (hindex : index < build.count) (row : NamedRow) :
    ∃ next, outcome (writeRow index row) build = (.ok (), next) ∧ next.Fits ∧
      next.count = build.count ∧ next.live = build.live.set index row := by
  refine ⟨_, outcome_writeRow (hfits.inside hindex) row, ⟨?_, hfits.count_le, ?_⟩, rfl, ?_⟩
  · exact List.length_set.trans hfits.rows_eq
  · show ∀ other ∈ (build.rows.set index row).drop build.count, other.params = []
    rw [List.drop_set_of_lt hindex]
    exact hfits.blank
  · exact List.take_set

/-- The row that is taken is blank but for its type and its parent. -/
theorem takeRow_eq {build : NamedBuild} (hfits : build.Fits) (hroom : build.count < maxOrchNodes)
    (type : OrchType) (parent : Option Nat) :
    ∃ next, outcome (takeRow type parent) build = (.ok build.count, next) ∧ next.Fits ∧
      next.count = build.count + 1 ∧ next.live = build.live ++ [⟨type, parent, []⟩] := by
  have hinside : build.count < build.rows.length := by
    rw [hfits.rows_eq]
    exact hroom
  have hrow := List.getElem?_eq_getElem hinside
  have hdrop := List.drop_eq_getElem_cons hinside
  have hblank : (build.rows[build.count]).params = [] := by
    apply hfits.blank
    rw [hdrop]
    exact List.mem_cons_self
  have htaken : outcome (takeRow type parent) build =
      (.ok build.count, ⟨build.rows.set build.count ⟨type, parent, []⟩, build.count + 1⟩) := by
    rw [takeRow, outcome_bind]
    show outcome (readRow build.count >>= _) ⟨build.rows, build.count + 1⟩ = _
    rw [outcome_bind, @outcome_readRow ⟨build.rows, build.count + 1⟩ _ _ hrow]
    simp only [hblank]
    rw [outcome_bind, @outcome_writeRow ⟨build.rows, build.count + 1⟩ _ hinside]
    rfl
  refine ⟨_, htaken, ⟨List.length_set.trans hfits.rows_eq, hroom, ?_⟩, rfl, ?_⟩
  · show ∀ row ∈ (build.rows.set build.count ⟨type, parent, []⟩).drop (build.count + 1), row.params = []
    rw [List.drop_set_of_lt (Nat.lt_succ_self _)]
    intro row hmem
    apply hfits.blank
    rw [hdrop]
    exact List.mem_cons_of_mem _ hmem
  · show (build.rows.set build.count ⟨type, parent, []⟩).take (build.count + 1) = _
    have hset : build.count < (build.rows.set build.count ⟨type, parent, []⟩).length := by
      rwa [List.length_set]
    rw [List.take_succ_eq_append_getElem hset, List.getElem_set_self, live, List.take_set_of_le]
    exact Nat.le_refl _

/-! ## Parameters and children -/

section Functions

variable {document : YamlDocument} {index : Nat}

/-- A row in use is read and the rest goes by it. -/
theorem FollowsAs.row {γ δ : Type} {next : γ → NamedRows → δ} {second : NamedRow → Build γ}
    {after : NamedRows → Except Refusal δ}
    (hsecond : ∀ build row, build.Fits → index < build.count → build.live[index]? = some row →
      Does next build (second row) after) :
    FollowsAs next (index + 1) (readRow index >>= second) after := by
  intro build hfits hindex
  obtain ⟨row, hrow, hread⟩ := readRow_eq hfits hindex
  rw [Does, outcome_bind, hread]
  exact hsecond build row hfits hindex hrow

theorem writeRow_follows {build : NamedBuild} (hfits : build.Fits) (hindex : index < build.count)
    (row : NamedRow) :
    Does (fun _ rows => rows) build (writeRow index row) fun rows => .ok (rows.set index row) := by
  obtain ⟨next, hwrite, hnext, hcount, hlive⟩ := writeRow_eq hfits hindex row
  rw [Does, hwrite]
  exact ⟨hnext, Nat.le_of_eq hcount.symm, (), rfl, hlive.symm⟩

/-- `param_with_source` follows the rule on lists. -/
theorem addParam_follows (key value : CString) (source : YamlNode) (typeLower : Bytes) :
    Follows (index + 1) (addParam document index key value source typeLower)
      fun rows => document.addParam rows index key value source typeLower := by
  apply FollowsAs.row
  intro build row hfits hindex hrow
  simp only [Does, YamlDocument.addParam, hrow]
  have hlift : outcome (lift (document.validateParam row.type key value source typeLower)) build =
      ((document.validateParam row.type key value source typeLower).mapError .refused, build) := rfl
  rw [outcome_bind, hlift]
  cases hvalid : document.validateParam row.type key value source typeLower with
  | error refusal => exact ⟨hfits, Nat.le_refl _, rfl⟩
  | ok valid =>
      show _ ∧ _ ∧ Matches _ _ (match row.params.findIdx? _ with
        | some place => _
        | none => _)
      simp only [Except.mapError]
      cases row.params.findIdx? fun param => keyIs param.1.bytes key.bytes with
      | some place => exact writeRow_follows hfits hindex _
      | none =>
          by_cases hlimit : row.params.length ≥ maxOrchParams
          · simp only [if_pos hlimit]
            exact ⟨hfits, Nat.le_refl _, rfl⟩
          · simp only [if_neg hlimit]
            exact writeRow_follows hfits hindex _

/-- The loop over the later rows counts the children. -/
theorem countRows_eq {build : NamedBuild} (hfits : build.Fits) (start size children : Nat)
    (hinside : start + size ≤ build.count) :
    outcome ((List.range' start size).foldlM (fun children place => do
        let row ← readRow place
        pure (if row.parent = some index then children + 1 else children)) children) build =
      (.ok (children + ((build.live.drop start).take size).countP fun row =>
        row.parent = some index), build) := by
  induction size generalizing start children with
  | zero => rfl
  | succ size ih =>
      obtain ⟨row, hrow, hread⟩ := readRow_eq hfits (show start < build.count by omega)
      have hdrop : build.live.drop start = row :: build.live.drop (start + 1) := by
        obtain ⟨hlength, rfl⟩ := List.getElem?_eq_some_iff.mp hrow
        exact List.drop_eq_getElem_cons hlength
      have hnext : outcome (pure (if row.parent = some index then children + 1 else children))
          build = (.ok (if row.parent = some index then children + 1 else children), build) := rfl
      rw [List.range'_succ, List.foldlM_cons, outcome_bind, outcome_bind, hread]
      simp only [hnext, ih (start + 1) _ (show start + 1 + size ≤ build.count by omega), hdrop,
        List.take_succ_cons, List.countP_cons, decide_eq_true_eq]
      split
      · simp
        omega
      · simp

theorem countChildren_eq {build : NamedBuild} (hfits : build.Fits) (hindex : index < build.count) :
    outcome (countChildren index) build =
      (.ok (YamlDocument.childCount build.live index), build) := by
  have hcount : outcome readCount build = (.ok build.count, build) := rfl
  have hrest : (build.live.drop (index + 1)).length = build.count - (index + 1) := by
    rw [List.length_drop, length_live hfits]
  rw [countChildren, outcome_bind, hcount]
  simp only
  rw [countRows_eq hfits _ _ _ (by omega), ← hrest, List.take_length, Nat.zero_add]
  rfl

/-- The check of a row that is there. -/
theorem validateNamedRow_eq {rows : NamedRows} {row : NamedRow} (hrow : rows[index]? = some row)
    (origin : YamlNode) (typeLower : Bytes) :
    document.validateNamedRow rows index origin typeLower =
      checkRow document row (YamlDocument.childCount rows index) origin typeLower := by
  rw [YamlDocument.validateNamedRow, hrow]
  rfl

/-- `validate_named_row` follows the rule on lists. -/
theorem validateNamedRow_follows (origin : YamlNode) (typeLower : Bytes) :
    Follows (index + 1) (validateNamedRow document index origin typeLower)
      fun rows => document.validateNamedRow rows index origin typeLower >>= fun _ => pure rows := by
  apply FollowsAs.row
  intro build row hfits hindex hrow
  rw [Does, validateNamedRow_eq hrow, outcome_bind, countChildren_eq hfits hindex]
  cases hcheck : checkRow document row (YamlDocument.childCount build.live index) origin typeLower with
  | error refusal =>
      simp only [hcheck]
      exact ⟨hfits, Nat.le_refl _, rfl⟩
  | ok valid =>
      simp only [hcheck]
      exact ⟨hfits, Nat.le_refl _, (), rfl, rfl⟩

section Taking

variable {γ δ : Type} {next : γ → NamedRows → δ} {type : OrchType} {parent : Option Nat}

/-- A row is taken and the rest works on it. -/
theorem takeRow_does {second : Nat → Build γ} {after : Nat → NamedRows → Except Refusal δ}
    (hsecond : ∀ row, FollowsAs next (row + 1) (second row) (after row)) {build : NamedBuild}
    (hfits : build.Fits) (hroom : build.count < maxOrchNodes) :
    Does next build (takeRow type parent >>= second)
      fun rows => after rows.length (rows ++ [⟨type, parent, []⟩]) := by
  obtain ⟨taken, htaken, hfitsTaken, hcount, hlive⟩ := takeRow_eq hfits hroom type parent
  obtain ⟨hlast, hgrows, hmatches⟩ :=
    hsecond build.count taken hfitsTaken (Nat.le_of_eq hcount.symm)
  have hmore : build.count ≤ taken.count := by omega
  rw [Does, outcome_bind, htaken, length_live hfits, ← hlive]
  exact ⟨hlast, Nat.le_trans hmore hgrows, hmatches⟩

/-- The test for room. -/
theorem room_follows {message : Bytes} {second : Build γ} {after : NamedRows → Except Refusal δ}
    (hsecond : ∀ build : NamedBuild, build.Fits → build.count < maxOrchNodes →
      Does next build second after) (least : Nat) :
    FollowsAs next least
      (readCount >>= fun count => if count ≥ maxOrchNodes then lift (refuse message) else second)
      fun rows => if rows.length ≥ maxOrchNodes then refuse message else after rows := by
  intro build hfits _
  have hcount : outcome readCount build = (.ok build.count, build) := rfl
  rw [Does, outcome_bind, hcount, length_live hfits]
  by_cases hroom : build.count ≥ maxOrchNodes
  · simp only [if_pos hroom]
    exact ⟨hfits, Nat.le_refl _, rfl⟩
  · simp only [if_neg hroom]
    exact hsecond build hfits (Nat.lt_of_not_le hroom)

/-- `flat_append_node` and what is done with its row. -/
theorem appendNode_follows {depth : Nat} {second : Nat → Build γ}
    {after : Nat → NamedRows → Except Refusal δ}
    (hsecond : ∀ row, FollowsAs next (row + 1) (second row) (after row)) (least : Nat) :
    FollowsAs next least (appendNode depth type parent >>= second)
      fun rows => YamlDocument.appendNode depth type parent rows >>= after rows.length := by
  intro build hfits _
  have hcount : outcome readCount build = (.ok build.count, build) := rfl
  rw [Does, outcome_bind, appendNode]
  rw [YamlDocument.appendNode, length_live hfits]
  by_cases hdepth : depth > namedMaxDepth
  · rw [if_pos hdepth, if_pos hdepth]
    exact ⟨hfits, Nat.le_refl _, rfl⟩
  rw [if_neg hdepth, if_neg hdepth, outcome_bind, hcount]
  simp only
  by_cases hroom : build.count ≥ maxOrchNodes
  · rw [if_pos hroom, if_pos hroom]
    exact ⟨hfits, Nat.le_refl _, rfl⟩
  · have htaken : Does next build (takeRow type parent >>= second)
        fun rows => after rows.length (rows ++ [⟨type, parent, []⟩]) :=
      takeRow_does hsecond hfits (Nat.lt_of_not_le hroom)
    rw [Does, outcome_bind, length_live hfits] at htaken
    rw [if_neg hroom, if_neg hroom]
    exact htaken

end Taking

/-! ## Branches -/

/-- A call follows a function one level deeper. -/
def CallFollows (deeper : Call) (other : YamlDocument.Deeper) : Prop :=
  ∀ node parent, Follows 0 (deeper node parent) (other node parent)

variable {deeper : Call} {other : YamlDocument.Deeper} {depth : Nat}

/-- A loop follows the loop on lists when its rounds do. -/
theorem forM_follows {round : YamlNode → Build Unit}
    {step : NamedRows → YamlNode → Except Refusal NamedRows}
    (hround : ∀ node, Follows index (round node) fun rows => step rows node)
    (nodes : List YamlNode) : Follows index (nodes.forM round) fun rows => nodes.foldlM step rows := by
  induction nodes with
  | nil => exact followsAs_pure ()
  | cons node rest ih =>
      simp only [List.foldlM_cons]
      exact (hround node).bind fun _ => ih

theorem parseEach_follows (hdeeper : CallFollows deeper other) (nodes : List YamlNode)
    (parent : Nat) : Follows index (parseEach deeper nodes parent)
      fun rows => YamlDocument.parseEach other nodes parent rows :=
  forM_follows (fun node => (hdeeper node (some parent)).mono (Nat.zero_le _)) nodes

theorem parseChildren_follows (hdeeper : CallFollows deeper other) (seq : YamlNode)
    (parent : Nat) : Follows index (parseChildren document deeper seq parent)
      fun rows => document.parseChildren other seq parent rows := by
  unfold parseChildren YamlDocument.parseChildren
  split
  · exact parseEach_follows hdeeper _ _
  · exact followsAs_refuseAt _ _ _

theorem flatBranch_follows (hdeeper : CallFollows deeper other) (branch : YamlNode)
    (parent : Nat) : Follows index (flatBranch document depth deeper branch parent)
      fun rows => document.flatBranch depth other branch parent rows := by
  unfold flatBranch YamlDocument.flatBranch
  split
  · split
    · exact followsAs_refuseAt _ _ _
    · exact appendNode_follows (fun row => parseEach_follows hdeeper _ row) index
  · exact (hdeeper branch (some parent)).mono (Nat.zero_le _)

/-! ## Flat forms -/

theorem flatAddParam_follows (form : YamlDocument.FlatForm) (key : String) (value : CString)
    (source : YamlNode) : Follows (index + 1) (flatAddParam document form index key value source)
      fun rows => document.flatAddParam form rows index key value source :=
  addParam_follows _ _ _ _

section Forms

variable {map : YamlNode}

theorem flatDecorator_follows (hdeeper : CallFollows deeper other) (form : YamlDocument.FlatForm)
    (param : Option String) :
    Follows (index + 1) (flatDecorator document depth deeper map index form param)
      fun rows => document.flatDecorator depth other map index rows form param := by
  unfold flatDecorator YamlDocument.flatDecorator
  apply FollowsAs.lift
  intro field
  apply FollowsAs.lift
  intro branch
  apply FollowsAs.lift
  intro value
  cases param with
  | none => exact flatBranch_follows hdeeper _ _
  | some key =>
      exact (flatAddParam_follows form key value field).bind fun _ => flatBranch_follows hdeeper _ _

theorem flatCondition_follows (hdeeper : CallFollows deeper other) (form : YamlDocument.FlatForm)
    (field : YamlNode) :
    Follows (index + 1) (flatCondition document depth deeper index form field)
      fun rows => document.flatCondition depth other index rows form field := by
  unfold flatCondition YamlDocument.flatCondition
  split
  · apply FollowsAs.lift
    intro value
    exact flatAddParam_follows _ _ _ _
  · exact flatBranch_follows hdeeper _ _

theorem flatConditional_follows (hdeeper : CallFollows deeper other) :
    Follows (index + 1) (flatConditional document depth deeper map index)
      fun rows => document.flatConditional depth other map index rows := by
  unfold flatConditional YamlDocument.flatConditional
  apply FollowsAs.lift
  intro field
  apply (flatCondition_follows hdeeper _ _).bind
  intro _
  apply FollowsAs.lift
  intro branch
  apply (flatBranch_follows hdeeper _ _).bind
  intro _
  split
  · cases document.get? map "else" with
    | some branch => exact flatBranch_follows hdeeper _ _
    | none => exact followsAs_refuseAt _ _ _
  · exact followsAs_pure ()

theorem flatLimit_follows : Follows (index + 1) (flatLimit document map index)
    fun rows => document.flatLimit map index rows := by
  unfold flatLimit YamlDocument.flatLimit
  split
  · cases document.get? map "max_iterations" with
    | some field =>
        apply FollowsAs.lift
        intro value
        exact flatAddParam_follows _ _ _ _
    | none => exact followsAs_refuseAt _ _ _
  · exact followsAs_pure ()

theorem flatLoop_follows (hdeeper : CallFollows deeper other) :
    Follows (index + 1) (flatLoop document depth deeper map index)
      fun rows => document.flatLoop depth other map index rows := by
  unfold flatLoop YamlDocument.flatLoop
  apply FollowsAs.lift
  intro field
  apply (flatCondition_follows hdeeper _ _).bind
  intro _
  apply flatLimit_follows.bind
  intro _
  apply FollowsAs.lift
  intro branch
  exact flatBranch_follows hdeeper _ _

theorem flatSwitch_follows (hdeeper : CallFollows deeper other) :
    Follows (index + 1) (flatSwitch document depth deeper map index)
      fun rows => document.flatSwitch depth other map index rows := by
  unfold flatSwitch YamlDocument.flatSwitch
  split
  · exact followsAs_refuseAt _ _ _
  apply FollowsAs.lift
  intro field
  apply FollowsAs.lift
  intro value
  apply (flatAddParam_follows _ _ _ _).bind
  intro _
  apply FollowsAs.lift
  intro branch
  split
  · exact followsAs_refuseAt _ _ _
  split
  · exact followsAs_refuseAt _ _ _
  · exact forM_follows (fun node => flatBranch_follows hdeeper _ _) _

theorem flatSetVariable_follows : Follows (index + 1) (flatSetVariable document map index)
    fun rows => document.flatSetVariable map index rows := by
  unfold flatSetVariable YamlDocument.flatSetVariable
  split
  · exact followsAs_refuseAt _ _ _
  apply FollowsAs.lift
  intro field
  apply FollowsAs.lift
  intro key
  apply (flatAddParam_follows _ _ _ _).bind
  intro _
  simp only
  cases document.get? map (if document.has map (ascii "value") = true then "value" else "from") with
  | none => exact followsAs_refuseAt _ _ _
  | some field =>
      apply FollowsAs.lift
      intro text
      exact flatAddParam_follows _ _ _ _

/-- `flat_parse` follows the rule on lists. -/
theorem flatParse_follows (hdeeper : CallFollows deeper other) (parent : Option Nat)
    (form : YamlDocument.FlatForm) (allowMetadata : Bool) :
    Follows 0 (flatParse document depth deeper map parent form allowMetadata)
      fun rows => document.flatParse depth other map parent form allowMetadata rows := by
  unfold flatParse YamlDocument.flatParse
  split
  · exact followsAs_refuse _
  apply FollowsAs.lift
  intro _
  cases form.singleChild with
  | some param =>
      have hrow (row : Nat) := @flatDecorator_follows document row deeper other depth map hdeeper
        form param
      exact @appendNode_follows _ _ _ form.type parent depth _ _ hrow 0
  | none =>
      cases form with
      | conditional => exact appendNode_follows (fun row => flatConditional_follows hdeeper) 0
      | loop => exact appendNode_follows (fun row => flatLoop_follows hdeeper) 0
      | switch => exact appendNode_follows (fun row => flatSwitch_follows hdeeper) 0
      | _ => exact appendNode_follows (fun row => flatSetVariable_follows) 0

end Forms

/-! ## Named nodes -/

section Named

variable {value : YamlNode} {type : OrchType} {typeLower : Bytes}

/-- The rows and the two flags for children. -/
def withFlags (flags : Bool × Bool) (rows : NamedRows) : NamedRows × Bool × Bool := (rows, flags)

theorem namedField_follows (flags : Bool × Bool) (field : YamlNode) :
    FollowsAs withFlags (index + 1) (namedField document type typeLower index flags field)
      fun rows => document.namedField type typeLower index (rows, flags) field := by
  unfold namedField YamlDocument.namedField
  simp only
  cases document.fieldDecode field true with
  | error text => exact followsAs_refuseAt _ _ _
  | ok key =>
      simp only
      split
      · exact followsAs_pure _
      split
      · exact followsAs_pure _
      cases canonicalParam type.spec key.bytes with
      | none => exact followsAs_refuseAt _ _ _
      | some name =>
          apply FollowsAs.lift
          intro text
          exact (addParam_follows key text field typeLower).bind fun _ => followsAs_pure flags

theorem namedFields_follows (fields : List YamlNode) (flags : Bool × Bool) :
    FollowsAs withFlags (index + 1)
      (fields.foldlM (namedField document type typeLower index) flags)
      fun rows => fields.foldlM (document.namedField type typeLower index) (rows, flags) := by
  induction fields generalizing flags with
  | nil => exact followsAs_pure flags
  | cons field rest ih =>
      simp only [List.foldlM_cons]
      exact (namedField_follows flags field).bind ih

theorem namedSequence_follows (hdeeper : CallFollows deeper other) :
    Follows (index + 1) (namedSequence document deeper value type typeLower index)
      fun rows => document.namedSequence other value type typeLower index rows := by
  unfold namedSequence YamlDocument.namedSequence
  split
  · exact followsAs_refuseAt _ _ _
  · exact (parseChildren_follows hdeeper value index).bind fun _ => validateNamedRow_follows _ _

theorem namedBranch_follows (hdeeper : CallFollows deeper other) (hasChild hasChildren : Bool) :
    Follows (index + 1)
      (namedBranch document depth deeper value type typeLower index hasChild hasChildren)
      fun rows => document.namedBranch depth other value type typeLower index hasChild hasChildren
        rows := by
  unfold namedBranch YamlDocument.namedBranch
  split
  swap
  · exact followsAs_pure ()
  cases document.get? value (if hasChildren = true then "children" else "child") with
  | none => exact followsAs_refuseAt _ _ _
  | some branch =>
      simp only
      split
      · exact followsAs_refuseAt _ _ _
      split
      · exact parseChildren_follows hdeeper _ _
      · exact flatBranch_follows hdeeper _ _

theorem namedMapping_follows (hdeeper : CallFollows deeper other) :
    Follows (index + 1) (namedMapping document depth deeper value type typeLower index)
      fun rows => document.namedMapping depth other value type typeLower index rows := by
  unfold namedMapping YamlDocument.namedMapping
  apply (namedFields_follows (document.children value) (false, false)).bind
  intro flags
  obtain ⟨hasChild, hasChildren⟩ := flags
  cases hboth : hasChild && hasChildren with
  | true =>
      simp only [withFlags, hboth, if_true]
      exact followsAs_refuseAt _ _ _
  | false =>
      simp only [withFlags, hboth, Bool.false_eq_true, if_false]
      exact (namedBranch_follows hdeeper hasChild hasChildren).bind fun _ =>
        validateNamedRow_follows _ _

theorem namedScalar_follows :
    Follows (index + 1) (namedScalar document value type typeLower index)
      fun rows => document.namedScalar value type typeLower index rows := by
  unfold namedScalar YamlDocument.namedScalar
  split
  · exact followsAs_refuseAt _ _ _
  rcases type.spec.required with _ | ⟨required, _ | ⟨second, rest⟩⟩
  · exact followsAs_refuseAt _ _ _
  · apply FollowsAs.lift
    intro text
    exact (addParam_follows _ _ _ _).bind fun _ => validateNamedRow_follows _ _
  · exact followsAs_refuseAt _ _ _

/-- `parse_named_entry` follows the rule on lists. -/
theorem parseNamedEntry_follows (hdeeper : CallFollows deeper other) (parent : Option Nat) :
    Follows 0 (parseNamedEntry document depth deeper value parent)
      fun rows => document.parseNamedEntry depth other value parent rows := by
  unfold parseNamedEntry YamlDocument.parseNamedEntry
  split
  · exact followsAs_refuse _
  apply room_follows
  intro build hfits hroom
  cases document.fieldDecode value true with
  | error text => exact followsAs_refuseAt _ _ _ build hfits (Nat.zero_le _)
  | ok typeName =>
      simp only
      cases YamlDocument.retiredTypes.find? fun retired =>
          keyIs typeName.bytes (ascii retired.1) with
      | some retired => exact followsAs_refuseAt _ _ _ build hfits (Nat.zero_le _)
      | none =>
          simp only
          cases orchFindType typeName.bytes with
          | none => exact followsAs_refuseAt _ _ _ build hfits (Nat.zero_le _)
          | some type =>
              simp only
              split
              · exact takeRow_does (fun row => namedSequence_follows hdeeper) hfits hroom
              split
              · exact takeRow_does (fun row => namedMapping_follows hdeeper) hfits hroom
              · exact takeRow_does (fun row => namedScalar_follows) hfits hroom

end Named

/-! ## The parser -/

/-- The body of `parse` follows the rule on lists. -/
theorem parseAt_follows (hdeeper : CallFollows deeper other) :
    CallFollows (parseAt document depth deeper) (document.parseAt depth other) := by
  intro map parent
  unfold parseAt YamlDocument.parseAt
  cases (if document.isMap map = true then document.nestedForm map else none) with
  | some form => exact flatParse_follows hdeeper parent form false
  | none =>
      simp only
      split
      · exact followsAs_refuse _
      split
      · exact followsAs_refuseAt _ _ _
      rcases document.children map with _ | ⟨entry, _ | ⟨second, rest⟩⟩
      · exact followsAs_refuseAt _ _ _
      · exact parseNamedEntry_follows hdeeper parent
      · exact followsAs_refuseAt _ _ _

/-- Beyond the nesting limit nothing is called deeper. -/
theorem parseAt_deepest (hdepth : namedMaxDepth < depth) (first second : Call) :
    parseAt document depth first = parseAt document depth second := by
  funext map parent
  unfold parseAt
  cases (if document.isMap map = true then document.nestedForm map else none) with
  | some form =>
      have hrefused (before after : Nat → Build Unit) :
          (appendNode depth form.type parent >>= before) =
            appendNode depth form.type parent >>= after := by
        rw [appendNode, if_pos hdepth]
        rfl
      simp only [flatParse]
      split
      · rfl
      · exact bind_congr fun _ => hrefused _ _
  | none => simp only [if_pos hdepth]

/-- With more calls than levels are left `parse` follows the rule on lists. -/
theorem parse_follows (levels : Nat) {calls depth : Nat} (hdepth : depth + levels = namedMaxDepth + 1)
    (hcalls : levels < calls) : CallFollows (parse document calls depth) (document.parse levels) := by
  induction levels generalizing calls depth with
  | zero =>
      obtain ⟨calls, rfl⟩ := Nat.exists_eq_add_of_lt hcalls
      have hbelow : namedMaxDepth < depth := by omega
      have hrefused : CallFollows (fun _ _ => lift (refuse (ascii "Orchestration nesting limit")))
          fun _ _ _ => refuse (ascii "Orchestration nesting limit") :=
        fun _ _ => followsAs_refuse _
      have hbody := @parseAt_follows document _ _ depth hrefused
      rw [Nat.add_zero] at hdepth
      rw [parse, YamlDocument.parse, ← hdepth, parseAt_deepest hbelow _ _]
      exact hbody
  | succ levels ih =>
      obtain ⟨calls, rfl⟩ := Nat.exists_eq_add_of_lt hcalls
      have hthis : namedMaxDepth - levels = depth := by omega
      rw [parse, YamlDocument.parse, hthis]
      exact parseAt_follows (ih (by omega) (by omega))

/-- `parse` of the whole document. -/
theorem namedRows_follows (calls : Nat) (hcalls : namedMaxDepth + 2 ≤ calls) (node : YamlNode) :
    Follows 0 (namedRows document calls node) fun rows =>
      document.parse (namedMaxDepth + 1) node none rows :=
  parse_follows (namedMaxDepth + 1) (Nat.zero_add _) (by omega) node none

/-- `parse` below a task. -/
theorem flatRows_follows (calls : Nat) (hcalls : namedMaxDepth + 1 ≤ calls) (node : YamlNode)
    (nodeType : CString) : Follows 0 (flatRows document calls node nodeType) fun rows =>
      match document.taskForm node nodeType.bytes with
      | some form => document.flatParse 0 document.belowRoot node none form true rows
      | none =>
          match document.fieldGet node nodeType.bytes with
          | ⟨none, _⟩ =>
              document.refuseAt node (ascii "Missing named orchestration runner field")
          | value => document.parseNamedEntry 0 document.belowRoot value none rows := by
  have hdeeper : CallFollows (parse document calls 1) document.belowRoot :=
    parse_follows namedMaxDepth (Nat.add_comm 1 _) (by omega)
  unfold flatRows
  cases document.taskForm node nodeType.bytes with
  | some form => exact flatParse_follows hdeeper none form true
  | none =>
      rcases document.fieldGet node nodeType.bytes with ⟨_ | place, key⟩
      · exact followsAs_refuseAt _ _ _
      · exact parseNamedEntry_follows hdeeper none

end Functions

end NamedBuild

end Praktor.Yaml
