/-
# Control parameters at compile time and at run time

The limit or the duration of a control is read twice: from a literal when the node is compiled,
and from the store at every tick when the parameter is `{key}`.  Both ways lead to the same value,
and the mask of a node says which one is taken.
-/

import Praktor.Session.Reading

namespace Praktor.Session

open Praktor.Data Praktor.Math Stateful
open Praktor.Runtime (TreeConfig)

variable {Store Number : Type} {count : Nat}

/-! ## The resolver -/

/-- `salts_bt_node_parameters`. -/
structure NodeParameters where
  limit : Nat
  durationNs : UInt64
  deriving DecidableEq

/-- The limit that `session_dynamic` reads, with its default. -/
def limitParameter : NodeKind → Option (String × Int)
  | .retry => some ("num_attempts", 3)
  | .repetition => some ("num_cycles", 0)
  | .whileDo => some ("max_iterations", 100)
  | .keepRunningUntilFailure => some ("max_iterations", 1000)
  | _ => none

/-- The duration that `session_dynamic` reads, with its default. -/
def durationParameter : NodeKind → Option (String × Int)
  | .timeout => some ("timeout_ms", 1000)
  | .delay => some ("delay_ms", 100)
  | _ => none

section Resolver

variable (numbers : SessionNumbers Number) (hooks : ValueHooks Store)
  (session : SessionImpl Number count)
  (resolver : Option (Fin count → NodeParameters → Salts × NodeParameters))

/-- The limit of a control. -/
def dynamicLimit (node : Fin count) (params : NodeParameters) :
    SessionM Store count NodeParameters := do
  match limitParameter (session.nodes node).tree.kind with
  | none => throw .einval
  | some (key, fallback) =>
      if (session.nodes node).tree.kind = .repetition ∧
          (sessionParameter session node key).isNone then throw .einval
      else
        let value ← sessionInteger numbers hooks session node key fallback
        if value < 0 ∨ value.toNat > session.config.tree.maxControlIterations then throw .einval
        else return { params with limit := value.toNat }

/-- The duration of a control. -/
def dynamicDuration (node : Fin count) (params : NodeParameters) :
    SessionM Store count NodeParameters := do
  match durationParameter (session.nodes node).tree.kind with
  | none => throw .einval
  | some (key, fallback) =>
      let value ← sessionInteger numbers hooks session node key fallback
      if value < 0 then throw .einval
      else return { params with durationNs := UInt64.ofNat value.toNat * 1000000 }

/-- `session_dynamic`; in a branch the host resolves the parameters. -/
def sessionDynamic (node : Fin count) (params : NodeParameters) :
    SessionM Store count NodeParameters := do
  if ((← get).state node).branch then
    match resolver with
    | none => throw .enotsup
    | some resolve =>
        match resolve node params with
        | (.ok, params) => return params
        | (code, _) => throw code
  else if (session.nodes node).tree.dynamicParameterMask.limit then
    dynamicLimit numbers hooks session node params
  else if (session.nodes node).tree.dynamicParameterMask.durationNs then
    dynamicDuration numbers hooks session node params
  else throw .einval

end Resolver

/-! ## Compilation of a control -/

/-- The mask of a control whose parameter is read at run time. -/
def maskOf (kind : NodeKind) : DynamicMask :=
  if isTimedKind kind then { durationNs := true } else { limit := true }

/-- The parameters of a resolver with the value of a control. -/
def NodeParameters.withValue (params : NodeParameters) (kind : NodeKind) (value : Nat) :
    NodeParameters :=
  if isTimedKind kind then { params with durationNs := UInt64.ofNat value * 1000000 }
  else { params with limit := value }

/-- A node was compiled for a control with a value that is fixed: it has the limit or the
duration, or it is the leaf that stands for a control without iterations. -/
def Fixes (kind : NodeKind) (output : SessionNode Number × Bool) (value : Nat) : Prop :=
  (output.1.tree.kind = kind ∧ output.1.terminal = .runtime ∧
    output.1.tree.dynamicParameterMask = {} ∧
    if isTimedKind kind then output.1.tree.durationNs = UInt64.ofNat value * 1000000
    else output.1.tree.limit = value) ∨
  (value = 0 ∧ (kind = .retry ∨ kind = .whileDo ∨ kind = .keepRunningUntilFailure) ∧
    output.1.tree.kind = .leaf ∧ output.1.terminal = zeroTerminal kind ∧ output.2 = true)

section Parameters

theorem findParameter_isSome_congr {first second : List (LeafParameter Number)}
    (hnames : first.map LeafParameter.name = second.map LeafParameter.name) (key : String) :
    (findParameter first key).isSome = (findParameter second key).isSome := by
  induction first generalizing second with
  | nil =>
      obtain rfl := List.map_eq_nil_iff.mp hnames.symm
      rfl
  | cons parameter rest ih =>
      cases second with
      | nil => cases hnames
      | cons other others =>
          obtain ⟨hname, hrest⟩ := List.cons.inj hnames
          have hlater := ih hrest
          rw [findParameter, findParameter] at hlater ⊢
          rw [List.find?_cons, List.find?_cons, hname]
          cases decide (other.name = CString.literal key) with
          | true => rfl
          | false => exact hlater

theorem findParameter_middle {before after : List (LeafParameter Number)} {key : String}
    (hbefore : ∀ parameter ∈ before, parameter.name ≠ CString.literal key)
    (value : ParameterValue Number) :
    findParameter (before ++ ⟨CString.literal key, value⟩ :: after) key = some value := by
  rw [findParameter, List.find?_append, List.find?_eq_none.mpr fun parameter hmem => by
    simpa using hbefore parameter hmem]
  simp

end Parameters

section Compiling

variable {numbers : SessionNumbers Number} {limits : TreeConfig} {action : CString} {key : String}
  {fallback : Int}

/-- The description of a control before its parameter. -/
def controlTree (action : CString) (scalar : Bool) (parent : Option Nat) : BtNodeDesc :=
  { parentIndex := parent, kind := kindOf action,
    conditionCallback := conditionCallback scalar (kindOf action),
    parallelHooks := kindOf action = .parallel }

theorem emptyTerminal_of_control {kind : NodeKind}
    (hcontrol : controlParameter kind = some (key, fallback)) : emptyTerminal kind = none := by
  cases kind <;> first | rfl | cases hcontrol

theorem shapeNode_of_control (hcontrol : controlParameter (kindOf action) = some (key, fallback))
    (parameters : List (LeafParameter Number)) (children : Nat) (parent : Option Nat) :
    shapeNode action parameters children parent =
      (⟨controlTree action (findParameter parameters "condition").isSome parent, action, parameters,
        .runtime⟩, false) := by
  rw [shapeNode, emptyTerminal_of_control hcontrol, ite_self]
  rfl

/-- What is checked before the parameter of a control. -/
structure Accepted (limits : TreeConfig) (action : CString)
    (parameters : List (Option (LeafParameter Number))) (children : Nat) : Prop where
  admitted : limitsAdmitted limits = true
  named : action.length ≠ 0
  typed : parameters.any Option.isNone = false
  checked : checkNode action (parameters.filterMap id) children = .ok ()

theorem compileNode_eq_ok {parameters : List (Option (LeafParameter Number))} {children : Nat}
    {parent : Option Nat} {output : SessionNode Number × Bool} :
    praktorC11CompileNode numbers limits action parameters children parent = .ok output ↔
      Accepted limits action parameters children ∧
        compileControl numbers limits
          (shapeNode action (parameters.filterMap id) children parent).1
          (shapeNode action (parameters.filterMap id) children parent).2 = .ok output := by
  unfold praktorC11CompileNode
  constructor
  · intro hcompile
    split at hcompile
    · cases hcompile
    rename_i hlimits
    split at hcompile
    · cases hcompile
    rename_i htyped
    obtain ⟨⟨⟩, hchecked, hcontrol⟩ := except_bind_eq_ok.mp hcompile
    simp only [Bool.or_eq_true, Bool.not_eq_true', decide_eq_true_eq, not_or,
      Bool.not_eq_false] at hlimits
    exact ⟨⟨hlimits.1, hlimits.2, eq_false_of_ne_true htyped, hchecked⟩, hcontrol⟩
  · rintro ⟨⟨hlimits, haction, htyped, hchecked⟩, hcontrol⟩
    rw [if_neg (by simp [hlimits, haction]), if_neg (by simp [htyped])]
    exact except_bind_eq_ok.mpr ⟨(), hchecked, hcontrol⟩

/-- The names of parameters are all that is checked of them before. -/
theorem accepted_congr {first second : List (Option (LeafParameter Number))} {children : Nat}
    (htyped : first.any Option.isNone = second.any Option.isNone)
    (hnames : (first.filterMap id).map LeafParameter.name =
      (second.filterMap id).map LeafParameter.name) :
    Accepted limits action first children ↔ Accepted limits action second children := by
  have hchecks : checkNode action (first.filterMap id) children =
      checkNode action (second.filterMap id) children := by
    unfold checkNode
    rw [findParameter_isSome_congr hnames "condition", ← Option.not_isSome, ← Option.not_isSome,
      ← Option.not_isSome, ← Option.not_isSome, findParameter_isSome_congr hnames "variable",
      findParameter_isSome_congr hnames "watch_key"]
  constructor
  · rintro ⟨hlimits, haction, hfirst, hchecked⟩
    exact ⟨hlimits, haction, htyped ▸ hfirst, hchecks ▸ hchecked⟩
  · rintro ⟨hlimits, haction, hfirst, hchecked⟩
    exact ⟨hlimits, haction, htyped ▸ hfirst, hchecks ▸ hchecked⟩

/-- A value that a control may have. -/
structure Allows (limits : TreeConfig) (kind : NodeKind) (value : Int) : Prop where
  nonneg : 0 ≤ value
  within : isTimedKind kind = false → value.toNat ≤ limits.maxControlIterations

/-- Two values that give a control the same limit or duration. -/
def SameValue (kind : NodeKind) (first second : Nat) : Prop :=
  if isTimedKind kind then UInt64.ofNat first * 1000000 = UInt64.ofNat second * 1000000
  else first = second

theorem exists_ok {ε α : Type} {result : α} {property : α → Prop} :
    (∃ output, (Except.ok result : Except ε α) = .ok output ∧ property output) ↔ property result :=
  ⟨fun ⟨_, hok, hproperty⟩ => Except.ok.inj hok ▸ hproperty, fun hproperty => ⟨_, rfl, hproperty⟩⟩

theorem exists_parsed {parsed : Int} {property : Int → Prop} :
    (∃ other, some parsed = some other ∧ property other) ↔ property parsed :=
  ⟨fun ⟨_, hother, hproperty⟩ => Option.some.inj hother ▸ hproperty,
    fun hproperty => ⟨_, rfl, hproperty⟩⟩

theorem not_exists_fail {α : Type} {detail : String} {property : α → Prop} :
    ¬ ∃ output, fail action detail = .ok output ∧ property output :=
  fun ⟨_, hok, _⟩ => nomatch hok

section Control

variable {node : SessionNode Number} {skip : Bool}
  (hcontrol : controlParameter node.tree.kind = some (key, fallback))

include hcontrol

theorem kind_ne_leaf : node.tree.kind ≠ .leaf := fun hkind => by
  rw [hkind] at hcontrol
  cases hcontrol

/-- The controls without a duration that are replaced when they have no iterations. -/
theorem replaced_kinds (hcounted : isTimedKind node.tree.kind = false)
    (hkind : node.tree.kind ≠ .repetition) :
    node.tree.kind = .retry ∨ node.tree.kind = .whileDo ∨
      node.tree.kind = .keepRunningUntilFailure := by
  revert hcontrol hcounted hkind
  cases node.tree.kind <;> simp [controlParameter, isTimedKind]

/-- A duration. -/
theorem fixes_duration (htimed : isTimedKind node.tree.kind = true)
    (hruntime : node.terminal = .runtime) (value : Nat) (duration : UInt64) :
    Fixes node.tree.kind ({ node with tree := { node.tree with
        durationNs := duration
        dynamicParameterMask := { durationNs := false } } }, skip) value ↔
      duration = UInt64.ofNat value * 1000000 := by
  constructor
  · rintro (⟨-, -, -, hvalue⟩ | ⟨-, -, hkind, -⟩)
    · rwa [if_pos htimed] at hvalue
    · exact absurd hkind (kind_ne_leaf hcontrol)
  · intro hvalue
    refine .inl ⟨rfl, hruntime, rfl, ?_⟩
    rwa [if_pos htimed]

/-- A limit. -/
theorem fixes_limit (hcounted : isTimedKind node.tree.kind = false)
    (hruntime : node.terminal = .runtime) (value parsed : Nat) :
    Fixes node.tree.kind ({ node with tree := { node.tree with
        limit := parsed
        dynamicParameterMask := { limit := false } } }, skip) value ↔
      SameValue node.tree.kind value parsed := by
  have hne : ¬ isTimedKind node.tree.kind = true := by
    rw [hcounted]
    exact Bool.false_ne_true
  rw [SameValue, if_neg hne]
  constructor
  · rintro (⟨-, -, -, hvalue⟩ | ⟨-, -, hkind, -⟩)
    · rw [if_neg hne] at hvalue
      exact hvalue.symm
    · exact absurd hkind (kind_ne_leaf hcontrol)
  · intro hvalue
    refine .inl ⟨rfl, hruntime, rfl, ?_⟩
    rw [if_neg hne]
    exact hvalue.symm

/-- The leaf for a control without iterations. -/
theorem fixes_zero (hcounted : isTimedKind node.tree.kind = false)
    (hrepeat : node.tree.kind ≠ .repetition) (value : Nat) :
    Fixes node.tree.kind ({ node with
        terminal := zeroTerminal node.tree.kind
        tree := { node.tree with kind := .leaf, conditionCallback := false } }, true) value ↔
      SameValue node.tree.kind value 0 := by
  have hne : ¬ isTimedKind node.tree.kind = true := by
    rw [hcounted]
    exact Bool.false_ne_true
  rw [SameValue, if_neg hne]
  constructor
  · rintro (⟨hkind, -⟩ | ⟨hvalue, -⟩)
    · exact absurd hkind.symm (kind_ne_leaf hcontrol)
    · exact hvalue
  · exact fun hvalue => .inr ⟨hvalue, replaced_kinds hcontrol hcounted hrepeat, rfl, rfl, rfl⟩

/-- A literal is compiled when it is an integer that the control may have. -/
theorem compileControl_literal {text : Bytes}
    (hparameter : findParameter node.parameters key = some (.string text)) (htext : ¬ Braced text)
    (hruntime : node.terminal = .runtime) (value : Nat) :
    (∃ output, compileControl numbers limits node skip = .ok output ∧
        Fixes node.tree.kind output value) ↔
      ∃ parsed, praktorC11ParseInteger numbers text = some parsed ∧
        Allows limits node.tree.kind parsed ∧ SameValue node.tree.kind value parsed.toNat := by
  have hstatic : substituted (some (.string text : ParameterValue Number)) = false := by
    simpa [substituted] using htext
  rw [compileControl, hcontrol]
  simp only [hparameter, Option.isNone_some, Bool.false_eq_true, false_and, if_false, controlValue,
    hstatic, praktorC11ParameterInteger]
  cases hparse : praktorC11ParseInteger numbers text with
  | none => exact ⟨fun hok => absurd hok not_exists_fail, fun ⟨_, hnone, _⟩ => nomatch hnone⟩
  | some parsed =>
      rw [exists_parsed]
      dsimp only
      by_cases hnegative : parsed < 0
      · rw [if_pos hnegative]
        exact ⟨fun hok => absurd hok not_exists_fail,
          fun hadmits => absurd hnegative (Int.not_lt.mpr hadmits.1.nonneg)⟩
      rw [if_neg hnegative]
      cases htimed : isTimedKind node.tree.kind with
      | true =>
          have hadmits : Allows limits node.tree.kind parsed :=
            ⟨Int.not_lt.mp hnegative, fun hcounted => by rw [htimed] at hcounted; cases hcounted⟩
          rw [if_pos rfl, exists_ok, fixes_duration hcontrol htimed hruntime,
            and_iff_right hadmits, SameValue, if_pos htimed]
          exact eq_comm
      | false =>
          rw [if_neg Bool.false_ne_true]
          by_cases hbudget : parsed.toNat > limits.maxControlIterations
          · rw [if_pos hbudget]
            exact ⟨fun hok => absurd hok not_exists_fail,
              fun hadmits => absurd hbudget (Nat.not_lt.mpr (hadmits.1.within htimed))⟩
          have hadmits : Allows limits node.tree.kind parsed :=
            ⟨Int.not_lt.mp hnegative, fun _ => Nat.not_lt.mp hbudget⟩
          rw [if_neg hbudget, and_iff_right hadmits]
          by_cases hzero : parsed = 0 ∧ node.tree.kind ≠ .repetition
          · rw [if_pos (by simpa using hzero), exists_ok, hzero.1]
            exact fixes_zero hcontrol htimed hzero.2 value
          · rw [if_neg (by simpa using hzero), exists_ok]
            exact fixes_limit hcontrol htimed hruntime value parsed.toNat

omit hcontrol in
/-- The value that a control has before its first tick is one that it may have. -/
theorem controlValue_dynamic {kind : NodeKind}
    (hkind : controlParameter kind = some (key, fallback)) {text : Bytes} (htext : Braced text) :
    ∃ value, controlValue numbers limits kind fallback (some (.string text)) = some value ∧
      Allows limits kind value := by
  have hdynamic : substituted (some (.string text : ParameterValue Number)) = true := by
    simpa [substituted] using htext
  have hdefault : 0 ≤ fallback := by
    cases kind <;> cases hkind <;> decide
  rw [controlValue, if_pos hdynamic]
  split
  · exact ⟨0, rfl, Int.le_refl 0, fun _ => Nat.zero_le _⟩
  split
  · exact ⟨_, rfl, Int.natCast_nonneg _, fun _ => by rw [Int.toNat_natCast]⟩
  · rename_i hbudget
    refine ⟨fallback, rfl, hdefault, fun hcounted => ?_⟩
    rw [hcounted] at hbudget
    simpa using hbudget

omit hcontrol in
theorem kind_with_duration (tree : BtNodeDesc) (duration : UInt64) (mask : DynamicMask) :
    ({ tree with durationNs := duration, dynamicParameterMask := mask } : BtNodeDesc).kind =
      tree.kind := rfl

/-- A key in braces is compiled to a node with a mask. -/
theorem compileControl_dynamic {text : Bytes}
    (hparameter : findParameter node.parameters key = some (.string text)) (htext : Braced text) :
    ∃ output, compileControl numbers limits node skip = .ok (output, skip) ∧
      output.tree.kind = node.tree.kind ∧ output.parameters = node.parameters ∧
      output.tree.dynamicParameterMask = maskOf node.tree.kind := by
  have hdynamic : substituted (some (.string text : ParameterValue Number)) = true := by
    simpa [substituted] using htext
  obtain ⟨value, hvalue, hadmits⟩ : ∃ value, controlValue numbers limits node.tree.kind fallback
      (some (.string text)) = some value ∧ Allows limits node.tree.kind value :=
    controlValue_dynamic hcontrol htext
  rw [compileControl, hcontrol]
  simp only [hparameter, Option.isNone_some, Bool.false_eq_true, false_and, if_false, hdynamic,
    hvalue]
  rw [if_neg (Int.not_lt.mpr hadmits.nonneg), maskOf]
  cases htimed : isTimedKind node.tree.kind with
  | true =>
      rw [if_pos rfl, if_pos rfl]
      exact ⟨_, rfl, kind_with_duration _ _ _, rfl, rfl⟩
  | false =>
      rw [if_neg Bool.false_ne_true, if_neg (Nat.not_lt.mpr (hadmits.within htimed)),
        if_neg (by simp)]
      exact ⟨_, rfl, rfl, rfl, rfl⟩

end Control

end Compiling

/-! ## Resolving -/

section Resolving

variable {numbers : SessionNumbers Number} {hooks : ValueHooks Store}
  {session : SessionImpl Number count} {node : Fin count} {s : SessionState Store count}
  {name : CString} {text : Bytes} {key : String}

/-- `session_integer` of a key under which a text is stored. -/
theorem sessionInteger_stored (hmemory : none ∉ s.fresh) (hnonempty : name.bytes ≠ [])
    (hroom : name.length + 2 ≤ session.config.maxValueBytes)
    (hstored : hooks.Stores s.store name text)
    (hfits : text.length ≤ session.config.maxValueBytes)
    (hparameter : sessionParameter session node key = some (.string (bracedKey name)))
    (fallback : Int) :
    (on (sessionInteger numbers hooks session node key fallback) s).1 =
      match praktorC11ParseInteger numbers text with
      | none => .error .einval
      | some value => .ok value := by
  have hlong : bracedKey name ≠ [123, 125] := by
    intro hshort
    exact hnonempty (by simpa [bracedKey] using congrArg List.length hshort)
  obtain ⟨value, next, hresolve, -, -, hholds, -⟩ := resolveText_fetched hooks session
    0 hmemory (by decide) hnonempty hroom hstored hfits
  have hresolved : on (sessionResolve numbers hooks session node key none 0) s =
      (.ok value, next) := by
    rw [sessionResolve, if_neg (by decide), hparameter]
    exact hresolve
  rw [sessionInteger, hparameter]
  simp only
  rw [if_neg hlong, on_bind_ok hresolved, on_bind_ok (on_textOf _ _), hholds.read_eq]
  cases praktorC11ParseInteger numbers text with
  | none => rfl
  | some value => rfl

/-- The tables of the session are those of the compiler. -/
theorem limitParameter_eq {kind : NodeKind} (hcounted : isTimedKind kind = false) :
    limitParameter kind = controlParameter kind := by
  cases kind <;> first | rfl | cases hcounted

theorem durationParameter_eq {kind : NodeKind} (htimed : isTimedKind kind = true) :
    durationParameter kind = controlParameter kind := by
  cases kind <;> first | rfl | cases htimed

/-- What `session_dynamic` does with an integer that was read. -/
theorem sessionDynamic_parsed
    {resolver : Option (Fin count → NodeParameters → Salts × NodeParameters)} {fallback : Int}
    (hcontrol : controlParameter (session.nodes node).tree.kind = some (key, fallback))
    (hmask : (session.nodes node).tree.dynamicParameterMask = maskOf (session.nodes node).tree.kind)
    (hbranch : (s.state node).branch = false)
    (hthere : (sessionParameter session node key).isNone = false) {parsed : Option Int}
    (hinteger : (on (sessionInteger numbers hooks session node key fallback) s).1 =
      match parsed with
      | none => .error .einval
      | some value => .ok value)
    (params : NodeParameters) (value : Nat) :
    (on (sessionDynamic numbers hooks session resolver node params) s).1 =
        .ok (params.withValue (session.nodes node).tree.kind value) ↔
      ∃ other, parsed = some other ∧ Allows session.config.tree (session.nodes node).tree.kind other ∧
        SameValue (session.nodes node).tree.kind value other.toNat := by
  rcases hrun : on (sessionInteger numbers hooks session node key fallback) s with ⟨result, next⟩
  rw [hrun] at hinteger
  unfold sessionDynamic
  rw [on_bind_ok (on_get s), hbranch, if_neg Bool.false_ne_true, hmask, maskOf]
  cases htimed : isTimedKind (session.nodes node).tree.kind with
  | true =>
      rw [if_pos rfl, if_neg Bool.false_ne_true, if_pos rfl, dynamicDuration,
        durationParameter_eq htimed, hcontrol]
      simp only
      cases parsed with
      | none =>
          rw [on_bind_error (hrun.trans (congrArg (·, next) hinteger))]
          exact ⟨fun hok => (nomatch hok), fun ⟨_, hnone, _⟩ => nomatch hnone⟩
      | some parsed =>
          rw [on_bind_ok (hrun.trans (congrArg (·, next) hinteger)), exists_parsed]
          by_cases hnegative : parsed < 0
          · rw [if_pos hnegative]
            exact ⟨fun hok => (nomatch hok),
              fun hadmits => absurd hnegative (Int.not_lt.mpr hadmits.1.nonneg)⟩
          have hadmits : Allows session.config.tree (session.nodes node).tree.kind parsed :=
            ⟨Int.not_lt.mp hnegative, fun hcounted => by rw [htimed] at hcounted; cases hcounted⟩
          rw [if_neg hnegative, and_iff_right hadmits, SameValue, if_pos htimed,
            NodeParameters.withValue, if_pos htimed]
          generalize UInt64.ofNat value * 1000000 = expected
          generalize UInt64.ofNat parsed.toNat * 1000000 = duration
          refine ⟨fun hok => (congrArg NodeParameters.durationNs (Except.ok.inj hok)).symm,
            fun hsame => ?_⟩
          rw [hsame]
          rfl
  | false =>
      rw [if_neg Bool.false_ne_true, if_pos rfl, dynamicLimit, limitParameter_eq htimed, hcontrol]
      simp only
      rw [if_neg (by rw [hthere]; simp)]
      cases parsed with
      | none =>
          rw [on_bind_error (hrun.trans (congrArg (·, next) hinteger))]
          exact ⟨fun hok => (nomatch hok), fun ⟨_, hnone, _⟩ => nomatch hnone⟩
      | some parsed =>
          rw [on_bind_ok (hrun.trans (congrArg (·, next) hinteger)), exists_parsed]
          by_cases hrefused : parsed < 0 ∨
              parsed.toNat > session.config.tree.maxControlIterations
          · rw [if_pos hrefused]
            refine ⟨fun hok => (nomatch hok), fun hadmits => ?_⟩
            rcases hrefused with hnegative | hbudget
            · exact absurd hnegative (Int.not_lt.mpr hadmits.1.nonneg)
            · exact absurd hbudget (Nat.not_lt.mpr (hadmits.1.within htimed))
          obtain ⟨hnonneg, hwithin⟩ := not_or.mp hrefused
          have hadmits : Allows session.config.tree (session.nodes node).tree.kind parsed :=
            ⟨Int.not_lt.mp hnonneg, fun _ => Nat.not_lt.mp hwithin⟩
          have hne : ¬ isTimedKind (session.nodes node).tree.kind = true := by
            rw [htimed]
            exact Bool.false_ne_true
          rw [if_neg hrefused, and_iff_right hadmits, SameValue, if_neg hne,
            NodeParameters.withValue, if_neg hne]
          refine ⟨fun hok => (congrArg NodeParameters.limit (Except.ok.inj hok)).symm,
            fun hsame => ?_⟩
          rw [hsame]
          rfl

end Resolving

end Praktor.Session
