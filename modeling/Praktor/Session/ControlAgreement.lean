/-
# Static and substituted control parameters

A control means the same whether its limit or duration is written in the plan or stored under a
key, as long as the key in its braces is within the bound of values.  What is compiled is always a
description that the tree accepts, and it has a mask exactly when the session asks its store.
-/

import Praktor.Session.ControlParameters

namespace Praktor.Session

open Praktor.Data Praktor.Math Stateful
open Praktor.Runtime (TreeConfig)

variable {Store Number : Type} {count : Nat}

/-! ## Descriptions -/

/-- What the tree asks of a description when all functions of the host are there. -/
structure Described (desc : BtNodeDesc) : Prop where
  condition : desc.conditionCallback = true → isConditionKind desc.kind = true
  hooks : desc.parallelHooks = true → desc.kind = .parallel
  limit : desc.limit ≠ 0 → hasLimit desc.kind = true
  duration : desc.durationNs ≠ 0 → isTimedKind desc.kind = true
  single : desc.dynamicParameterMask ≠ ⟨true, true⟩
  limitMask : desc.dynamicParameterMask.limit = true → hasLimit desc.kind = true
  durationMask : desc.dynamicParameterMask.durationNs = true → isTimedKind desc.kind = true

theorem pass_check {condition : Prop} [Decidable condition] {rest : Bool} (hpass : ¬ condition)
    (hrest : rest = true) : (if condition then false else rest) = true := by
  rw [if_neg hpass]
  exact hrest

theorem Described.valid {desc : BtNodeDesc} (hdescribed : Described desc) :
    callbackContractValid desc sessionTable = true := by
  have hcondition : ¬ (desc.conditionCallback ∧ !isConditionKind desc.kind) := by
    rintro ⟨hcallback, hkind⟩
    rw [hdescribed.condition hcallback] at hkind
    cases hkind
  have hhooks : ¬ (desc.parallelHooks ∧ desc.kind ≠ .parallel) :=
    fun hboth => hboth.2 (hdescribed.hooks hboth.1)
  unfold callbackContractValid
  refine pass_check (fun hboth => hcondition ⟨hboth.1, hboth.2.resolve_right nofun⟩) ?_
  refine pass_check (fun hboth => hhooks ⟨hboth.1, ?_⟩) ?_
  · simpa [sessionTable] using hboth.2
  refine pass_check (fun hboth => nomatch hboth.2) ?_
  refine pass_check (fun hboth => nomatch hboth.2) ?_
  refine pass_check (fun hboth => by simpa [sessionTable] using hboth.2) ?_
  refine pass_check (fun hboth => nomatch hboth.2) ?_
  refine pass_check (fun hboth => by simpa [sessionTable] using hboth.2) ?_
  refine pass_check (fun hboth => ?_) ?_
  · have hkind := hdescribed.limit hboth.2
    simp [hkind] at hboth
  refine pass_check (fun hboth => ?_) ?_
  · have hkind := hdescribed.duration hboth.2
    simp [hkind] at hboth
  refine pass_check hdescribed.single ?_
  refine pass_check (fun hboth => nomatch hboth.2) ?_
  refine pass_check (fun hboth => ?_) ?_
  · have hkind := hdescribed.limitMask hboth.1
    simp [hkind] at hboth
  refine pass_check (fun hboth => ?_) ?_
  · have hkind := hdescribed.durationMask hboth.1
    simp [hkind] at hboth
  refine pass_check hhooks (pass_check hcondition (pass_check (fun hboth => ?_) rfl))
  have hkind := hdescribed.condition hboth.2.2.2
  simp [isConditionKind, hboth.1, hboth.2.1, hboth.2.2.1] at hkind

/-- A description without a limit and a duration yet. -/
structure Plain (desc : BtNodeDesc) : Prop where
  condition : desc.conditionCallback = true → isConditionKind desc.kind = true
  hooks : desc.parallelHooks = true → desc.kind = .parallel
  limit : desc.limit = 0
  duration : desc.durationNs = 0
  mask : desc.dynamicParameterMask = {}

theorem Plain.described {desc : BtNodeDesc} (hplain : Plain desc) : Described desc where
  condition := hplain.condition
  hooks := hplain.hooks
  limit hlimit := absurd hplain.limit hlimit
  duration hduration := absurd hplain.duration hduration
  single := by
    rw [hplain.mask]
    decide
  limitMask hmask := by
    rw [hplain.mask] at hmask
    cases hmask
  durationMask hmask := by
    rw [hplain.mask] at hmask
    cases hmask

theorem conditionCallback_kind {scalar : Bool} {kind : NodeKind}
    (hcallback : conditionCallback scalar kind = true) : isConditionKind kind = true := by
  cases kind <;> first | rfl | cases hcallback

theorem conditionCallback_empty {kind : NodeKind} {terminal : TerminalAction}
    (hempty : emptyTerminal kind = some terminal) (scalar : Bool) :
    conditionCallback scalar kind = false := by
  cases kind <;> first | rfl | cases hempty

theorem shapeNode_plain (action : CString) (parameters : List (LeafParameter Number))
    (children : Nat) (parent : Option Nat) :
    Plain (shapeNode action parameters children parent).1.tree := by
  rw [shapeNode]
  generalize kindOf action = kind
  generalize (findParameter parameters "condition").isSome = scalar
  cases hempty : (if children = 0 then emptyTerminal kind else none) with
  | none =>
      exact ⟨conditionCallback_kind, fun hhooks => of_decide_eq_true hhooks, rfl, rfl, rfl⟩
  | some terminal =>
      refine ⟨fun hcallback => ?_, fun hhooks => (by cases hhooks), rfl, rfl, rfl⟩
      split at hempty
      · cases (conditionCallback_empty hempty scalar).symm.trans hcallback
      · cases hempty

section Compiled

variable {numbers : SessionNumbers Number} {limits : TreeConfig} {node : SessionNode Number}
  {skip : Bool} {output : SessionNode Number × Bool} {key : String} {fallback : Int}

theorem hasLimit_of_counted {kind : NodeKind}
    (hcontrol : controlParameter kind = some (key, fallback))
    (hcounted : isTimedKind kind = false) : hasLimit kind = true := by
  revert hcontrol hcounted
  cases kind <;> simp [controlParameter, isTimedKind, hasLimit]

/-- What a control is compiled to: a node with a duration or a limit, or a leaf in its place. -/
theorem compileControl_cases (hcompile : compileControl numbers limits node skip = .ok output) :
    (controlParameter node.tree.kind = none ∧ output = (node, skip)) ∨
    ∃ key fallback, controlParameter node.tree.kind = some (key, fallback) ∧
      ((isTimedKind node.tree.kind = true ∧ ∃ duration, output = ({ node with
          tree := { node.tree with
            durationNs := duration
            dynamicParameterMask :=
              { durationNs := substituted (findParameter node.parameters key) } } }, skip)) ∨
       (isTimedKind node.tree.kind = false ∧
          substituted (findParameter node.parameters key) = false ∧ ∃ terminal, output = ({ node with
            terminal := terminal
            tree := { node.tree with kind := .leaf, conditionCallback := false } }, true)) ∨
       (isTimedKind node.tree.kind = false ∧ ∃ limit, output = ({ node with
          tree := { node.tree with
            limit := limit
            dynamicParameterMask :=
              { limit := substituted (findParameter node.parameters key) } } }, skip))) := by
  unfold compileControl at hcompile
  split at hcompile
  · rename_i hcontrol
    exact .inl ⟨hcontrol, (Except.ok.inj hcompile).symm⟩
  rename_i key fallback hcontrol
  refine .inr ⟨key, fallback, hcontrol, ?_⟩
  dsimp only at hcompile
  split at hcompile
  · cases hcompile
  split at hcompile
  · cases hcompile
  split at hcompile
  · cases hcompile
  split at hcompile
  · rename_i htimed
    exact .inl ⟨htimed, _, (Except.ok.inj hcompile).symm⟩
  rename_i hcounted
  have hcounted : isTimedKind node.tree.kind = false := eq_false_of_ne_true hcounted
  split at hcompile
  · cases hcompile
  split at hcompile
  · rename_i hzero
    refine .inr (.inl ⟨hcounted, ?_, _, (Except.ok.inj hcompile).symm⟩)
    simpa using hzero.2.1
  · exact .inr (.inr ⟨hcounted, _, (Except.ok.inj hcompile).symm⟩)

/-- A control is compiled to a description that the tree accepts. -/
theorem compileControl_described (hplain : Plain node.tree)
    (hcompile : compileControl numbers limits node skip = .ok output) :
    Described output.1.tree := by
  obtain ⟨-, rfl⟩ | ⟨key, fallback, hcontrol, houtput⟩ := compileControl_cases hcompile
  · exact hplain.described
  rcases houtput with ⟨htimed, duration, rfl⟩ | ⟨hcounted, -, terminal, rfl⟩ |
    ⟨hcounted, limit, rfl⟩
  · exact ⟨hplain.condition, hplain.hooks, fun hlimit => absurd hplain.limit hlimit,
      fun _ => htimed, (by simp), nofun, fun _ => htimed⟩
  · have hhooks : node.tree.parallelHooks ≠ true := by
      intro hhooks
      rw [hplain.hooks hhooks] at hcontrol
      cases hcontrol
    refine ⟨nofun, fun hparallel => absurd hparallel hhooks,
      fun hlimit => absurd hplain.limit hlimit, fun hduration => absurd hplain.duration hduration,
      ?_, ?_, ?_⟩ <;> simp only [hplain.mask]
    · decide
    · nofun
    · nofun
  · have hlimit := hasLimit_of_counted hcontrol hcounted
    exact ⟨hplain.condition, hplain.hooks, fun _ => hlimit,
      fun hduration => absurd hplain.duration hduration, (by simp),
      fun _ => hlimit, nofun⟩

/-- A control has a mask exactly when its parameter is in braces, and it keeps its parameters. -/
theorem compileControl_mask (hmask : node.tree.dynamicParameterMask = {})
    (hcompile : compileControl numbers limits node skip = .ok output) :
    output.1.parameters = node.parameters ∧
      (output.1.tree.dynamicParameterMask ≠ {} ↔ ∃ key fallback,
        controlParameter node.tree.kind = some (key, fallback) ∧
          substituted (findParameter node.parameters key) = true) := by
  obtain ⟨hnone, rfl⟩ | ⟨key, fallback, hcontrol, houtput⟩ := compileControl_cases hcompile
  · refine ⟨rfl, fun hne => absurd hmask hne, ?_⟩
    rintro ⟨key, fallback, hcontrol, -⟩
    rw [hnone] at hcontrol
    cases hcontrol
  have hsame : (∃ key fallback, controlParameter node.tree.kind = some (key, fallback) ∧
      substituted (findParameter node.parameters key) = true) ↔
        substituted (findParameter node.parameters key) = true := by
    constructor
    · rintro ⟨other, default, hother, hstatic⟩
      rw [hcontrol, Option.some.injEq, Prod.mk.injEq] at hother
      rwa [← hother.1] at hstatic
    · exact fun hstatic => ⟨key, fallback, hcontrol, hstatic⟩
  rw [hsame]
  rcases houtput with ⟨-, duration, rfl⟩ | ⟨-, hstatic, terminal, rfl⟩ | ⟨-, limit, rfl⟩
  · refine ⟨rfl, ?_⟩
    cases substituted (findParameter node.parameters key) <;> simp
  · rw [hstatic]
    exact ⟨rfl, fun hne => absurd hmask hne, nofun⟩
  · refine ⟨rfl, ?_⟩
    cases substituted (findParameter node.parameters key) <;> simp

end Compiled

section Nodes

variable {numbers : SessionNumbers Number} {limits : TreeConfig} {action : CString}
  {parameters : List (Option (LeafParameter Number))} {children : Nat} {parent : Option Nat}
  {output : SessionNode Number × Bool}

/-- Whatever is compiled is a description that the tree accepts. -/
theorem compileNode_valid (hcompile :
    praktorC11CompileNode numbers limits action parameters children parent = .ok output) :
    callbackContractValid output.1.tree sessionTable = true :=
  (compileControl_described (shapeNode_plain _ _ _ _) (compileNode_eq_ok.mp hcompile).2).valid

theorem shapeNode_parameters (list : List (LeafParameter Number)) :
    (shapeNode action list children parent).1.parameters = list := by
  rw [shapeNode]
  cases (if children = 0 then emptyTerminal (kindOf action) else none) <;> rfl

/-- A node with a control parameter has the kind of its action before it is compiled. -/
theorem shapeNode_kind (list : List (LeafParameter Number)) {entry : String × Int} :
    controlParameter (shapeNode action list children parent).1.tree.kind = some entry ↔
      controlParameter (kindOf action) = some entry := by
  cases hcontrol : controlParameter (kindOf action) with
  | some found =>
      rw [shapeNode_of_control (show _ = some (found.1, found.2) from hcontrol)]
      exact iff_of_eq (congrArg (· = some entry) hcontrol)
  | none =>
      rw [shapeNode]
      cases (if children = 0 then emptyTerminal (kindOf action) else none) with
      | none => exact iff_of_eq (congrArg (· = some entry) hcontrol)
      | some terminal => rfl

/-- A compiled node has a mask exactly when its control parameter is in braces. -/
theorem compileNode_mask (hcompile :
    praktorC11CompileNode numbers limits action parameters children parent = .ok output) :
    output.1.parameters = parameters.filterMap id ∧
      (output.1.tree.dynamicParameterMask ≠ {} ↔ ∃ key fallback,
        controlParameter (kindOf action) = some (key, fallback) ∧
          substituted (findParameter (parameters.filterMap id) key) = true) := by
  obtain ⟨hparameters, hmask⟩ :=
    compileControl_mask (shapeNode_plain _ _ _ _).mask (compileNode_eq_ok.mp hcompile).2
  rw [shapeNode_parameters] at hparameters hmask
  simp only [shapeNode_kind] at hmask
  exact ⟨hparameters, hmask⟩

end Nodes

/-! ## Reads of the resolver -/

section Reads

variable {numbers : SessionNumbers Number} {hooks : ValueHooks Store}
  {session : SessionImpl Number count} {node : Fin count} {s : SessionState Store count}
  {key : String}

/-- What follows does not ask for keys. -/
theorem queries_bind {α β : Type} {first : SessionM Store count α}
    {second : α → SessionM Store count β} (hsecond : ∀ value, Keeps Buffered (second value))
    (s : SessionState Store count) :
    (on (first >>= second) s).2.queries = (on first s).2.queries := by
  rw [on_bind]
  rcases on first s with ⟨result, next⟩
  cases result with
  | error code => rfl
  | ok value =>
      obtain ⟨scratch, fresh, hnext⟩ := hsecond value next
      show (on (second value) next).2.queries = next.queries
      rw [hnext]

/-- The end of `session_integer`. -/
theorem parsed_keeps (numbers : SessionNumbers Number) (value : SessionText) :
    Keeps Buffered (do
      match praktorC11ParseInteger numbers (← textOf value) with
      | none => throw .einval
      | some value => return value : SessionM Store count Int) := by
  refine .bind buffered_frame (textOf_keeps value) fun text => ?_
  split
  · exact .throw buffered_frame _
  · exact .pure buffered_frame _

/-- A text in braces is within the bound of values and has no NUL. -/
def Readable (session : SessionImpl Number count) (parameter : Option (ParameterValue Number)) :
    Prop :=
  ∀ text, parameter = some (.string text) → Braced text →
    text.length ≤ session.config.maxValueBytes ∧ 0 ∉ text

/-- The session asks its store for a control parameter exactly when it is in braces. -/
theorem sessionInteger_asks (hmemory : none ∉ s.fresh)
    (hreadable : Readable session (sessionParameter session node key)) (fallback : Int) :
    (on (sessionInteger numbers hooks session node key fallback) s).2.queries ≠ s.queries ↔
      substituted (sessionParameter session node key) = true := by
  unfold sessionInteger
  cases hparameter : sessionParameter session node key with
  | none => exact ⟨fun hne => absurd rfl hne, nofun⟩
  | some parameter =>
      cases parameter with
      | boolean value => exact ⟨fun hne => absurd rfl hne, nofun⟩
      | number value =>
          refine ⟨fun hne => absurd ?_ hne, nofun⟩
          dsimp only
          cases numbers.toInt value <;> rfl
      | string text =>
          dsimp only
          by_cases hempty : text = [123, 125]
          · rw [if_pos hempty]
            refine (not_congr (Eq.congr_left (queries_bind (parsed_keeps numbers) s))).trans ?_
            rw [sessionGet_queries hooks session (by decide), hempty]
            exact ⟨fun _ => rfl, fun _ hsame => by simp at hsame⟩
          rw [if_neg hempty]
          refine (not_congr (Eq.congr_left (queries_bind (parsed_keeps numbers) s))).trans ?_
          rw [sessionResolve, if_neg (by decide), hparameter]
          dsimp only
          by_cases hbraced : Braced text
          · obtain ⟨hfits, hzero⟩ := hreadable text hparameter hbraced
            obtain ⟨name, rfl⟩ := eq_bracedKey hbraced hzero
            have hnonempty : name.bytes ≠ [] := by
              intro hnil
              exact hempty (by rw [bracedKey, hnil]; rfl)
            have hlength : (bracedKey name).length = name.length + 2 := by
              simp [bracedKey, CString.length]
            rw [resolveText_queries hooks session hmemory (by decide) hnonempty (by omega)]
            exact ⟨fun _ => by simpa [substituted] using hbraced,
              fun _ hsame => by simp at hsame⟩
          · refine ⟨fun hne => absurd ?_ hne,
              fun hsubstituted => absurd (by simpa [substituted] using hsubstituted) hbraced⟩
            unfold resolveText
            split
            · rfl
            rw [if_neg fun hlong => hbraced ⟨by omega, hlong.2⟩]
            rfl

/-- A key whose braces do not fit is refused. -/
theorem sessionDynamic_unfit {fallback : Int}
    {resolver : Option (Fin count → NodeParameters → Salts × NodeParameters)} {text : Bytes}
    (hcontrol : controlParameter (session.nodes node).tree.kind = some (key, fallback))
    (hmask : (session.nodes node).tree.dynamicParameterMask = maskOf (session.nodes node).tree.kind)
    (hbranch : (s.state node).branch = false)
    (hparameter : sessionParameter session node key = some (.string text))
    (hlong : text ≠ [123, 125]) (hunfit : session.config.maxValueBytes < text.length)
    (params : NodeParameters) :
    (on (sessionDynamic numbers hooks session resolver node params) s).1 = .error .enobufs := by
  have hinteger : on (sessionInteger numbers hooks session node key fallback) s =
      (.error .enobufs, s) := by
    unfold sessionInteger
    rw [hparameter]
    dsimp only
    rw [if_neg hlong]
    refine on_bind_error ?_
    rw [sessionResolve, if_neg (by decide), hparameter]
    dsimp only
    rw [resolveText, if_pos hunfit]
    rfl
  unfold sessionDynamic
  rw [on_bind_ok (on_get s), hbranch, if_neg Bool.false_ne_true, hmask, maskOf]
  cases htimed : isTimedKind (session.nodes node).tree.kind with
  | true =>
      rw [if_pos rfl, if_neg Bool.false_ne_true, if_pos rfl, dynamicDuration,
        durationParameter_eq htimed, hcontrol]
      dsimp only
      rw [on_bind_error hinteger]
  | false =>
      rw [if_neg Bool.false_ne_true, if_pos rfl, dynamicLimit, limitParameter_eq htimed, hcontrol]
      dsimp only
      rw [if_neg (by rw [hparameter]; simp), on_bind_error hinteger]

end Reads

/-! ## Agreement -/

section Agreement

variable (numbers : SessionNumbers Number) (hooks : ValueHooks Store)
  (resolver : Option (Fin count → NodeParameters → Salts × NodeParameters))
  (session : SessionImpl Number count) (node : Fin count) (action : CString) (children : Nat)
  (parent : Option Nat)

/-- Parameters of which one is a text under a key. -/
def withParameter (before after : List (Option (LeafParameter Number))) (key : String)
    (text : Bytes) : List (Option (LeafParameter Number)) :=
  before ++ some ⟨CString.literal key, .string text⟩ :: after

variable {numbers hooks resolver session node action children parent} in
/-- A literal that the compiler fixes is a value that the resolver gives, and the other way. -/
theorem literal_agrees {before after : List (Option (LeafParameter Number))} {key : String}
    {fallback : Int} {text : Bytes} {name : CString} {s : SessionState Store count}
    (hcontrol : controlParameter (kindOf action) = some (key, fallback))
    (hbefore : ∀ parameter ∈ before.filterMap id, parameter.name ≠ CString.literal key)
    (htext : ¬ Braced text) (hfits : text.length ≤ session.config.maxValueBytes)
    (hnonempty : name.bytes ≠ []) (hroom : name.length + 2 ≤ session.config.maxValueBytes)
    (hnode : ∀ output, praktorC11CompileNode numbers session.config.tree action
      (withParameter before after key (bracedKey name)) children parent = .ok output →
        session.nodes node = output.1)
    (hbranch : (s.state node).branch = false) (hmemory : none ∉ s.fresh)
    (hstored : hooks.Stores s.store name text) (params : NodeParameters) (value : Nat) :
    (∃ output, praktorC11CompileNode numbers session.config.tree action
        (withParameter before after key text) children parent = .ok output ∧
        Fixes (kindOf action) output value) ↔
      ∃ output, praktorC11CompileNode numbers session.config.tree action
          (withParameter before after key (bracedKey name)) children parent = .ok output ∧
        output.1.tree.kind = kindOf action ∧
        output.1.tree.dynamicParameterMask = maskOf (kindOf action) ∧
        (on (sessionDynamic numbers hooks session resolver node params) s).1 =
          .ok (params.withValue (kindOf action) value) := by
  have hlist (text : Bytes) : (withParameter before after key text).filterMap id =
      before.filterMap id ++ ⟨CString.literal key, .string text⟩ :: after.filterMap id := by
    rw [withParameter, List.filterMap_append, List.filterMap_cons]
    rfl
  have hfound (text : Bytes) : findParameter ((withParameter before after key text).filterMap id)
      key = some (.string text) := by
    rw [hlist]
    exact findParameter_middle hbefore _
  have haccepted : Accepted session.config.tree action (withParameter before after key text)
      children ↔ Accepted session.config.tree action
        (withParameter before after key (bracedKey name)) children := by
    apply accepted_congr
    · simp [withParameter]
    · simp only [hlist, List.map_append, List.map_cons]
  simp only [compileNode_eq_ok, shapeNode_of_control hcontrol, and_assoc, exists_and_left]
  rw [haccepted]
  refine and_congr_right fun hdynamic => ?_
  refine (compileControl_literal hcontrol (hfound text) htext rfl value).trans ?_
  obtain ⟨output, hcompile, hkind, hparameters, hmask⟩ :
      ∃ output, compileControl numbers session.config.tree
        (shapeNode action ((withParameter before after key (bracedKey name)).filterMap id) children
          parent).1 false = .ok (output, false) ∧ output.tree.kind = kindOf action ∧
        output.parameters = (withParameter before after key (bracedKey name)).filterMap id ∧
        output.tree.dynamicParameterMask = maskOf (kindOf action) := by
    rw [shapeNode_of_control hcontrol]
    exact compileControl_dynamic hcontrol (hfound _) (braced_bracedKey name)
  rw [shapeNode_of_control hcontrol] at hcompile
  have hthere : session.nodes node = output := by
    refine hnode (output, false) (compileNode_eq_ok.mpr ⟨hdynamic, ?_⟩)
    rw [shapeNode_of_control hcontrol]
    exact hcompile
  have hparameter : sessionParameter session node key = some (.string (bracedKey name)) := by
    rw [sessionParameter, hthere, hparameters]
    exact hfound _
  have hkindThere : (session.nodes node).tree.kind = kindOf action := by
    rw [hthere]
    exact hkind
  have hinteger : (on (sessionInteger numbers hooks session node key fallback) s).1 = _ :=
    sessionInteger_stored hmemory hnonempty hroom hstored hfits hparameter fallback
  have hresolved : (on (sessionDynamic numbers hooks session resolver node params) s).1 =
      .ok (params.withValue (session.nodes node).tree.kind value) ↔ _ :=
    sessionDynamic_parsed (hkindThere.symm ▸ hcontrol) (by rw [hkindThere, hthere]; exact hmask)
      hbranch (by rw [hparameter]; rfl) hinteger params value
  rw [hkindThere] at hresolved
  constructor
  · exact fun hvalue => ⟨_, hcompile, hkind, hmask, hresolved.mpr hvalue⟩
  · rintro ⟨compiled, -, -, -, hrun⟩
    exact hresolved.mp hrun

/-- Static and substituted control parameters mean the same. -/
structure ControlsAgree : Prop where
  /-- A literal is accepted with a limit or a duration exactly when its key in braces is accepted
  and resolved to the same, as long as the key in its braces is within the bound of values. -/
  agrees : ∀ (key : String) (fallback : Int) (before after : List (Option (LeafParameter Number)))
    (text : Bytes) (name : CString) (s : SessionState Store count) (params : NodeParameters)
    (value : Nat), controlParameter (kindOf action) = some (key, fallback) →
    (∀ parameter ∈ before.filterMap id, parameter.name ≠ CString.literal key) →
    ¬ Braced text → text.length ≤ session.config.maxValueBytes → name.bytes ≠ [] →
    name.length + 2 ≤ session.config.maxValueBytes →
    (∀ output, praktorC11CompileNode numbers session.config.tree action
      (withParameter before after key (bracedKey name)) children parent = .ok output →
        session.nodes node = output.1) →
    (s.state node).branch = false → none ∉ s.fresh → hooks.Stores s.store name text →
    ((∃ output, praktorC11CompileNode numbers session.config.tree action
        (withParameter before after key text) children parent = .ok output ∧
        Fixes (kindOf action) output value) ↔
      ∃ output, praktorC11CompileNode numbers session.config.tree action
          (withParameter before after key (bracedKey name)) children parent = .ok output ∧
        output.1.tree.kind = kindOf action ∧
        output.1.tree.dynamicParameterMask = maskOf (kindOf action) ∧
        (on (sessionDynamic numbers hooks session resolver node params) s).1 =
          .ok (params.withValue (kindOf action) value))
  /-- A longer key is refused at every tick. -/
  refuses : ∀ (key : String) (fallback : Int) (name : CString) (s : SessionState Store count)
    (params : NodeParameters),
    controlParameter (session.nodes node).tree.kind = some (key, fallback) →
    (session.nodes node).tree.dynamicParameterMask = maskOf (session.nodes node).tree.kind →
    sessionParameter session node key = some (.string (bracedKey name)) → name.bytes ≠ [] →
    session.config.maxValueBytes < name.length + 2 → (s.state node).branch = false →
    (on (sessionDynamic numbers hooks session resolver node params) s).1 = .error .enobufs
  /-- A node has a mask exactly when the session reads its parameter from the store. -/
  masked : ∀ (limits : TreeConfig) (parameters : List (Option (LeafParameter Number)))
    (output : SessionNode Number × Bool) (key : String) (fallback : Int)
    (s : SessionState Store count),
    praktorC11CompileNode numbers limits action parameters children parent = .ok output →
    controlParameter (kindOf action) = some (key, fallback) → session.nodes node = output.1 →
    none ∉ s.fresh → Readable session (sessionParameter session node key) →
    (output.1.tree.dynamicParameterMask ≠ {} ↔
      (on (sessionInteger numbers hooks session node key fallback) s).2.queries ≠ s.queries)
  /-- No other node has one. -/
  unmasked : ∀ (limits : TreeConfig) (parameters : List (Option (LeafParameter Number)))
    (output : SessionNode Number × Bool),
    praktorC11CompileNode numbers limits action parameters children parent = .ok output →
    controlParameter (kindOf action) = none → output.1.tree.dynamicParameterMask = {}
  valid : ∀ (limits : TreeConfig) (parameters : List (Option (LeafParameter Number)))
    (output : SessionNode Number × Bool),
    praktorC11CompileNode numbers limits action parameters children parent = .ok output →
    callbackContractValid output.1.tree sessionTable = true

theorem controls_agree :
    ControlsAgree numbers hooks resolver session node action children parent where
  agrees _ _ _ _ _ _ _ params value hcontrol hbefore htext hfits hnonempty hroom hnode hbranch
      hmemory hstored :=
    literal_agrees hcontrol hbefore htext hfits hnonempty hroom hnode hbranch hmemory hstored
      params value
  refuses _ _ name _ params hcontrol hmask hparameter hnonempty hunfit hbranch := by
    refine sessionDynamic_unfit hcontrol hmask hbranch hparameter (fun hshort => hnonempty ?_) ?_
      params
    · simpa [bracedKey] using congrArg List.length hshort
    · have hlength : (bracedKey name).length = name.length + 2 := by
        simp [bracedKey, CString.length]
      rw [hlength]
      exact hunfit
  masked limits parameters output key fallback s hcompile hcontrol hnode hmemory hreadable := by
    obtain ⟨hparameters, hmask⟩ := compileNode_mask hcompile
    have hfound : sessionParameter session node key =
        findParameter (parameters.filterMap id) key := by
      rw [sessionParameter, hnode, hparameters]
    rw [sessionInteger_asks hmemory hreadable fallback, hmask, hfound, hcontrol]
    constructor
    · rintro ⟨other, default, hother, hsubstituted⟩
      rw [Option.some.injEq, Prod.mk.injEq] at hother
      rwa [hother.1]
    · exact fun hsubstituted => ⟨key, fallback, rfl, hsubstituted⟩
  unmasked limits parameters output hcompile hnone := by
    by_contra hmask
    obtain ⟨key, fallback, hcontrol, -⟩ := (compileNode_mask hcompile).2.mp hmask
    rw [hnone] at hcontrol
    cases hcontrol
  valid _ _ _ hcompile := compileNode_valid hcompile

end Agreement

/-! ## A key that does not fit -/

/-- Numbers of one digit. -/
def digitNumbers : SessionNumbers Int where
  isfinite _ := true
  format _ := []
  toInt value := some value
  strtod
    | [] => none
    | byte :: _ => if 48 ≤ byte ∧ byte ≤ 57 then some ((byte.toNat : Int) - 48, 1) else none

/-- A store that holds the text `5` under every key. -/
def fiveHooks : ValueHooks Unit where
  valueGet _ _ capacity :=
    if 1 < capacity then ⟨.ok, 1, [53, 0]⟩ else ⟨.bufferTooSmall, 1, []⟩
  valueContains _ _ := some true
  valueSet _ _ _ := none
  setBytes := none

/-- Limits that are admitted. -/
def smallTree : TreeConfig := ⟨8, 8, 8, 64, 1000⟩

/-- The parameters of a `Retry` with a text for its attempts. -/
def retryParameters (text : Bytes) : List (Option (LeafParameter Int)) :=
  withParameter [] [] "num_attempts" text

/-- The key `k`. -/
def shortKey : CString := ⟨[107], by decide⟩

/-- A session with this `Retry`, whose values have at most two bytes. -/
def smallSession : SessionImpl Int 1 where
  config := ⟨smallTree, 2, 2, by decide, by decide, by decide, by decide⟩
  nodes _ :=
    { tree := { parentIndex := none, kind := .retry, limit := 3,
                dynamicParameterMask := { limit := true } }
      action := CString.literal "Retry"
      parameters := (retryParameters (bracedKey shortKey)).filterMap id }

/-- Its state before the first tick. -/
def smallState : SessionState Unit 1 :=
  ⟨(), fun _ => [], [], ⟨[], 0, fun _ => ⟨0, 0, false⟩⟩, fun _ => {}, 1, []⟩

theorem fiveHooks_stores (name : CString) : fiveHooks.Stores () name [53] where
  empty hnil := by cases hnil
  query _ := rfl
  size := rfl
  read capacity hcapacity := by
    have hroom : 1 < capacity := hcapacity
    exact if_pos hroom

/-- `5` is accepted as a literal, and as the value of a key it is refused. -/
theorem literal_without_key :
    ((∃ output, praktorC11CompileNode digitNumbers smallTree (CString.literal "Retry")
        (retryParameters [53]) 1 none = .ok output ∧ Fixes .retry output 5) ∧
      ¬ Braced [53] ∧ [53].length ≤ smallSession.config.maxValueBytes ∧
      smallSession.config.tree = smallTree ∧ shortKey.bytes ≠ [] ∧
      praktorC11CompileNode digitNumbers smallTree (CString.literal "Retry")
        (retryParameters (bracedKey shortKey)) 1 none = .ok (smallSession.nodes 0, false) ∧
      (smallState.state 0).branch = false ∧ none ∉ smallState.fresh ∧
      fiveHooks.Stores smallState.store shortKey [53]) ∧
    (on (sessionDynamic digitNumbers fiveHooks smallSession none 0 ⟨0, 0⟩) smallState).1 =
      .error .enobufs := by
  refine ⟨⟨?_, by decide, by decide, rfl, by decide, by decide +kernel, rfl, nofun,
    fiveHooks_stores _⟩, by decide +kernel⟩
  refine ⟨⟨{ tree := { parentIndex := none, kind := .retry, limit := 5 }
             action := CString.literal "Retry"
             parameters := (retryParameters [53]).filterMap id }, false⟩, by decide +kernel, ?_⟩
  exact .inl ⟨rfl, rfl, rfl, rfl⟩

end Praktor.Session
