/-
# What an expression means

The value of an expression for a host that always answers and whose answers do not change.
Every expression has a value here; `Defined` says of a part of an expression that its number
converts, its method exists, its relational operands are numbers and the texts it reads are
within the limit.
-/

import Praktor.Expressions.Evaluator

namespace Praktor.Expressions

open Praktor.Data Praktor.Math

/-- A host whose calls succeed and depend on nothing but their arguments.  A handle is known by
the place of its `regex_compile` in the history. -/
structure PureHost (N : Type) where
  resolve : Bytes → ExpressionValue N
  search : Bytes → Bytes → Bool
  resolveHook : List HostEvent → Bytes → Nat → ResolveReply N
  regex : RegexHooks
  valid : ∀ path, resolve path ≠ .invalid
  resolves : ∀ history path limit, (resolveHook history path limit).status = .ok ∧
    (resolveHook history path limit).value = resolve path
  compiles : ∀ history pattern, (regex.compile history pattern).status = .ok ∧
    (regex.compile history pattern).stored = true
  searches : ∀ (history : List HostEvent) (call : Nat) (pattern text : Bytes),
    history[call]? = some (.compiled call pattern true) →
      (regex.search history call text).status = .ok ∧
        (regex.search history call text).matched = search pattern text

/-- The callbacks of the host. -/
def PureHost.host {N : Type} (pure : PureHost N) : ExpressionHost N :=
  ⟨some pure.resolveHook, some pure.regex.compile, some pure.regex.search, true⟩

section Semantics

variable (doubles : Doubles) (host : PureHost doubles.Number) (limits : ExpressionLimits)

/-- The parameters of an evaluation with a pure host. -/
abbrev PureHost.context : Context := ⟨doubles, ⟨some host.resolveHook, some host.regex⟩, limits⟩

/-- The values of operands. -/
abbrev Operand : Type := Content doubles.Number

/-! ## Values -/

/-- The value of a leaf. -/
def Leaf.value : Leaf → Operand doubles
  | .variable path => .value (host.resolve path)
  | .string text => .value (.string text)
  | .number text => .value (.number (doubles.strtod text).1)
  | .regex pattern => .regex pattern
  | .boolean value => .value (.boolean value)

/-- The answer of a method. -/
def Method.answer (kind : Method) (receiver argument : Operand doubles) : Bool :=
  let ctx := host.context doubles limits
  let text := contentText ctx receiver
  let other := contentText ctx argument
  match kind with
  | .includes => decide (other <:+: text)
  | .startsWith => decide (other <+: text)
  | .endsWith => decide (other <:+ text)
  | .test =>
      match receiver with
      | .regex pattern => host.search pattern other
      | _ => host.search text other

/-- The answer of `==`. -/
def equalContents (left right : Operand doubles) : Bool :=
  let ctx := host.context doubles limits
  match asNumber ctx left, asNumber ctx right with
  | some a, some b => doubles.near a b
  | _, _ =>
      if isNull ctx left || isNull ctx right then isNull ctx left && isNull ctx right
      else decide (contentText ctx left = contentText ctx right)

/-- The answer of a binary operator. -/
def BinaryOp.answer (op : BinaryOp) (left right : Operand doubles) : Bool :=
  let ctx := host.context doubles limits
  match op with
  | .or => truth ctx left || truth ctx right
  | .and => truth ctx left && truth ctx right
  | .equal => equalContents doubles host limits left right
  | .notEqual => !equalContents doubles host limits left right
  | op => compareNumbers ctx op ((asNumber ctx left).getD doubles.zero)
      ((asNumber ctx right).getD doubles.zero)

/-- The value of an expression, with both operands of every operator. -/
def Tree.value : Tree → Operand doubles
  | .leaf part => part.value doubles host
  | .group inner => inner.value
  | .call receiver name argument =>
      .value (.boolean (((Method.ofName name).getD .includes).answer doubles host limits
        receiver.value argument.value))
  | .not operand => .value (.boolean (!truth (host.context doubles limits) operand.value))
  | .binary op left right =>
      .value (.boolean (op.answer doubles host limits left.value right.value))

/-! ## Conditions -/

/-- The parts of an expression. -/
def Tree.parts : Tree → List Tree
  | .leaf part => [.leaf part]
  | .group inner => .group inner :: inner.parts
  | .call receiver name argument =>
      .call receiver name argument :: (receiver.parts ++ argument.parts)
  | .not operand => .not operand :: operand.parts
  | .binary op left right => .binary op left right :: (left.parts ++ right.parts)

/-- A number token converts. -/
def Tree.NumberConverts : Tree → Prop
  | .leaf (.number text) => (doubles.strtod text).2.1 ≠ 0 ∧ (doubles.strtod text).2.2 = false
  | _ => True

/-- A method is one of the four. -/
def Tree.MethodKnown : Tree → Prop
  | .call _ name _ => ∃ kind, Method.ofName name = some kind
  | _ => True

/-- The operands of a relational operator convert to numbers. -/
def Tree.OperandsConvert : Tree → Prop
  | .binary op left right => op.level = .comparison →
      (∃ a, asNumber (host.context doubles limits) (left.value doubles host limits) = some a) ∧
      ∃ b, asNumber (host.context doubles limits) (right.value doubles host limits) = some b
  | _ => True

/-- The text of an operand is within the limit. -/
def TextFits (content : Operand doubles) : Prop :=
  (contentText (host.context doubles limits) content).length ≤ limits.maxStringBytes

/-- Two operands that are compared as texts. -/
def ComparedAsTexts (left right : Operand doubles) : Prop :=
  let ctx := host.context doubles limits
  ((asNumber ctx left).isNone = true ∨ (asNumber ctx right).isNone = true) ∧
    isNull ctx left = false ∧ isNull ctx right = false

instance (left right : Operand doubles) :
    Decidable (ComparedAsTexts doubles host limits left right) :=
  inferInstanceAs (Decidable ((_ ∨ _) ∧ _ ∧ _))

/-- The texts that a part holds or reads are within the limit. -/
def Tree.TextsFit : Tree → Prop
  | .leaf (.variable path) => ∀ text, host.resolve path = .string text →
      text.length ≤ limits.maxStringBytes
  | .leaf (.string text) => text.length ≤ limits.maxStringBytes ∧ text.length ≠ sizeMax
  | .call receiver _ argument => TextFits doubles host limits (receiver.value doubles host limits) ∧
      TextFits doubles host limits (argument.value doubles host limits)
  | .binary op left right => op.level = .equality →
      ComparedAsTexts doubles host limits (left.value doubles host limits)
        (right.value doubles host limits) →
      TextFits doubles host limits (left.value doubles host limits) ∧
        TextFits doubles host limits (right.value doubles host limits)
  | _ => True

/-- The evaluation of a part succeeds when that of its operands does. -/
structure Tree.Defined (tree : Tree) : Prop where
  number : tree.NumberConverts doubles
  method : tree.MethodKnown
  operands : tree.OperandsConvert doubles host limits
  texts : tree.TextsFit doubles host limits

/-! ## The algebra of the evaluator -/

instance (content : Operand doubles) : Decidable (TextFits doubles host limits content) :=
  inferInstanceAs (Decidable (_ ≤ _))

/-- The values that the evaluator computes, one part at a time. -/
def contents : Algebra (Operand doubles) where
  leaf part :=
    match part with
    | .variable path =>
        match host.resolve path with
        | .string text =>
            if text.length ≤ limits.maxStringBytes then some (.value (.string text)) else none
        | value => some (.value value)
    | .string text =>
        if text.length ≤ limits.maxStringBytes ∧ text.length ≠ sizeMax then
          some (.value (.string text))
        else none
    | .number text =>
        if (doubles.strtod text).2.1 ≠ 0 ∧ (doubles.strtod text).2.2 = false then
          some (.value (.number (doubles.strtod text).1))
        else none
    | .regex pattern => some (.regex pattern)
    | .boolean value => some (.value (.boolean value))
  group content := content
  call receiver name argument :=
    (Method.ofName name).bind fun kind =>
      if TextFits doubles host limits receiver ∧ TextFits doubles host limits argument then
        some (.value (.boolean (kind.answer doubles host limits receiver argument)))
      else none
  not operand := .value (.boolean (!truth (host.context doubles limits) operand))
  binary op left right :=
    let ctx := host.context doubles limits
    let answer : Operand doubles := .value (.boolean (op.answer doubles host limits left right))
    match op.level with
    | .comparison =>
        if (asNumber ctx left).isSome && (asNumber ctx right).isSome then some answer else none
    | .equality =>
        if ComparedAsTexts doubles host limits left right →
            TextFits doubles host limits left ∧ TextFits doubles host limits right then some answer
        else none
    | _ => some answer

variable {doubles host limits}

theorem Tree.defined_iff (tree : Tree) : tree.Defined doubles host limits ↔
    tree.NumberConverts doubles ∧ tree.MethodKnown ∧ tree.OperandsConvert doubles host limits ∧
      tree.TextsFit doubles host limits :=
  ⟨fun hdefined => ⟨hdefined.number, hdefined.method, hdefined.operands, hdefined.texts⟩,
    fun ⟨hnumber, hmethod, hoperands, htexts⟩ => ⟨hnumber, hmethod, hoperands, htexts⟩⟩

theorem contents_leaf_iff (part : Leaf) (content : Operand doubles) :
    (contents doubles host limits).leaf part = some content ↔
      (Tree.leaf part).Defined doubles host limits ∧ part.value doubles host = content := by
  rw [Tree.defined_iff]
  match part with
  | .variable path =>
      simp only [contents, Tree.NumberConverts, Tree.MethodKnown, Tree.OperandsConvert,
        Tree.TextsFit, Leaf.value]
      cases hvalue : host.resolve path <;> simp
  | .string text =>
      simp [contents, Tree.NumberConverts, Tree.MethodKnown, Tree.OperandsConvert, Tree.TextsFit,
        Leaf.value]
  | .number text =>
      simp [contents, Tree.NumberConverts, Tree.MethodKnown, Tree.OperandsConvert, Tree.TextsFit,
        Leaf.value]
  | .regex pattern =>
      simp [contents, Tree.NumberConverts, Tree.MethodKnown, Tree.OperandsConvert, Tree.TextsFit,
        Leaf.value]
  | .boolean value =>
      simp [contents, Tree.NumberConverts, Tree.MethodKnown, Tree.OperandsConvert, Tree.TextsFit,
        Leaf.value]

theorem contents_call_iff (receiver argument : Tree) (name : Bytes) (content : Operand doubles) :
    (contents doubles host limits).call (receiver.value doubles host limits) name
        (argument.value doubles host limits) = some content ↔
      (Tree.call receiver name argument).Defined doubles host limits ∧
        (Tree.call receiver name argument).value doubles host limits = content := by
  rw [Tree.defined_iff]
  simp only [contents, Tree.NumberConverts, Tree.MethodKnown, Tree.OperandsConvert, Tree.TextsFit,
    Tree.value]
  cases Method.ofName name with
  | none => simp
  | some kind => simp

theorem contents_binary_iff (op : BinaryOp) (left right : Tree) (content : Operand doubles) :
    (contents doubles host limits).binary op (left.value doubles host limits)
        (right.value doubles host limits) = some content ↔
      (Tree.binary op left right).Defined doubles host limits ∧
        (Tree.binary op left right).value doubles host limits = content := by
  rw [Tree.defined_iff]
  simp only [contents, Tree.NumberConverts, Tree.MethodKnown, Tree.OperandsConvert, Tree.TextsFit,
    Tree.value]
  cases op.level with
  | or => simp
  | and => simp
  | equality => simp
  | comparison => simp [Option.isSome_iff_exists]

/-- The evaluator computes the value of an expression exactly when all its parts are
defined. -/
theorem Tree.eval_contents_iff (tree : Tree) (content : Operand doubles) :
    tree.eval (contents doubles host limits) = some content ↔
      (∀ part ∈ tree.parts, part.Defined doubles host limits) ∧
        tree.value doubles host limits = content := by
  induction tree generalizing content with
  | leaf part =>
      rw [eval, contents_leaf_iff, parts, List.forall_mem_singleton]
      rfl
  | group inner ih =>
      have hgroup : (Tree.group inner).Defined doubles host limits := by
        simp [defined_iff, NumberConverts, MethodKnown, OperandsConvert, TextsFit]
      rw [eval, Option.map_eq_some_iff, parts, List.forall_mem_cons]
      simp only [ih, hgroup, true_and]
      constructor
      · rintro ⟨_, hinner, hsame⟩
        exact ⟨hinner.1, hinner.2.trans hsame⟩
      · exact fun hinner => ⟨content, hinner, rfl⟩
  | call receiver name argument hreceiver hargument =>
      have hcall := @contents_call_iff doubles host limits receiver argument name content
      rw [eval, parts, List.forall_mem_cons, List.forall_mem_append]
      simp only [Option.bind_eq_bind, Option.bind_eq_some_iff, hreceiver, hargument]
      constructor
      · rintro ⟨_, ⟨hbefore, rfl⟩, _, ⟨hafter, rfl⟩, hvalue⟩
        obtain ⟨hself, hsame⟩ := hcall.mp hvalue
        exact ⟨⟨hself, hbefore, hafter⟩, hsame⟩
      · rintro ⟨⟨hself, hbefore, hafter⟩, hsame⟩
        exact ⟨_, ⟨hbefore, rfl⟩, _, ⟨hafter, rfl⟩, hcall.mpr ⟨hself, hsame⟩⟩
  | not operand ih =>
      have hnot : (Tree.not operand).Defined doubles host limits := by
        simp [defined_iff, NumberConverts, MethodKnown, OperandsConvert, TextsFit]
      rw [eval, Option.map_eq_some_iff, parts, List.forall_mem_cons]
      simp only [ih, hnot, true_and]
      constructor
      · rintro ⟨_, ⟨hparts, rfl⟩, hsame⟩
        exact ⟨hparts, hsame⟩
      · rintro ⟨hparts, hsame⟩
        exact ⟨_, ⟨hparts, rfl⟩, hsame⟩
  | binary op left right hleft hright =>
      have hbinary := @contents_binary_iff doubles host limits op left right content
      rw [eval, parts, List.forall_mem_cons, List.forall_mem_append]
      simp only [Option.bind_eq_bind, Option.bind_eq_some_iff, hleft, hright]
      constructor
      · rintro ⟨_, ⟨hbefore, rfl⟩, _, ⟨hafter, rfl⟩, hvalue⟩
        obtain ⟨hself, hsame⟩ := hbinary.mp hvalue
        exact ⟨⟨hself, hbefore, hafter⟩, hsame⟩
      · rintro ⟨⟨hself, hbefore, hafter⟩, hsame⟩
        exact ⟨_, ⟨hbefore, rfl⟩, _, ⟨hafter, rfl⟩, hbinary.mpr ⟨hself, hsame⟩⟩

end Semantics

end Praktor.Expressions
