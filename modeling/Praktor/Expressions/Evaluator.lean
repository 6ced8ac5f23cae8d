/-
# The expression evaluator

`praktor_expression_evaluate` parses and evaluates in one descent.  The first failure is
latched in the parser: later tokens are not read and no operand is computed any more, but
the functions on the way out still release what they hold.

The room of a function is the number of levels that `enter` still admits, which is
`max_depth` less the `depth` of the parser.  Nothing is known about a host but its replies,
and these may depend on all that happened before.
-/

import Mathlib
import Praktor.Expressions.Grammar

namespace Praktor.Expressions

open Praktor.Data Praktor.Math

/-- A status code: one that the sources name, or another one of a host. -/
inductive EvalStatus
  | salts (status : Salts)
  | other (code : Int)
  deriving DecidableEq, Repr

/-- `SALTS_OK`. -/
def EvalStatus.ok : EvalStatus := .salts .ok

/-- What the C library computes with doubles. -/
structure Doubles where
  Number : Type
  /-- `strtod`: the value, the number of bytes read and whether it is out of range. -/
  strtod : Bytes → Number × Nat × Bool
  zero : Number
  one : Number
  /-- Neither NaN nor zero. -/
  isTrue : Number → Bool
  /-- `fabs(a - b) < 1e-12`. -/
  near : Number → Number → Bool
  less : Number → Number → Bool
  lessEqual : Number → Number → Bool
  /-- The format `{:.6f}`. -/
  format : Number → Bytes

/-- `praktor_expression_value`, where `invalid` is a kind outside of the enumeration or a
string without text. -/
inductive ExpressionValue (N : Type)
  | null
  | boolean (value : Bool)
  | number (value : N)
  | string (text : Bytes)
  | invalid
  deriving DecidableEq

/-- `eval_value`: a public value or a regular expression. -/
inductive Content (N : Type)
  | value (value : ExpressionValue N)
  | regex (pattern : Bytes)
  deriving DecidableEq

/-- `eval_value`, with the host call that its text or its handle comes from. -/
structure EvalValue (N : Type) where
  content : Content N
  call : Option Nat

/-- `eval_value result = {0}`. -/
def EvalValue.blank {N : Type} : EvalValue N := ⟨.value .null, none⟩

/-- `boolean_value`. -/
def booleanValue {N : Type} (value : Bool) : EvalValue N := ⟨.value (.boolean value), none⟩

/-! ## The host -/

/-- What an evaluation does outside of itself, and its failures. -/
inductive HostEvent
  | resolved (call : Nat) (path : Bytes) (stored : Bool)
  | compiled (call : Nat) (pattern : Bytes) (stored : Bool)
  | searched (call : Nat) (text : Bytes)
  | destroyed (call : Nat)
  | released (call : Nat)
  | failed (status : EvalStatus)
  deriving DecidableEq

/-- A reply of `resolve`. -/
structure ResolveReply (N : Type) where
  status : EvalStatus
  value : ExpressionValue N
  message : Option Bytes

/-- A reply of `regex_compile`. -/
structure CompileReply where
  status : EvalStatus
  stored : Bool
  message : Option Bytes

/-- A reply of `regex_search`. -/
structure SearchReply where
  status : EvalStatus
  matched : Bool
  message : Option Bytes

/-- `regex_compile` and `regex_search`. -/
structure RegexHooks where
  compile : List HostEvent → Bytes → CompileReply
  search : List HostEvent → Nat → Bytes → SearchReply

/-- `praktor_expression_host`. -/
structure ExpressionHost (N : Type) where
  resolve : Option (List HostEvent → Bytes → Nat → ResolveReply N)
  regexCompile : Option (List HostEvent → Bytes → CompileReply)
  regexSearch : Option (List HostEvent → Nat → Bytes → SearchReply)
  regexDestroy : Bool

/-- The callbacks of a host whose regex tuple is entirely absent or entirely supplied. -/
structure Hooks (N : Type) where
  resolve : Option (List HostEvent → Bytes → Nat → ResolveReply N)
  regex : Option RegexHooks

/-- The check of the regex tuple. -/
def ExpressionHost.hooks {N : Type} (host : ExpressionHost N) : Option (Hooks N) :=
  match host.regexCompile, host.regexSearch, host.regexDestroy with
  | none, none, false => some ⟨host.resolve, none⟩
  | some compile, some search, true => some ⟨host.resolve, some ⟨compile, search⟩⟩
  | _, _, _ => none

/-- The callbacks of a host that may be missing. -/
def hostHooks {N : Type} : Option (ExpressionHost N) → Option (Hooks N)
  | none => some ⟨none, none⟩
  | some host => host.hooks

/-- `praktor_expression_limits`. -/
structure ExpressionLimits where
  maxInputBytes : Nat
  maxTokens : Nat
  maxDepth : Nat
  maxStringBytes : Nat
  deriving DecidableEq, Repr

/-- `EXPRESSION_MAX_DEPTH`. -/
def expressionMaxDepth : Nat := 128

/-- `praktor_expression_default_limits`. -/
def expressionDefaultLimits : ExpressionLimits := ⟨65536, 16384, expressionMaxDepth, 1048576⟩

/-! ## The parser -/

/-- `parser`. -/
structure Parser where
  lexer : Lexer
  token : Token
  status : EvalStatus
  error : Bytes
  allocations : AllocSchedule
  trace : List HostEvent

namespace Parser

/-- `fail`. -/
def fail (p : Parser) (status : Salts) (message : Bytes) : Parser :=
  { p with
    status := if p.status = .ok then .salts status else p.status
    error := if p.status = .ok then message else p.error
    trace := p.trace ++ [.failed (.salts status)] }

/-- A diagnostic in the place of the message of `fail`. -/
def explain (p : Parser) (message : Bytes) : Parser := { p with error := message }

/-- `host_result`, after the host wrote its message. -/
def hostResult (p : Parser) (status : EvalStatus) (message : Option Bytes) : Parser :=
  let p := p.explain (message.getD p.error)
  if status = .ok then p
  else { p with
    status := status
    error := if p.error = [] then ascii "Expression Host failed" else p.error
    trace := p.trace ++ [.failed status] }

/-- One allocation. -/
def allocate (p : Parser) : Bool × Parser :=
  (p.allocations.alloc.1.isSome, { p with allocations := p.allocations.alloc.2 })

/-- Something happens outside of the evaluator. -/
def record (p : Parser) (event : HostEvent) : Parser := { p with trace := p.trace ++ [event] }

/-- `next`. -/
def next (p : Parser) : Parser :=
  if p.status = .ok then
    match p.lexer.next (p.lexer.input.length + 1) with
    | .ok (token, lexer) => { p with token := token, lexer := lexer }
    | .error .noSpace => p.fail .enobufs (ascii "Invalid expression token")
    | .error (.unexpected position) =>
        (p.fail .einval (ascii "Invalid expression token")).explain
          (ascii "unexpected character in expression: " ++ (p.lexer.input[position]?).toList)
  else p

/-- `token_is` without a text. -/
def tokenIs (p : Parser) (kind : TokenKind) : Bool := p.status = .ok && p.token.kind = kind

/-- `token_is` for an operator. -/
def operatorIs (p : Parser) (text : Bytes) : Bool := p.status = .ok && p.token.isOperator text

/-- `take_token` without a text. -/
def take (p : Parser) (kind : TokenKind) : Option Parser :=
  if p.tokenIs kind then some (if kind = .finish then p else p.next) else none

/-- `take_token` for an operator. -/
def takeOperator (p : Parser) (text : Bytes) : Option Parser :=
  if p.operatorIs text then some p.next else none

/-- `require`. -/
def require (p : Parser) (kind : TokenKind) (message : Bytes) : Parser :=
  if p.status = .ok then
    match p.take kind with
    | some p => p
    | none => p.fail .einval message
  else p

end Parser

/-! ## Conversions -/

/-- The parameters of an evaluation. -/
structure Context where
  doubles : Doubles
  hooks : Hooks doubles.Number
  limits : ExpressionLimits

section Evaluator

variable (ctx : Context)

/-- The value of an operand. -/
abbrev Context.Value : Type := EvalValue ctx.doubles.Number

/-- `truth`. -/
def truth : Content ctx.doubles.Number → Bool
  | .regex _ => true
  | .value .null => false
  | .value (.boolean value) => value
  | .value (.number value) => ctx.doubles.isTrue value
  | .value (.string text) => !text.isEmpty
  | .value .invalid => false

/-- `as_number`. -/
def asNumber : Content ctx.doubles.Number → Option ctx.doubles.Number
  | .value (.number value) => some value
  | .value (.boolean value) => some (if value then ctx.doubles.one else ctx.doubles.zero)
  | .value (.string text) =>
      let text := text.takeWhile (· ≠ 0)
      let (value, read, _) := ctx.doubles.strtod text
      if read = 0 then none else if (text.drop read).all isSpace then some value else none
  | _ => none

/-- The text of a value. -/
def contentText : Content ctx.doubles.Number → Bytes
  | .value (.boolean value) => ascii (if value then "true" else "false")
  | .value (.string text) => text
  | .value (.number value) => ctx.doubles.format value
  | _ => []

/-- The allocation of `as_text`, which only numbers need. -/
def formatNumber (p : Parser) : Content ctx.doubles.Number → Bool × Parser
  | .value (.number _) => p.allocate
  | _ => (true, p)

/-- `as_text`: the text, when the status is `SALTS_OK`. -/
def asText (p : Parser) (content : Content ctx.doubles.Number) : Option Bytes × Parser :=
  let text := contentText ctx content
  let formatted := formatNumber ctx p content
  if formatted.1 then
    if text.length > ctx.limits.maxStringBytes then
      (none, formatted.2.fail .enobufs (ascii "Expression string limit exceeded"))
    else (some text, formatted.2)
  else (none, formatted.2.fail .enomem (ascii "Failed to format expression number"))

/-- The value is the null of a host or of no host. -/
def isNull : Content ctx.doubles.Number → Bool
  | .value .null => true
  | _ => false

/-- The branch of `equal_values` for texts. -/
def equalTexts (p : Parser) (left right : Content ctx.doubles.Number) : Bool × Parser :=
  match asText ctx p left with
  | (none, p) => (false, p)
  | (some leftText, p) =>
      match asText ctx p right with
      | (none, p) => (false, p)
      | (some rightText, p) => (leftText = rightText, p)

/-- `equal_values`. -/
def equalValues (p : Parser) (left right : Content ctx.doubles.Number) : Bool × Parser :=
  match asNumber ctx left, asNumber ctx right with
  | some a, some b => (ctx.doubles.near a b, p)
  | _, _ =>
      if isNull ctx left || isNull ctx right then (isNull ctx left && isNull ctx right, p)
      else equalTexts ctx p left right

/-- The relational operators on numbers. -/
def compareNumbers (op : BinaryOp) (a b : ctx.doubles.Number) : Bool :=
  match op with
  | .less => ctx.doubles.less a b
  | .greater => ctx.doubles.less b a
  | .lessEqual => ctx.doubles.lessEqual a b
  | _ => ctx.doubles.lessEqual b a

variable {ctx}

/-- `clear_value`. -/
def clearValue (p : Parser) (value : ctx.Value) : Parser :=
  match value.content, value.call with
  | .regex _, some call => p.record (.destroyed call)
  | .value (.string _), some call => p.record (.released call)
  | _, _ => p

variable (ctx)

/-! ## Operands -/

/-- `compile_regex`: whether it returned `SALTS_OK`, and the handle that was stored. -/
def compileRegex (p : Parser) (pattern : Bytes) : Bool × Option Nat × Parser :=
  match ctx.hooks.regex with
  | none => (false, none, p.fail .enotsup (ascii "Expression regex Host is required"))
  | some hooks =>
      let call := p.trace.length
      let reply := hooks.compile p.trace pattern
      let p := (p.record (.compiled call pattern reply.stored)).hostResult reply.status reply.message
      if reply.status = .ok && !reply.stored then
        (false, none, p.fail .eio (ascii "Expression regex Host returned no handle"))
      else (reply.status = .ok, if reply.stored then some call else none, p)

/-- The branch of `primary` for a variable. -/
def resolveVariable (p : Parser) : ctx.Value × Parser :=
  match ctx.hooks.resolve with
  | none => (.blank, p.fail .enotsup (ascii "Expression variable Host is required"))
  | some resolve =>
      let call := p.trace.length
      let reply := resolve p.trace p.token.text ctx.limits.maxStringBytes
      let owned := match reply.value with
        | .string _ => true
        | _ => false
      let p := (p.record (.resolved call p.token.text owned)).hostResult reply.status reply.message
      let p :=
        match reply.value with
        | .invalid =>
            if p.status = .ok then
              p.fail .eio (ascii "Expression variable Host returned an invalid value")
            else p
        | .string text =>
            if p.status = .ok && text.length > ctx.limits.maxStringBytes then
              p.fail .enobufs (ascii "Expression string limit exceeded")
            else p
        | _ => p
      (⟨.value reply.value, if owned then some call else none⟩, p)

/-- The branch of `primary` for a string, with `praktor_expression_value_copy_string`. -/
def copyString (p : Parser) : ctx.Value × Parser :=
  let message := ascii "Cannot copy expression string within its limit"
  if p.token.text.length > ctx.limits.maxStringBytes || p.token.text.length = sizeMax then
    (.blank, p.fail .enobufs message)
  else if p.allocate.1 then (⟨.value (.string p.token.text), none⟩, p.allocate.2)
  else (.blank, p.allocate.2.fail .enomem message)

/-- `primary`; `nested` is `parse_expression`. -/
def primary (nested : Parser → ctx.Value × Parser) (p : Parser) : ctx.Value × Parser :=
  if p.status = .ok then
    match p.take .lparen with
    | some p =>
        let inner := nested p
        (inner.1, inner.2.require .rparen (ascii "expected ')' after expression"))
    | none =>
        match p.token.kind with
        | .variable => ((resolveVariable ctx p).1, (resolveVariable ctx p).2.next)
        | .string => ((copyString ctx p).1, (copyString ctx p).2.next)
        | .number =>
            let (value, read, outOfRange) := ctx.doubles.strtod p.token.text
            let p := if read = 0 || outOfRange then p.fail .einval (ascii "stod") else p
            (⟨.value (.number value), none⟩, p.next)
        | .regex =>
            let (_, handle, later) := compileRegex ctx p p.token.text
            match handle with
            | some call => (⟨.regex p.token.text, some call⟩, later.next)
            | none => (.blank, later.next)
        | .identifier =>
            if p.token.text = ascii "true" then (booleanValue true, p.next)
            else if p.token.text = ascii "false" then (booleanValue false, p.next)
            else (.blank, (p.fail .einval (ascii "unknown identifier")).explain
              (ascii "unknown identifier: " ++ p.token.text))
        | _ => (.blank, p.fail .einval (ascii "expected expression"))
  else (.blank, p)

/-- The methods. -/
inductive Method
  | includes
  | startsWith
  | endsWith
  | test
  deriving DecidableEq, Repr

/-- The method of a name. -/
def Method.ofName (name : Bytes) : Option Method :=
  if name = ascii "includes" then some .includes
  else if name = ascii "startsWith" then some .startsWith
  else if name = ascii "endsWith" then some .endsWith
  else if name = ascii "test" then some .test
  else none

/-- `host->regex_search`. -/
def searchRegex (p : Parser) (call : Nat) (text : Bytes) : ctx.Value × Parser :=
  match ctx.hooks.regex with
  | none => (.blank, p)
  | some hooks =>
      let reply := hooks.search p.trace call text
      (booleanValue reply.matched,
        (p.record (.searched call text)).hostResult reply.status reply.message)

/-- The branch of `method` for `test`. -/
def testMethod (p : Parser) (receiver : ctx.Value) (text other : Bytes) : ctx.Value × Parser :=
  match receiver.content, receiver.call with
  | .regex _, some call => searchRegex ctx p call other
  | _, _ =>
      let (compiled, handle, p) := compileRegex ctx p text
      match handle with
      | none => (.blank, p)
      | some call =>
          let found := if compiled then searchRegex ctx p call other else (.blank, p)
          (found.1, found.2.record (.destroyed call))

/-- `method`. -/
def method (p : Parser) (receiver : ctx.Value) (name : Bytes) (argument : ctx.Value)
    (hasArgument : Bool) : ctx.Value × Parser :=
  match Method.ofName name with
  | none => (.blank, (p.fail .einval (ascii "unsupported method")).explain
      (ascii "unsupported method: " ++ name))
  | some kind =>
      if hasArgument then
        match asText ctx p receiver.content with
        | (none, p) => (.blank, p)
        | (some text, p) =>
            match asText ctx p argument.content with
            | (none, p) => (.blank, p)
            | (some other, p) =>
                match kind with
                | .includes => (booleanValue (decide (other <:+: text)), p)
                | .startsWith => (booleanValue (decide (other <+: text)), p)
                | .endsWith => (booleanValue (decide (other <:+ text)), p)
                | .test => testMethod ctx p receiver text other
      else (.blank, (p.fail .einval (ascii "method expects 1 argument")).explain
        (name ++ ascii "() expects 1 argument"))

/-- The end of a round of `postfix`, after the argument. -/
def callMethod (value : ctx.Value) (name : Bytes) (hasArgument : Bool)
    (argument : ctx.Value × Parser) : ctx.Value × Parser :=
  let p := argument.2.require .rparen (ascii "expected ')' after arguments")
  let result :=
    if p.status = .ok then method ctx p value name argument.1 hasArgument else (.blank, p)
  (result.1, clearValue (clearValue result.2 argument.1) value)

/-- A round of `postfix` after the name of the method. -/
def callArgument (nested : Parser → ctx.Value × Parser) (value : ctx.Value) (name : Bytes)
    (p : Parser) : ctx.Value × Parser :=
  let p := p.require .lparen (ascii "expected '(' after method name")
  let hasArgument := decide (p.status = .ok) && !p.tokenIs .rparen
  callMethod ctx value name hasArgument (if hasArgument then nested p else (.blank, p))

/-- One round of the loop of `postfix`. -/
def callRound (nested : Parser → ctx.Value × Parser) (value : ctx.Value) (p : Parser) :
    Option (ctx.Value × Parser) :=
  match p.take .dot with
  | none => none
  | some p =>
      if p.tokenIs .identifier then
        if p.allocate.1 then
          some (callArgument ctx nested value p.token.text p.allocate.2.next)
        else some (value, p.allocate.2.fail .enomem (ascii "Cannot copy expression method"))
      else some (value, p.fail .einval (ascii "expected method name after '.'"))

/-- `postfix`. -/
def parsePostfix (nested : Parser → ctx.Value × Parser) (p : Parser) : ctx.Value × Parser :=
  let first := primary ctx nested p
  repeatStep (callRound ctx nested) (first.2.lexer.remaining + 1) first.1 first.2

/-! ## Operators -/

/-- One round of the loop of `comparison`. -/
def comparisonRound (operand : Parser → ctx.Value × Parser) (value : ctx.Value) (p : Parser) :
    Option (ctx.Value × Parser) :=
  if p.tokenIs .operator then
    match p.token.binaryOp with
    | none => none
    | some op =>
        if op.level = .comparison then
          let right := operand p.next
          let p := right.2
          let result :=
            if p.status = .ok then
              match asNumber ctx value.content, asNumber ctx right.1.content with
              | some a, some b => (compareNumbers ctx op a b, p)
              | _, _ => (false, p.fail .einval (ascii "comparison operands must be numeric"))
            else (false, p)
          some (booleanValue result.1, clearValue (clearValue result.2 right.1) value)
        else none
  else none

/-- `comparison`. -/
def comparison (unary : Parser → ctx.Value × Parser) (p : Parser) : ctx.Value × Parser :=
  let first := unary p
  repeatStep (comparisonRound ctx unary) (first.2.lexer.remaining + 1) first.1 first.2

/-- One round of the loop of `equality`. -/
def equalityRound (operand : Parser → ctx.Value × Parser) (value : ctx.Value) (p : Parser) :
    Option (ctx.Value × Parser) :=
  if p.tokenIs .operator then
    match p.token.binaryOp with
    | none =>
        if p.operatorIs (ascii "===") || p.operatorIs (ascii "!==") then
          some (value, p.fail .einval (ascii "strict equality is not supported"))
        else none
    | some op =>
        if op.level = .equality then
          let right := operand p.next
          let p := right.2
          let result :=
            if p.status = .ok then equalValues ctx p value.content right.1.content else (false, p)
          some (booleanValue (if op = .equal then result.1 else !result.1),
            clearValue (clearValue result.2 right.1) value)
        else none
  else none

/-- `equality`. -/
def equality (comparison : Parser → ctx.Value × Parser) (p : Parser) : ctx.Value × Parser :=
  let first := comparison p
  repeatStep (equalityRound ctx comparison) (first.2.lexer.remaining + 1) first.1 first.2

/-- One round of the loop of `logical`. -/
def logicalRound (isOr : Bool) (operand : Parser → ctx.Value × Parser) (value : ctx.Value)
    (p : Parser) : Option (ctx.Value × Parser) :=
  match p.takeOperator (ascii (if isOr then "||" else "&&")) with
  | none => none
  | some p =>
      let right := operand p
      let result :=
        if isOr then truth ctx value.content || truth ctx right.1.content
        else truth ctx value.content && truth ctx right.1.content
      some (booleanValue result, clearValue (clearValue right.2 right.1) value)

/-- `logical`. -/
def logical (isOr : Bool) (operand : Parser → ctx.Value × Parser) (p : Parser) :
    ctx.Value × Parser :=
  let first := operand p
  repeatStep (logicalRound ctx isOr operand) (first.2.lexer.remaining + 1) first.1 first.2

/-- `parse_expression` after `enter`; `unary` is `parse_unary` there. -/
def entered (unary : Parser → ctx.Value × Parser) : Parser → ctx.Value × Parser :=
  logical ctx true (logical ctx false (equality ctx (comparison ctx unary)))

/-- `enter`, and what is parsed there when it succeeds. -/
def enter (inside : Option (Parser → ctx.Value × Parser)) (p : Parser) : ctx.Value × Parser :=
  if p.status = .ok then
    match inside with
    | none => (.blank, p.fail .enobufs (ascii "Expression nesting limit exceeded"))
    | some inside => inside p
  else (.blank, p)

/-- `parse_unary`; `deeper` is `parse_unary` after `enter`. -/
def unaryWith (deeper : Option (Parser → ctx.Value × Parser)) (p : Parser) : ctx.Value × Parser :=
  match p.takeOperator (ascii "!") with
  | some p =>
      enter ctx (deeper.map fun deeper p =>
        let operand := deeper p
        (booleanValue (!truth ctx operand.1.content), clearValue operand.2 operand.1)) p
  | none => parsePostfix ctx (enter ctx (deeper.map (entered ctx))) p

/-- `parse_unary`, with the room for further levels. -/
def parseUnary : Nat → Parser → ctx.Value × Parser
  | 0 => unaryWith ctx none
  | room + 1 => unaryWith ctx (some (parseUnary room))

/-- `parse_expression`, with the room for its own level and further ones. -/
def parseExpression : Nat → Parser → ctx.Value × Parser
  | 0 => enter ctx none
  | room + 1 => enter ctx (some (entered ctx (parseUnary ctx room)))

/-! ## The whole evaluation -/

/-- The first scan, with the number of tokens that may still be read. -/
def scanTokens : Nat → Parser → Parser
  | 0, p => p.fail .enobufs (ascii "Expression token limit exceeded")
  | room + 1, p =>
      if p.next.status = .ok && decide (p.next.token.kind ≠ .finish) then scanTokens room p.next
      else p.next

/-- What an evaluation returns; `published` is the new content of `*out` and `*truthy`, and
`moved` the host call that the text of `*out` comes from. -/
structure Evaluation (N : Type) where
  status : EvalStatus
  published : Option (ExpressionValue N × Bool)
  moved : Option Nat
  error : Bytes
  trace : List HostEvent

/-- The public value of an operand. -/
def Content.publicValue {N : Type} : Content N → ExpressionValue N
  | .value content => content
  | .regex _ => .null

/-- A refusal before anything is read. -/
def Evaluation.refuse {N : Type} (status : Salts) (message : Bytes) : Evaluation N :=
  ⟨.salts status, none, none, message, [.failed (.salts status)]⟩

/-- The call that the text of a public value comes from. -/
def EvalValue.textCall {N : Type} (value : EvalValue N) : Option Nat :=
  match value.content with
  | .value (.string _) => value.call
  | _ => none

/-- `memset(&value.public_value, 0, sizeof(value.public_value))`. -/
def EvalValue.withoutPublic {N : Type} (value : EvalValue N) : EvalValue N :=
  match value.content with
  | .value _ => .blank
  | .regex _ => value

/-- The end of `praktor_expression_evaluate`. -/
def finishEvaluation (value : ctx.Value) (p : Parser) : Evaluation ctx.doubles.Number :=
  if p.status = .ok then
    ⟨p.status, some (value.content.publicValue, truth ctx value.content), value.textCall, p.error,
      (clearValue p value.withoutPublic).trace⟩
  else ⟨p.status, none, none, p.error, (clearValue p value).trace⟩

/-- The second scan. -/
def evaluateTokens (text : Bytes) (p : Parser) : Evaluation ctx.doubles.Number :=
  let value := parseExpression ctx ctx.limits.maxDepth { p with lexer := .init text }.next
  finishEvaluation ctx value.1 (value.2.require .finish (ascii "unexpected trailing tokens"))

end Evaluator

/-- The parser before the first scan. -/
def Parser.start (text : Bytes) (allocations : AllocSchedule) : Parser :=
  ⟨.init text, ⟨.variable, 0, []⟩, .ok, [], allocations, []⟩

/-- `praktor_expression_evaluate`. -/
def praktorExpressionEvaluate (doubles : Doubles) (text : Bytes)
    (host : Option (ExpressionHost doubles.Number)) (limits : Option ExpressionLimits)
    (allocations : AllocSchedule) : Evaluation doubles.Number :=
  let limits := limits.getD expressionDefaultLimits
  match hostHooks host with
  | none => .refuse .einval (ascii "Invalid expression evaluation arguments")
  | some hooks =>
      if limits.maxTokens = 0 || limits.maxDepth = 0 || limits.maxDepth > expressionMaxDepth then
        .refuse .einval (ascii "Invalid expression evaluation arguments")
      else if text.length > limits.maxInputBytes || text.length = sizeMax then
        .refuse .enobufs (ascii "Expression input limit exceeded")
      else if allocations.alloc.1.isNone then
        .refuse .enomem (ascii "Cannot allocate expression scratch")
      else
        let p := scanTokens limits.maxTokens (.start text allocations.alloc.2)
        if p.status = .ok then evaluateTokens ⟨doubles, hooks, limits⟩ text p
        else finishEvaluation ⟨doubles, hooks, limits⟩ .blank p

end Praktor.Expressions
