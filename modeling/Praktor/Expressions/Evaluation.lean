/-
# The evaluator implements its grammar

On a pure host each function of the evaluator follows the reader of its level: it fails where
the reader finds nothing, and otherwise ends at the same token with the same value.  What the
readers find is known from the grammar, so the whole evaluation succeeds exactly on the
expressions within the limits whose parts are all defined.
-/

import Praktor.Expressions.Semantics

namespace Praktor.Expressions

open Praktor.Data Praktor.Math

/-! ## The parser without failures -/

/-- The tokens from the current one on. -/
def Ahead (p : Parser) : List Token → Prop
  | [] => p.token.kind = .finish
  | token :: rest => p.token = token ∧ token.kind ≠ .finish ∧ Lexes p.lexer rest

/-- Nothing failed so far, and these tokens are ahead. -/
structure Ready (p : Parser) (tokens : List Token) : Prop where
  status : p.status = .ok
  allocations : p.allocations = []
  within : p.lexer.Within
  ahead : Ahead p tokens

/-- A failure is latched. -/
def Failed (p : Parser) : Prop := p.status ≠ .ok

section Parser

variable {p : Parser} {token : Token} {tokens : List Token}

@[simp]
theorem failed_fail (status : Salts) (message : Bytes) :
    Failed (p.fail status message) ↔ Failed p ∨ status ≠ .ok := by
  by_cases hok : p.status = .ok
  · simp [Failed, Parser.fail, hok, EvalStatus.ok]
  · simp [Failed, Parser.fail, hok]

@[simp]
theorem failed_explain (message : Bytes) : Failed (p.explain message) ↔ Failed p := Iff.rfl

@[simp]
theorem failed_record (event : HostEvent) : Failed (p.record event) ↔ Failed p := Iff.rfl

@[simp]
theorem failed_clearValue {ctx : Context} (value : ctx.Value) :
    Failed (clearValue p value) ↔ Failed p := by
  unfold clearValue
  split <;> rfl

theorem Failed.next (hfailed : Failed p) : p.next = p := if_neg hfailed

theorem Failed.tokenIs (hfailed : Failed p) (kind : TokenKind) : p.tokenIs kind = false := by
  rw [Parser.tokenIs, decide_eq_false hfailed, Bool.false_and]

theorem Failed.take (hfailed : Failed p) (kind : TokenKind) : p.take kind = none := by
  rw [Parser.take, if_neg (by simp [hfailed.tokenIs])]

theorem Failed.takeOperator (hfailed : Failed p) (text : Bytes) : p.takeOperator text = none := by
  have hnot : p.operatorIs text = false := by
    rw [Parser.operatorIs, decide_eq_false hfailed, Bool.false_and]
  rw [Parser.takeOperator, if_neg (by simp [hnot])]

theorem Failed.require (hfailed : Failed p) (kind : TokenKind) (message : Bytes) :
    p.require kind message = p := if_neg hfailed

theorem Ready.tokenIs (hready : Ready p (token :: tokens)) (kind : TokenKind) :
    p.tokenIs kind = decide (token.kind = kind) := by
  rw [Parser.tokenIs, hready.status, hready.ahead.1]
  simp

theorem Ready.tokenIs_nil (hready : Ready p []) (kind : TokenKind) :
    p.tokenIs kind = decide (TokenKind.finish = kind) := by
  have hkind : p.token.kind = .finish := hready.ahead
  rw [Parser.tokenIs, hready.status, hkind]
  simp

theorem Ready.operatorIs (hready : Ready p (token :: tokens)) (text : Bytes) :
    p.operatorIs text = token.isOperator text := by
  rw [Parser.operatorIs, hready.status, hready.ahead.1]
  simp

theorem Ready.operatorIs_nil (hready : Ready p []) (text : Bytes) : p.operatorIs text = false := by
  have hkind : p.token.kind = .finish := hready.ahead
  simp [Parser.operatorIs, Token.isOperator, hkind]

/-- The next token is read from the lexer. -/
theorem ready_next (hstatus : p.status = .ok) (hallocations : p.allocations = [])
    (hwithin : p.lexer.Within) (hlexes : Lexes p.lexer tokens) :
    Ready p.next tokens ∧ p.next.trace = p.trace := by
  rw [Parser.next, if_pos hstatus]
  cases hlexes with
  | finish hnext hkind =>
      rw [hnext]
      exact ⟨⟨hstatus, hallocations, (Lexer.next_progress hwithin hnext).1, hkind⟩, rfl⟩
  | token hnext hkind hlater =>
      rw [hnext]
      exact ⟨⟨hstatus, hallocations, (Lexer.next_progress hwithin hnext).1, rfl, hkind, hlater⟩, rfl⟩

theorem Ready.next (hready : Ready p (token :: tokens)) :
    Ready p.next tokens ∧ p.next.trace = p.trace :=
  ready_next hready.status hready.allocations hready.within hready.ahead.2.2

/-- The loops have enough rounds for the tokens ahead. -/
theorem Ready.length_le (hready : Ready p tokens) :
    tokens.length ≤ p.lexer.remaining + 1 := by
  cases tokens with
  | nil => exact Nat.zero_le _
  | cons token tokens =>
      obtain ⟨-, -, hlexes⟩ := hready.ahead
      exact Nat.succ_le_succ (hlexes.length_le hready.within)

theorem Ready.take (hready : Ready p (token :: tokens)) {kind : TokenKind}
    (hkind : token.kind = kind) : p.take kind = some p.next := by
  have hfinish : kind ≠ .finish := hkind ▸ hready.ahead.2.1
  rw [Parser.take, hready.tokenIs, if_pos (by simp [hkind]), if_neg hfinish]

theorem Ready.take_ne (hready : Ready p (token :: tokens)) {kind : TokenKind}
    (hkind : token.kind ≠ kind) : p.take kind = none := by
  rw [Parser.take, hready.tokenIs, if_neg (by simp [hkind])]

theorem Ready.take_nil (hready : Ready p []) {kind : TokenKind} (hkind : kind ≠ .finish) :
    p.take kind = none := by
  rw [Parser.take, hready.tokenIs_nil, if_neg (by simp [hkind.symm])]

/-- A token that must be there. -/
theorem Ready.require (hready : Ready p (token :: tokens)) {kind : TokenKind} (message : Bytes)
    (hkind : token.kind = kind) : p.require kind message = p.next := by
  rw [Parser.require, if_pos hready.status, hready.take hkind]

theorem Ready.require_ne (hready : Ready p (token :: tokens)) {kind : TokenKind} (message : Bytes)
    (hkind : token.kind ≠ kind) : Failed (p.require kind message) := by
  rw [Parser.require, if_pos hready.status, hready.take_ne hkind]
  simp

theorem Ready.require_nil (hready : Ready p []) {kind : TokenKind} (message : Bytes)
    (hkind : kind ≠ .finish) : Failed (p.require kind message) := by
  rw [Parser.require, if_pos hready.status, hready.take_nil hkind]
  simp

/-- What happens outside does not move the parser. -/
theorem Ready.record (hready : Ready p tokens) (event : HostEvent) :
    Ready (p.record event) tokens :=
  ⟨hready.status, hready.allocations, hready.within, by cases tokens <;> exact hready.ahead⟩

theorem Ready.explain (hready : Ready p tokens) (message : Bytes) :
    Ready (p.explain message) tokens :=
  ⟨hready.status, hready.allocations, hready.within, by cases tokens <;> exact hready.ahead⟩

/-- Without failing allocations. -/
theorem Ready.allocate (hready : Ready p tokens) : p.allocate = (true, p) := by
  obtain ⟨lexer, current, status, error, allocations, trace⟩ := p
  obtain rfl : allocations = [] := hready.allocations
  rfl

theorem Ready.clearValue {ctx : Context} (hready : Ready p tokens) (value : ctx.Value) :
    Ready (clearValue p value) tokens := by
  unfold Expressions.clearValue
  split
  · exact hready.record _
  · exact hready.record _
  · exact hready

end Parser

/-! ## Operands -/

section Simulation

variable {doubles : Doubles} {host : PureHost doubles.Number} {limits : ExpressionLimits}

/-- A regular expression has the handle of its own `regex_compile`. -/
def Known (value : EvalValue doubles.Number) (p : Parser) : Prop :=
  ∀ pattern, value.content = .regex pattern →
    ∃ call, value.call = some call ∧ p.trace[call]? = some (.compiled call pattern true)

/-- The evaluator has this value and these tokens ahead. -/
structure Agrees (before : List HostEvent) (value : EvalValue doubles.Number) (p : Parser)
    (content : Operand doubles) (rest : List Token) : Prop where
  content : value.content = content
  known : Known value p
  ready : Ready p rest
  history : before <+: p.trace

/-- An operand of the evaluator follows a reader. -/
def Simulates (host : PureHost doubles.Number) (limits : ExpressionLimits)
    (operand : Parser → (host.context doubles limits).Value × Parser)
    (reader : Reader Token (Operand doubles)) : Prop :=
  ∀ p tokens, Ready p tokens → Follows (Agrees p.trace) Failed (operand p) (reader tokens)

theorem Known.mono {value : EvalValue doubles.Number} {p later : Parser} (hknown : Known value p)
    (hinitial : p.trace <+: later.trace) : Known value later := by
  intro pattern hpattern
  obtain ⟨call, hcall, hevent⟩ := hknown pattern hpattern
  refine ⟨call, hcall, ?_⟩
  obtain ⟨added, hadded⟩ := hinitial
  rw [← hadded, List.getElem?_append_left (List.getElem?_eq_some_iff.mp hevent).1]
  exact hevent

theorem Known.of_value {content : ExpressionValue doubles.Number} {call : Option Nat} {p : Parser} :
    Known ⟨.value content, call⟩ p := fun _ hpattern => by simp at hpattern

theorem trace_clearValue {ctx : Context} (p : Parser) (value : ctx.Value) :
    p.trace <+: (clearValue p value).trace := by
  unfold clearValue
  split
  · exact List.prefix_append _ _
  · exact List.prefix_append _ _
  · exact List.prefix_refl _

/-- A part that stands for itself, before the next token is read. -/
theorem follows_next {before : List HostEvent} {token : Token} {tokens : List Token}
    {result : EvalValue doubles.Number × Parser} {answer : Option (Operand doubles)}
    (hfollows : Follows (Agrees before) Failed result
      (answer.map fun content => (content, token :: tokens))) :
    Follows (Agrees before) Failed (result.1, result.2.next)
      (answer.map fun content => (content, tokens)) := by
  cases answer with
  | none =>
      have hfailed : Failed result.2 := hfollows
      exact (congrArg Failed hfailed.next).mpr hfailed
  | some content =>
      obtain ⟨hcontent, hknown, hready, hextends⟩ := hfollows
      obtain ⟨hnext, htrace⟩ := hready.next
      exact ⟨hcontent, hknown.mono (htrace ▸ List.prefix_refl _), hnext, htrace ▸ hextends⟩

theorem resolveVariable_follows {p : Parser} {token : Token} {tokens : List Token}
    (hready : Ready p (token :: tokens)) :
    Follows (Agrees p.trace) Failed (resolveVariable (host.context doubles limits) p)
      (((contents doubles host limits).leaf (.variable token.text)).map
        fun content => (content, token :: tokens)) := by
  obtain ⟨hstatus, hvalue⟩ :=
    host.resolves p.trace token.text (host.context doubles limits).limits.maxStringBytes
  have hcurrent : p.token = token := hready.ahead.1
  have hlater (event : HostEvent) (message : Option Bytes) :
      Ready ((p.record event).hostResult .ok message) (token :: tokens) ∧
        p.trace <+: ((p.record event).hostResult .ok message).trace :=
    ⟨(hready.record event).explain _, List.prefix_append _ _⟩
  have hvalid := host.valid token.text
  simp only [resolveVariable, hcurrent, hstatus, hvalue, contents]
  cases hreply : host.resolve token.text with
  | null => exact ⟨rfl, .of_value, (hlater _ _).1, (hlater _ _).2⟩
  | boolean value => exact ⟨rfl, .of_value, (hlater _ _).1, (hlater _ _).2⟩
  | number value => exact ⟨rfl, .of_value, (hlater _ _).1, (hlater _ _).2⟩
  | invalid => exact absurd hreply hvalid
  | string text =>
      simp only
      obtain ⟨hresolved, hextends⟩ := hlater (.resolved p.trace.length token.text true)
        (host.resolveHook p.trace token.text limits.maxStringBytes).message
      generalize (p.record (.resolved p.trace.length token.text true)).hostResult .ok
        (host.resolveHook p.trace token.text limits.maxStringBytes).message = later at *
      by_cases hlong : text.length ≤ limits.maxStringBytes
      · simp only [hlong, Nat.not_lt.mpr hlong]
        exact ⟨rfl, .of_value, by simpa using hresolved, by simpa using hextends⟩
      · simp only [hlong, Nat.not_le.mp hlong, hresolved.status]
        exact (failed_fail _ _).mpr (.inr (by decide))

theorem copyString_follows {p : Parser} {token : Token} {tokens : List Token}
    (hready : Ready p (token :: tokens)) :
    Follows (Agrees p.trace) Failed (copyString (host.context doubles limits) p)
      (((contents doubles host limits).leaf (.string token.text)).map
        fun content => (content, token :: tokens)) := by
  have hcurrent : p.token = token := hready.ahead.1
  simp only [copyString, hcurrent, hready.allocate, contents]
  by_cases hfits : token.text.length ≤ limits.maxStringBytes ∧ token.text.length ≠ sizeMax
  · rw [if_pos hfits, if_neg (by simp [Nat.not_lt.mpr hfits.1, hfits.2])]
    exact ⟨rfl, .of_value, hready, List.prefix_refl _⟩
  · have hlong : (decide (token.text.length > limits.maxStringBytes) ||
        decide (token.text.length = sizeMax)) = true := by
      rw [Bool.or_eq_true, decide_eq_true_eq, decide_eq_true_eq]
      omega
    rw [if_neg hfits, if_pos hlong]
    exact (failed_fail _ _).mpr (.inr (by decide))

/-- A regular expression is compiled. -/
theorem compileRegex_pure {p : Parser} {tokens : List Token} (hready : Ready p tokens)
    (pattern : Bytes) :
    ∃ later, compileRegex (host.context doubles limits) p pattern =
        (true, some p.trace.length, later) ∧ Ready later tokens ∧ p.trace <+: later.trace ∧
      later.trace[p.trace.length]? = some (.compiled p.trace.length pattern true) := by
  obtain ⟨hstatus, hstored⟩ := host.compiles p.trace pattern
  refine ⟨(p.record (.compiled p.trace.length pattern true)).hostResult .ok
    (host.regex.compile p.trace pattern).message, ?_, (hready.record _).explain _,
    List.prefix_append _ _, ?_⟩
  · simp [compileRegex, hstatus, hstored]
  · exact List.getElem?_concat_length

theorem primary_simulates {nested : Parser → (host.context doubles limits).Value × Parser}
    {reader : Reader Token (Operand doubles)} (hnested : Simulates host limits nested reader) :
    Simulates host limits (primary (host.context doubles limits) nested)
      (readPrimary (contents doubles host limits) reader) := by
  intro p tokens hready
  rw [primary, if_pos hready.status]
  cases tokens with
  | nil =>
      have hkind : p.token.kind = .finish := hready.ahead
      rw [hready.take_nil (by decide)]
      simp [hkind, readPrimary, Follows]
  | cons token tokens =>
      have hcurrent : p.token = token := hready.ahead.1
      rw [readPrimary]
      by_cases hopen : token.kind = .lparen
      · obtain ⟨hnext, htrace⟩ := hready.next
        rw [if_pos hopen, hready.take hopen]
        have hinner := hnested p.next tokens hnext
        rw [htrace] at hinner
        simp only
        rcases hread : reader tokens with _ | ⟨content, _ | ⟨last, rest⟩⟩
        · rw [hread] at hinner
          have hfailed : Failed (nested p.next).2 := hinner
          exact (congrArg Failed (hfailed.require _ _)).mpr hfailed
        · rw [hread] at hinner
          exact hinner.ready.require_nil _ (by decide)
        · rw [hread] at hinner
          obtain ⟨hcontent, hknown, hlater, hextends⟩ := hinner
          rw [closing]
          split_ifs with hclose
          · rw [hlater.require _ hclose]
            obtain ⟨hafter, hsame⟩ := hlater.next
            exact ⟨hcontent, hknown.mono (hsame ▸ List.prefix_refl _), hafter, hsame ▸ hextends⟩
          · exact hlater.require_ne _ hclose
      · rw [if_neg hopen, hready.take_ne hopen, hcurrent]
        simp only
        cases hkind : token.kind with
        | lparen => exact absurd hkind hopen
        | finish => exact absurd hkind hready.ahead.2.1
        | operator => simp [Token.leaf, hkind, Follows]
        | rparen => simp [Token.leaf, hkind, Follows]
        | dot => simp [Token.leaf, hkind, Follows]
        | «variable» =>
            have hleaf : token.leaf = some (.variable token.text) := by simp [Token.leaf, hkind]
            rw [hleaf]
            exact follows_next (resolveVariable_follows hready)
        | string =>
            have hleaf : token.leaf = some (.string token.text) := by simp [Token.leaf, hkind]
            rw [hleaf]
            exact follows_next (copyString_follows hready)
        | number =>
            have hleaf : token.leaf = some (.number token.text) := by simp [Token.leaf, hkind]
            rw [hleaf]
            simp only [contents]
            change Follows (Agrees p.trace) Failed (_, (if decide ((doubles.strtod token.text).2.1 = 0)
              || (doubles.strtod token.text).2.2 then p.fail .einval (ascii "stod") else p).next) _
            by_cases hconverts : (doubles.strtod token.text).2.1 ≠ 0 ∧
                (doubles.strtod token.text).2.2 = false
            · have hnumber : Follows (Agrees p.trace) Failed
                  (⟨.value (.number (doubles.strtod token.text).1), none⟩, p)
                  ((some (.value (.number (doubles.strtod token.text).1) : Operand doubles)).map
                    fun content => (content, token :: tokens)) :=
                ⟨rfl, .of_value, hready, List.prefix_refl _⟩
              rw [if_pos hconverts, if_neg (by simp [hconverts])]
              exact follows_next hnumber
            · have hrefused : (decide ((doubles.strtod token.text).2.1 = 0) ||
                  (doubles.strtod token.text).2.2) = true := by
                grind
              have hfailed : Failed (p.fail .einval (ascii "stod")) :=
                (failed_fail _ _).mpr (.inr (by decide))
              rw [if_neg hconverts, if_pos hrefused]
              exact (congrArg Failed hfailed.next).mpr hfailed
        | regex =>
            have hleaf : token.leaf = some (.regex token.text) := by simp [Token.leaf, hkind]
            obtain ⟨later, hcompile, hlater, hextends, hevent⟩ :=
              @compileRegex_pure doubles host limits p _ hready token.text
            rw [hleaf, hcompile]
            have hregex : Follows (Agrees p.trace) Failed
                (⟨.regex token.text, some p.trace.length⟩, later)
                ((some (.regex token.text : Operand doubles)).map fun content =>
                  (content, token :: tokens)) := by
              refine ⟨rfl, fun pattern hpattern => ?_, hlater, hextends⟩
              obtain rfl : token.text = pattern := by simpa using hpattern
              exact ⟨_, rfl, hevent⟩
            exact follows_next hregex
        | identifier =>
            have hword (value : Bool) : Follows (Agrees p.trace) Failed (booleanValue value, p.next)
                (some ((.value (.boolean value) : Operand doubles), tokens)) := by
              obtain ⟨hnext, htrace⟩ := hready.next
              exact ⟨rfl, .of_value, hnext, htrace ▸ List.prefix_refl _⟩
            simp only [Token.leaf, hkind]
            split_ifs
            · exact hword true
            · exact hword false
            · simp [Follows]

/-! ## Methods -/

/-- A text of an operand, when it is within the limit. -/
theorem asText_pure {p : Parser} {tokens : List Token} (hready : Ready p tokens)
    (content : Operand doubles) :
    (TextFits doubles host limits content ∧ asText (host.context doubles limits) p content =
        (some (contentText (host.context doubles limits) content), p)) ∨
      (¬ TextFits doubles host limits content ∧
        (asText (host.context doubles limits) p content).1 = none ∧
        Failed (asText (host.context doubles limits) p content).2) := by
  have hallocate : asText (host.context doubles limits) p content =
      if (contentText (host.context doubles limits) content).length > limits.maxStringBytes then
        (none, p.fail .enobufs (ascii "Expression string limit exceeded"))
      else (some (contentText (host.context doubles limits) content), p) := by
    have hformatted : formatNumber (host.context doubles limits) p content = (true, p) := by
      cases content with
      | regex pattern => rfl
      | value plain =>
          cases plain with
          | number value => exact hready.allocate
          | null | boolean | string | invalid => rfl
    unfold asText
    rw [hformatted]
    rfl
  rw [hallocate]
  by_cases hfits : TextFits doubles host limits content
  · rw [if_neg (Nat.not_lt.mpr hfits)]
    exact .inl ⟨hfits, rfl⟩
  · rw [if_pos (Nat.not_le.mp hfits)]
    exact .inr ⟨hfits, rfl, (failed_fail _ _).mpr (.inr (by decide))⟩

/-- A search answers as the host does. -/
theorem searchRegex_pure {p : Parser} {tokens : List Token} (hready : Ready p tokens)
    {call : Nat} {pattern : Bytes} (hevent : p.trace[call]? = some (.compiled call pattern true))
    (text : Bytes) :
    ∃ later, searchRegex (host.context doubles limits) p call text =
        (booleanValue (host.search pattern text), later) ∧ Ready later tokens ∧
      p.trace <+: later.trace := by
  obtain ⟨hstatus, hmatched⟩ := host.searches p.trace call pattern text hevent
  refine ⟨(p.record (.searched call text)).hostResult .ok (host.regex.search p.trace call text).message,
    ?_, (hready.record _).explain _, List.prefix_append _ _⟩
  simp [searchRegex, hstatus, hmatched]

/-- A regular expression is searched, or a text is compiled for one search. -/
theorem testMethod_pure {p : Parser} {tokens : List Token} (hready : Ready p tokens)
    {receiver : EvalValue doubles.Number} (hknown : Known receiver p) (other : Bytes) :
    ∃ later, testMethod (host.context doubles limits) p receiver
        (contentText (host.context doubles limits) receiver.content) other =
        (booleanValue (match receiver.content with
          | .regex pattern => host.search pattern other
          | _ => host.search (contentText (host.context doubles limits) receiver.content) other),
          later) ∧ Ready later tokens ∧ p.trace <+: later.trace := by
  obtain ⟨content, call⟩ := receiver
  cases content with
  | regex pattern =>
      obtain ⟨handle, hcall, hevent⟩ := hknown pattern rfl
      obtain rfl : call = some handle := hcall
      exact searchRegex_pure hready hevent other
  | value plain =>
      obtain ⟨compiled, hcompile, hcompiled, hextends, hevent⟩ :=
        @compileRegex_pure doubles host limits p tokens hready
          (contentText (host.context doubles limits) (.value plain))
      obtain ⟨searched, hsearch, hsearched, hlonger⟩ := searchRegex_pure hcompiled hevent other
      refine ⟨searched.record (.destroyed p.trace.length), ?_, hsearched.record _,
        (hextends.trans hlonger).trans (List.prefix_append _ _)⟩
      simp only [testMethod, hcompile]
      rw [if_pos trivial, hsearch]

theorem method_follows {p : Parser} {tokens : List Token} (hready : Ready p tokens)
    {receiver argument : EvalValue doubles.Number} (hknown : Known receiver p) (name : Bytes) :
    Follows (Agrees p.trace) Failed
      (method (host.context doubles limits) p receiver name argument true)
      (((contents doubles host limits).call receiver.content name argument.content).map
        fun content => (content, tokens)) := by
  have hanswer (value : Bool) : Agrees p.trace (booleanValue value) p
      (.value (.boolean value) : Operand doubles) tokens :=
    ⟨rfl, .of_value, hready, List.prefix_refl _⟩
  unfold method
  simp only [contents]
  cases Method.ofName name with
  | none =>
      have hfailed : Failed (p.fail .einval (ascii "unsupported method")) :=
        (failed_fail _ _).mpr (.inr (by decide))
      exact hfailed
  | some kind =>
      simp only [if_true, Option.bind_some]
      rcases @asText_pure doubles host limits p tokens hready receiver.content with
        ⟨hreceiver, htext⟩ | ⟨hreceiver, htext, hfailed⟩
      · rcases @asText_pure doubles host limits p tokens hready argument.content with
          ⟨hargument, hother⟩ | ⟨hargument, hother, hfailed⟩
        · rw [if_pos ⟨hreceiver, hargument⟩, htext]
          simp only
          rw [hother]
          cases kind with
          | includes => exact hanswer _
          | startsWith => exact hanswer _
          | endsWith => exact hanswer _
          | test =>
              obtain ⟨later, htest, hlater, hextends⟩ := testMethod_pure hready hknown
                (contentText (host.context doubles limits) argument.content)
              simp only
              rw [htest]
              exact ⟨rfl, .of_value, hlater, hextends⟩
        · rw [if_neg fun hboth => hargument hboth.2, htext]
          simp only
          rcases hpair : asText (host.context doubles limits) p argument.content with ⟨other, later⟩
          rw [hpair] at hother hfailed
          obtain rfl : other = none := hother
          exact hfailed
      · rw [if_neg fun hboth => hreceiver hboth.1]
        rcases hpair : asText (host.context doubles limits) p receiver.content with ⟨text, later⟩
        rw [hpair] at htext hfailed
        obtain rfl : text = none := htext
        exact hfailed

/-! ## Calls -/

/-- Operands are released at the end of a round. -/
theorem Agrees.clearValue {before : List HostEvent} {value cleared : EvalValue doubles.Number}
    {p : Parser} {content : Operand doubles} {tokens : List Token}
    (hagrees : Agrees before value p content tokens) :
    Agrees before value
      (@Expressions.clearValue (host.context doubles limits) p cleared) content tokens :=
  ⟨hagrees.content, hagrees.known.mono (@trace_clearValue (host.context doubles limits) p cleared), @Ready.clearValue p tokens (host.context doubles limits) hagrees.ready cleared,
    hagrees.history.trans (@trace_clearValue (host.context doubles limits) p cleared)⟩

theorem callMethod_failed {ctx : Context} (value : ctx.Value) (name : Bytes) (hasArgument : Bool)
    {argument : ctx.Value × Parser}
    (hfailed : Failed (argument.2.require .rparen (ascii "expected ')' after arguments"))) :
    Failed (callMethod ctx value name hasArgument argument).2 := by
  unfold callMethod
  simp only
  rw [if_neg hfailed]
  simpa using hfailed

/-- An empty argument list is refused. -/
theorem callMethod_empty {value : EvalValue doubles.Number} {name : Bytes} {p : Parser}
    {last : Token} {tokens : List Token} (hready : Ready p (last :: tokens))
    (hlast : last.kind = .rparen) :
    Failed (callMethod (host.context doubles limits) value name false (.blank, p)).2 := by
  have hmethod : Failed (method (host.context doubles limits) p.next value name .blank false).2 := by
    unfold method
    cases Method.ofName name with
    | none =>
        have hfailed : Failed (p.next.fail .einval (ascii "unsupported method")) :=
          (failed_fail _ _).mpr (.inr (by decide))
        exact hfailed
    | some kind =>
        have hfailed : Failed (p.next.fail .einval (ascii "method expects 1 argument")) :=
          (failed_fail _ _).mpr (.inr (by decide))
        exact hfailed
  unfold callMethod
  simp only
  rw [hready.require _ hlast, if_pos hready.next.1.status]
  simpa using hmethod

/-- A method with its argument. -/
theorem callMethod_follows {value : EvalValue doubles.Number} {name : Bytes}
    {before history : List HostEvent} {argument : EvalValue doubles.Number × Parser}
    {answer : Option (Operand doubles × List Token)}
    (hargument : Follows (Agrees history) Failed argument answer) (hbefore : before <+: history)
    (hknown : ∀ later : Parser, history <+: later.trace → Known value later) :
    Follows (Agrees before) Failed (callMethod (host.context doubles limits) value name true argument)
      ((closing answer).bind fun found =>
        ((contents doubles host limits).call value.content name found.1).map fun content =>
          (content, found.2)) := by
  rcases answer with _ | ⟨found, _ | ⟨last, rest⟩⟩
  · have hfailed : Failed argument.2 := hargument
    refine callMethod_failed _ _ _ ?_
    exact (congrArg Failed (hfailed.require _ _)).mpr hfailed
  · have hready : Ready argument.2 [] := hargument.ready
    exact callMethod_failed _ _ _ (hready.require_nil _ (by decide))
  · obtain ⟨rfl, hpassed, hready, hhistory⟩ := hargument
    by_cases hclose : last.kind = .rparen
    · obtain ⟨hafter, htrace⟩ := hready.next
      simp only [closing, if_pos hclose, Option.bind_some]
      have hreceiver : Known value argument.2.next := hknown _ (htrace ▸ hhistory)
      have hmethod := @method_follows doubles host limits _ _ hafter value argument.1 hreceiver name
      unfold callMethod
      simp only
      rw [hready.require _ hclose, if_pos hafter.status]
      cases hcall : (contents doubles host limits).call value.content name argument.1.content with
      | none =>
          rw [hcall] at hmethod
          have hfailed : Failed _ := hmethod
          simpa [Follows] using hfailed
      | some called =>
          rw [hcall] at hmethod
          have hkept := (@Agrees.clearValue doubles host limits _ _ argument.1 _ _ _ hmethod)
          have hlast := @Agrees.clearValue doubles host limits _ _ value _ _ _ hkept
          exact ⟨hlast.content, hlast.known, hlast.ready,
            (hbefore.trans hhistory).trans (htrace ▸ hlast.history)⟩
    · simp only [closing, if_neg hclose]
      exact @callMethod_failed (host.context doubles limits) _ _ _ argument
        (hready.require_ne _ hclose)

/-- The argument of a method. -/
theorem callArgument_follows {nested : Parser → (host.context doubles limits).Value × Parser}
    {reader : Reader Token (Operand doubles)} (hnested : Simulates host limits nested reader)
    (hclose : ∀ last rest, last.kind = .rparen → reader (last :: rest) = none)
    {before : List HostEvent} {value : EvalValue doubles.Number} {p : Parser}
    {content : Operand doubles} {tokens : List Token} (hagrees : Agrees before value p content tokens)
    (name : Bytes) :
    Follows (Agrees before) Failed (callArgument (host.context doubles limits) nested value name p)
      ((readArgument reader tokens).bind fun found =>
        ((contents doubles host limits).call content name found.1).map fun content =>
          (content, found.2)) := by
  obtain ⟨rfl, hknown, hready, hhistory⟩ := hagrees
  have hunopened (hfailed : Failed (p.require .lparen (ascii "expected '(' after method name"))) :
      Failed (callArgument (host.context doubles limits) nested value name p).2 := by
    unfold callArgument
    simp only [show decide ((p.require .lparen (ascii "expected '(' after method name")).status =
      .ok) = false from decide_eq_false hfailed]
    refine callMethod_failed _ _ _ ?_
    exact (congrArg Failed (hfailed.require _ _)).mpr hfailed
  cases tokens with
  | nil => exact hunopened (hready.require_nil _ (by decide))
  | cons first tokens =>
      rw [readArgument]
      by_cases hopen : first.kind = .lparen
      · obtain ⟨hinside, htrace⟩ := hready.next
        rw [if_pos hopen]
        unfold callArgument
        rw [hready.require _ hopen]
        simp only [hinside.status, decide_true, Bool.true_and]
        have hwith := @callMethod_follows doubles host limits value name before p.next.trace _ _
          (hnested p.next tokens hinside) (htrace ▸ hhistory)
          (fun later hlater => hknown.mono (htrace ▸ hlater))
        cases tokens with
        | nil =>
            rw [hinside.tokenIs_nil]
            exact hwith
        | cons last rest =>
            rw [hinside.tokenIs]
            by_cases hlast : last.kind = .rparen
            · rw [hclose last rest hlast]
              simp only [hlast]
              exact callMethod_empty hinside hlast
            · simp only [hlast]
              exact hwith
      · rw [if_neg hopen]
        exact hunopened (hready.require_ne _ hopen)

theorem callRound_follows {nested : Parser → (host.context doubles limits).Value × Parser}
    {reader : Reader Token (Operand doubles)} (hnested : Simulates host limits nested reader)
    (hclose : ∀ last rest, last.kind = .rparen → reader (last :: rest) = none)
    (hshortens : Shortens reader) {before : List HostEvent} {value : EvalValue doubles.Number}
    {p : Parser} {content : Operand doubles} {tokens : List Token}
    (hagrees : Agrees before value p content tokens) :
    FollowsStep (Agrees before) Failed tokens (callRound (host.context doubles limits) nested value p)
      (callStep (contents doubles host limits) reader content tokens) := by
  obtain ⟨hcontent, hknown, hready, hhistory⟩ := hagrees
  unfold callRound
  match tokens with
  | [] =>
      rw [hready.take_nil (by decide)]
      trivial
  | dot :: tokens =>
      unfold callStep
      simp only
      by_cases hdot : dot.kind = .dot
      · obtain ⟨hname, hsame⟩ := hready.next
        rw [hready.take hdot, if_pos hdot]
        simp only
        have hrefused : FollowsStep (Agrees before) Failed (dot :: tokens)
            (some (value, p.next.fail .einval (ascii "expected method name after '.'")))
            (none : Option (Option (Operand doubles × List Token))) :=
          (failed_fail _ _).mpr (.inr (by decide))
        match tokens with
        | [] =>
            rw [if_neg (by simp [hname.tokenIs_nil])]
            exact hrefused
        | name :: tokens =>
            rw [hname.tokenIs, hname.allocate, hname.ahead.1]
            by_cases hkind : name.kind = .identifier
            · simp only [hkind, decide_true, if_true]
              obtain ⟨hopen, hthird⟩ := hname.next
              have hafter : Agrees before value p.next.next content tokens := by
                refine ⟨hcontent, hknown.mono ?_, hopen, ?_⟩
                · rw [hthird, hsame]
                · rw [hthird, hsame]
                  exact hhistory
              have hargument := callArgument_follows hnested hclose hafter name.text
              match hread : readArgument reader tokens with
              | none =>
                  rw [hread] at hargument
                  exact hargument
              | some (argument, rest) =>
                  rw [hread] at hargument
                  have hshorter : rest.length < (dot :: name :: tokens).length := by
                    obtain ⟨first, inside, last, rfl, -, hinner, -⟩ := readArgument_eq_some hread
                    have hle := hshortens _ _ _ hinner
                    simp only [List.length_cons] at hle ⊢
                    omega
                  simp only [Option.bind_some] at hargument ⊢
                  cases hcall : (contents doubles host limits).call content name.text argument with
                  | none =>
                      rw [hcall] at hargument
                      exact hargument
                  | some called =>
                      rw [hcall] at hargument
                      exact ⟨hshorter, hargument⟩
            · simp only [hkind, decide_false]
              exact hrefused
      · rw [hready.take_ne hdot, if_neg hdot]
        trivial

/-- An operand and the rounds after it. -/
theorem chain_follows {first : Parser → (host.context doubles limits).Value × Parser}
    {reader : Reader Token (Operand doubles)} (hfirst : Simulates host limits first reader)
    {round : EvalValue doubles.Number → Parser → Option (EvalValue doubles.Number × Parser)}
    {step : Operand doubles → List Token → Option (Option (Operand doubles × List Token))}
    (hround : ∀ before value p content tokens, Agrees before value p content tokens →
      FollowsStep (Agrees before) Failed tokens (round value p) (step content tokens))
    (hfailed : ∀ value p, Failed p → round value p = none) (hempty : ∀ content, step content [] = some none) :
    Simulates host limits
      (fun p => repeatStep round ((first p).2.lexer.remaining + 1) (first p).1 (first p).2)
      (fun tokens => (reader tokens).bind fun found => iterate step found.1 found.2) := by
  intro p tokens hready
  have hone := hfirst p tokens hready
  change Follows _ _ (repeatStep round _ _ _) ((reader tokens).bind fun found => _)
  cases hread : reader tokens with
  | none =>
      rw [hread] at hone
      have hbad : Failed (first p).2 := hone
      rw [repeatStep_stop (hfailed _ _ hbad)]
      exact hbad
  | some found =>
      rw [hread] at hone
      exact follows_repeatStep (hround p.trace) hfailed hempty hone hone.ready.length_le

theorem parsePostfix_simulates {nested : Parser → (host.context doubles limits).Value × Parser}
    {reader : Reader Token (Operand doubles)} (hnested : Simulates host limits nested reader)
    (hclose : ∀ last rest, last.kind = .rparen → reader (last :: rest) = none)
    (hshortens : Shortens reader) :
    Simulates host limits (parsePostfix (host.context doubles limits) nested)
      (readCalls (contents doubles host limits) reader) :=
  chain_follows (primary_simulates hnested)
    (fun _ _ _ _ _ => callRound_follows hnested hclose hshortens)
    (fun value p hfailed => by rw [callRound, hfailed.take]) fun _ => rfl

/-! ## Operators -/

/-- An operator with its right operand, when the answer is that of the algebra. -/
theorem binary_follows {operand : Parser → (host.context doubles limits).Value × Parser}
    {reader : Reader Token (Operand doubles)} (hoperand : Simulates host limits operand reader)
    (hshortens : Shortens reader) {before : List HostEvent} {value : EvalValue doubles.Number}
    {p : Parser} {content : Operand doubles} {token : Token} {rest : List Token}
    (hagrees : Agrees before value p content (token :: rest)) {op : BinaryOp}
    (hop : token.binaryOp = some op) {flag : Bool} {after : Parser}
    (hfailed : Failed (operand p.next).2 → Failed after)
    (hanswer : ∀ found later, Agrees p.trace (operand p.next).1 (operand p.next).2 found later →
      Follows (Agrees p.trace) Failed (booleanValue flag, after)
        (((contents doubles host limits).binary op content found).map fun answer =>
          (answer, later))) :
    FollowsStep (Agrees before) Failed (token :: rest)
      (some (booleanValue flag, @clearValue (host.context doubles limits)
        (@clearValue (host.context doubles limits) after (operand p.next).1) value))
      (binaryStep (contents doubles host limits) op.level reader content (token :: rest)) := by
  obtain ⟨hnext, htrace⟩ := hagrees.ready.next
  have hright := hoperand p.next rest hnext
  rw [htrace] at hright
  rw [binaryStep, hop]
  simp only [if_true]
  cases hread : reader rest with
  | none =>
      rw [hread] at hright
      have hbad := hfailed hright
      simpa [FollowsStep] using hbad
  | some found =>
      obtain ⟨found, later⟩ := found
      rw [hread] at hright
      have hjoined := hanswer found later hright
      simp only [Option.bind_some]
      cases hbinary : (contents doubles host limits).binary op content found with
      | none =>
          rw [hbinary] at hjoined
          have hbad : Failed after := hjoined
          simpa [FollowsStep] using hbad
      | some answer =>
          rw [hbinary] at hjoined
          have hkept := @Agrees.clearValue doubles host limits _ _ (operand p.next).1 _ _ _ hjoined
          have hlast := @Agrees.clearValue doubles host limits _ _ value _ _ _ hkept
          refine ⟨?_, hlast.content, hlast.known, hlast.ready, hagrees.history.trans hlast.history⟩
          exact Nat.lt_succ_of_le (hshortens _ _ _ hread)

theorem comparisonRound_follows {operand : Parser → (host.context doubles limits).Value × Parser}
    {reader : Reader Token (Operand doubles)} (hoperand : Simulates host limits operand reader)
    (hshortens : Shortens reader) {before : List HostEvent} {value : EvalValue doubles.Number}
    {p : Parser} {content : Operand doubles} {tokens : List Token}
    (hagrees : Agrees before value p content tokens) :
    FollowsStep (Agrees before) Failed tokens
      (comparisonRound (host.context doubles limits) operand value p)
      (binaryStep (contents doubles host limits) .comparison reader content tokens) := by
  unfold comparisonRound
  cases tokens with
  | nil =>
      rw [hagrees.ready.tokenIs_nil]
      trivial
  | cons token rest =>
      rw [hagrees.ready.tokenIs, hagrees.ready.ahead.1]
      cases hop : token.binaryOp with
      | none =>
          rw [binaryStep, hop]
          simp only [reduceCtorEq, false_and, if_false]
          split_ifs <;> trivial
      | some op =>
          rw [Token.kind_of_binaryOp hop]
          simp only [decide_true, if_true]
          by_cases hlevel : op.level = .comparison
          · rw [if_pos hlevel, ← hlevel]
            refine binary_follows hoperand hshortens hagrees hop (fun hbad => ?_)
              fun found later hright => ?_
            · rw [if_neg hbad]
              exact hbad
            · rw [if_pos hright.ready.status, hagrees.content, hright.content]
              simp only [contents, hlevel]
              cases hleft : asNumber (host.context doubles limits) content with
              | none => exact (failed_fail _ _).mpr (.inr (by decide))
              | some a =>
                  cases hnumber : asNumber (host.context doubles limits) found with
                  | none => exact (failed_fail _ _).mpr (.inr (by decide))
                  | some b =>
                      refine ⟨?_, .of_value, hright.ready, hright.history⟩
                      have hanswer : op.answer doubles host limits content found =
                          compareNumbers (host.context doubles limits) op a b := by
                        cases op with
                        | less | greater | lessEqual | greaterEqual =>
                            simp [BinaryOp.answer, hleft, hnumber]
                        | or | and | equal | notEqual => simp [BinaryOp.level] at hlevel
                      rw [hanswer]
                      rfl
          · rw [if_neg hlevel, binaryStep, hop]
            simp only [if_neg hlevel]
            trivial

/-- Two operands are compared as texts. -/
theorem equalTexts_pure {p : Parser} {tokens : List Token} (hready : Ready p tokens)
    (left right : Operand doubles) :
    ((TextFits doubles host limits left ∧ TextFits doubles host limits right) ∧
        equalTexts (host.context doubles limits) p left right =
          (decide (contentText (host.context doubles limits) left =
            contentText (host.context doubles limits) right), p)) ∨
      (¬ (TextFits doubles host limits left ∧ TextFits doubles host limits right) ∧
        Failed (equalTexts (host.context doubles limits) p left right).2) := by
  unfold equalTexts
  rcases @asText_pure doubles host limits p tokens hready left with
    ⟨hleft, htext⟩ | ⟨hleft, htext, hfailed⟩
  · rw [htext]
    simp only
    rcases @asText_pure doubles host limits p tokens hready right with
      ⟨hright, hother⟩ | ⟨hright, hother, hfailed⟩
    · rw [hother]
      exact .inl ⟨⟨hleft, hright⟩, rfl⟩
    · rcases hpair : asText (host.context doubles limits) p right with ⟨other, later⟩
      rw [hpair] at hother hfailed
      obtain rfl : other = none := hother
      exact .inr ⟨fun hboth => hright hboth.2, hfailed⟩
  · rcases hpair : asText (host.context doubles limits) p left with ⟨text, later⟩
    rw [hpair] at htext hfailed
    obtain rfl : text = none := htext
    exact .inr ⟨fun hboth => hleft hboth.1, hfailed⟩

/-- Two operands are compared as texts when they are not compared otherwise. -/
theorem equalValues_cases (p : Parser) (left right : Operand doubles) :
    (ComparedAsTexts doubles host limits left right ∧
      equalValues (host.context doubles limits) p left right =
        equalTexts (host.context doubles limits) p left right ∧
      equalContents doubles host limits left right =
        decide (contentText (host.context doubles limits) left =
          contentText (host.context doubles limits) right)) ∨
      (¬ ComparedAsTexts doubles host limits left right ∧
        equalValues (host.context doubles limits) p left right =
          (equalContents doubles host limits left right, p)) := by
  unfold equalValues equalContents ComparedAsTexts
  obtain hleft | ⟨a, hleft⟩ := Option.eq_none_or_eq_some (asNumber (host.context doubles limits) left)
  · simp only [hleft]
    cases isNull (host.context doubles limits) left <;>
      cases isNull (host.context doubles limits) right <;> simp
  obtain hright | ⟨b, hright⟩ :=
    Option.eq_none_or_eq_some (asNumber (host.context doubles limits) right)
  · simp only [hleft, hright]
    cases isNull (host.context doubles limits) left <;>
      cases isNull (host.context doubles limits) right <;> simp
  · simp [hleft, hright]

theorem equalityRound_follows {operand : Parser → (host.context doubles limits).Value × Parser}
    {reader : Reader Token (Operand doubles)} (hoperand : Simulates host limits operand reader)
    (hshortens : Shortens reader) {before : List HostEvent} {value : EvalValue doubles.Number}
    {p : Parser} {content : Operand doubles} {tokens : List Token}
    (hagrees : Agrees before value p content tokens) :
    FollowsStep (Agrees before) Failed tokens
      (equalityRound (host.context doubles limits) operand value p)
      (binaryStep (contents doubles host limits) .equality reader content tokens) := by
  unfold equalityRound
  cases tokens with
  | nil =>
      rw [hagrees.ready.tokenIs_nil]
      trivial
  | cons token rest =>
      rw [hagrees.ready.tokenIs, hagrees.ready.ahead.1]
      cases hop : token.binaryOp with
      | none =>
          rw [binaryStep, hop]
          simp only [hagrees.ready.operatorIs, true_and]
          by_cases hkind : token.kind = .operator
          · simp only [hkind, decide_true, if_true]
            by_cases hstrict : (token.isOperator (ascii "===") || token.isOperator (ascii "!==")) = true
            · rw [if_pos hstrict, if_pos hstrict]
              exact (failed_fail _ _).mpr (.inr (by decide))
            · rw [if_neg hstrict, if_neg hstrict]
              trivial
          · simp [Token.isOperator, hkind, FollowsStep]
      | some op =>
          rw [Token.kind_of_binaryOp hop]
          simp only [decide_true, if_true]
          by_cases hlevel : op.level = .equality
          · rw [if_pos hlevel, ← hlevel]
            refine binary_follows hoperand hshortens hagrees hop (fun hbad => ?_)
              fun found later hright => ?_
            · rw [if_neg hbad]
              exact hbad
            · rw [if_pos hright.ready.status, hagrees.content, hright.content]
              simp only [contents, hlevel]
              have hanswer : op.answer doubles host limits content found =
                  if op = .equal then equalContents doubles host limits content found
                  else !equalContents doubles host limits content found := by
                cases op with
                | equal | notEqual => rfl
                | or | and | less | greater | lessEqual | greaterEqual =>
                    simp [BinaryOp.level] at hlevel
              rw [hanswer]
              rcases @equalValues_cases doubles host limits (operand p.next).2 content found with
                ⟨htexts, hequal, hsame⟩ | ⟨htexts, hequal⟩
              · rw [hequal, hsame]
                rcases @equalTexts_pure doubles host limits _ _ hright.ready content found with
                  ⟨hfits, hcompare⟩ | ⟨hfits, hfailed⟩
                · rw [if_pos fun _ => hfits, hcompare]
                  exact ⟨rfl, .of_value, hright.ready, hright.history⟩
                · have hrefused : ¬ (ComparedAsTexts doubles host limits content found →
                      TextFits doubles host limits content ∧ TextFits doubles host limits found) :=
                    fun hthen => hfits (hthen htexts)
                  rw [if_neg hrefused]
                  exact hfailed
              · rw [if_pos fun hthen => absurd hthen htexts, hequal]
                exact ⟨rfl, .of_value, hright.ready, hright.history⟩
          · rw [if_neg hlevel, binaryStep, hop]
            simp only [if_neg hlevel]
            trivial

/-- One of the two logical operators. -/
theorem logicalOperator_follows
    {operand : Parser → (host.context doubles limits).Value × Parser}
    {reader : Reader Token (Operand doubles)} (hoperand : Simulates host limits operand reader)
    (hshortens : Shortens reader) {before : List HostEvent} {value : EvalValue doubles.Number}
    {p : Parser} {content : Operand doubles} {token : Token} {rest : List Token}
    (hagrees : Agrees before value p content (token :: rest)) (op : BinaryOp)
    (hlogical : op = .or ∨ op = .and) :
    FollowsStep (Agrees before) Failed (token :: rest)
      (match if token.isOperator op.text = true then some p.next else none with
        | none => none
        | some p => some (booleanValue (if op = .or then
            truth (host.context doubles limits) value.content ||
              truth (host.context doubles limits) (operand p).1.content
            else truth (host.context doubles limits) value.content &&
              truth (host.context doubles limits) (operand p).1.content),
          @clearValue (host.context doubles limits)
            (@clearValue (host.context doubles limits) (operand p).2 (operand p).1) value))
      (binaryStep (contents doubles host limits) op.level reader content (token :: rest)) := by
  by_cases hoperator : token.isOperator op.text = true
  · have hop := (token.binaryOp_eq_some_iff op).mpr hoperator
    rw [if_pos hoperator]
    refine binary_follows hoperand hshortens hagrees hop (fun hbad => hbad)
      fun found later hright => ?_
    rw [hagrees.content, hright.content]
    rcases hlogical with rfl | rfl
    · exact ⟨rfl, .of_value, hright.ready, hright.history⟩
    · exact ⟨rfl, .of_value, hright.ready, hright.history⟩
  · have hother : ∀ found, token.binaryOp = some found → found.level ≠ op.level := by
      intro found hfound hlevel
      have hsame : found = op := by
        rcases hlogical with rfl | rfl <;> cases found <;> simp_all [BinaryOp.level]
      exact hoperator ((token.binaryOp_eq_some_iff op).mp (hsame ▸ hfound))
    have hequality : op.level ≠ .equality := by
      rcases hlogical with rfl | rfl <;> decide
    rw [if_neg hoperator, binaryStep]
    cases hfound : token.binaryOp with
    | none => simp [hequality, FollowsStep]
    | some found => simp [hother found hfound, FollowsStep]

theorem logicalRound_follows {operand : Parser → (host.context doubles limits).Value × Parser}
    {reader : Reader Token (Operand doubles)} (hoperand : Simulates host limits operand reader)
    (hshortens : Shortens reader) {before : List HostEvent} {value : EvalValue doubles.Number}
    {p : Parser} {content : Operand doubles} {tokens : List Token}
    (hagrees : Agrees before value p content tokens) (isOr : Bool) :
    FollowsStep (Agrees before) Failed tokens
      (logicalRound (host.context doubles limits) isOr operand value p)
      (binaryStep (contents doubles host limits) (if isOr then .or else .and) reader content
        tokens) := by
  unfold logicalRound
  cases tokens with
  | nil =>
      rw [Parser.takeOperator, hagrees.ready.operatorIs_nil]
      trivial
  | cons token rest =>
      rw [Parser.takeOperator, hagrees.ready.operatorIs]
      cases isOr with
      | true => exact logicalOperator_follows hoperand hshortens hagrees .or (.inl rfl)
      | false => exact logicalOperator_follows hoperand hshortens hagrees .and (.inr rfl)

/-! ## Levels -/

theorem entered_simulates {unary : Parser → (host.context doubles limits).Value × Parser} {room : Nat}
    (hunary : Simulates host limits unary (readUnaryAt (contents doubles host limits) room)) :
    Simulates host limits (entered (host.context doubles limits) unary)
      (readLevel (contents doubles host limits) (readUnaryAt (contents doubles host limits) room)
        (.binary .or)) := by
  have hsound := @readUnaryAt_sound _ (contents doubles host limits) room
  have hshortens (level : BinaryLevel) := (readLevel_sound hsound level).shortens
  have hcomparison := chain_follows hunary
    (fun _ _ _ _ _ => comparisonRound_follows hunary hsound.shortens)
    (fun value p hfailed => by rw [comparisonRound, if_neg (by simp [hfailed.tokenIs])]) fun _ => rfl
  have hequality := chain_follows hcomparison
    (fun _ _ _ _ _ => equalityRound_follows hcomparison (hshortens .comparison))
    (fun value p hfailed => by rw [equalityRound, if_neg (by simp [hfailed.tokenIs])]) fun _ => rfl
  have hand := chain_follows hequality
    (fun _ _ _ _ _ hagrees => logicalRound_follows hequality (hshortens .equality) hagrees false)
    (fun value p hfailed => by rw [logicalRound, hfailed.takeOperator]) fun _ => rfl
  exact chain_follows hand
    (fun _ _ _ _ _ hagrees => logicalRound_follows hand (hshortens .and) hagrees true)
    (fun value p hfailed => by rw [logicalRound, hfailed.takeOperator]) fun _ => rfl

theorem enter_none_simulates :
    Simulates host limits (enter (host.context doubles limits) none) (fun _ => none) := by
  intro p tokens hready
  rw [enter, if_pos hready.status]
  exact (failed_fail _ _).mpr (.inr (by decide))

theorem enter_some_simulates {inside : Parser → (host.context doubles limits).Value × Parser}
    {reader : Reader Token (Operand doubles)} (hinside : Simulates host limits inside reader) :
    Simulates host limits (enter (host.context doubles limits) (some inside)) reader := by
  intro p tokens hready
  rw [enter, if_pos hready.status]
  exact hinside p tokens hready

/-- `parse_unary` follows its reader when it does so on deeper levels. -/
theorem unaryWith_simulates (room : Nat)
    {deeper : Option (Parser → (host.context doubles limits).Value × Parser)}
    (hnested : Simulates host limits
      (enter (host.context doubles limits) (deeper.map (entered (host.context doubles limits))))
      (readNested (contents doubles host limits) (readDeeper (contents doubles host limits) room)))
    (hnot : Simulates host limits
      (enter (host.context doubles limits) (deeper.map fun deeper p =>
        (booleanValue (!truth (host.context doubles limits) (deeper p).1.content),
          clearValue (deeper p).2 (deeper p).1)))
      (fun tokens => (readDeeper (contents doubles host limits) room).bind fun deeper =>
        (deeper tokens).map fun found =>
          ((contents doubles host limits).not found.1, found.2))) :
    Simulates host limits (unaryWith (host.context doubles limits) deeper)
      (readUnary (contents doubles host limits) (readDeeper (contents doubles host limits) room)) := by
  have hshortens := (@readNested_sound _ (contents doubles host limits) room
    fun below (_ : below < room) => readUnaryAt_sound below).shortens
  have hcalls := parsePostfix_simulates hnested (fun last rest hlast => readNested_close hlast rest)
    hshortens
  intro p tokens hready
  unfold unaryWith readUnary
  cases tokens with
  | nil =>
      rw [Parser.takeOperator, hready.operatorIs_nil]
      exact hcalls p [] hready
  | cons token rest =>
      rw [Parser.takeOperator, hready.operatorIs]
      by_cases htoken : token.isOperator (ascii "!") = true
      · obtain ⟨hnext, htrace⟩ := hready.next
        have hone := hnot p.next rest hnext
        rw [htrace] at hone
        simp only [htoken, if_true]
        cases hdeeper : readDeeper (contents doubles host limits) room with
        | none =>
            rw [hdeeper] at hone
            exact hone
        | some reader =>
            rw [hdeeper] at hone
            exact hone
      · simp only [htoken]
        exact hcalls p (token :: rest) hready

theorem parseUnary_simulates (room : Nat) :
    Simulates host limits (parseUnary (host.context doubles limits) room)
      (readUnaryAt (contents doubles host limits) room) := by
  induction room with
  | zero => exact unaryWith_simulates 0 enter_none_simulates enter_none_simulates
  | succ room ih =>
      rw [readUnaryAt_eq]
      refine unaryWith_simulates (room + 1) (enter_some_simulates (entered_simulates ih))
        (enter_some_simulates fun p tokens hready => ?_)
      have hone := ih p tokens hready
      change Follows _ _ _ ((readUnaryAt (contents doubles host limits) room tokens).map _)
      cases hread : readUnaryAt (contents doubles host limits) room tokens with
      | none =>
          rw [hread] at hone
          have hbad : Failed (parseUnary (host.context doubles limits) room p).2 := hone
          exact (failed_clearValue _).mpr hbad
      | some found =>
          rw [hread] at hone
          obtain ⟨hcontent, -, hlater, hhistory⟩ := hone
          refine ⟨?_, .of_value, hlater.clearValue _, hhistory.trans (trace_clearValue _ _)⟩
          exact congrArg (fun content => Content.value (.boolean
            (!truth (host.context doubles limits) content))) hcontent

theorem parseExpression_simulates (room : Nat) :
    Simulates host limits (parseExpression (host.context doubles limits) room)
      (readExpression (contents doubles host limits) room) := by
  cases room with
  | zero => exact enter_none_simulates
  | succ room => exact enter_some_simulates (entered_simulates (parseUnary_simulates room))

/-! ## The whole evaluation -/

/-- A token that the lexer does not read. -/
theorem next_error {p : Parser} {failure : LexFailure}
    (hnext : p.lexer.next (p.lexer.input.length + 1) = .error failure) (hstatus : p.status = .ok) :
    Failed p.next ∧ p.next.allocations = p.allocations := by
  have hfailed (status : Salts) (message : Bytes) (hnot : status ≠ .ok) :
      Failed (p.fail status message) := (failed_fail _ _).mpr (.inr hnot)
  rw [Parser.next, if_pos hstatus, hnext]
  cases failure with
  | unexpected position => exact ⟨(failed_explain _).mpr (hfailed _ _ (by decide)), rfl⟩
  | noSpace => exact ⟨hfailed _ _ (by decide), rfl⟩

/-- The first scan succeeds exactly when the lexer reads the whole input, in a number of tokens
that is below the limit. -/
theorem scanTokens_ok {p : Parser} (hstatus : p.status = .ok) (hwithin : p.lexer.Within)
    (room : Nat) :
    ((scanTokens room p).status = .ok ↔ ∃ tokens, Lexes p.lexer tokens ∧ tokens.length < room) ∧
      (scanTokens room p).allocations = p.allocations := by
  induction room generalizing p with
  | zero =>
      have hfailed : Failed (scanTokens 0 p) := (failed_fail _ _).mpr (.inr (by decide))
      exact ⟨⟨fun hok => absurd hok hfailed, fun ⟨_, _, hcount⟩ => absurd hcount (Nat.not_lt_zero _)⟩,
        rfl⟩
  | succ room ih =>
      rw [scanTokens]
      cases hnext : p.lexer.next (p.lexer.input.length + 1) with
      | error failure =>
          obtain ⟨hfailed, hallocations⟩ := next_error hnext hstatus
          have hstopped : ¬ (decide (p.next.status = .ok) && decide (p.next.token.kind ≠ .finish)) =
              true := by
            rw [Bool.and_eq_true, decide_eq_true_eq]
            exact fun hgoes => hfailed hgoes.1
          rw [if_neg hstopped]
          refine ⟨⟨fun hok => absurd hok hfailed, fun ⟨tokens, hlexes, _⟩ => ?_⟩, hallocations⟩
          cases hlexes with
          | finish hread => simp [hnext] at hread
          | token hread => simp [hnext] at hread
      | ok read =>
          obtain ⟨token, later⟩ := read
          have hsame : p.next = { p with token := token, lexer := later } := by
            rw [Parser.next, if_pos hstatus, hnext]
          obtain ⟨hlater, -, -⟩ := Lexer.next_progress hwithin hnext
          rw [hsame]
          by_cases hkind : token.kind = .finish
          · rw [if_neg (by simp [hkind])]
            exact ⟨⟨fun _ => ⟨[], .finish hnext hkind, Nat.succ_pos _⟩, fun _ => hstatus⟩, rfl⟩
          · rw [if_pos (by simp [hkind, hstatus])]
            obtain ⟨hiff, hallocations⟩ := @ih { p with token := token, lexer := later } hstatus hlater
            refine ⟨hiff.trans ⟨?_, ?_⟩, hallocations⟩
            · rintro ⟨tokens, hlexes, hcount⟩
              exact ⟨token :: tokens, .token hnext hkind hlexes, Nat.succ_lt_succ hcount⟩
            · rintro ⟨tokens, hlexes, hcount⟩
              cases hlexes with
              | finish hread hfinish =>
                  rw [hnext] at hread
                  cases hread
                  exact absurd hfinish hkind
              | token hread _ hrest =>
                  rw [hnext] at hread
                  cases hread
                  exact ⟨_, hrest, Nat.lt_of_succ_lt_succ hcount⟩

/-- An expression that the evaluator admits. -/
structure Admitted (doubles : Doubles) (host : PureHost doubles.Number) (limits : ExpressionLimits)
    (text : Bytes) (tokens : List Token) (tree : Tree) : Prop where
  /-- The text is within `max_input_bytes`. -/
  input : text.length ≤ limits.maxInputBytes ∧ text.length ≠ sizeMax
  /-- These are its tokens. -/
  lexes : Lexes (.init text) tokens
  /-- They are within `max_tokens`, with the last one. -/
  count : tokens.length + 1 ≤ limits.maxTokens
  /-- They derive from the grammar. -/
  derives : Derives (.binary .or) tree tokens
  /-- The nesting is within `max_depth`, with the top level, and `max_depth` is accepted. -/
  depth : tree.nesting + 1 ≤ limits.maxDepth ∧ limits.maxDepth ≤ expressionMaxDepth
  /-- Numbers convert, methods exist, relational operands are numbers and texts are within
  `max_string_bytes`. -/
  defined : ∀ part ∈ tree.parts, part.Defined doubles host limits

theorem finishEvaluation_status {ctx : Context} (value : ctx.Value) (p : Parser) :
    (finishEvaluation ctx value p).status = p.status := by
  unfold finishEvaluation
  split_ifs <;> rfl

theorem finishEvaluation_published {ctx : Context} (value : ctx.Value) {p : Parser}
    (hstatus : p.status = .ok) : (finishEvaluation ctx value p).published =
      some (value.content.publicValue, truth ctx value.content) := by
  unfold finishEvaluation
  rw [if_pos hstatus]

/-- The last token is not consumed. -/
theorem Ready.require_finish {p : Parser} (hready : Ready p []) (message : Bytes) :
    p.require .finish message = p := by
  rw [Parser.require, if_pos hready.status, Parser.take, hready.tokenIs_nil]
  rfl

/-- The second scan, when the text is lexically valid. -/
theorem evaluateTokens_ok {p : Parser} (hstatus : p.status = .ok) (hallocations : p.allocations = [])
    {text : Bytes} {tokens : List Token} (hlexes : Lexes (.init text) tokens) :
    match readExpression (contents doubles host limits) limits.maxDepth tokens with
    | some (content, []) =>
        (evaluateTokens (host.context doubles limits) text p).status = .ok ∧
          (evaluateTokens (host.context doubles limits) text p).published =
            some (content.publicValue, truth (host.context doubles limits) content)
    | _ => (evaluateTokens (host.context doubles limits) text p).status ≠ .ok := by
  have hready := (ready_next (p := { p with lexer := .init text }) hstatus hallocations
    (Nat.zero_le _) hlexes).1
  have hfollows := @parseExpression_simulates doubles host limits limits.maxDepth _ _ hready
  unfold evaluateTokens
  simp only
  rw [finishEvaluation_status]
  match hread : readExpression (contents doubles host limits) limits.maxDepth tokens with
  | none =>
      rw [hread] at hfollows
      have hfailed : Failed _ := hfollows
      rw [hfailed.require]
      exact hfailed
  | some (content, token :: rest) =>
      rw [hread] at hfollows
      exact hfollows.ready.require_ne _ hfollows.ready.ahead.2.1
  | some (content, []) =>
      rw [hread] at hfollows
      have hend : Ready _ [] := hfollows.ready
      rw [hend.require_finish]
      refine ⟨hend.status, ?_⟩
      rw [finishEvaluation_published _ hend.status, hfollows.content]

/-- An admitted expression is read, with its value. -/
theorem Admitted.read {text : Bytes} {tokens : List Token} {tree : Tree}
    (hadmitted : Admitted doubles host limits text tokens tree) :
    readExpression (contents doubles host limits) limits.maxDepth tokens =
      some (tree.value doubles host limits, []) :=
  (readExpression_eq_some_iff _ _ _ _).mpr ⟨tree, hadmitted.derives, hadmitted.depth.1,
    (tree.eval_contents_iff _).mpr ⟨hadmitted.defined, rfl⟩⟩

/-- What is read is an admitted expression. -/
theorem exists_admitted {text : Bytes} {tokens : List Token} {content : Operand doubles}
    (hinput : text.length ≤ limits.maxInputBytes ∧ text.length ≠ sizeMax)
    (hbound : limits.maxDepth ≤ expressionMaxDepth) (hlexes : Lexes (.init text) tokens)
    (hcount : tokens.length < limits.maxTokens)
    (hread : readExpression (contents doubles host limits) limits.maxDepth tokens =
      some (content, [])) : ∃ tree, Admitted doubles host limits text tokens tree := by
  obtain ⟨tree, hderives, hdepth, heval⟩ := (readExpression_eq_some_iff _ _ _ _).mp hread
  exact ⟨tree, hinput, hlexes, hcount, hderives, ⟨hdepth, hbound⟩,
    ((tree.eval_contents_iff _).mp heval).1⟩

/-- The evaluation, when its arguments are accepted and the text is not too long. -/
theorem praktorExpressionEvaluate_eq {text : Bytes}
    (hinput : text.length ≤ limits.maxInputBytes ∧ text.length ≠ sizeMax)
    (htokens : limits.maxTokens ≠ 0) (hdepth : limits.maxDepth ≠ 0)
    (hbound : limits.maxDepth ≤ expressionMaxDepth) :
    praktorExpressionEvaluate doubles text (some host.host) (some limits) [] =
      if (scanTokens limits.maxTokens (.start text [])).status = .ok then
        evaluateTokens (host.context doubles limits) text
          (scanTokens limits.maxTokens (.start text []))
      else finishEvaluation (host.context doubles limits) .blank
        (scanTokens limits.maxTokens (.start text [])) := by
  have harguments : (decide (limits.maxTokens = 0) || decide (limits.maxDepth = 0) ||
      decide (limits.maxDepth > expressionMaxDepth)) = false := by
    simp [htokens, hdepth, hbound]
  have hlength : (decide (text.length > limits.maxInputBytes) ||
      decide (text.length = sizeMax)) = false := by
    simp [hinput]
  have hhooks : hostHooks (some host.host) = some ⟨some host.resolveHook, some host.regex⟩ := rfl
  simp only [praktorExpressionEvaluate, hhooks, Option.getD_some, harguments, hlength]
  rfl

/-- What the evaluation refuses before it reads anything. -/
theorem praktorExpressionEvaluate_accepts {text : Bytes}
    (hok : (praktorExpressionEvaluate doubles text (some host.host) (some limits) []).status = .ok) :
    (text.length ≤ limits.maxInputBytes ∧ text.length ≠ sizeMax) ∧ limits.maxTokens ≠ 0 ∧
      limits.maxDepth ≠ 0 ∧ limits.maxDepth ≤ expressionMaxDepth := by
  have hhooks : hostHooks (some host.host) = some ⟨some host.resolveHook, some host.regex⟩ := rfl
  simp only [praktorExpressionEvaluate, hhooks, Option.getD_some] at hok
  split_ifs at hok with harguments hlength halloc
  · simp [Evaluation.refuse, EvalStatus.ok] at hok
  · simp [Evaluation.refuse, EvalStatus.ok] at hok
  · simp [Evaluation.refuse, EvalStatus.ok] at hok
  all_goals
    simp only [Bool.or_eq_true, decide_eq_true_eq] at harguments hlength
    omega

/-- The evaluator implements its grammar: it succeeds exactly on the expressions that it admits,
and returns the value of the only parse tree. -/
theorem praktorExpressionEvaluate_iff (doubles : Doubles) (host : PureHost doubles.Number)
    (limits : ExpressionLimits) (text : Bytes) :
    ((praktorExpressionEvaluate doubles text (some host.host) (some limits) []).status = .ok ↔
        ∃ tokens tree, Admitted doubles host limits text tokens tree) ∧
      ∀ tokens tree, Admitted doubles host limits text tokens tree →
        (praktorExpressionEvaluate doubles text (some host.host) (some limits) []).published =
            some ((tree.value doubles host limits).publicValue,
              truth (host.context doubles limits) (tree.value doubles host limits)) ∧
          ∀ others other, Lexes (.init text) others → Derives (.binary .or) other others →
            others = tokens ∧ other = tree := by
  have hscan := scanTokens_ok (p := .start text []) rfl (Nat.zero_le _) limits.maxTokens
  -- an admitted expression is evaluated, with the value of its tree
  have hadmits : ∀ tokens tree, Admitted doubles host limits text tokens tree →
      (praktorExpressionEvaluate doubles text (some host.host) (some limits) []).status = .ok ∧
        (praktorExpressionEvaluate doubles text (some host.host) (some limits) []).published =
          some ((tree.value doubles host limits).publicValue,
            truth (host.context doubles limits) (tree.value doubles host limits)) := by
    intro tokens tree hadmitted
    have hcount := hadmitted.count
    obtain ⟨hnesting, hbound⟩ := hadmitted.depth
    have hok := hscan.1.mpr ⟨tokens, hadmitted.lexes, hcount⟩
    have hevaluate := @evaluateTokens_ok doubles host limits _ hok hscan.2 _ _ hadmitted.lexes
    rw [hadmitted.read] at hevaluate
    rw [praktorExpressionEvaluate_eq hadmitted.input (by omega) (by omega) hbound, if_pos hok]
    exact hevaluate
  refine ⟨⟨fun hok => ?_, fun ⟨tokens, tree, hadmitted⟩ => (hadmits tokens tree hadmitted).1⟩,
    fun tokens tree hadmitted => ⟨(hadmits tokens tree hadmitted).2, fun others other hlexes
      hderives => ?_⟩⟩
  · obtain ⟨hinput, htokens, hdepth, hbound⟩ := praktorExpressionEvaluate_accepts hok
    rw [praktorExpressionEvaluate_eq hinput htokens hdepth hbound] at hok
    by_cases hscanned : (scanTokens limits.maxTokens (.start text [])).status = .ok
    · obtain ⟨tokens, hlexes, hcount⟩ := hscan.1.mp hscanned
      have hevaluate := @evaluateTokens_ok doubles host limits _ hscanned hscan.2 _ _ hlexes
      rw [if_pos hscanned] at hok
      match hread : readExpression (contents doubles host limits) limits.maxDepth tokens with
      | none =>
          rw [hread] at hevaluate
          exact absurd hok hevaluate
      | some (content, token :: rest) =>
          rw [hread] at hevaluate
          exact absurd hok hevaluate
      | some (content, []) => exact ⟨tokens, exists_admitted hinput hbound hlexes hcount hread⟩
    · rw [if_neg hscanned, finishEvaluation_status] at hok
      exact absurd hok hscanned
  · obtain rfl := hlexes.unique hadmitted.lexes
    exact ⟨rfl, hderives.unique hadmitted.derives⟩

end Simulation

/-! ## A concrete host -/

/-- Whole numbers in the place of doubles, for the digits that begin a text. -/
def wholeNumbers : Doubles where
  Number := Int
  strtod text :=
    let digits := text.takeWhile isDigit
    (digits.foldl (fun value digit => 10 * value + (digit.toNat - 48)) 0, digits.length, false)
  zero := 0
  one := 1
  isTrue value := value ≠ 0
  near a b := a = b
  less a b := a < b
  lessEqual a b := a ≤ b
  format value := ascii (toString value)

instance : DecidableEq wholeNumbers.Number := inferInstanceAs (DecidableEq Int)

/-- A host whose variables are all texts and whose patterns match themselves. -/
def textHost : PureHost Int where
  resolve path := .string path
  search pattern text := pattern = text
  resolveHook _ path _ := ⟨.ok, .string path, none⟩
  regex := ⟨fun _ _ => ⟨.ok, true, none⟩, fun history call text => ⟨.ok, match history[call]? with
    | some (.compiled _ pattern _) => pattern = text
    | _ => false, none⟩⟩
  valid path := nofun
  resolves _ _ _ := ⟨rfl, rfl⟩
  compiles _ _ := ⟨rfl, rfl⟩
  searches history call pattern text hcall := ⟨rfl, by simp [hcall]⟩

theorem praktorExpressionEvaluate_iff_sample :
    (∃ tokens tree, Admitted wholeNumbers textHost expressionDefaultLimits
      (ascii "!(1 < 12) || /ab/.test('ab')") tokens tree) ∧
    (praktorExpressionEvaluate wholeNumbers (ascii "!(1 < 12) || /ab/.test('ab')")
      (some textHost.host) (some expressionDefaultLimits) []).published = some (.boolean true, true) :=
  ⟨(praktorExpressionEvaluate_iff wholeNumbers textHost expressionDefaultLimits _).1.mp
    (by decide +kernel), by decide +kernel⟩

end Praktor.Expressions
