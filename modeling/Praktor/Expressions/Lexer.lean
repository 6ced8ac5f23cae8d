/-
# The lexer of expressions

`praktor_expression_lexer_next` reads one token and moves on.  Whether a slash begins a
regular expression or is an operator depends on the token before it, so the lexer keeps the
kind of that token.

A token that is not the last one consumes input.  This bounds the loops of the evaluator, and
it makes the token sequence of a text a function of the text.
-/

import Praktor.Data.Bytes

namespace Praktor.Expressions

open Praktor.Data

/-- `praktor_expression_token_kind`. -/
inductive TokenKind
  | variable
  | string
  | number
  | operator
  | lparen
  | rparen
  | regex
  | dot
  | identifier
  | finish
  deriving DecidableEq, Repr

/-- `praktor_expression_token`, with the text that the lexer writes to the scratch buffer. -/
structure Token where
  kind : TokenKind
  position : Nat
  text : Bytes
  deriving DecidableEq, Repr

/-- `praktor_expression_lexer`. -/
structure Lexer where
  input : Bytes
  offset : Nat
  previous : Option TokenKind
  deriving DecidableEq, Repr

/-- Why the lexer reads no token. -/
inductive LexFailure
  | unexpected (position : Nat)
  | noSpace
  deriving DecidableEq, Repr

/-! ## Characters of the C locale -/

def isSpace (byte : UInt8) : Bool := byte = 32 || (9 ≤ byte && byte ≤ 13)

def isDigit (byte : UInt8) : Bool := 48 ≤ byte && byte ≤ 57

def isAlpha (byte : UInt8) : Bool := (65 ≤ byte && byte ≤ 90) || (97 ≤ byte && byte ≤ 122)

/-- `word`. -/
def isWord (byte : UInt8) : Bool := isAlpha byte || isDigit byte || byte = 95

/-! ## One token -/

/-- The text between two delimiters and the number of bytes up to the second one, which may
be missing.  A regular expression keeps its backslashes. -/
def quoted (delimiter : UInt8) (keeps : Bool) : Bytes → Bytes × Nat
  | [] => ([], 0)
  | byte :: rest =>
      if byte = delimiter then ([], 1)
      else if byte = 92 then
        match rest with
        | [] => (if keeps then [byte] else [], 1)
        | escaped :: rest =>
            ((if keeps then [byte] else []) ++ escaped :: (quoted delimiter keeps rest).1,
              (quoted delimiter keeps rest).2 + 2)
      else (byte :: (quoted delimiter keeps rest).1, (quoted delimiter keeps rest).2 + 1)

/-- The second and the third character of an operator. -/
def operatorTail (first : UInt8) (rest : Bytes) : Bytes :=
  match rest with
  | second :: rest =>
      if (([61, 33, 60, 62].contains first) && second = 61) || (first = 38 && second = 38) ||
          (first = 124 && second = 124) then
        if first = 61 && rest.head? = some 61 then [second, 61] else [second]
      else []
  | [] => []

/-- The token that begins with a character: its kind, its text and its length in the input. -/
def lexeme (previous : Option TokenKind) (first : UInt8) (rest : Bytes) :
    Option (TokenKind × Bytes × Nat) :=
  if first = 36 then
    let name := rest.takeWhile fun byte => isWord byte || byte = 46
    some (.variable, name, name.length + 1)
  else if first = 39 || first = 34 then
    let content := quoted first false rest
    some (.string, content.1, content.2 + 1)
  else if first = 47 && !rest.isEmpty && (previous = none || previous = some .operator ||
      previous = some .lparen) then
    let content := quoted first true rest
    some (.regex, content.1, content.2 + 1)
  else if isDigit first then
    let digits := rest.takeWhile fun byte => isDigit byte || byte = 46
    some (.number, first :: digits, digits.length + 1)
  else if first = 40 then some (.lparen, [first], 1)
  else if first = 41 then some (.rparen, [first], 1)
  else if first = 46 then some (.dot, [first], 1)
  else if [61, 33, 60, 62, 38, 124].contains first || (first = 47 && !rest.isEmpty) then
    let tail := operatorTail first rest
    some (.operator, first :: tail, tail.length + 1)
  else if isAlpha first || first = 95 then
    let name := rest.takeWhile isWord
    some (.identifier, first :: name, name.length + 1)
  else none

namespace Lexer

/-- `praktor_expression_lexer_init`. -/
def init (input : Bytes) : Lexer := ⟨input, 0, none⟩

/-- The input that is left. -/
def rest (lexer : Lexer) : Bytes := lexer.input.drop lexer.offset

/-- The place of the next token. -/
def start (lexer : Lexer) : Nat := lexer.offset + (lexer.rest.takeWhile isSpace).length

/-- `praktor_expression_lexer_next`. -/
def next (lexer : Lexer) (capacity : Nat) : Except LexFailure (Token × Lexer) :=
  match lexer.rest.dropWhile isSpace with
  | [] =>
      if capacity = 0 then .error .noSpace
      else .ok (⟨.finish, lexer.start, []⟩, { lexer with
        offset := lexer.start
        previous := some .finish })
  | first :: rest =>
      match lexeme lexer.previous first rest with
      | none => .error (.unexpected lexer.start)
      | some (kind, text, length) =>
          if capacity ≤ text.length then .error .noSpace
          else .ok (⟨kind, lexer.start, text⟩, { lexer with
            offset := lexer.start + length
            previous := some kind })

end Lexer

/-! ## Progress -/

theorem quoted_length (delimiter : UInt8) (keeps : Bool) (input : Bytes) :
    (quoted delimiter keeps input).1.length ≤ (quoted delimiter keeps input).2 ∧
      (quoted delimiter keeps input).2 ≤ input.length := by
  fun_induction quoted delimiter keeps input with
  | case1 => simp
  | case2 => simp
  | case3 => cases keeps <;> simp
  | case4 =>
      cases keeps with
      | false =>
          simp_all
          omega
      | true => simp_all
  | case5 => simp_all

theorem operatorTail_length (first : UInt8) (rest : Bytes) :
    (operatorTail first rest).length ≤ rest.length := by
  match rest with
  | [] => simp [operatorTail]
  | [second] =>
      simp only [operatorTail]
      split_ifs <;> simp_all
  | second :: third :: rest =>
      simp only [operatorTail]
      split_ifs <;> simp

/-- A token is not longer than the input it is read from. -/
theorem lexeme_length {previous : Option TokenKind} {first : UInt8} {rest text : Bytes}
    {kind : TokenKind} {length : Nat}
    (hlexeme : lexeme previous first rest = some (kind, text, length)) :
    kind ≠ .finish ∧ text.length ≤ length ∧ 0 < length ∧ length ≤ rest.length + 1 := by
  have hinitial (keep : UInt8 → Bool) : (rest.takeWhile keep).length ≤ rest.length :=
    (List.takeWhile_prefix keep).length_le
  have htail := operatorTail_length first rest
  have hplain := quoted_length first false rest
  have hregex := quoted_length first true rest
  unfold lexeme at hlexeme
  split_ifs at hlexeme <;>
    · simp only [Option.some.injEq, Prod.mk.injEq] at hlexeme
      obtain ⟨rfl, rfl, rfl⟩ := hlexeme
      exact ⟨by decide, by grind, Nat.succ_pos _, by grind⟩

namespace Lexer

/-- The lexer is inside its input. -/
def Within (lexer : Lexer) : Prop := lexer.offset ≤ lexer.input.length

/-- The bytes that are left. -/
def remaining (lexer : Lexer) : Nat := lexer.input.length - lexer.offset

theorem start_add_length (lexer : Lexer) (hwithin : lexer.Within) :
    lexer.start + (lexer.rest.dropWhile isSpace).length = lexer.input.length := by
  have hsplit := congrArg List.length (List.takeWhile_append_dropWhile (p := isSpace)
    (l := lexer.rest))
  have hrest : lexer.rest.length = lexer.input.length - lexer.offset := List.length_drop
  rw [List.length_append] at hsplit
  rw [start]
  unfold Within at hwithin
  omega

/-- A token other than the last one consumes input. -/
theorem next_progress {lexer later : Lexer} {capacity : Nat} {token : Token}
    (hwithin : lexer.Within) (hnext : lexer.next capacity = .ok (token, later)) :
    later.Within ∧ later.input = lexer.input ∧
      (token.kind ≠ .finish → later.remaining < lexer.remaining) := by
  have hlength := lexer.start_add_length hwithin
  have hstart : lexer.offset ≤ lexer.start := Nat.le_add_right _ _
  rw [next] at hnext
  cases hrest : lexer.rest.dropWhile isSpace with
  | nil =>
      rw [hrest] at hnext hlength
      simp only at hnext
      split_ifs at hnext
      simp only [Except.ok.injEq, Prod.mk.injEq] at hnext
      obtain ⟨rfl, rfl⟩ := hnext
      exact ⟨Nat.le_of_eq hlength, rfl, fun hkind => absurd rfl hkind⟩
  | cons first rest =>
      rw [hrest] at hnext
      rw [hrest, List.length_cons] at hlength
      cases hlexeme : lexeme lexer.previous first rest with
      | none => simp [hlexeme] at hnext
      | some found =>
          obtain ⟨kind, text, length⟩ := found
          obtain ⟨-, -, hpositive, hbound⟩ := lexeme_length hlexeme
          simp only [hlexeme] at hnext
          split_ifs at hnext
          simp only [Except.ok.injEq, Prod.mk.injEq] at hnext
          obtain ⟨rfl, rfl⟩ := hnext
          refine ⟨?_, rfl, fun _ => ?_⟩
          · simp only [Within]
            omega
          · simp only [remaining]
            omega

end Lexer

/-! ## The token sequence of a text -/

/-- The tokens that the lexer reads before the last one. -/
inductive Lexes : Lexer → List Token → Prop
  | finish {lexer later : Lexer} {token : Token}
      (hnext : lexer.next (lexer.input.length + 1) = .ok (token, later))
      (hkind : token.kind = .finish) : Lexes lexer []
  | token {lexer later : Lexer} {token : Token} {tokens : List Token}
      (hnext : lexer.next (lexer.input.length + 1) = .ok (token, later))
      (hkind : token.kind ≠ .finish) (hlater : Lexes later tokens) : Lexes lexer (token :: tokens)

theorem Lexes.unique {lexer : Lexer} {first second : List Token} (hfirst : Lexes lexer first)
    (hsecond : Lexes lexer second) : first = second := by
  induction hfirst generalizing second with
  | finish hnext hkind =>
      cases hsecond with
      | finish => rfl
      | token hnext' hkind' _ =>
          rw [hnext] at hnext'
          cases hnext'
          exact absurd hkind hkind'
  | token hnext hkind _ ih =>
      cases hsecond with
      | finish hnext' hkind' =>
          rw [hnext] at hnext'
          cases hnext'
          exact absurd hkind' hkind
      | token hnext' hkind' hlater =>
          rw [hnext] at hnext'
          cases hnext'
          rw [ih hlater]

theorem Lexes.length_le {lexer : Lexer} {tokens : List Token} (hlexes : Lexes lexer tokens)
    (hwithin : lexer.Within) : tokens.length ≤ lexer.remaining := by
  induction hlexes with
  | finish => exact Nat.zero_le _
  | token hnext hkind _ ih =>
      obtain ⟨hlater, -, hless⟩ := Lexer.next_progress hwithin hnext
      exact Nat.succ_le_of_lt (Nat.lt_of_le_of_lt (ih hlater) (hless hkind))

end Praktor.Expressions
