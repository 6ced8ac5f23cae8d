/-
# The grammar of expressions

An expression is a tree; `Derives` says which token sequences stand for it.  Four levels of
binary operators are left associative, `!` binds tighter than these, and method calls bind
tighter still.

A reader that descends through the levels with one token of lookahead finds the tree, or
computes any value that is defined on trees by recursion.  It is right for every algebra of
values: for the trees themselves this says that a token sequence stands for one tree at most.
-/

import Praktor.Expressions.Lexer
import Praktor.Math.Descent

namespace Praktor.Expressions

open Praktor.Data Praktor.Math

/-! ## Trees -/

/-- The levels of binary operators, loosest first. -/
inductive BinaryLevel
  | or
  | and
  | equality
  | comparison
  deriving DecidableEq, Repr

/-- The binary operators. -/
inductive BinaryOp
  | or
  | and
  | equal
  | notEqual
  | less
  | greater
  | lessEqual
  | greaterEqual
  deriving DecidableEq, Repr

namespace BinaryOp

def level : BinaryOp → BinaryLevel
  | .or => .or
  | .and => .and
  | .equal | .notEqual => .equality
  | .less | .greater | .lessEqual | .greaterEqual => .comparison

def text : BinaryOp → Bytes
  | .or => ascii "||"
  | .and => ascii "&&"
  | .equal => ascii "=="
  | .notEqual => ascii "!="
  | .less => ascii "<"
  | .greater => ascii ">"
  | .lessEqual => ascii "<="
  | .greaterEqual => ascii ">="

def all : List BinaryOp :=
  [.or, .and, .equal, .notEqual, .less, .greater, .lessEqual, .greaterEqual]

end BinaryOp

/-- A part of an expression that stands for itself. -/
inductive Leaf
  | variable (path : Bytes)
  | string (text : Bytes)
  | number (text : Bytes)
  | regex (pattern : Bytes)
  | boolean (value : Bool)
  deriving DecidableEq

/-- An expression. -/
inductive Tree
  | leaf (leaf : Leaf)
  | group (inner : Tree)
  | call (receiver : Tree) (name : Bytes) (argument : Tree)
  | not (operand : Tree)
  | binary (op : BinaryOp) (left right : Tree)
  deriving DecidableEq

/-- How deep an expression opens parentheses, arguments and negations. -/
def Tree.nesting : Tree → Nat
  | .leaf _ => 0
  | .group inner => inner.nesting + 1
  | .call receiver _ argument => max receiver.nesting (argument.nesting + 1)
  | .not operand => operand.nesting + 1
  | .binary _ left right => max left.nesting right.nesting

/-! ## Tokens -/

/-- `token_is(p, PRAKTOR_EXPR_OPERATOR, text)`. -/
def Token.isOperator (token : Token) (text : Bytes) : Bool :=
  token.kind = .operator && token.text = text

/-- The operator that a token stands for. -/
def Token.binaryOp (token : Token) : Option BinaryOp :=
  BinaryOp.all.find? fun op => token.isOperator op.text

/-- The leaf that a token stands for. -/
def Token.leaf (token : Token) : Option Leaf :=
  match token.kind with
  | .variable => some (.variable token.text)
  | .string => some (.string token.text)
  | .number => some (.number token.text)
  | .regex => some (.regex token.text)
  | .identifier =>
      if token.text = ascii "true" then some (.boolean true)
      else if token.text = ascii "false" then some (.boolean false)
      else none
  | _ => none

/-! ## Derivations -/

/-- The levels of the grammar. -/
inductive Level
  | binary (level : BinaryLevel)
  | unary
  | calls
  | primary
  deriving DecidableEq, Repr

/-- The level of the operands. -/
def BinaryLevel.operand : BinaryLevel → Level
  | .or => .binary .and
  | .and => .binary .equality
  | .equality => .binary .comparison
  | .comparison => .unary

/-- The token sequences of an expression. -/
inductive Derives : Level → Tree → List Token → Prop
  | leaf {token : Token} {leaf : Leaf} (hleaf : token.leaf = some leaf) :
      Derives .primary (.leaf leaf) [token]
  | group {first last : Token} {inner : Tree} {tokens : List Token}
      (hfirst : first.kind = .lparen) (hlast : last.kind = .rparen)
      (hinner : Derives (.binary .or) inner tokens) :
      Derives .primary (.group inner) (first :: (tokens ++ [last]))
  | bare {tree : Tree} {tokens : List Token} (htree : Derives .primary tree tokens) :
      Derives .calls tree tokens
  | call {dot name first last : Token} {receiver argument : Tree} {tokens inner : List Token}
      (hdot : dot.kind = .dot) (hname : name.kind = .identifier) (hfirst : first.kind = .lparen)
      (hlast : last.kind = .rparen) (hreceiver : Derives .calls receiver tokens)
      (hargument : Derives (.binary .or) argument inner) :
      Derives .calls (.call receiver name.text argument)
        (tokens ++ dot :: name :: first :: (inner ++ [last]))
  | plain {tree : Tree} {tokens : List Token} (htree : Derives .calls tree tokens) :
      Derives .unary tree tokens
  | not {token : Token} {operand : Tree} {tokens : List Token}
      (htoken : token.isOperator (ascii "!") = true) (hoperand : Derives .unary operand tokens) :
      Derives .unary (.not operand) (token :: tokens)
  | operand {level : BinaryLevel} {tree : Tree} {tokens : List Token}
      (htree : Derives level.operand tree tokens) : Derives (.binary level) tree tokens
  | binary {token : Token} {op : BinaryOp} {left right : Tree} {before after : List Token}
      (htoken : token.binaryOp = some op) (hleft : Derives (.binary op.level) left before)
      (hright : Derives op.level.operand right after) :
      Derives (.binary op.level) (.binary op left right) (before ++ token :: after)

/-! ## Values -/

universe u

/-- What the parts of an expression mean. -/
structure Algebra (α : Type u) where
  leaf : Leaf → Option α
  group : α → α
  call : α → Bytes → α → Option α
  not : α → α
  binary : BinaryOp → α → α → Option α

/-- The expressions themselves. -/
def Algebra.trees : Algebra Tree where
  leaf part := some (.leaf part)
  group := .group
  call receiver name argument := some (.call receiver name argument)
  not := .not
  binary op left right := some (.binary op left right)

section Descent

variable {α : Type u} (algebra : Algebra α)

/-- The value of an expression. -/
def Tree.eval : Tree → Option α
  | .leaf part => algebra.leaf part
  | .group inner => inner.eval.map algebra.group
  | .call receiver name argument => do
      algebra.call (← receiver.eval) name (← argument.eval)
  | .not operand => operand.eval.map algebra.not
  | .binary op left right => do algebra.binary op (← left.eval) (← right.eval)

@[simp]
theorem Tree.eval_trees (tree : Tree) : tree.eval .trees = some tree := by
  induction tree with
  | leaf => rfl
  | group inner ih => rw [eval, ih]; rfl
  | call receiver name argument hreceiver hargument => rw [eval, hreceiver, hargument]; rfl
  | not operand ih => rw [eval, ih]; rfl
  | binary op left right hleft hright => rw [eval, hleft, hright]; rfl

/-! ## The descent -/

/-- What was read, with the parenthesis that closes it. -/
def closing : Option (α × List Token) → Option (α × List Token)
  | some (value, last :: rest) => if last.kind = .rparen then some (value, rest) else none
  | _ => none

/-- A primary expression; `nested` reads what is in parentheses. -/
def readPrimary (nested : Reader Token α) : Reader Token α
  | [] => none
  | token :: rest =>
      if token.kind = .lparen then
        (closing (nested rest)).map fun found => (algebra.group found.1, found.2)
      else
        match token.leaf with
        | some part => (algebra.leaf part).map fun value => (value, rest)
        | none => none

/-- What is in parentheses. -/
def readArgument (nested : Reader Token α) : Reader Token α
  | [] => none
  | first :: rest =>
      if first.kind = .lparen then closing (nested rest) else none

/-- One method call. -/
def callStep (nested : Reader Token α) (value : α) :
    List Token → Option (Option (α × List Token))
  | [] => some none
  | dot :: rest =>
      if dot.kind = .dot then
        match rest with
        | name :: rest =>
            if name.kind = .identifier then
              (readArgument nested rest).bind fun found =>
                (algebra.call value name.text found.1).map fun value => some (value, found.2)
            else none
        | [] => none
      else some none

/-- A primary expression and the methods that are called on it. -/
def readCalls (nested : Reader Token α) : Reader Token α := fun tokens =>
  (readPrimary algebra nested tokens).bind fun found =>
    iterate (callStep algebra nested) found.1 found.2

/-- One operator with its right operand.  Strict equality is refused. -/
def binaryStep (level : BinaryLevel) (operand : Reader Token α) (value : α) :
    List Token → Option (Option (α × List Token))
  | [] => some none
  | token :: rest =>
      match token.binaryOp with
      | some op =>
          if op.level = level then
            (operand rest).bind fun found =>
              (algebra.binary op value found.1).map fun value => some (value, found.2)
          else some none
      | none =>
          if level = .equality ∧ (token.isOperator (ascii "===") || token.isOperator (ascii "!=="))
          then none
          else some none

/-- A chain of operands. -/
def readBinary (level : BinaryLevel) (operand : Reader Token α) : Reader Token α := fun tokens =>
  (operand tokens).bind fun found => iterate (binaryStep algebra level operand) found.1 found.2

/-- The chains from a level down to the operands of comparisons. -/
def readLevel (unary : Reader Token α) : Level → Reader Token α
  | .binary .or => readBinary algebra .or (readBinary algebra .and
      (readBinary algebra .equality (readBinary algebra .comparison unary)))
  | .binary .and => readBinary algebra .and (readBinary algebra .equality
      (readBinary algebra .comparison unary))
  | .binary .equality => readBinary algebra .equality (readBinary algebra .comparison unary)
  | .binary .comparison => readBinary algebra .comparison unary
  | _ => unary

/-- What is in parentheses, when `deeper` reads the operands there. -/
def readNested : Option (Reader Token α) → Reader Token α
  | none => fun _ => none
  | some deeper => readLevel algebra deeper (.binary .or)

/-- An operand of a comparison, when `deeper` reads the operand of a negation. -/
def readUnary (deeper : Option (Reader Token α)) : Reader Token α
  | [] => readCalls algebra (readNested algebra deeper) []
  | token :: rest =>
      if token.isOperator (ascii "!") then
        match deeper with
        | none => none
        | some deeper => (deeper rest).map fun found => (algebra.not found.1, found.2)
      else readCalls algebra (readNested algebra deeper) (token :: rest)

/-- An operand of a comparison, with room for some levels of nesting. -/
def readUnaryAt : Nat → Reader Token α
  | 0 => readUnary algebra none
  | room + 1 => readUnary algebra (some (readUnaryAt room))

/-- The reader inside an operand with some room. -/
def readDeeper : Nat → Option (Reader Token α)
  | 0 => none
  | room + 1 => some (readUnaryAt algebra room)

/-- The reader of a level. -/
def readAt (room : Nat) : Level → Reader Token α
  | .primary => readPrimary algebra (readNested algebra (readDeeper algebra room))
  | .calls => readCalls algebra (readNested algebra (readDeeper algebra room))
  | .unary => readUnaryAt algebra room
  | .binary level => readLevel algebra (readUnaryAt algebra room) (.binary level)

/-- A whole expression. -/
def readExpression (room : Nat) : Reader Token α := readNested algebra (readDeeper algebra room)

end Descent

/-! ## Readers find derivations -/

section Sound

variable {α : Type u} {algebra : Algebra α}

/-- The input before `rest` stands for an expression with this value, nested in a room that
has `depth` levels besides it. -/
def Reads (algebra : Algebra α) (level : Level) (depth room : Nat) (tokens : List Token) (value : α)
    (rest : List Token) : Prop :=
  ∃ tree used, tokens = used ++ rest ∧ Derives level tree used ∧ tree.nesting + depth ≤ room ∧
    tree.eval algebra = some value

/-- All that a reader finds is an expression. -/
def Sound (algebra : Algebra α) (level : Level) (depth room : Nat) (reader : Reader Token α) : Prop :=
  ∀ tokens value rest, reader tokens = some (value, rest) →
    Reads algebra level depth room tokens value rest

variable {room : Nat} {nested operand : Reader Token α}

theorem closing_eq_some {found : Option (α × List Token)} {value : α} {rest : List Token}
    (hclosing : closing found = some (value, rest)) :
    ∃ last, found = some (value, last :: rest) ∧ last.kind = .rparen := by
  match found with
  | none => simp [closing] at hclosing
  | some (_, []) => simp [closing] at hclosing
  | some (found, last :: later) =>
      rw [closing] at hclosing
      split_ifs at hclosing with hclose
      obtain ⟨rfl, rfl⟩ : found = value ∧ later = rest := by simpa using hclosing
      exact ⟨last, rfl, hclose⟩

theorem readPrimary_sound (hnested : Sound algebra (.binary .or) 1 room nested) :
    Sound algebra .primary 0 room (readPrimary algebra nested) := by
  intro tokens value rest hread
  cases tokens with
  | nil => simp [readPrimary] at hread
  | cons token tokens =>
      rw [readPrimary] at hread
      split_ifs at hread with hopen
      · obtain ⟨⟨inner, later⟩, hclosed, hpair⟩ := Option.map_eq_some_iff.mp hread
        obtain ⟨rfl, rfl⟩ := Prod.mk.inj hpair
        obtain ⟨last, hinner, hclose⟩ := closing_eq_some hclosed
        obtain ⟨tree, used, rfl, htree, hroom, heval⟩ := hnested _ _ _ hinner
        refine ⟨.group tree, token :: (used ++ [last]), by simp, .group hopen hclose htree, hroom, ?_⟩
        rw [Tree.eval, heval]
        rfl
      · cases hleaf : token.leaf with
        | none => simp [hleaf] at hread
        | some part =>
            simp only [hleaf] at hread
            obtain ⟨found, hfound, hpair⟩ := Option.map_eq_some_iff.mp hread
            obtain ⟨rfl, rfl⟩ := Prod.mk.inj hpair
            exact ⟨.leaf part, [token], rfl, .leaf hleaf, Nat.zero_le _, hfound⟩

/-- What is in parentheses is an expression. -/
theorem readArgument_eq_some {tokens rest : List Token} {argument : α}
    (hread : readArgument nested tokens = some (argument, rest)) :
    ∃ first inside last, tokens = first :: inside ∧ first.kind = .lparen ∧
      nested inside = some (argument, last :: rest) ∧ last.kind = .rparen := by
  cases tokens with
  | nil => simp [readArgument] at hread
  | cons first inside =>
      rw [readArgument] at hread
      split_ifs at hread with hopen
      obtain ⟨last, hinner, hclose⟩ := closing_eq_some hread
      exact ⟨first, inside, last, rfl, hopen, hinner, hclose⟩

theorem callStep_sound (hnested : Sound algebra (.binary .or) 1 room nested)
    {start tokens rest : List Token} {value next : α}
    (hreads : Reads algebra .calls 0 room start value tokens)
    (hstep : callStep algebra nested value tokens = some (some (next, rest))) :
    Reads algebra .calls 0 room start next rest := by
  obtain ⟨receiver, before, rfl, hreceiver, hroom, heval⟩ := hreads
  match tokens with
  | [] => simp [callStep] at hstep
  | dot :: tokens =>
      unfold callStep at hstep
      simp only at hstep
      split_ifs at hstep with hdot
      · match tokens with
        | [] => simp at hstep
        | name :: tokens =>
            simp only at hstep
            split_ifs at hstep with hname
            obtain ⟨⟨passed, later⟩, hargument, hmap⟩ := Option.bind_eq_some_iff.mp hstep
            obtain ⟨called, hcalled, hpair⟩ := Option.map_eq_some_iff.mp hmap
            obtain ⟨rfl, rfl⟩ : called = next ∧ later = rest := by simpa using hpair
            obtain ⟨first, inside, last, rfl, hopen, hinner, hclose⟩ := readArgument_eq_some hargument
            obtain ⟨argument, used, rfl, hderives, hinside, hvalue⟩ := hnested _ _ _ hinner
            refine ⟨.call receiver name.text argument,
              before ++ dot :: name :: first :: (used ++ [last]), by simp,
              .call hdot hname hopen hclose hreceiver hderives, ?_, ?_⟩
            · exact Nat.max_le.mpr ⟨hroom, hinside⟩
            · rw [Tree.eval, heval, hvalue]
              exact hcalled
      · simp at hstep

theorem readCalls_sound (hnested : Sound algebra (.binary .or) 1 room nested) :
    Sound algebra .calls 0 room (readCalls algebra nested) := by
  intro tokens value rest hread
  obtain ⟨⟨first, later⟩, hprimary, hloop⟩ := Option.bind_eq_some_iff.mp hread
  obtain ⟨tree, used, hused, htree, hroom, heval⟩ := readPrimary_sound hnested _ _ _ hprimary
  exact iterate_induct (fun _ _ _ _ => callStep_sound hnested)
    ⟨tree, used, hused, .bare htree, hroom, heval⟩ hloop

theorem binaryStep_sound {level : BinaryLevel}
    (hoperand : Sound algebra level.operand 0 room operand)
    {start tokens rest : List Token} {value next : α}
    (hreads : Reads algebra (.binary level) 0 room start value tokens)
    (hstep : binaryStep algebra level operand value tokens = some (some (next, rest))) :
    Reads algebra (.binary level) 0 room start next rest := by
  obtain ⟨left, before, rfl, hleft, hroom, heval⟩ := hreads
  cases tokens with
  | nil => simp [binaryStep] at hstep
  | cons token tokens =>
      rw [binaryStep] at hstep
      cases htoken : token.binaryOp with
      | none =>
          simp only [htoken] at hstep
          split_ifs at hstep
          simp at hstep
      | some op =>
          simp only [htoken] at hstep
          split_ifs at hstep with hlevel
          · obtain ⟨⟨found, later⟩, hfound, hmap⟩ := Option.bind_eq_some_iff.mp hstep
            obtain ⟨joined, hjoined, hpair⟩ := Option.map_eq_some_iff.mp hmap
            obtain ⟨rfl, rfl⟩ : joined = next ∧ later = rest := by simpa using hpair
            obtain ⟨right, used, rfl, hright, hinside, hvalue⟩ := hoperand _ _ _ hfound
            subst hlevel
            refine ⟨.binary op left right, before ++ token :: used, by simp,
              .binary htoken hleft hright, Nat.max_le.mpr ⟨hroom, hinside⟩, ?_⟩
            rw [Tree.eval, heval, hvalue]
            exact hjoined
          · simp at hstep

theorem readBinary_sound {level : BinaryLevel}
    (hoperand : Sound algebra level.operand 0 room operand) :
    Sound algebra (.binary level) 0 room (readBinary algebra level operand) := by
  intro tokens value rest hread
  obtain ⟨⟨first, later⟩, hfirst, hloop⟩ := Option.bind_eq_some_iff.mp hread
  obtain ⟨tree, used, hused, htree, hroom, heval⟩ := hoperand _ _ _ hfirst
  exact iterate_induct (fun _ _ _ _ => binaryStep_sound hoperand)
    ⟨tree, used, hused, .operand htree, hroom, heval⟩ hloop

theorem readLevel_sound {unary : Reader Token α} (hunary : Sound algebra .unary 0 room unary)
    (level : BinaryLevel) :
    Sound algebra (.binary level) 0 room (readLevel algebra unary (.binary level)) := by
  have hcomparison : Sound algebra (.binary .comparison) 0 room _ := readBinary_sound hunary
  have hequality : Sound algebra (.binary .equality) 0 room _ := readBinary_sound hcomparison
  have hand : Sound algebra (.binary .and) 0 room _ := readBinary_sound hequality
  cases level with
  | or => exact readBinary_sound hand
  | and => exact hand
  | equality => exact hequality
  | comparison => exact hcomparison

theorem readUnaryAt_eq (room : Nat) :
    readUnaryAt algebra room = readUnary algebra (readDeeper algebra room) := by
  cases room <;> rfl

theorem readNested_sound
    (hunary : ∀ below < room, Sound algebra .unary 0 below (readUnaryAt algebra below)) :
    Sound algebra (.binary .or) 1 room (readNested algebra (readDeeper algebra room)) := by
  intro tokens value rest hread
  cases room with
  | zero => simp [readNested, readDeeper] at hread
  | succ room =>
      obtain ⟨tree, used, hused, htree, hroom, heval⟩ :=
        readLevel_sound (hunary room (Nat.lt_succ_self _)) .or _ _ _ hread
      exact ⟨tree, used, hused, htree, Nat.succ_le_succ hroom, heval⟩

theorem readUnaryAt_sound (room : Nat) : Sound algebra .unary 0 room (readUnaryAt algebra room) := by
  induction room using Nat.strongRecOn with
  | ind room ih =>
      have hcalls := readCalls_sound (readNested_sound ih)
      rw [readUnaryAt_eq]
      intro tokens value rest hread
      have hplain (hcall : readCalls algebra (readNested algebra (readDeeper algebra room)) tokens =
          some (value, rest)) : Reads algebra .unary 0 room tokens value rest := by
        obtain ⟨tree, used, hused, htree, hroom, heval⟩ := hcalls _ _ _ hcall
        exact ⟨tree, used, hused, .plain htree, hroom, heval⟩
      cases tokens with
      | nil => exact hplain hread
      | cons token tokens =>
          unfold readUnary at hread
          simp only at hread
          split_ifs at hread with htoken
          · cases room with
            | zero => simp [readDeeper] at hread
            | succ room =>
                obtain ⟨⟨found, later⟩, hfound, hpair⟩ := Option.map_eq_some_iff.mp hread
                obtain ⟨rfl, rfl⟩ := Prod.mk.inj hpair
                obtain ⟨operand, used, rfl, hoperand, hroom, heval⟩ :=
                  ih room (Nat.lt_succ_self _) _ _ _ hfound
                refine ⟨.not operand, token :: used, rfl, .not htoken hoperand, ?_, ?_⟩
                · exact Nat.succ_le_succ hroom
                · rw [Tree.eval, heval]
                  rfl
          · exact hplain hread

/-- A reader does not give back more than it was given. -/
def Shortens (reader : Reader Token α) : Prop :=
  ∀ tokens value rest, reader tokens = some (value, rest) → rest.length ≤ tokens.length

theorem Sound.shortens {level : Level} {depth : Nat} {reader : Reader Token α}
    (hsound : Sound algebra level depth room reader) : Shortens reader := by
  intro tokens value rest hread
  obtain ⟨tree, used, rfl, -, -, -⟩ := hsound _ _ _ hread
  simp

/-- No expression begins with a closing parenthesis. -/
theorem readNested_close {last : Token} (hlast : last.kind = .rparen) (rest : List Token) :
    readNested algebra (readDeeper algebra room) (last :: rest) = none := by
  cases room with
  | zero => rfl
  | succ room =>
      have hunary : readUnaryAt algebra room (last :: rest) = none := by
        rw [readUnaryAt_eq]
        simp [readUnary, Token.isOperator, readCalls, readPrimary, Token.leaf, hlast]
      simp [readNested, readDeeper, readLevel, readBinary, hunary]

/-- What the descent reads is an expression. -/
theorem readExpression_sound (room : Nat) :
    Sound algebra (.binary .or) 1 room (readExpression algebra room) :=
  readNested_sound fun below _ => readUnaryAt_sound below

end Sound

/-! ## Readers find every derivation -/

def BinaryLevel.rank : BinaryLevel → Nat
  | .or => 0
  | .and => 1
  | .equality => 2
  | .comparison => 3

/-- The next token closes a parenthesis or is an operator looser than a rank. -/
def EndsAt (rank : Nat) (rest : List Token) : Prop :=
  ∀ token ∈ rest.head?, token.kind = .rparen ∨
    ∃ op, token.binaryOp = some op ∧ op.level.rank < rank

theorem EndsAt.mono {rank higher : Nat} {rest : List Token} (hends : EndsAt rank rest)
    (hle : rank ≤ higher) : EndsAt higher rest := fun token htoken =>
  (hends token htoken).imp_right fun ⟨op, hop, hlower⟩ => ⟨op, hop, Nat.lt_of_lt_of_le hlower hle⟩

theorem Token.kind_of_binaryOp {token : Token} {op : BinaryOp} (hop : token.binaryOp = some op) :
    token.kind = .operator := by
  have hfound := List.find?_some hop
  simp only [Token.isOperator, Bool.and_eq_true, decide_eq_true_eq] at hfound
  exact hfound.1

theorem Token.binaryOp_eq_some_iff (token : Token) (op : BinaryOp) :
    token.binaryOp = some op ↔ token.isOperator op.text = true := by
  constructor
  · intro hop
    exact List.find?_some (p := fun op : BinaryOp => token.isOperator op.text) hop
  · intro hoperator
    simp only [Token.isOperator, Bool.and_eq_true, decide_eq_true_eq] at hoperator
    simp only [Token.binaryOp, Token.isOperator, hoperator.1, hoperator.2]
    cases op <;> decide

theorem Token.binaryOp_eq_none {token : Token} (hkind : token.kind ≠ .operator) :
    token.binaryOp = none := by
  cases hop : token.binaryOp with
  | none => rfl
  | some op => exact absurd (Token.kind_of_binaryOp hop) hkind

/-- An expression without leading negation does not begin with an operator. -/
theorem Derives.head_kind {level : Level} {tree : Tree} {tokens : List Token}
    (hderives : Derives level tree tokens) (hlevel : level = .calls ∨ level = .primary) :
    ∃ token rest, tokens = token :: rest ∧ token.kind ≠ .operator := by
  induction hderives with
  | leaf hleaf =>
      refine ⟨_, [], rfl, fun hkind => ?_⟩
      simp [Token.leaf, hkind] at hleaf
  | group hfirst => exact ⟨_, _, rfl, by simp [hfirst]⟩
  | bare _ ih => exact ih (.inr rfl)
  | call _ _ _ _ _ _ ih =>
      obtain ⟨token, rest, rfl, hkind⟩ := ih (.inl rfl)
      exact ⟨token, _, rfl, hkind⟩
  | plain | not | operand | binary => simp at hlevel

section Complete

variable {α : Type u} {algebra : Algebra α}

theorem callStep_stop {nested : Reader Token α} {rank : Nat} {rest : List Token}
    (hends : EndsAt rank rest) (value : α) : callStep algebra nested value rest = some none := by
  cases rest with
  | nil => rfl
  | cons token rest =>
      have hdot : token.kind ≠ .dot := by
        rcases hends token rfl with hkind | ⟨op, hop, -⟩
        · simp [hkind]
        · simp [Token.kind_of_binaryOp hop]
      unfold callStep
      simp only
      rw [if_neg hdot]

theorem binaryStep_stop {level : BinaryLevel} {operand : Reader Token α} {rest : List Token}
    (hends : EndsAt level.rank rest) (value : α) :
    binaryStep algebra level operand value rest = some none := by
  cases rest with
  | nil => rfl
  | cons token rest =>
      rw [binaryStep]
      rcases hends token rfl with hkind | ⟨op, hop, hrank⟩
      · rw [Token.binaryOp_eq_none (by simp [hkind])]
        simp [Token.isOperator, hkind]
      · rw [hop]
        simp only
        rw [if_neg]
        rintro rfl
        exact Nat.lt_irrefl _ hrank

theorem readAt_binary (room : Nat) (level : BinaryLevel) :
    readAt algebra room (.binary level) =
      readBinary algebra level (readAt algebra room level.operand) := by
  cases level <;> rfl

/-- What the reader of a level does on the tokens of an expression. -/
def Complete (algebra : Algebra α) (level : Level) (tree : Tree) (tokens : List Token) : Prop :=
  ∀ room value rest, tree.nesting ≤ room → tree.eval algebra = some value →
    match level with
    | .binary level => EndsAt (level.rank + 1) rest →
        readAt algebra room (.binary level) (tokens ++ rest) =
          iterate (binaryStep algebra level (readAt algebra room level.operand)) value rest
    | .unary => EndsAt 4 rest → readAt algebra room .unary (tokens ++ rest) = some (value, rest)
    | .calls => readAt algebra room .calls (tokens ++ rest) =
        iterate (callStep algebra (readNested algebra (readDeeper algebra room))) value rest
    | .primary => readAt algebra room .primary (tokens ++ rest) = some (value, rest)

/-- A chain ends where no operator of its level follows. -/
theorem Complete.binary {level : BinaryLevel} {tree : Tree} {tokens rest : List Token}
    (hcomplete : Complete algebra (.binary level) tree tokens) {room : Nat} {value : α}
    (hroom : tree.nesting ≤ room) (heval : tree.eval algebra = some value)
    (hends : EndsAt level.rank rest) :
    readAt algebra room (.binary level) (tokens ++ rest) = some (value, rest) := by
  rw [hcomplete room value rest hroom heval (hends.mono (Nat.le_succ _))]
  exact iterate_stop (binaryStep_stop hends value)

theorem Complete.operand {level : BinaryLevel} {tree : Tree} {tokens rest : List Token}
    (hcomplete : Complete algebra level.operand tree tokens) {room : Nat} {value : α}
    (hroom : tree.nesting ≤ room) (heval : tree.eval algebra = some value)
    (hends : EndsAt (level.rank + 1) rest) :
    readAt algebra room level.operand (tokens ++ rest) = some (value, rest) := by
  cases level with
  | or => exact hcomplete.binary hroom heval hends
  | and => exact hcomplete.binary hroom heval hends
  | equality => exact hcomplete.binary hroom heval hends
  | comparison => exact hcomplete room value rest hroom heval hends

/-- An expression in parentheses. -/
theorem Complete.nested {tree : Tree} {tokens : List Token} {last : Token}
    (hcomplete : Complete algebra (.binary .or) tree tokens) (rest : List Token) {room : Nat}
    {value : α}
    (hroom : tree.nesting + 1 ≤ room) (heval : tree.eval algebra = some value)
    (hlast : last.kind = .rparen) :
    readNested algebra (readDeeper algebra room) (tokens ++ last :: rest) =
      some (value, last :: rest) := by
  cases room with
  | zero => exact absurd hroom (Nat.not_succ_le_zero _)
  | succ room =>
      refine hcomplete.binary (Nat.le_of_succ_le_succ hroom) heval fun token htoken => ?_
      obtain rfl : last = token := by simpa using htoken
      exact .inl hlast

theorem Derives.complete {level : Level} {tree : Tree} {tokens : List Token}
    (hderives : Derives level tree tokens) : Complete algebra level tree tokens := by
  induction hderives with
  | @leaf token part hleaf =>
      intro room value rest hroom heval
      have hopen : token.kind ≠ .lparen := fun hkind => by simp [Token.leaf, hkind] at hleaf
      have hvalue : algebra.leaf part = some value := heval
      change readPrimary algebra _ (token :: rest) = _
      simp [readPrimary, hopen, hleaf, hvalue]
  | @group first last inner tokens hfirst hlast _ ih =>
      intro room value rest hroom heval
      obtain ⟨found, hfound, rfl⟩ := Option.map_eq_some_iff.mp heval
      have hinner := ih.nested rest hroom hfound hlast
      change readPrimary algebra _ (first :: (tokens ++ [last] ++ rest)) = _
      rw [List.append_assoc, List.singleton_append]
      simp [readPrimary, closing, hfirst, hinner, hlast]
  | bare _ ih =>
      intro room value rest hroom heval
      have hprimary := ih room value rest hroom heval
      change (readAt algebra room .primary _).bind _ = _
      rw [hprimary]
      rfl
  | @call dot name first last receiver argument tokens inner hdot hname hfirst hlast _ _ hbefore
      hinside =>
      intro room value rest hroom heval
      obtain ⟨found, hfound, hrest⟩ := Option.bind_eq_some_iff.mp heval
      obtain ⟨passed, hpassed, hcall⟩ := Option.bind_eq_some_iff.mp hrest
      have hreceiver := hbefore room found (dot :: name :: first :: (inner ++ last :: rest))
        (Nat.le_trans (Nat.le_max_left _ _) hroom) hfound
      have hargument := hinside.nested rest (Nat.le_trans (Nat.le_max_right _ _) hroom) hpassed hlast
      have hstep : callStep algebra (readNested algebra (readDeeper algebra room)) found
          (dot :: name :: first :: (inner ++ last :: rest)) = some (some (value, rest)) := by
        simp [callStep, readArgument, closing, hdot, hname, hfirst, hargument, hlast, hcall]
      simp only [List.append_assoc, List.cons_append, List.nil_append]
      rw [hreceiver]
      refine iterate_next hstep ?_
      simp only [List.length_cons, List.length_append]
      omega
  | @plain tree tokens htree ih =>
      intro room value rest hroom heval hends
      obtain ⟨token, later, rfl, hkind⟩ := htree.head_kind (.inl rfl)
      have hcalls : readAt algebra room .calls _ = _ := ih room value rest hroom heval
      rw [iterate_stop (callStep_stop hends value)] at hcalls
      change readUnaryAt algebra room _ = _
      rw [readUnaryAt_eq]
      unfold readUnary
      rw [List.cons_append] at hcalls ⊢
      simp only
      rw [if_neg (by simp [Token.isOperator, hkind])]
      exact hcalls
  | @not token operand tokens htoken _ ih =>
      intro room value rest hroom heval hends
      obtain ⟨found, hfound, rfl⟩ := Option.map_eq_some_iff.mp heval
      cases room with
      | zero => exact absurd hroom (Nat.not_succ_le_zero _)
      | succ room =>
          have hoperand := ih room found rest (Nat.le_of_succ_le_succ hroom) hfound hends
          change readUnaryAt algebra (room + 1) _ = _
          rw [readUnaryAt]
          unfold readUnary
          rw [List.cons_append]
          simp only
          rw [if_pos htoken]
          change (readAt algebra room .unary _).map _ = _
          rw [hoperand]
          rfl
  | operand _ ih =>
      intro room value rest hroom heval hends
      rw [readAt_binary]
      change (readAt algebra room _ _).bind _ = _
      rw [ih.operand hroom heval hends]
      rfl
  | @binary token op left right before after htoken _ _ hbefore hafter =>
      intro room value rest hroom heval hends
      obtain ⟨found, hfound, hrest⟩ := Option.bind_eq_some_iff.mp heval
      obtain ⟨other, hother, hjoin⟩ := Option.bind_eq_some_iff.mp hrest
      have hfollows : EndsAt (op.level.rank + 1) (token :: (after ++ rest)) := fun next hnext => by
        obtain rfl : token = next := by simpa using hnext
        exact .inr ⟨op, htoken, Nat.lt_succ_self _⟩
      have hleft := hbefore room found _ (Nat.le_trans (Nat.le_max_left _ _) hroom) hfound hfollows
      have hright := hafter.operand (Nat.le_trans (Nat.le_max_right _ _) hroom) hother hends
      have hstep : binaryStep algebra op.level (readAt algebra room op.level.operand) found
          (token :: (after ++ rest)) = some (some (value, rest)) := by
        simp [binaryStep, htoken, hright, hjoin]
      simp only [List.append_assoc, List.cons_append]
      rw [hleft]
      refine iterate_next hstep ?_
      simp only [List.length_cons, List.length_append]
      omega

/-- The descent reads every expression that its room admits. -/
theorem readExpression_complete {tree : Tree} {tokens : List Token}
    (hderives : Derives (.binary .or) tree tokens) {room : Nat} (hroom : tree.nesting + 1 ≤ room)
    {value : α} (heval : tree.eval algebra = some value) :
    readExpression algebra room tokens = some (value, []) := by
  cases room with
  | zero => exact absurd hroom (Nat.not_succ_le_zero _)
  | succ room =>
      have hends : EndsAt BinaryLevel.or.rank [] := fun _ htoken => by simp at htoken
      have hread := hderives.complete.binary (Nat.le_of_succ_le_succ hroom) heval hends
      rwa [List.append_nil] at hread

end Complete

/-- The descent accepts a token sequence exactly when it is an expression that the room
admits, and gives its value. -/
theorem readExpression_eq_some_iff {α : Type u} (algebra : Algebra α) (room : Nat)
    (tokens : List Token) (value : α) :
    readExpression algebra room tokens = some (value, []) ↔
      ∃ tree, Derives (.binary .or) tree tokens ∧ tree.nesting + 1 ≤ room ∧
        tree.eval algebra = some value := by
  constructor
  · intro hread
    obtain ⟨tree, used, rfl, htree, hroom, heval⟩ := readExpression_sound room _ _ _ hread
    exact ⟨tree, by rwa [List.append_nil], hroom, heval⟩
  · rintro ⟨tree, htree, hroom, heval⟩
    exact readExpression_complete htree hroom heval

/-- A token sequence stands for one expression at most. -/
theorem Derives.unique {first second : Tree} {tokens : List Token}
    (hfirst : Derives (.binary .or) first tokens) (hsecond : Derives (.binary .or) second tokens) :
    first = second := by
  have hread := readExpression_complete hfirst
    (Nat.le_max_left (first.nesting + 1) (second.nesting + 1)) first.eval_trees
  have hsame := readExpression_complete hsecond
    (Nat.le_max_right (first.nesting + 1) (second.nesting + 1)) second.eval_trees
  rw [hread] at hsame
  exact (Prod.mk.inj (Option.some.inj hsame)).1

end Praktor.Expressions
