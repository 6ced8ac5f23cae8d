/-
# The lexer on its buffers

`praktor_expression_lexer_next` as it works on memory: one loop counts the bytes of a quoted
text, another copies them, and both the input and the value are reached by checked positions.

The main result: the two loops agree on every input, so that a call writes exactly what it
has counted, whatever the capacity; calls that fail change nothing; and the tokens of a text
follow one another over the whole of it.
-/

import Praktor.Expressions.Lexer
import Praktor.Math.Arena
import Praktor.Math.Scanning
import Mathlib.Data.List.TakeWhile

namespace Praktor.Expressions

open Praktor.Data Praktor.Math

/-- `praktor_expression_lexer`; the size is that of the input. -/
structure BufferLexer where
  input : Bytes
  offset : Nat := 0
  errorPosition : Nat := 0
  previous : TokenKind := .variable
  hasPrevious : Bool := false
  deriving DecidableEq, Repr

/-- `praktor_expression_token`. -/
structure TokenHeader where
  kind : TokenKind
  position : Nat
  size : Nat
  deriving DecidableEq, Repr

/-- The arguments `value` and `capacity`. -/
inductive ValueBuffer
  | null (capacity : Nat)
  | block (cells : Bytes)
  deriving DecidableEq, Repr

/-- `capacity`. -/
def ValueBuffer.capacity : ValueBuffer → Nat
  | null capacity => capacity
  | block cells => cells.length

/-- What a call leaves: its status, the lexer, the token, the value and the required size. -/
structure LexerCall where
  status : Salts
  lexer : BufferLexer
  token : TokenHeader
  value : ValueBuffer
  required : Nat
  deriving DecidableEq, Repr

namespace BufferLexer

/-- What is known of a token before it is written. -/
structure Extent where
  kind : TokenKind
  quoted : Bool
  start : Nat
  stop : Nat
  written : Nat

/-- The loop that counts a quoted text: where it ends, and its bytes. -/
def probe (delimiter : UInt8) (keeps : Bool) (input : Bytes) (position written : Nat) :
    Option (Nat × Nat) :=
  if position < input.length then
    match input[position]? with
    | none => none
    | some byte =>
        if byte = delimiter then some (position, written)
        else if byte = 92 then
          let written := if keeps then written + 1 else written
          if position + 1 < input.length then
            probe delimiter keeps input (position + 2) (written + 1)
          else some (position + 1, written)
        else probe delimiter keeps input (position + 1) (written + 1)
  else some (position, written)
termination_by input.length - position

/-- A byte is written to the value. -/
def put (cells : Bytes) (index : Nat) (byte : UInt8) : Option Bytes :=
  if index < cells.length then some (cells.set index byte) else none

/-- The loop that copies a quoted text: the value, and the bytes written. -/
def copy (delimiter : UInt8) (keeps : Bool) (input : Bytes) (stop cursor written : Nat)
    (cells : Bytes) : Option (Bytes × Nat) :=
  if cursor < stop then
    match input[cursor]? with
    | none => none
    | some byte =>
        if byte = delimiter then some (cells, written)
        else if byte = 92 then do
          let (cells, written) ← (if keeps then (put cells written 92).map fun cells =>
            (cells, written + 1) else some (cells, written))
          if cursor + 1 < stop then do
            let escaped ← input[cursor + 1]?
            let cells ← put cells written escaped
            copy delimiter keeps input stop (cursor + 2) (written + 1) cells
          else some (cells, written)
        else do
          let cells ← put cells written byte
          copy delimiter keeps input stop (cursor + 1) (written + 1) cells
  else some (cells, written)
termination_by stop - cursor

/-- The end of an operator. -/
def operatorEnd (input : Bytes) (first : UInt8) (stop : Nat) : Option Nat :=
  if stop < input.length then do
    let second ← input[stop]?
    if ([61, 33, 60, 62].contains first && second = 61) || (first = 38 && second = 38) ||
        (first = 124 && second = 124) then
      if first = 61 && stop + 1 < input.length then do
        let third ← input[stop + 1]?
        some (if third = 61 then stop + 2 else stop + 1)
      else some (stop + 1)
    else some stop
  else some stop

/-- A token whose text is a part of the input. -/
def plain (kind : TokenKind) (start stop : Nat) : Extent := ⟨kind, false, start, stop, stop - start⟩

/-- The token at a position inside of the input; there is none at an unexpected byte. -/
def extent (lexer : BufferLexer) (start : Nat) : Option (Option Extent) := do
  let input := lexer.input
  let size := input.length
  let first ← input[start]?
  let stop := start + 1
  if first = 36 then do
    let stop' ← scanWhile (fun byte => isWord byte || byte = 46) input size stop
    some (some (plain .variable stop stop'))
  else if first = 39 || first = 34 || (first = 47 && stop < size && (!lexer.hasPrevious ||
      lexer.previous = .operator || lexer.previous = .lparen)) then do
    let (last, written) ← probe first (first = 47) input stop 0
    some (some ⟨if first = 47 then .regex else .string, true, stop,
      if last < size then last + 1 else last, written⟩)
  else if isDigit first then do
    let stop' ← scanWhile (fun byte => isDigit byte || byte = 46) input size stop
    some (some (plain .number start stop'))
  else if first = 40 then some (some (plain .lparen start stop))
  else if first = 41 then some (some (plain .rparen start stop))
  else if first = 46 then some (some (plain .dot start stop))
  else if [61, 33, 60, 62, 38, 124].contains first || (first = 47 && stop < size) then do
    let stop' ← operatorEnd input first stop
    some (some (plain .operator start stop'))
  else if isAlpha first || first = 95 then do
    let stop' ← scanWhile isWord input size stop
    some (some (plain .identifier start stop'))
  else some none

/-- The text of a token is written with its NUL. -/
def write (lexer : BufferLexer) (position : Nat) (found : Extent) (cells : Bytes) :
    Option (Bytes × Nat) := do
  let (cells, written) ← (if found.quoted then do
      let delimiter ← lexer.input[position]?
      copy delimiter (found.kind = .regex) lexer.input found.stop found.start 0 cells
    else if found.start + found.written ≤ lexer.input.length ∧ found.written ≤ cells.length then
      some (Arena.write cells 0 ((lexer.input.drop found.start).take found.written), found.written)
    else none)
  let cells ← put cells written 0
  some (cells, written)

/-- `praktor_expression_lexer_next` with what `token` and `required` hold before; there is no
result when an access leaves a buffer. -/
def next (lexer : BufferLexer) (token : TokenHeader) (value : ValueBuffer) (required : Nat) :
    Option LexerCall :=
  match value with
  | .null (_ + 1) => some ⟨.einval, lexer, token, value, required⟩
  | _ =>
    if lexer.offset > lexer.input.length then some ⟨.einval, lexer, token, value, required⟩
    else do
      let start ← scanWhile isSpace lexer.input lexer.input.length lexer.offset
      let found ← (if start < lexer.input.length then extent lexer start
        else some (some (plain .finish start start)))
      match found with
      | none => some ⟨.einval, { lexer with errorPosition := start }, token, value, required⟩
      | some found =>
          match value with
          | .null _ => some ⟨.enobufs, lexer, token, value, found.written⟩
          | .block cells =>
              if cells.length ≤ found.written then
                some ⟨.enobufs, lexer, token, value, found.written⟩
              else do
                let (cells, _) ← write lexer start found cells
                some ⟨.ok, { lexer with
                    offset := found.stop, previous := found.kind, hasPrevious := true },
                  ⟨found.kind, start, found.written⟩, .block cells, found.written⟩

/-- `praktor_expression_lexer_init`. -/
def init (input : Bytes) : BufferLexer := { input }

/-- The lexer without its buffers. -/
def abstract (lexer : BufferLexer) : Lexer :=
  ⟨lexer.input, lexer.offset, if lexer.hasPrevious then some lexer.previous else none⟩

/-! ## The two loops -/

section Loops

variable {delimiter : UInt8} {keeps : Bool} {input : Bytes}

/-- The first byte of what is left of an input. -/
theorem getElem?_of_drop {position : Nat} {byte : UInt8} {rest : Bytes}
    (hrest : input.drop position = byte :: rest) :
    position < input.length ∧ input[position]? = some byte ∧ input.drop (position + 1) = rest := by
  have hinside : position < input.length := by
    by_contra houtside
    rw [List.drop_of_length_le (Nat.le_of_not_lt houtside)] at hrest
    cases hrest
  refine ⟨hinside, ?_, ?_⟩
  · rw [← List.head?_drop, hrest]
    rfl
  · rw [← List.tail_drop, hrest]
    rfl

/-- Where a quoted text ends, by the last position of the counting loop. -/
def closing (input : Bytes) (last : Nat) : Nat := if last < input.length then last + 1 else last

/-- The counting loop counts the text that is read. -/
theorem probe_eq (rest : Bytes) {position : Nat} (hrest : input.drop position = rest)
    (hinside : position ≤ input.length) (written : Nat) :
    ∃ last, probe delimiter keeps input position written =
        some (last, written + (quoted delimiter keeps rest).1.length) ∧
      closing input last = position + (quoted delimiter keeps rest).2 := by
  fun_induction quoted delimiter keeps rest generalizing position written with
  | case1 =>
      have hend : position = input.length := by
        have hlength := congrArg List.length hrest
        rw [List.length_drop, List.length_nil] at hlength
        omega
      refine ⟨position, ?_, ?_⟩
      · rw [probe, if_neg (by omega)]
        rfl
      · rw [closing, if_neg (by omega)]
        rfl
  | case2 rest =>
      obtain ⟨hlt, hread, -⟩ := getElem?_of_drop hrest
      refine ⟨position, ?_, ?_⟩
      · rw [probe, if_pos hlt, hread]
        simp
      · rw [closing, if_pos hlt]
  | case3 hslash =>
      obtain ⟨hlt, hread, hnext⟩ := getElem?_of_drop hrest
      have hend : ¬ position + 1 < input.length := by
        have hlength := congrArg List.length hnext
        rw [List.length_drop, List.length_nil] at hlength
        omega
      refine ⟨position + 1, ?_, ?_⟩
      · rw [probe, if_pos hlt, hread]
        simp only [if_neg hslash, if_true, if_neg hend]
        cases keeps <;> rfl
      · rw [closing, if_neg hend]
  | case4 escaped rest hslash ih =>
      obtain ⟨hlt, hread, hnext⟩ := getElem?_of_drop hrest
      obtain ⟨hlt', -, hlater⟩ := getElem?_of_drop hnext
      obtain ⟨last, hprobe, hclosing⟩ :=
        ih hlater hlt' ((if keeps then written + 1 else written) + 1)
      refine ⟨last, ?_, ?_⟩
      · rw [probe, if_pos hlt, hread]
        simp only [if_neg hslash, if_true, if_pos hlt']
        rw [hprobe]
        cases keeps <;> simp <;> omega
      · rw [hclosing]
        simp only
        omega
  | case5 byte rest hdelimiter hslash ih =>
      obtain ⟨hlt, hread, hlater⟩ := getElem?_of_drop hrest
      obtain ⟨last, hprobe, hclosing⟩ := ih hlater hlt (written + 1)
      refine ⟨last, ?_, ?_⟩
      · rw [probe, if_pos hlt, hread]
        simp only [if_neg hdelimiter, if_neg hslash]
        rw [hprobe, List.length_cons]
        congr 2
        omega
      · rw [hclosing]
        simp only
        omega

theorem put_eq {cells : Bytes} {index : Nat} (hinside : index < cells.length) (byte : UInt8) :
    put cells index byte = some (Arena.write cells index [byte]) := by
  rw [put, if_pos hinside, Arena.set_eq_write hinside]

/-- A backslash is kept in a regular expression. -/
theorem put_kept {cells : Bytes} {written : Nat}
    (hfits : written + (if keeps then [92] else [] : Bytes).length ≤ cells.length) :
    (if keeps then (put cells written 92).map fun cells => (cells, written + 1)
      else some (cells, written)) =
      some (Arena.write cells written (if keeps then [92] else []),
        written + (if keeps then [92] else [] : Bytes).length) := by
  cases keeps with
  | false => simp [Arena.write_nil]
  | true => simp [put_eq (show written < cells.length from hfits)]

/-- The copying loop copies the text that is read, behind what was written. -/
theorem copy_eq (rest : Bytes) {cursor : Nat} (hrest : input.drop cursor = rest)
    {written : Nat} {cells : Bytes}
    (hfits : written + (quoted delimiter keeps rest).1.length ≤ cells.length) :
    copy delimiter keeps input (cursor + (quoted delimiter keeps rest).2) cursor written cells =
      some (Arena.write cells written (quoted delimiter keeps rest).1,
        written + (quoted delimiter keeps rest).1.length) := by
  fun_induction quoted delimiter keeps rest generalizing cursor written cells with
  | case1 =>
      rw [copy, if_neg (by omega), Arena.write_nil]
      rfl
  | case2 rest =>
      obtain ⟨-, hread, -⟩ := getElem?_of_drop hrest
      rw [copy, if_pos (by omega), hread]
      simp [Arena.write_nil]
  | case3 hslash =>
      obtain ⟨-, hread, -⟩ := getElem?_of_drop hrest
      rw [copy, if_pos (by omega), hread]
      simp only [if_neg hslash, if_true]
      cases keeps with
      | false => simp [Arena.write_nil]
      | true =>
          have hroom : written < cells.length := by
            simp at hfits
            omega
          simp [put_eq hroom]
  | case4 escaped rest hslash ih =>
      obtain ⟨-, hread, hnext⟩ := getElem?_of_drop hrest
      obtain ⟨-, hread', hlater⟩ := getElem?_of_drop hnext
      simp only at hfits ⊢
      rw [copy, if_pos (by omega), hread]
      simp only [if_neg hslash, if_true]
      generalize hkept : (if keeps then [92] else [] : Bytes) = kept at hfits ⊢
      rw [List.length_append, List.length_cons] at hfits
      have hput := @put_kept keeps cells written (by rw [hkept]; omega)
      rw [hkept] at hput
      have hlength : (Arena.write cells written kept).length = cells.length :=
        Arena.length_write (by omega)
      have hroom : written + kept.length < (Arena.write cells written kept).length := by
        rw [hlength]
        omega
      have hescaped := @Arena.write_append _ cells kept [escaped] written
        (by rw [List.length_singleton]; omega)
      have hlength' : (Arena.write cells written (kept ++ [escaped])).length = cells.length :=
        Arena.length_write (by rw [List.length_append, List.length_singleton]; omega)
      have hfits' : written + kept.length + 1 + (quoted delimiter keeps rest).1.length ≤
          (Arena.write cells written (kept ++ [escaped])).length := by
        rw [hlength']
        omega
      have hstop : cursor + ((quoted delimiter keeps rest).2 + 2) =
          cursor + 1 + 1 + (quoted delimiter keeps rest).2 := by omega
      have hinside : cursor + 1 < cursor + 1 + 1 + (quoted delimiter keeps rest).2 := by omega
      have happend := @Arena.write_append _ cells (kept ++ [escaped])
        (quoted delimiter keeps rest).1 written
        (by rw [List.length_append, List.length_singleton]; omega)
      rw [List.length_append, List.length_singleton, ← Nat.add_assoc] at happend
      simp only [hput, Option.bind_eq_bind, Option.bind_some, hstop, if_pos hinside, hread',
        put_eq hroom, hescaped, ih hlater hfits', happend]
      simp only [List.append_assoc, List.singleton_append, List.length_append, List.length_cons,
        Option.some.injEq, Prod.mk.injEq, true_and]
      omega
  | case5 byte rest hdelimiter hslash ih =>
      obtain ⟨-, hread, hlater⟩ := getElem?_of_drop hrest
      simp only [List.length_cons] at hfits ⊢
      have hroom : written < cells.length := by omega
      have hwritten : (Arena.write cells written [byte]).length = cells.length :=
        Arena.length_write (by rw [List.length_singleton]; omega)
      have hfits' : written + 1 + (quoted delimiter keeps rest).1.length ≤
          (Arena.write cells written [byte]).length := by
        rw [hwritten]
        omega
      have hrest' := ih hlater hfits'
      rw [copy, if_pos (by omega), hread]
      simp only [if_neg hdelimiter, if_neg hslash, put_eq hroom, Option.bind_eq_bind,
        Option.bind_some]
      have hstop : cursor + ((quoted delimiter keeps rest).2 + 1) =
          cursor + 1 + (quoted delimiter keeps rest).2 := by omega
      have happend := @Arena.write_append _ cells [byte] (quoted delimiter keeps rest).1 written
        (by rw [List.length_singleton]; omega)
      rw [List.length_singleton] at happend
      rw [hstop, hrest', happend]
      simp only [List.singleton_append, Option.some.injEq, Prod.mk.injEq, true_and]
      omega

end Loops

/-! ## One token -/

/-- The extent of a token of this kind, text and length. -/
structure Describes (input : Bytes) (position : Nat) (found : Extent) (kind : TokenKind)
    (text : Bytes) (length : Nat) : Prop where
  kind_eq : found.kind = kind
  stop_eq : found.stop = position + length
  written_eq : found.written = text.length
  /-- What the text is copied from. -/
  text_eq : if found.quoted then
      ∃ delimiter content, input[position]? = some delimiter ∧ found.start = position + 1 ∧
        content = quoted delimiter (decide (kind = .regex)) (input.drop (position + 1)) ∧
        text = content.1 ∧ length = content.2 + 1
    else found.start + text.length ≤ input.length ∧
      (input.drop found.start).take text.length = text

/-- A text that fits is written with its NUL. -/
theorem Describes.write_eq {lexer : BufferLexer} {position length : Nat} {found : Extent}
    {kind : TokenKind} {text : Bytes}
    (hdescribes : Describes lexer.input position found kind text length)
    {cells : Bytes} (hfits : text.length < cells.length) :
    write lexer position found cells =
      some (Arena.write cells 0 (text ++ [0]), text.length) := by
  obtain ⟨hkind, hstop, hwritten, htext⟩ := hdescribes
  have hlength : (Arena.write cells 0 text).length = cells.length := Arena.length_write (by omega)
  have hroom : text.length < (Arena.write cells 0 text).length := by
    rw [hlength]
    exact hfits
  have hclosed := @Arena.write_append _ cells text [0] 0 (by rw [List.length_singleton]; omega)
  rw [Nat.zero_add] at hclosed
  rw [write]
  cases hquoted : found.quoted with
  | false =>
      rw [hquoted] at htext
      obtain ⟨hinside, hpart⟩ := htext
      rw [hwritten, hpart, if_neg Bool.false_ne_true, if_pos ⟨hinside, Nat.le_of_lt hfits⟩]
      simp only [Option.bind_eq_bind, Option.bind_some, put_eq hroom, hclosed]
  | true =>
      rw [hquoted] at htext
      obtain ⟨delimiter, content, hread, hstart, rfl, rfl, rfl⟩ := htext
      have hcopied := @copy_eq delimiter (decide (kind = .regex)) lexer.input _ (position + 1) rfl 0
        cells (by omega)
      have hend : found.stop = position + 1 +
          (quoted delimiter (decide (kind = .regex)) (lexer.input.drop (position + 1))).2 := by
        omega
      rw [if_pos rfl, hread, hend, hstart, hkind]
      simp only [Option.bind_eq_bind, Option.bind_some, hcopied, Nat.zero_add, put_eq hroom,
        hclosed]

/-- A token that is a part of the input. -/
theorem describes_plain {input : Bytes} {position start stop length : Nat} {kind : TokenKind}
    {text : Bytes} (hstop : stop = position + length) (hlength : stop = start + text.length)
    (hinside : stop ≤ input.length) (htext : (input.drop start).take text.length = text) :
    Describes input position (plain kind start stop) kind text length := by
  refine ⟨rfl, hstop, ?_, ?_⟩
  · rw [plain]
    simp only
    omega
  · exact ⟨Nat.le_trans (Nat.le_of_eq hlength.symm) hinside, htext⟩

theorem operatorTail_prefix (first : UInt8) (rest : Bytes) :
    rest.take (operatorTail first rest).length = operatorTail first rest := by
  match rest with
  | [] => rfl
  | [second] =>
      simp only [operatorTail]
      split_ifs <;> simp_all
  | second :: third :: rest =>
      simp only [operatorTail]
      split_ifs <;> simp_all

/-- The end of an operator is that of its text. -/
theorem operatorEnd_eq {input rest : Bytes} {stop : Nat} (hrest : input.drop stop = rest)
    (first : UInt8) :
    operatorEnd input first stop = some (stop + (operatorTail first rest).length) := by
  rw [operatorEnd]
  cases rest with
  | nil =>
      have hlength := congrArg List.length hrest
      rw [List.length_drop, List.length_nil] at hlength
      rw [if_neg (by omega)]
      rfl
  | cons second rest =>
      obtain ⟨hlt, hread, hnext⟩ := getElem?_of_drop hrest
      rw [if_pos hlt, hread, operatorTail]
      simp only [Option.bind_eq_bind, Option.bind_some]
      split
      swap
      · rfl
      cases rest with
      | nil =>
          have hlength := congrArg List.length hnext
          rw [List.length_drop, List.length_nil] at hlength
          have hend : ¬ stop + 1 < input.length := by omega
          simp [hend]
      | cons third rest =>
          obtain ⟨hlt', hread', -⟩ := getElem?_of_drop hnext
          rw [hread']
          by_cases hequal : first = 61
          · by_cases hthird : third = 61 <;> simp [hequal, hlt', hthird]
          · simp [hequal]

/-- Both lexers let a regular expression begin at the same tokens. -/
theorem abstract_previous (lexer : BufferLexer) :
    (decide (lexer.abstract.previous = none) || decide (lexer.abstract.previous = some .operator) ||
        decide (lexer.abstract.previous = some .lparen)) =
      (!lexer.hasPrevious || decide (lexer.previous = .operator) ||
        decide (lexer.previous = .lparen)) := by
  rw [abstract]
  cases lexer.hasPrevious <;> simp

section Extents

variable {lexer : BufferLexer} {position : Nat} {first : UInt8} {rest : Bytes}

/-- A quoted token. -/
theorem quoted_eq (hrest : lexer.input.drop position = first :: rest) (kind : TokenKind)
    (hkind : decide (kind = .regex) = decide (first = 47)) :
    ∃ last written, probe first (first = 47) lexer.input (position + 1) 0 = some (last, written) ∧
      Describes lexer.input position
        ⟨kind, true, position + 1, closing lexer.input last, written⟩ kind
        (quoted first (first = 47) rest).1 ((quoted first (first = 47) rest).2 + 1) := by
  obtain ⟨hlt, hread, hnext⟩ := getElem?_of_drop hrest
  obtain ⟨last, hprobe, hclosing⟩ := @probe_eq first (decide (first = 47)) lexer.input rest
    (position + 1) hnext hlt 0
  refine ⟨last, _, hprobe, rfl, ?_, Nat.zero_add _, ?_⟩
  · show closing lexer.input last = position + ((quoted first (first = 47) rest).2 + 1)
    omega
  · exact ⟨first, _, hread, rfl, by rw [hnext, hkind], rfl, rfl⟩

/-- A run of bytes behind the first one. -/
theorem run_eq (hrest : lexer.input.drop position = first :: rest) (test : UInt8 → Bool)
    (kind : TokenKind) :
    scanWhile test lexer.input lexer.input.length (position + 1) =
        some (position + 1 + (rest.takeWhile test).length) ∧
      Describes lexer.input position
        (plain kind (position + 1) (position + 1 + (rest.takeWhile test).length)) kind
        (rest.takeWhile test) ((rest.takeWhile test).length + 1) ∧
      Describes lexer.input position
        (plain kind position (position + 1 + (rest.takeWhile test).length)) kind
        (first :: rest.takeWhile test) ((rest.takeWhile test).length + 1) := by
  obtain ⟨hlt, hread, hnext⟩ := getElem?_of_drop hrest
  have hscan := scanWhile_drop test lexer.input hlt
  have hle : (rest.takeWhile test).length ≤ rest.length := (List.takeWhile_prefix test).length_le
  have htake : rest.take (rest.takeWhile test).length = rest.takeWhile test :=
    (List.prefix_iff_eq_take.mp (List.takeWhile_prefix test)).symm
  have hsize : rest.length = lexer.input.length - (position + 1) := by
    rw [← hnext, List.length_drop]
  rw [hnext] at hscan
  refine ⟨hscan, describes_plain ?_ rfl ?_ ?_, describes_plain ?_ ?_ ?_ ?_⟩
  · omega
  · omega
  · rw [hnext, htake]
  · omega
  · rw [List.length_cons]
    omega
  · omega
  · rw [hrest, List.length_cons, List.take_succ_cons, htake]

/-- A token of one byte. -/
theorem single_eq (hrest : lexer.input.drop position = first :: rest) (kind : TokenKind) :
    Describes lexer.input position (plain kind position (position + 1)) kind [first] 1 := by
  obtain ⟨hlt, hread, hnext⟩ := getElem?_of_drop hrest
  refine describes_plain rfl rfl hlt ?_
  rw [hrest]
  rfl

/-- An operator. -/
theorem operator_eq (hrest : lexer.input.drop position = first :: rest) :
    operatorEnd lexer.input first (position + 1) =
        some (position + 1 + (operatorTail first rest).length) ∧
      Describes lexer.input position
        (plain .operator position (position + 1 + (operatorTail first rest).length)) .operator
        (first :: operatorTail first rest) ((operatorTail first rest).length + 1) := by
  obtain ⟨hlt, hread, hnext⟩ := getElem?_of_drop hrest
  have hsize : rest.length = lexer.input.length - (position + 1) := by
    rw [← hnext, List.length_drop]
  have hle := operatorTail_length first rest
  refine ⟨operatorEnd_eq hnext first, describes_plain ?_ ?_ ?_ ?_⟩
  · omega
  · rw [List.length_cons]
    omega
  · omega
  · rw [hrest, List.length_cons, List.take_succ_cons, operatorTail_prefix]

/-- The token at a position is the one that the lexer reads there. -/
theorem extent_eq (hrest : lexer.input.drop position = first :: rest) :
    match lexeme lexer.abstract.previous first rest with
    | none => extent lexer position = some none
    | some (kind, text, length) => ∃ found, extent lexer position = some (some found) ∧
        Describes lexer.input position found kind text length := by
  obtain ⟨hlt, hread, hnext⟩ := getElem?_of_drop hrest
  have hmore : decide (position + 1 < lexer.input.length) = !rest.isEmpty := by
    have hsize : rest.length = lexer.input.length - (position + 1) := by
      rw [← hnext, List.length_drop]
    cases rest with
    | nil =>
        rw [List.length_nil] at hsize
        simp
        omega
    | cons second rest =>
        rw [List.length_cons] at hsize
        simp
        omega
  rw [extent, lexeme, hread]
  simp only [Option.bind_eq_bind, Option.bind_some, hmore, ← abstract_previous]
  by_cases hvariable : first = 36
  · obtain ⟨hscan, hfound, -⟩ := run_eq hrest (fun byte => isWord byte || byte = 46) .variable
    rw [if_pos hvariable, if_pos hvariable, hscan]
    exact ⟨_, rfl, hfound⟩
  rw [if_neg hvariable, if_neg hvariable]
  by_cases hstring : (decide (first = 39) || decide (first = 34)) = true
  · have hslash : first ≠ 47 := by
      rintro rfl
      exact absurd hstring (by decide)
    obtain ⟨last, written, hprobe, hfound⟩ := quoted_eq hrest .string (by simp [hslash])
    rw [decide_eq_false hslash] at hprobe hfound
    rw [if_pos hstring, if_pos (by rw [hstring, Bool.true_or]), decide_eq_false hslash, hprobe,
      if_neg hslash]
    exact ⟨_, rfl, hfound⟩
  rw [Bool.not_eq_true] at hstring
  rw [hstring, Bool.false_or, if_neg Bool.false_ne_true]
  split_ifs with hregex hslash hdigit hopen hclose hdot hoperator hidentifier
  · obtain ⟨last, written, hprobe, hfound⟩ := quoted_eq hrest .regex (by simp [hslash])
    rw [decide_eq_true hslash] at hprobe hfound
    rw [decide_eq_true hslash, hprobe]
    exact ⟨_, rfl, hfound⟩
  · rw [decide_eq_false hslash] at hregex
    exact absurd hregex Bool.false_ne_true
  · obtain ⟨hscan, -, hfound⟩ := run_eq hrest (fun byte => isDigit byte || byte = 46) .number
    rw [hscan]
    exact ⟨_, rfl, hfound⟩
  · exact ⟨_, rfl, single_eq hrest .lparen⟩
  · exact ⟨_, rfl, single_eq hrest .rparen⟩
  · exact ⟨_, rfl, single_eq hrest .dot⟩
  · obtain ⟨hend, hfound⟩ := operator_eq hrest
    rw [hend]
    exact ⟨_, rfl, hfound⟩
  · obtain ⟨hscan, -, hfound⟩ := run_eq hrest isWord .identifier
    rw [hscan]
    exact ⟨_, rfl, hfound⟩
  · rfl

end Extents

end BufferLexer

/-! ## What comes next -/

namespace Lexer

/-- The input from the place of the next token on. -/
theorem drop_start (lexer : Lexer) :
    lexer.input.drop lexer.start = lexer.rest.dropWhile isSpace := by
  have hsplit := @List.takeWhile_append_dropWhile _ isSpace lexer.rest
  rw [start, ← List.drop_drop, ← rest]
  calc lexer.rest.drop (lexer.rest.takeWhile isSpace).length
      = (lexer.rest.takeWhile isSpace ++ lexer.rest.dropWhile isSpace).drop
          (lexer.rest.takeWhile isSpace).length := by rw [hsplit]
    _ = lexer.rest.dropWhile isSpace := List.drop_left

/-- The next token and its end, whatever room there is for its text. -/
def upcoming (lexer : Lexer) : Option (Token × Nat) :=
  match lexer.rest.dropWhile isSpace with
  | [] => some (⟨.finish, lexer.start, []⟩, lexer.start)
  | first :: rest => (lexeme lexer.previous first rest).map fun (kind, text, length) =>
      (⟨kind, lexer.start, text⟩, lexer.start + length)

/-- A token begins after the white space, or the text ends there. -/
def Valid (lexer : Lexer) : Prop :=
  match lexer.rest.dropWhile isSpace with
  | [] => True
  | first :: rest => isWord first = true ∨ first ∈ ascii "$'\"().=!<>&|" ∨ (first = 47 ∧ rest ≠ [])

theorem lexeme_isSome_iff (previous : Option TokenKind) (first : UInt8) (rest : Bytes) :
    (lexeme previous first rest).isSome = true ↔
      isWord first = true ∨ first ∈ ascii "$'\"().=!<>&|" ∨ (first = 47 ∧ rest ≠ []) := by
  have hbytes : ascii "$'\"().=!<>&|" =
      [36, 39, 34, 40, 41, 46, 61, 33, 60, 62, 38, 124] := by decide
  have hempty : rest.isEmpty = false ↔ rest ≠ [] := by cases rest <;> simp
  rw [hbytes, lexeme, isWord]
  simp only [List.mem_cons, List.not_mem_nil, or_false, List.contains_cons, List.contains_nil]
  split_ifs <;> simp_all
  rename_i hquote
  rcases hquote with rfl | rfl <;> simp

theorem upcoming_isSome_iff (lexer : Lexer) : lexer.upcoming.isSome = true ↔ lexer.Valid := by
  rw [upcoming, Valid]
  cases lexer.rest.dropWhile isSpace with
  | nil => simp
  | cons first rest => rw [Option.isSome_map, lexeme_isSome_iff]

/-- A token lies between the white space before it and the end of the input. -/
theorem upcoming_within {lexer : Lexer} (hwithin : lexer.Within) {token : Token} {stop : Nat}
    (hupcoming : lexer.upcoming = some (token, stop)) :
    token.position = lexer.start ∧ lexer.start + token.text.length ≤ stop ∧
      stop ≤ lexer.input.length ∧ (token.kind = .finish ↔ lexer.start = lexer.input.length) ∧
      (token.kind = .finish → stop = lexer.start) ∧
      (token.kind ≠ .finish → lexer.start < stop) := by
  have hlength := lexer.start_add_length hwithin
  rw [upcoming] at hupcoming
  cases hrest : lexer.rest.dropWhile isSpace with
  | nil =>
      rw [hrest] at hupcoming hlength
      simp only [Option.some.injEq, Prod.mk.injEq] at hupcoming
      obtain ⟨rfl, rfl⟩ := hupcoming
      rw [List.length_nil] at hlength
      simp
      omega
  | cons first rest =>
      rw [hrest] at hupcoming hlength
      rw [List.length_cons] at hlength
      simp only [Option.map_eq_some_iff] at hupcoming
      obtain ⟨⟨kind, text, length⟩, hlexeme, hfound⟩ := hupcoming
      simp only [Prod.mk.injEq] at hfound
      obtain ⟨rfl, rfl⟩ := hfound
      obtain ⟨hkind, htext, hpositive, hbound⟩ := lexeme_length hlexeme
      simp only [hkind, false_iff, false_implies, true_and, ne_eq, not_false_eq_true,
        forall_true_left]
      omega

end Lexer

namespace BufferLexer

/-- The token that a call finds is the one that comes next. -/
theorem found_eq (lexer : BufferLexer) (hwithin : lexer.abstract.Within) :
    match lexer.abstract.upcoming with
    | none => lexer.abstract.start < lexer.input.length ∧
        extent lexer lexer.abstract.start = some none
    | some (token, stop) => ∃ found, (if lexer.abstract.start < lexer.input.length then
          extent lexer lexer.abstract.start
        else some (some (plain .finish lexer.abstract.start lexer.abstract.start))) =
          some (some found) ∧
        token.position = lexer.abstract.start ∧ found.stop = stop ∧
        ∃ length,
          Describes lexer.input lexer.abstract.start found token.kind token.text length := by
  have hlength : lexer.abstract.start + (lexer.abstract.rest.dropWhile isSpace).length =
      lexer.input.length := lexer.abstract.start_add_length hwithin
  have hdrop : lexer.input.drop lexer.abstract.start = lexer.abstract.rest.dropWhile isSpace :=
    lexer.abstract.drop_start
  rw [Lexer.upcoming]
  cases hrest : lexer.abstract.rest.dropWhile isSpace with
  | nil =>
      rw [hrest, List.length_nil] at hlength
      refine ⟨_, if_neg (by omega), rfl, rfl, 0, describes_plain rfl rfl ?_ rfl⟩
      exact Nat.le_of_eq hlength
  | cons first rest =>
      rw [hrest, List.length_cons] at hlength
      have hstart : lexer.abstract.start < lexer.input.length := by omega
      have hextent := extent_eq (hdrop.trans hrest)
      cases hlexeme : lexeme lexer.abstract.previous first rest with
      | none =>
          rw [hlexeme] at hextent
          simp only [hlexeme, Option.map_none]
          exact ⟨hstart, hextent⟩
      | some lexed =>
          obtain ⟨kind, text, length⟩ := lexed
          rw [hlexeme] at hextent
          obtain ⟨found, hfound, hdescribes⟩ := hextent
          simp only [hlexeme, Option.map_some, true_and]
          exact ⟨found, (if_pos hstart).trans hfound, hdescribes.stop_eq, length, hdescribes⟩

/-- A call with a value, inside of the input. -/
theorem next_block (lexer : BufferLexer) (hwithin : lexer.abstract.Within) (token : TokenHeader)
    (cells : Bytes) (required : Nat) :
    lexer.next token (.block cells) required =
      match lexer.abstract.upcoming with
      | none => some ⟨.einval, { lexer with errorPosition := lexer.abstract.start }, token,
          .block cells, required⟩
      | some (found, stop) =>
          if cells.length ≤ found.text.length then
            some ⟨.enobufs, lexer, token, .block cells, found.text.length⟩
          else some ⟨.ok,
            { lexer with offset := stop, previous := found.kind, hasPrevious := true },
            ⟨found.kind, found.position, found.text.length⟩,
            .block (Arena.write cells 0 (found.text ++ [0])), found.text.length⟩ := by
  have hinside : ¬ lexer.offset > lexer.input.length := Nat.not_lt.mpr hwithin
  have hscan : scanWhile isSpace lexer.input lexer.input.length lexer.offset =
      some lexer.abstract.start := scanWhile_drop isSpace lexer.input hwithin
  have hfound := lexer.found_eq hwithin
  rw [next]
  · simp only [if_neg hinside, hscan, Option.bind_eq_bind, Option.bind_some]
    cases hupcoming : lexer.abstract.upcoming with
    | none =>
        rw [hupcoming] at hfound
        rw [if_pos hfound.1, hfound.2]
        rfl
    | some next =>
        obtain ⟨next, stop⟩ := next
        rw [hupcoming] at hfound
        obtain ⟨found, hfound, hposition, hstop, length, hdescribes⟩ := hfound
        rw [hfound]
        simp only [Option.bind_some, hdescribes.written_eq]
        by_cases hfits : cells.length ≤ next.text.length
        · rw [if_pos hfits, if_pos hfits]
        · rw [if_neg hfits, if_neg hfits, hdescribes.write_eq (Nat.lt_of_not_le hfits)]
          simp only [Option.bind_some, hdescribes.kind_eq, hstop, hposition]
  · exact fun _ hvalue => nomatch hvalue

/-- A call without a value, inside of the input. -/
theorem next_null (lexer : BufferLexer) (hwithin : lexer.abstract.Within) (token : TokenHeader)
    (required : Nat) :
    lexer.next token (.null 0) required =
      match lexer.abstract.upcoming with
      | none => some ⟨.einval, { lexer with errorPosition := lexer.abstract.start }, token,
          .null 0, required⟩
      | some (found, _) => some ⟨.enobufs, lexer, token, .null 0, found.text.length⟩ := by
  have hinside : ¬ lexer.offset > lexer.input.length := Nat.not_lt.mpr hwithin
  have hscan : scanWhile isSpace lexer.input lexer.input.length lexer.offset =
      some lexer.abstract.start := scanWhile_drop isSpace lexer.input hwithin
  have hfound := lexer.found_eq hwithin
  rw [next]
  · simp only [if_neg hinside, hscan, Option.bind_eq_bind, Option.bind_some]
    cases hupcoming : lexer.abstract.upcoming with
    | none =>
        rw [hupcoming] at hfound
        rw [if_pos hfound.1, hfound.2]
        rfl
    | some next =>
        obtain ⟨next, stop⟩ := next
        rw [hupcoming] at hfound
        obtain ⟨found, hfound, -, -, length, hdescribes⟩ := hfound
        rw [hfound]
        simp only [Option.bind_some, hdescribes.written_eq]
  · exact fun _ hvalue => nomatch hvalue

end BufferLexer

/-- A positive capacity comes with a value. -/
def ValueBuffer.Given : ValueBuffer → Prop
  | null capacity => capacity = 0
  | block _ => True

/-- The arguments of a call, and what its outputs hold before. -/
structure LexerRequest where
  token : TokenHeader
  value : ValueBuffer
  required : Nat
  deriving DecidableEq, Repr

namespace BufferLexer

/-- A call with these arguments. -/
def serve (lexer : BufferLexer) (request : LexerRequest) : Option LexerCall :=
  lexer.next request.token request.value request.required

/-- The lexer after some calls. -/
def serveAll : BufferLexer → List LexerRequest → Option BufferLexer
  | lexer, [] => some lexer
  | lexer, request :: requests => do
      let call ← lexer.serve request
      call.lexer.serveAll requests

/-- What a call promises. -/
structure CallSound (lexer : BufferLexer) (request : LexerRequest) (call : LexerCall) : Prop where
  ok_iff : call.status = .ok ↔
    request.value.Given ∧ lexer.abstract.Valid ∧ call.required < request.value.capacity
  enobufs_iff : call.status = .enobufs ↔
    request.value.Given ∧ lexer.abstract.Valid ∧ request.value.capacity ≤ call.required
  refused : call.status = .ok ∨ call.status = .enobufs ∨ call.status = .einval
  required_le : call.status ≠ .einval → call.required ≤ lexer.input.length
  /-- The text and its NUL are written, and nothing behind them. -/
  written : call.status = .ok → ∃ cells text, request.value = .block cells ∧
    text.length = call.required ∧ call.token.size = call.required ∧
    call.value = .block (text ++ 0 :: cells.drop (call.required + 1))
  input_eq : call.lexer.input = lexer.input
  kept : call.status ≠ .ok → call.lexer.offset = lexer.offset ∧
    call.lexer.previous = lexer.previous ∧ call.lexer.hasPrevious = lexer.hasPrevious ∧
    call.token = request.token ∧ call.value = request.value
  retry : call.status = .enobufs → call.lexer = lexer
  /-- Every value with room for the required bytes and a NUL gets the same token. -/
  same : call.status ≠ .einval → ∃ token later text, text.length = call.required ∧
    ∀ again : LexerRequest, ∀ cells, again.value = .block cells → call.required < cells.length →
      lexer.serve again = some ⟨.ok, later, token,
        .block (text ++ 0 :: cells.drop (call.required + 1)), call.required⟩
  progress : call.status = .ok → lexer.offset ≤ call.token.position ∧
    call.token.position ≤ call.lexer.offset ∧ call.lexer.offset ≤ lexer.input.length ∧
    (call.token.kind ≠ .finish → call.token.position < call.lexer.offset)
  /-- What is left out before a token is white space. -/
  skipped : call.status = .ok → ∀ byte ∈ (lexer.input.drop lexer.offset).take
    (call.token.position - lexer.offset), isSpace byte = true
  finish_iff : call.status = .ok →
    (call.token.kind = .finish ↔ call.token.position = lexer.input.length)

/-- The white space before a token. -/
theorem skipped_eq (lexer : BufferLexer) :
    ∀ byte ∈ (lexer.input.drop lexer.offset).take (lexer.abstract.start - lexer.offset),
      isSpace byte = true := by
  have hsize : lexer.abstract.start - lexer.offset =
      ((lexer.input.drop lexer.offset).takeWhile isSpace).length := Nat.add_sub_cancel_left _ _
  have htake := List.prefix_iff_eq_take.mp
    (List.takeWhile_prefix (l := lexer.input.drop lexer.offset) isSpace)
  rw [hsize, ← htake]
  exact fun byte hmem => List.mem_takeWhile_imp hmem

theorem write_text (cells text : Bytes) :
    Arena.write cells 0 (text ++ [0]) = text ++ 0 :: cells.drop (text.length + 1) := by
  simp [Arena.write]

/-- A value that is given and has room for the text of the next token. -/
theorem serve_room {lexer : BufferLexer} (hwithin : lexer.abstract.Within) {found : Token}
    {stop : Nat} (hupcoming : lexer.abstract.upcoming = some (found, stop))
    {request : LexerRequest} {cells : Bytes} (hvalue : request.value = .block cells)
    (hroom : found.text.length < cells.length) :
    lexer.serve request = some ⟨.ok,
      { lexer with offset := stop, previous := found.kind, hasPrevious := true },
      ⟨found.kind, found.position, found.text.length⟩,
      .block (found.text ++ 0 :: cells.drop (found.text.length + 1)), found.text.length⟩ := by
  rw [serve, hvalue, lexer.next_block hwithin, hupcoming]
  simp only [if_neg (Nat.not_le.mpr hroom), write_text]

/-- A call that refuses its arguments or the input. -/
theorem refused_sound {lexer : BufferLexer} {request : LexerRequest}
    (hrefused : ¬ (request.value.Given ∧ lexer.abstract.Valid)) (errorPosition : Nat) :
    CallSound lexer request ⟨.einval, { lexer with errorPosition }, request.token, request.value,
      request.required⟩ where
  ok_iff := ⟨nofun, fun ⟨hgiven, hvalid, _⟩ => absurd ⟨hgiven, hvalid⟩ hrefused⟩
  enobufs_iff := ⟨nofun, fun ⟨hgiven, hvalid, _⟩ => absurd ⟨hgiven, hvalid⟩ hrefused⟩
  refused := .inr (.inr rfl)
  required_le := fun hne => absurd rfl hne
  written := nofun
  input_eq := rfl
  kept := fun _ => ⟨rfl, rfl, rfl, rfl, rfl⟩
  retry := nofun
  same := fun hne => absurd rfl hne
  progress := nofun
  skipped := nofun
  finish_iff := nofun

section Upcoming

variable {lexer : BufferLexer} {found : Token} {stop : Nat}

/-- A call that only reports the size of the next token. -/
theorem short_sound (hwithin : lexer.abstract.Within)
    (hupcoming : lexer.abstract.upcoming = some (found, stop)) {request : LexerRequest}
    (hgiven : request.value.Given) (hshort : request.value.capacity ≤ found.text.length) :
    CallSound lexer request ⟨.enobufs, lexer, request.token, request.value,
      found.text.length⟩ where
  ok_iff := ⟨nofun, fun ⟨_, _, hroom⟩ => absurd hroom (Nat.not_lt.mpr hshort)⟩
  enobufs_iff := by
    have hvalid := lexer.abstract.upcoming_isSome_iff.mp (by rw [hupcoming]; rfl)
    exact ⟨fun _ => ⟨hgiven, hvalid, hshort⟩, fun _ => rfl⟩
  refused := .inr (.inl rfl)
  required_le := fun _ => by
    obtain ⟨-, htext, hstop, -⟩ := Lexer.upcoming_within hwithin hupcoming
    have hinput : stop ≤ lexer.input.length := hstop
    show found.text.length ≤ lexer.input.length
    omega
  written := nofun
  input_eq := rfl
  kept := fun _ => ⟨rfl, rfl, rfl, rfl, rfl⟩
  retry := fun _ => rfl
  same := fun _ => ⟨_, _, found.text, rfl, fun _ _ hvalue hroom =>
    serve_room hwithin hupcoming hvalue hroom⟩
  progress := nofun
  skipped := nofun
  finish_iff := nofun

/-- A call that returns a token. -/
theorem room_sound (hwithin : lexer.abstract.Within)
    (hupcoming : lexer.abstract.upcoming = some (found, stop)) {request : LexerRequest}
    {cells : Bytes} (hvalue : request.value = .block cells)
    (hroom : found.text.length < cells.length) :
    CallSound lexer request ⟨.ok,
      { lexer with offset := stop, previous := found.kind, hasPrevious := true },
      ⟨found.kind, found.position, found.text.length⟩,
      .block (found.text ++ 0 :: cells.drop (found.text.length + 1)), found.text.length⟩ := by
  have hvalid := lexer.abstract.upcoming_isSome_iff.mp (by rw [hupcoming]; rfl)
  have hcapacity : request.value.capacity = cells.length := by
    rw [hvalue]
    rfl
  have hgiven : request.value.Given := by
    rw [hvalue]
    trivial
  obtain ⟨hposition, htext, hstop, hfinish, hend, hmore⟩ :=
    Lexer.upcoming_within hwithin hupcoming
  have hinput : stop ≤ lexer.input.length := hstop
  have hstart : lexer.offset ≤ lexer.abstract.start := Nat.le_add_right _ _
  exact {
    ok_iff := ⟨fun _ => ⟨hgiven, hvalid, by rw [hcapacity]; exact hroom⟩, fun _ => rfl⟩
    enobufs_iff := ⟨nofun, fun ⟨_, _, hshort⟩ => by
      rw [hcapacity] at hshort
      exact absurd hroom (Nat.not_lt.mpr hshort)⟩
    refused := .inl rfl
    required_le := fun _ => by
      show found.text.length ≤ lexer.input.length
      omega
    written := fun _ => ⟨cells, found.text, hvalue, rfl, rfl, rfl⟩
    input_eq := rfl
    kept := fun hne => absurd rfl hne
    retry := nofun
    same := fun _ => ⟨_, _, found.text, rfl, fun _ _ hvalue hroom =>
      serve_room hwithin hupcoming hvalue hroom⟩
    progress := fun _ => by
      show lexer.offset ≤ found.position ∧ found.position ≤ stop ∧ stop ≤ lexer.input.length ∧
        (found.kind ≠ .finish → found.position < stop)
      rw [hposition]
      exact ⟨hstart, by omega, hinput, hmore⟩
    skipped := fun _ => by
      show ∀ byte ∈ (lexer.input.drop lexer.offset).take (found.position - lexer.offset),
        isSpace byte = true
      rw [hposition]
      exact lexer.skipped_eq
    finish_iff := fun _ => by
      show found.kind = .finish ↔ found.position = lexer.input.length
      rw [hposition]
      exact hfinish }

end Upcoming

/-- A call inside of the input keeps its promises. -/
theorem serve_sound (lexer : BufferLexer) (hwithin : lexer.abstract.Within)
    (request : LexerRequest) :
    ∃ call, lexer.serve request = some call ∧ CallSound lexer request call ∧
      call.lexer.abstract.Within := by
  have hvalid := lexer.abstract.upcoming_isSome_iff
  cases hvalue : request.value with
  | null capacity =>
      cases capacity with
      | succ capacity =>
          have hrefused : ¬ (request.value.Given ∧ lexer.abstract.Valid) := by
            rw [hvalue]
            exact fun hgiven => absurd hgiven.1 (Nat.succ_ne_zero capacity)
          refine ⟨_, ?_, refused_sound hrefused lexer.errorPosition, hwithin⟩
          rw [serve, hvalue, next]
      | zero =>
          cases hupcoming : lexer.abstract.upcoming with
          | none =>
              have hrefused : ¬ (request.value.Given ∧ lexer.abstract.Valid) := by
                rw [← hvalid, hupcoming]
                exact fun hgiven => absurd hgiven.2 Bool.false_ne_true
              refine ⟨_, ?_, refused_sound hrefused lexer.abstract.start, hwithin⟩
              rw [serve, hvalue, lexer.next_null hwithin, hupcoming]
          | some next =>
              refine ⟨_, ?_, short_sound hwithin hupcoming (by rw [hvalue]; rfl)
                (by rw [hvalue]; exact Nat.zero_le _), hwithin⟩
              rw [serve, hvalue, lexer.next_null hwithin, hupcoming]
  | block cells =>
      cases hupcoming : lexer.abstract.upcoming with
      | none =>
          have hrefused : ¬ (request.value.Given ∧ lexer.abstract.Valid) := by
            rw [← hvalid, hupcoming]
            exact fun hgiven => absurd hgiven.2 Bool.false_ne_true
          refine ⟨_, ?_, refused_sound hrefused lexer.abstract.start, hwithin⟩
          rw [serve, hvalue, lexer.next_block hwithin, hupcoming]
      | some next =>
          obtain ⟨found, stop⟩ := next
          by_cases hshort : cells.length ≤ found.text.length
          · refine ⟨_, ?_, short_sound hwithin hupcoming (by rw [hvalue]; trivial)
              (by rw [hvalue]; exact hshort), hwithin⟩
            rw [serve, hvalue, lexer.next_block hwithin, hupcoming]
            exact if_pos hshort
          · have hroom := Nat.lt_of_not_le hshort
            obtain ⟨-, -, hstop, -⟩ := Lexer.upcoming_within hwithin hupcoming
            exact ⟨_, serve_room hwithin hupcoming hvalue hroom,
              room_sound hwithin hupcoming hvalue hroom, hstop⟩

/-- How a scan ends. -/
inductive ScanEnd
  | finished
  | failed (status : Salts)
  | unfinished
  deriving DecidableEq, Repr

/-- The tokens up to the last one, each with its end, by a call for each request. -/
def scan : BufferLexer → List LexerRequest → Option (List (TokenHeader × Nat) × ScanEnd)
  | _, [] => some ([], .unfinished)
  | lexer, request :: requests => do
      let call ← lexer.serve request
      if call.status ≠ .ok then some ([], .failed call.status)
      else if call.token.kind = .finish then some ([(call.token, call.lexer.offset)], .finished)
      else do
        let (tokens, ending) ← call.lexer.scan requests
        some ((call.token, call.lexer.offset) :: tokens, ending)

/-- Tokens that lie one after the other between two positions, with white space before them. -/
def Covers (input : Bytes) : Nat → List (TokenHeader × Nat) → Nat → Prop
  | start, [], stop => start = stop
  | start, (token, last) :: tokens, stop => start ≤ token.position ∧ token.position ≤ last ∧
      (∀ byte ∈ (input.drop start).take (token.position - start), isSpace byte = true) ∧
      Covers input last tokens stop

/-- What a scan promises. -/
structure ScanSound (lexer : BufferLexer) (requests : List LexerRequest)
    (tokens : List (TokenHeader × Nat)) (ending : ScanEnd) : Prop where
  covers : ∃ stop, Covers lexer.input lexer.offset tokens stop ∧ stop ≤ lexer.input.length ∧
    (ending = .finished → stop = lexer.input.length)
  ends : lexer.input.length < lexer.offset + requests.length → ending ≠ .unfinished
  length_le : tokens.length ≤ lexer.input.length - lexer.offset + 1

/-- A scan inside of the input keeps its promises. -/
theorem scan_sound (lexer : BufferLexer) (requests : List LexerRequest)
    (hwithin : lexer.abstract.Within) :
    ∃ tokens ending, lexer.scan requests = some (tokens, ending) ∧
      ScanSound lexer requests tokens ending := by
  have hinside : lexer.offset ≤ lexer.input.length := hwithin
  induction requests generalizing lexer with
  | nil =>
      refine ⟨[], .unfinished, rfl, ⟨lexer.offset, rfl, hinside, nofun⟩, ?_, Nat.zero_le _⟩
      exact fun hless => absurd hless (Nat.not_lt.mpr hinside)
  | cons request requests ih =>
      obtain ⟨call, hserve, hsound, hlater⟩ := lexer.serve_sound hwithin request
      rw [scan, hserve]
      simp only [Option.bind_eq_bind, Option.bind_some]
      by_cases hok : call.status = .ok
      · obtain ⟨hbefore, hsize, hstop, hmore⟩ := hsound.progress hok
        have hskipped := hsound.skipped hok
        rw [if_neg (not_not.mpr hok)]
        by_cases hfinish : call.token.kind = .finish
        · have hend := (hsound.finish_iff hok).mp hfinish
          rw [if_pos hfinish]
          refine ⟨_, _, rfl, ⟨call.lexer.offset, ⟨hbefore, hsize, hskipped, rfl⟩, hstop, ?_⟩,
            nofun, Nat.le_add_left _ _⟩
          exact fun _ => by omega
        · have hstrict := hmore hfinish
          obtain ⟨tokens, ending, hscan, hrest⟩ := ih call.lexer hlater hlater
          obtain ⟨⟨stop, hcovers, hbound, hfinished⟩, hends, hlength⟩ := hrest
          rw [hsound.input_eq] at hcovers hbound hfinished hends hlength
          rw [if_neg hfinish, hscan]
          refine ⟨_, _, rfl, ⟨stop, ⟨hbefore, hsize, hskipped, hcovers⟩, hbound, hfinished⟩, ?_, ?_⟩
          · rw [List.length_cons]
            exact fun hless => hends (by omega)
          · show tokens.length + 1 ≤ lexer.input.length - lexer.offset + 1
            omega
      · rw [if_pos hok]
        exact ⟨_, _, rfl, ⟨lexer.offset, rfl, hinside, nofun⟩, nofun, Nat.zero_le _⟩

/-- Any calls lead to a lexer inside of its input. -/
theorem serveAll_within (requests : List LexerRequest) (lexer : BufferLexer)
    (hwithin : lexer.abstract.Within) :
    ∃ later, lexer.serveAll requests = some later ∧ later.input = lexer.input ∧
      later.abstract.Within := by
  induction requests generalizing lexer with
  | nil => exact ⟨lexer, rfl, rfl, hwithin⟩
  | cons request requests ih =>
      obtain ⟨call, hserve, hsound, hlater⟩ := lexer.serve_sound hwithin request
      obtain ⟨later, hlast, hinput, hinside⟩ := ih call.lexer hlater
      refine ⟨later, ?_, hinput.trans hsound.input_eq, hinside⟩
      rw [serveAll, hserve]
      exact hlast

/-- Calls on a text and scans of what is left of it keep their promises, in every state that
calls lead to. -/
theorem tokensRead (input : Bytes) (requests : List LexerRequest) :
    ∃ lexer, (init input).serveAll requests = some lexer ∧ lexer.input = input ∧
      (∀ request, ∃ call, lexer.serve request = some call ∧ CallSound lexer request call) ∧
      ∀ later, ∃ tokens ending, lexer.scan later = some (tokens, ending) ∧
        ScanSound lexer later tokens ending := by
  obtain ⟨lexer, hlexer, hinput, hwithin⟩ :=
    serveAll_within requests (init input) (Nat.zero_le input.length)
  refine ⟨lexer, hlexer, hinput, fun request => ?_, fun later => lexer.scan_sound later hwithin⟩
  obtain ⟨call, hserve, hsound, -⟩ := lexer.serve_sound hwithin request
  exact ⟨call, hserve, hsound⟩

end BufferLexer

end Praktor.Expressions
