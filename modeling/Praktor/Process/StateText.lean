/-
# The text of a status command

`praktor_service_parse_state` with its loops over positions, in which every read is checked.
It is proved to read what `praktorServiceParseState` says of the lines, and the lines that
give a state are described by their grammar.

The main result: a state is read exactly from a text whose first `STATE` line holds its
number, no read leaves the text, and nothing beyond that line is read.
-/

import Mathlib.Data.List.TakeWhile
import Praktor.Documents.Integers
import Praktor.Math.Scanning
import Praktor.Process.ServiceControl

namespace Praktor.Process

open Praktor.Data Praktor.Math Praktor.Documents

/-! ## The scanner -/

namespace StateScan

/-- A space or a tab. -/
def isBlank (byte : UInt8) : Bool := byte = 32 || byte = 9

/-- A space, a tab or a carriage return. -/
def isIndent (byte : UInt8) : Bool := byte = 32 || byte = 9 || byte = 13

section Positions

variable (output : Bytes) (stop : Nat)

/-- The loop over the digits: the number and the position after them. -/
def digits (value position : Nat) : Option (Except Salts (Nat × Nat)) :=
  if position < stop then
    match output[position]? with
    | none => none
    | some byte =>
        if 48 ≤ byte ∧ byte ≤ 57 then
          let next := (byte - 48).toNat
          if value > (2147483647 - next) / 10 then some (.error .einval)
          else digits (value * 10 + next) (position + 1)
        else some (.ok (value, position))
  else some (.ok (value, position))
termination_by stop - position

/-- A number ends at the end of its line or before white space. -/
def ended (position : Nat) : Option Bool :=
  if position < stop then output[position]?.map isSpace else some true

/-- The checks after the digits, which begin at `digit`. -/
def finish (digit : Nat) : Except Salts (Nat × Nat) → Option (Except Salts Nat)
  | .error status => some (.error status)
  | .ok (value, position) =>
      if position = digit then some (.error .einval)
      else do
        let ended ← ended output stop position
        if !ended || value < 1 || value > 4 then some (.error .einval) else some (.ok value)

/-- What stands on a line after `STATE`. -/
def field (position : Nat) : Option (Except Salts Nat) := do
  let colon ← scanWhile (· ≠ 58) output stop position
  if colon = stop then some (.error .einval)
  else do
    let digit ← scanWhile isBlank output stop (colon + 1)
    let result ← digits output stop 0 digit
    finish output stop digit result

/-- `memcmp` with a text. -/
def holds (position : Nat) (text : Bytes) : Option Bool :=
  if position + text.length ≤ output.length then
    some (decide ((output.drop position).take text.length = text))
  else none

/-- The test for `STATE`. -/
def atState (position : Nat) : Option Bool :=
  if stop - position ≥ 5 then do
    if ← holds output position (ascii "STATE") then
      if stop - position = 5 then some true
      else output[position + 5]?.map fun byte => byte = 58 || byte = 32 || byte = 9
    else some false
  else some false

end Positions

/-- The loop over the lines of the first `size` bytes. -/
def lines (output : Bytes) (size start : Nat) : Option (Except Salts Nat) :=
  if start < size then
    match hstop : scanWhile (· ≠ 10) output size start with
    | none => none
    | some stop => do
        let position ← scanWhile isIndent output stop start
        if ← atState output stop position then field output stop (position + 5)
        else lines output size (stop + 1)
  else some (.error .einval)
termination_by size - start
decreasing_by
  have hforward := le_of_scanWhile hstop
  omega

/-- `praktor_service_parse_state`: its status and the number of the state.  There is none
when a read leaves the output. -/
def parse : ServiceOutput → Option (Except Salts Nat)
  | .null size => if size ≠ 0 then some (.error .einval) else lines [] 0 0
  | .held content => lines content content.length 0

end StateScan

/-- The number of a state. -/
def ServiceState.number : ServiceState → Nat
  | .unknown => 0
  | .stopped => 1
  | .startPending => 2
  | .stopPending => 3
  | .running => 4

theorem supportedState_eq_some {value : Nat} {state : ServiceState} :
    supportedState value = some state ↔
      value = state.number ∧ 1 ≤ state.number ∧ state.number ≤ 4 := by
  constructor
  · intro hstate
    rw [supportedState.eq_def] at hstate
    split at hstate
    all_goals first | (obtain rfl := Option.some.inj hstate; decide) | cases hstate
  · rintro ⟨rfl, hlow, -⟩
    cases state with
    | unknown => exact absurd hlow (by decide)
    | stopped => rfl
    | startPending => rfl
    | stopPending => rfl
    | running => rfl

/-- What `praktor_service_parse_state` returns for a state that was read or not. -/
def stateAnswer : Option ServiceState → Except Salts Nat
  | none => .error .einval
  | some state => .ok state.number

theorem stateAnswer_supported (value : Nat) :
    stateAnswer (supportedState value) =
      if value < 1 || value > 4 then .error .einval else .ok value := by
  match value with
  | 0 | 1 | 2 | 3 | 4 => rfl
  | value + 5 =>
      have hlarge : (decide (value + 5 < 1) || decide (value + 5 > 4)) = true := by simp
      rw [if_pos hlarge]
      rfl

/-! ## Positions and lines -/

namespace StateScan

section Segments

variable (front segment back : Bytes)

theorem getElem?_front (byte : UInt8) (rest : Bytes) :
    (front ++ byte :: rest)[front.length]? = some byte := by
  rw [List.getElem?_append_right (Nat.le_refl _), Nat.sub_self]
  rfl

theorem length_front (byte : UInt8) (rest : Bytes) :
    front.length + (byte :: rest).length = (front ++ [byte]).length + rest.length := by
  simp only [List.length_append, List.length_cons, List.length_nil]
  omega

theorem ended_eq :
    ended (front ++ (segment ++ back)) (front.length + segment.length) front.length =
      some (segment.head?.all isSpace) := by
  cases segment with
  | nil =>
      rw [List.length_nil, Nat.add_zero, ended, if_neg (Nat.lt_irrefl _)]
      rfl
  | cons byte rest =>
      have hinside : front.length < front.length + (byte :: rest).length :=
        Nat.lt_add_of_pos_right (Nat.succ_pos _)
      rw [ended, if_pos hinside, List.cons_append, getElem?_front]
      rfl

/-- The checks after the digits of a number. -/
theorem finish_eq (value : Nat) {digit : Nat} (hdigit : digit ≤ front.length) :
    finish (front ++ (segment ++ back)) (front.length + segment.length) digit
        (.ok (value, front.length)) =
      some (stateAnswer (if decide (digit < front.length) && segment.head?.all isSpace then
        supportedState value else none)) := by
  rw [finish, ended_eq]
  by_cases hnone : front.length = digit
  · have hunseen : decide (digit < front.length) = false := by simp [hnone]
    rw [if_pos hnone, hunseen]
    rfl
  have hseen : decide (digit < front.length) = true := by
    rw [decide_eq_true_eq]
    omega
  rw [if_neg hnone, hseen]
  cases hspace : segment.head?.all isSpace with
  | false => simp [stateAnswer]
  | true =>
      rw [Bool.and_self, if_pos rfl, stateAnswer_supported]
      simp only [Option.bind_eq_bind, Option.bind_some, Bool.not_true, Bool.false_or]
      split_ifs <;> rfl

/-- The list model ends a number where the scanner does. -/
theorem stateNumber_end (value : Nat) (seen : Bool)
    (hend : ∀ byte ∈ segment.head?, ¬ (48 ≤ byte ∧ byte ≤ 57)) :
    stateNumber value seen segment =
      if seen && segment.head?.all isSpace then supportedState value else none := by
  cases segment with
  | nil => cases seen <;> simp [stateNumber]
  | cons byte rest =>
      rw [stateNumber, if_neg (hend byte rfl)]
      rfl

/-- The digits of a segment, from a position inside its number on. -/
theorem digits_eq (value : Nat) {digit : Nat} (hdigit : digit ≤ front.length) :
    (digits (front ++ (segment ++ back)) (front.length + segment.length) value front.length).bind
        (finish (front ++ (segment ++ back)) (front.length + segment.length) digit) =
      some (stateAnswer (stateNumber value (decide (digit < front.length)) segment)) := by
  induction segment generalizing front value with
  | nil =>
      have hempty : ¬ front.length < front.length + ([] : Bytes).length := by simp
      rw [digits, if_neg hempty, Option.bind_some, finish_eq _ _ _ _ hdigit,
        stateNumber_end _ _ _ (by simp)]
  | cons byte rest ih =>
      have hinside : front.length < front.length + (byte :: rest).length :=
        Nat.lt_add_of_pos_right (Nat.succ_pos _)
      by_cases hdecimal : 48 ≤ byte ∧ byte ≤ 57
      · rw [digits, if_pos hinside, List.cons_append, getElem?_front, stateNumber]
        simp only [if_pos hdecimal]
        by_cases hlarge : value > (2147483647 - (byte - 48).toNat) / 10
        · rw [if_pos hlarge, if_pos hlarge]
          rfl
        · have hstart : (front ++ [byte]).length = front.length + 1 := List.length_append
          have hlater := ih (front ++ [byte]) (value * 10 + (byte - 48).toNat) (by omega)
          have hcells : front ++ [byte] ++ (rest ++ back) = front ++ byte :: (rest ++ back) := by
            simp
          have hafter : decide (digit < (front ++ [byte]).length) = true := by
            rw [decide_eq_true_eq]
            omega
          rw [if_neg hlarge, if_neg hlarge, length_front, ← hstart, ← hcells, hlater, hafter]
      · have hend : ∀ other ∈ (byte :: rest).head?, ¬ (48 ≤ other ∧ other ≤ 57) := by
          rintro other hother
          obtain rfl := Option.some.inj hother
          exact hdecimal
        have hstops : digits (front ++ (byte :: rest ++ back))
            (front.length + (byte :: rest).length) value front.length =
            some (.ok (value, front.length)) := by
          rw [digits, if_pos hinside, List.cons_append, getElem?_front]
          simp only [if_neg hdecimal]
        rw [hstops, Option.bind_some, finish_eq _ _ _ _ hdigit, stateNumber_end _ _ _ hend]

/-- The same cells and the same end, from a later position on. -/
theorem advance {first rest : Bytes} (hparts : first ++ rest = segment) :
    front ++ (segment ++ back) = (front ++ first) ++ (rest ++ back) ∧
      front.length + segment.length = (front ++ first).length + rest.length := by
  subst hparts
  constructor
  · simp only [List.append_assoc]
  · simp only [List.length_append, Nat.add_assoc]

/-- What stands after the colon. -/
theorem number_eq :
    ((scanWhile isBlank (front ++ (segment ++ back)) (front.length + segment.length)
        front.length).bind fun digit =>
      (digits (front ++ (segment ++ back)) (front.length + segment.length) 0 digit).bind
        (finish (front ++ (segment ++ back)) (front.length + segment.length) digit)) =
      some (stateAnswer (stateNumber 0 false (segment.dropWhile isBlank))) := by
  obtain ⟨hcells, hstop⟩ := advance front segment back
    (List.takeWhile_append_dropWhile : segment.takeWhile isBlank ++ segment.dropWhile isBlank = _)
  have hdigits := digits_eq (front ++ segment.takeWhile isBlank) (segment.dropWhile isBlank) back 0
    (Nat.le_refl _)
  have hdigit : front.length + (segment.takeWhile isBlank).length =
      (front ++ segment.takeWhile isBlank).length :=
    List.length_append.symm
  rw [scanWhile_segment, Option.bind_some, hdigit, hcells, hstop, hdigits]
  simp

/-- What stands after `STATE`. -/
theorem field_eq :
    field (front ++ (segment ++ back)) (front.length + segment.length) front.length =
      some (stateAnswer (stateField segment)) := by
  rw [field, scanWhile_segment]
  have hparts : segment.takeWhile (· ≠ 58) ++ segment.dropWhile (· ≠ 58) = segment :=
    List.takeWhile_append_dropWhile
  simp only [Option.bind_eq_bind, Option.bind_some]
  rw [stateField]
  cases hcolon : segment.dropWhile (· ≠ 58) with
  | nil =>
      rw [hcolon, List.append_nil] at hparts
      rw [hparts, if_pos rfl]
      rfl
  | cons colon rest =>
      rw [hcolon, List.append_cons] at hparts
      obtain ⟨hcells, hstop⟩ := advance front segment back hparts
      have hnext : front.length + (segment.takeWhile (· ≠ 58)).length + 1 =
          (front ++ (segment.takeWhile (· ≠ 58) ++ [colon])).length := by
        simp only [List.length_append, List.length_cons, List.length_nil, Nat.add_assoc]
      have hmiss : ¬ front.length + (segment.takeWhile (· ≠ 58)).length =
          front.length + segment.length := by
        omega
      rw [if_neg hmiss, hnext, hcells, hstop]
      exact number_eq _ _ _

/-- The line that begins after `front`, without its line feed. -/
theorem atState_eq :
    atState (front ++ (segment ++ back)) (front.length + segment.length) front.length =
      some (segment.take 5 = ascii "STATE" &&
        (segment.drop 5).head?.all fun byte => byte = 58 || byte = 32 || byte = 9) := by
  rw [atState]
  have hlength : (ascii "STATE").length = 5 := rfl
  have hsize : front.length + segment.length - front.length = segment.length := by omega
  rw [hsize]
  by_cases hlong : segment.length ≥ 5
  swap
  · have hshort : segment.take 5 ≠ ascii "STATE" := by
      intro hsame
      have hfive := congrArg List.length hsame
      rw [List.length_take, hlength] at hfive
      omega
    rw [if_neg hlong, decide_eq_false hshort, Bool.false_and]
  have hholds : holds (front ++ (segment ++ back)) front.length (ascii "STATE") =
      some (decide (segment.take 5 = ascii "STATE")) := by
    have hinside : front.length + (ascii "STATE").length ≤ (front ++ (segment ++ back)).length := by
      simp only [hlength, List.length_append]
      omega
    rw [holds, if_pos hinside, List.drop_left, hlength, List.take_append_of_le_length hlong]
  rw [if_pos hlong, hholds]
  simp only [Option.bind_eq_bind, Option.bind_some]
  by_cases hstate : segment.take 5 = ascii "STATE"
  swap
  · rw [decide_eq_false hstate]
    rfl
  rw [decide_eq_true hstate, if_pos rfl, Bool.true_and]
  by_cases hfive : segment.length = 5
  · rw [if_pos hfive, List.drop_of_length_le (Nat.le_of_eq hfive)]
    rfl
  · rw [if_neg hfive, List.getElem?_append_right (Nat.le_add_right _ _), Nat.add_sub_cancel_left,
      List.getElem?_append_left (by omega), List.head?_drop]
    rw [List.getElem?_eq_getElem (by omega)]
    rfl

omit segment in
theorem stateLine_eq (segment : Bytes) : stateLine segment =
    if (segment.dropWhile isIndent).take 5 = ascii "STATE" then
      match (segment.dropWhile isIndent).drop 5 with
      | [] => some (stateField [])
      | byte :: rest =>
          if byte = 58 || byte = 32 || byte = 9 then some (stateField (byte :: rest)) else none
    else none := rfl

/-- What the scanner makes of a line. -/
theorem line_eq (following : Option (Except Salts Nat)) :
    ((scanWhile isIndent (front ++ (segment ++ back)) (front.length + segment.length)
        front.length).bind fun position =>
      (atState (front ++ (segment ++ back)) (front.length + segment.length) position).bind
        fun starts =>
          if starts then
            field (front ++ (segment ++ back)) (front.length + segment.length) (position + 5)
          else following) =
      match stateLine segment with
      | none => following
      | some state => some (stateAnswer state) := by
  obtain ⟨hcells, hstop⟩ := advance front segment back
    (List.takeWhile_append_dropWhile : segment.takeWhile isIndent ++ segment.dropWhile isIndent = _)
  have hposition : front.length + (segment.takeWhile isIndent).length =
      (front ++ segment.takeWhile isIndent).length :=
    List.length_append.symm
  rw [scanWhile_segment, Option.bind_some, hposition, hcells, hstop, atState_eq, Option.bind_some,
    stateLine_eq]
  generalize front ++ segment.takeWhile isIndent = start
  generalize segment.dropWhile isIndent = text
  by_cases hstate : text.take 5 = ascii "STATE"
  swap
  · rw [if_neg hstate, decide_eq_false hstate]
    rfl
  have hfield : field (start ++ (text ++ back)) (start.length + text.length) (start.length + 5) =
      some (stateAnswer (stateField (text.drop 5))) := by
    obtain ⟨hcells, hstop⟩ := advance start text back
      (List.take_append_drop 5 text : text.take 5 ++ text.drop 5 = _)
    have hnext : start.length + 5 = (start ++ text.take 5).length := by
      rw [hstate, List.length_append]
      rfl
    rw [hnext, hcells, hstop, field_eq]
  rw [if_pos hstate, decide_eq_true hstate, Bool.true_and, hfield]
  cases text.drop 5 with
  | nil => rfl
  | cons byte rest =>
      have hfollows : (byte :: rest).head?.all
          (fun byte => byte = 58 || byte = 32 || byte = 9) =
          (byte = 58 || byte = 32 || byte = 9) :=
        rfl
      rw [hfollows]
      by_cases hstarts : (decide (byte = 58) || decide (byte = 32) || decide (byte = 9)) = true
      · simp only [hstarts, if_true]
      · simp only [hstarts, if_false, Bool.false_eq_true]

end Segments

section Lines

variable {front line : Bytes}

theorem passes_of_notMem (hline : 10 ∉ line) : ∀ byte ∈ line, decide (byte ≠ 10) = true := by
  intro byte hmem
  rw [decide_eq_true_eq]
  rintro rfl
  exact hline hmem

/-- A line that is followed by a line feed: either it decides or the next line is read.
Nothing is read beyond the line feed for it. -/
theorem lines_line (hline : 10 ∉ line) (back : Bytes) {size : Nat}
    (hsize : front.length + line.length < size) :
    lines (front ++ (line ++ 10 :: back)) size front.length =
      match stateLine line with
      | none => lines (front ++ (line ++ 10 :: back)) size (front ++ (line ++ [10])).length
      | some state => some (stateAnswer state) := by
  have hstart : front.length < size := Nat.lt_of_le_of_lt (Nat.le_add_right _ _) hsize
  have hstops := scanWhile_stops (fun byte : UInt8 => decide (byte ≠ 10)) front line back
    (passes_of_notMem hline) (by decide : decide ((10 : UInt8) ≠ 10) = false) hsize
  have hnext : front.length + line.length + 1 = (front ++ (line ++ [10])).length := by
    simp only [List.length_append, List.length_cons, List.length_nil, Nat.add_assoc]
  rw [lines, if_pos hstart]
  split
  · rename_i hnone
    rw [hnone] at hstops
    cases hstops
  · rename_i stop hstop
    obtain rfl : stop = front.length + line.length := Option.some.inj (hstop.symm.trans hstops)
    rw [← hnext]
    exact line_eq _ _ _ _

/-- The last line. -/
theorem lines_last (hline : 10 ∉ line) :
    lines (front ++ line) (front ++ line).length front.length =
      some (stateAnswer (stateLine line).join) := by
  rw [lines]
  by_cases hstart : front.length < (front ++ line).length
  swap
  · have hempty : line = [] := by
      rw [List.length_append] at hstart
      exact List.eq_nil_of_length_eq_zero (by omega)
    subst hempty
    rw [if_neg hstart]
    rfl
  have hscan := scanWhile_segment (fun byte : UInt8 => decide (byte ≠ 10)) front line []
  have hwhole : line.takeWhile (fun byte => decide (byte ≠ 10)) = line :=
    List.takeWhile_eq_self_iff.mpr (passes_of_notMem hline)
  rw [List.append_nil, hwhole] at hscan
  rw [if_pos hstart]
  split
  · rename_i hnone
    rw [List.length_append, hscan] at hnone
    cases hnone
  · rename_i stop hstop
    rw [List.length_append, hscan] at hstop
    obtain rfl := Option.some.inj hstop
    have hdone : lines (front ++ line) (front ++ line).length (front.length + line.length + 1) =
        some (.error .einval) := by
      rw [lines, if_neg (by rw [List.length_append]; omega)]
    have hread := line_eq front line [] (some (.error .einval))
    rw [List.append_nil] at hread
    rw [hdone]
    refine hread.trans ?_
    cases stateLine line <;> rfl

/-- The scanner reads what the lines say. -/
theorem lines_eq (front rest : Bytes) :
    lines (front ++ rest) (front ++ rest).length front.length =
      some (stateAnswer ((rest.splitOn 10).findSome? stateLine).join) := by
  by_cases hmem : 10 ∈ rest
  · obtain ⟨line, back, rfl, hline⟩ := List.eq_append_cons_of_mem hmem
    have hsize : front.length + line.length < (front ++ (line ++ 10 :: back)).length := by
      simp only [List.length_append, List.length_cons]
      omega
    rw [lines_line hline back hsize, List.splitOn_append_cons_self_of_not_mem hline,
      List.findSome?_cons]
    cases stateLine line with
    | some state => rfl
    | none =>
        have hcells : front ++ (line ++ 10 :: back) = (front ++ (line ++ [10])) ++ back := by simp
        rw [hcells]
        exact lines_eq (front ++ (line ++ [10])) back
  · rw [lines_last hmem, List.splitOn_eq_singleton hmem, List.findSome?_cons]
    cases stateLine rest <;> rfl
termination_by rest.length
decreasing_by
  have hparts : rest = line ++ 10 :: back := by assumption
  simp only [hparts, List.length_append, List.length_cons]
  omega

/-- `praktor_service_parse_state` with its loops reads what the lines say. -/
theorem parse_eq (output : ServiceOutput) :
    parse output = some (stateAnswer (praktorServiceParseState output.read)) := by
  cases output with
  | null size =>
      rw [parse]
      by_cases hzero : size ≠ 0
      · rw [if_pos hzero]
        rfl
      · rw [if_neg hzero]
        exact lines_eq [] []
  | held content => exact lines_eq [] content

/-- Lines with their line feeds. -/
def terminated (lines : List Bytes) : Bytes := lines.flatMap (· ++ [10])

/-- Nothing is read beyond the line feed of a line that decides. -/
theorem lines_unread (before : List Bytes) (hbefore : ∀ other ∈ before, 10 ∉ other)
    (hline : 10 ∉ line) (hdecides : (stateLine line).isSome) (front after : Bytes) {size : Nat}
    (hsize : (front ++ (terminated before ++ line)).length < size) :
    lines (front ++ (terminated before ++ (line ++ [10]))) size front.length =
      lines (front ++ (terminated before ++ (line ++ 10 :: after))) size front.length := by
  induction before generalizing front with
  | nil =>
      have hinside : front.length + line.length < size := by
        rw [← List.length_append]
        exact hsize
      obtain ⟨state, hstate⟩ := Option.isSome_iff_exists.mp hdecides
      rw [show terminated [] = [] from rfl, List.nil_append, List.nil_append,
        lines_line hline [] hinside, lines_line hline after hinside, hstate]
  | cons first rest ih =>
      have hfirst := hbefore first List.mem_cons_self
      have hlater := ih (fun other hmem => hbefore other (List.mem_cons_of_mem _ hmem))
        (front ++ (first ++ [10]))
      have hcells : ∀ tail : Bytes, front ++ (terminated (first :: rest) ++ tail) =
          front ++ (first ++ 10 :: (terminated rest ++ tail)) := by
        intro tail
        simp [terminated]
      have hmoved : ∀ tail : Bytes, front ++ (first ++ 10 :: (terminated rest ++ tail)) =
          front ++ (first ++ [10]) ++ (terminated rest ++ tail) := by
        intro tail
        simp
      rw [hcells] at hsize ⊢
      rw [hcells]
      have hinside : front.length + first.length < size := by
        simp only [List.length_append, List.length_cons] at hsize
        omega
      rw [lines_line hfirst _ hinside, lines_line hfirst _ hinside]
      cases stateLine first with
      | some state => rfl
      | none =>
          simp only
          rw [hmoved] at hsize ⊢
          rw [hmoved]
          exact hlater hsize

end Lines

end StateScan

/-! ## The grammar -/

/-- A line that starts with `STATE` as a word of its own. -/
def StateLine (line : Bytes) : Prop :=
  ∃ indent rest, line = indent ++ (ascii "STATE" ++ rest) ∧
    (∀ byte ∈ indent, byte = 32 ∨ byte = 9 ∨ byte = 13) ∧
    ∀ byte ∈ rest.head?, byte = 58 ∨ byte = 32 ∨ byte = 9

/-- A line on which a colon after `STATE` is followed by a number from one to four. -/
def StateNumber (line : Bytes) (value : Nat) : Prop :=
  ∃ indent between blanks digits rest,
    line = indent ++ (ascii "STATE" ++ (between ++ 58 :: (blanks ++ (digits ++ rest)))) ∧
    (∀ byte ∈ indent, byte = 32 ∨ byte = 9 ∨ byte = 13) ∧ 58 ∉ between ∧
    (∀ byte ∈ blanks, byte = 32 ∨ byte = 9) ∧
    digits ≠ [] ∧ (∀ byte ∈ digits, isDecimal byte = true) ∧ digitsValue digits 0 = value ∧
    1 ≤ value ∧ value ≤ 4 ∧ ∀ byte ∈ rest.head?, isSpace byte = true

/-- The first line of a text that starts with `STATE` holds this number. -/
def StateText (text : Bytes) (value : Nat) : Prop :=
  ∃ before line after, text.splitOn 10 = before ++ line :: after ∧
    (∀ other ∈ before, ¬ StateLine other) ∧ StateLine line ∧ StateNumber line value

theorem isIndent_iff {byte : UInt8} :
    StateScan.isIndent byte = true ↔ byte = 32 ∨ byte = 9 ∨ byte = 13 := by
  simp [StateScan.isIndent, or_assoc]

theorem isBlank_iff {byte : UInt8} : StateScan.isBlank byte = true ↔ byte = 32 ∨ byte = 9 := by
  simp [StateScan.isBlank]

/-- A list taken apart where a test first fails. -/
theorem dropWhile_eq_iff {test : UInt8 → Bool} {text rest : Bytes}
    (hrest : ∀ byte ∈ rest.head?, test byte = false) :
    text.dropWhile test = rest ↔
      ∃ first, text = first ++ rest ∧ ∀ byte ∈ first, test byte = true := by
  constructor
  · intro hdrop
    refine ⟨text.takeWhile test, ?_, fun byte hmem => List.mem_takeWhile_imp hmem⟩
    rw [← hdrop, List.takeWhile_append_dropWhile]
  · rintro ⟨first, rfl, hfirst⟩
    rw [List.dropWhile_append_of_pos hfirst]
    cases rest with
    | nil => rfl
    | cons byte rest =>
        rw [List.dropWhile_cons_of_neg]
        simp [hrest byte rfl]

theorem isDecimal_eq (byte : UInt8) : (isDecimal byte = true) = (48 ≤ byte ∧ byte ≤ 57) := by
  simp only [isDecimal, Bool.and_eq_true, decide_eq_true_eq]

theorem not_isSpace_of_isDecimal {byte : UInt8} (hdecimal : isDecimal byte = true) :
    isSpace byte = false := by
  rw [isDecimal_iff] at hdecimal
  have hbounds : ¬ (byte = 32 ∨ (9 ≤ byte ∧ byte ≤ 13)) := by
    rintro (rfl | ⟨-, hhigh⟩)
    · exact absurd hdecimal.1 (by decide)
    · have hthirteen : byte.toNat ≤ 13 := UInt8.le_iff_toNat_le.mp hhigh
      omega
  simpa [isSpace, not_or] using hbounds

theorem sub_toNat {byte : UInt8} (hdecimal : isDecimal byte = true) :
    (byte - 48).toNat = byte.toNat - 48 := by
  rw [isDecimal_eq] at hdecimal
  exact UInt8.toNat_sub_of_le _ _ hdecimal.1

/-- Digits and what ends them, in a text. -/
def NumberIn (text : Bytes) (start : Nat) (seen : Bool) (value : Nat) : Prop :=
  ∃ digits rest, text = digits ++ rest ∧ (seen = true ∨ digits ≠ []) ∧
    (∀ byte ∈ digits, isDecimal byte = true) ∧ digitsValue digits start = value ∧
    1 ≤ value ∧ value ≤ 4 ∧ ∀ byte ∈ rest.head?, isSpace byte = true

/-- Without a digit the number has ended. -/
theorem numberIn_end {text : Bytes} {start value : Nat} {seen : Bool}
    (hend : ∀ byte ∈ text.head?, isDecimal byte = false) :
    NumberIn text start seen value ↔
      seen = true ∧ start = value ∧ 1 ≤ value ∧ value ≤ 4 ∧
        ∀ byte ∈ text.head?, isSpace byte = true := by
  constructor
  · rintro ⟨digits, rest, rfl, hseen, hdigits, hvalue, hlow, hhigh, hrest⟩
    cases digits with
    | nil => exact ⟨hseen.resolve_right fun hne => hne rfl, hvalue, hlow, hhigh, hrest⟩
    | cons byte digits =>
        have hdecimal := hdigits byte List.mem_cons_self
        rw [hend byte rfl] at hdecimal
        cases hdecimal
  · rintro ⟨rfl, rfl, hlow, hhigh, hrest⟩
    exact ⟨[], text, rfl, .inl rfl, by simp, rfl, hlow, hhigh, hrest⟩

/-- A digit belongs to the number. -/
theorem numberIn_digit {byte : UInt8} {text : Bytes} {start value : Nat} {seen : Bool}
    (hdecimal : isDecimal byte = true) :
    NumberIn (byte :: text) start seen value ↔
      NumberIn text (start * 10 + (byte.toNat - 48)) true value := by
  constructor
  · rintro ⟨digits, rest, htext, -, hdigits, hvalue, hbounds⟩
    cases digits with
    | nil =>
        obtain rfl : byte :: text = rest := htext
        have hspace := hbounds.2.2 byte rfl
        rw [not_isSpace_of_isDecimal hdecimal] at hspace
        cases hspace
    | cons first digits =>
        obtain ⟨rfl, rfl⟩ := List.cons.inj htext
        exact ⟨digits, rest, rfl, .inl rfl,
          fun other hmem => hdigits other (List.mem_cons_of_mem _ hmem), hvalue, hbounds⟩
  · rintro ⟨digits, rest, rfl, -, hdigits, hvalue, hbounds⟩
    refine ⟨byte :: digits, rest, rfl, .inr (List.cons_ne_nil _ _), ?_, hvalue, hbounds⟩
    intro other hmem
    rcases List.mem_cons.mp hmem with rfl | hlater
    · exact hdecimal
    · exact hdigits other hlater

/-- The number of the list model, by its digits. -/
theorem stateNumber_eq_some {text : Bytes} {start : Nat} {seen : Bool} {state : ServiceState} :
    stateNumber start seen text = some state ↔ NumberIn text start seen state.number := by
  induction text generalizing start seen with
  | nil =>
      rw [numberIn_end (by simp), stateNumber]
      cases seen with
      | false => simp
      | true => simp [supportedState_eq_some]
  | cons byte rest ih =>
      rw [stateNumber]
      by_cases hdecimal : isDecimal byte = true
      swap
      · have hend : ∀ other ∈ (byte :: rest).head?, isDecimal other = false := by
          rintro other hother
          obtain rfl := Option.some.inj hother
          exact (Bool.not_eq_true _).mp hdecimal
        rw [numberIn_end hend, if_neg (isDecimal_eq byte ▸ hdecimal)]
        by_cases hends : (seen && isSpace byte) = true
        · rw [if_pos hends, supportedState_eq_some]
          rw [Bool.and_eq_true] at hends
          simp [hends]
        · rw [if_neg hends]
          rw [Bool.and_eq_true] at hends
          simp only [List.head?_cons, Option.mem_some_iff, forall_eq', reduceCtorEq, false_iff]
          rintro ⟨hseen, -, -, -, hspace⟩
          exact hends ⟨hseen, hspace⟩
      rw [numberIn_digit hdecimal, if_pos (isDecimal_eq byte ▸ hdecimal), sub_toNat hdecimal]
      simp only
      by_cases hlarge : start > (2147483647 - (byte.toNat - 48)) / 10
      · rw [if_pos hlarge]
        simp only [reduceCtorEq, false_iff]
        rintro ⟨digits, tail, -, -, -, hvalue, -, hhigh, -⟩
        have hgrows := le_digitsValue digits (start * 10 + (byte.toNat - 48))
        have hdigit := (isDecimal_iff.mp hdecimal).2
        omega
      · rw [if_neg hlarge]
        exact ih

/-- A number begins with a digit, which is no blank. -/
theorem head_of_numberIn {text : Bytes} {start value : Nat}
    (hnumber : NumberIn text start false value) :
    ∀ byte ∈ text.head?, StateScan.isBlank byte = false := by
  obtain ⟨digits, rest, rfl, hsome, hdigits, -⟩ := hnumber
  cases digits with
  | nil => exact absurd rfl (hsome.resolve_left (by decide))
  | cons first digits =>
      intro byte hbyte
      obtain rfl : first = byte := Option.some.inj hbyte
      have hspace := not_isSpace_of_isDecimal (hdigits first List.mem_cons_self)
      rw [← Bool.not_eq_true, isBlank_iff]
      rintro (rfl | rfl) <;> exact absurd hspace (by decide)

theorem notColon_iff {between : Bytes} :
    (∀ byte ∈ between, decide (byte ≠ 58) = true) ↔ 58 ∉ between := by
  simp only [decide_eq_true_eq]
  exact ⟨fun hall hmem => hall 58 hmem rfl, fun hmem byte hbyte hcolon => hmem (hcolon ▸ hbyte)⟩

/-- The field of the list model: a colon, blanks and a number. -/
theorem stateField_eq_some {text : Bytes} {state : ServiceState} :
    stateField text = some state ↔
      ∃ between blanks number, text = between ++ 58 :: (blanks ++ number) ∧ 58 ∉ between ∧
        (∀ byte ∈ blanks, byte = 32 ∨ byte = 9) ∧ NumberIn number 0 false state.number := by
  constructor
  · intro hfield
    rw [stateField] at hfield
    have hhead := List.head?_dropWhile_not (fun byte : UInt8 => decide (byte ≠ 58)) text
    cases hdrop : text.dropWhile fun byte => decide (byte ≠ 58) with
    | nil =>
        rw [hdrop] at hfield
        cases hfield
    | cons colon field =>
        rw [hdrop] at hfield hhead
        obtain rfl : colon = 58 := by simpa using hhead
        refine ⟨text.takeWhile fun byte => decide (byte ≠ 58), field.takeWhile StateScan.isBlank,
          field.dropWhile StateScan.isBlank, ?_, ?_, ?_, stateNumber_eq_some.mp hfield⟩
        · rw [List.takeWhile_append_dropWhile, ← hdrop, List.takeWhile_append_dropWhile]
        · exact notColon_iff.mp fun byte hmem =>
            List.mem_takeWhile_imp (p := fun byte : UInt8 => decide (byte ≠ 58)) hmem
        · exact fun byte hmem => isBlank_iff.mp (List.mem_takeWhile_imp hmem)
  · rintro ⟨between, blanks, number, rfl, hbetween, hblanks, hnumber⟩
    have hdrop : (between ++ 58 :: (blanks ++ number)).dropWhile (fun byte => decide (byte ≠ 58)) =
        58 :: (blanks ++ number) :=
      (dropWhile_eq_iff (by simp)).mpr ⟨between, rfl, notColon_iff.mpr hbetween⟩
    have hskip : (blanks ++ number).dropWhile (fun byte => byte = 32 || byte = 9) = number :=
      (dropWhile_eq_iff (head_of_numberIn hnumber)).mpr
        ⟨blanks, rfl, fun byte hmem => isBlank_iff.mpr (hblanks byte hmem)⟩
    rw [stateField, hdrop]
    simp only [hskip]
    exact stateNumber_eq_some.mpr hnumber

/-- The list model on a line that holds `STATE` after its indent. -/
theorem stateLine_indented {indent rest : Bytes}
    (hindent : ∀ byte ∈ indent, byte = 32 ∨ byte = 9 ∨ byte = 13) :
    stateLine (indent ++ (ascii "STATE" ++ rest)) =
      if rest.head?.all fun byte => byte = 58 || byte = 32 || byte = 9 then
        some (stateField rest) else none := by
  have hdrop : (indent ++ (ascii "STATE" ++ rest)).dropWhile
      (fun byte => byte = 32 || byte = 9 || byte = 13) = ascii "STATE" ++ rest := by
    refine (dropWhile_eq_iff ?_).mpr
      ⟨indent, rfl, fun byte hmem => isIndent_iff.mpr (hindent byte hmem)⟩
    intro byte hbyte
    obtain rfl : 83 = byte := Option.some.inj hbyte
    rfl
  have htake : (ascii "STATE" ++ rest).take 5 = ascii "STATE" := List.take_left' rfl
  have hrest : (ascii "STATE" ++ rest).drop 5 = rest := List.drop_left' rfl
  rw [stateLine]
  simp only [hdrop, htake, hrest, if_true]
  cases rest <;> rfl

/-- A line of the list model starts with `STATE`. -/
theorem exists_of_stateLine {line : Bytes} (hline : (stateLine line).isSome = true) :
    ∃ indent rest, line = indent ++ (ascii "STATE" ++ rest) ∧
      ∀ byte ∈ indent, byte = 32 ∨ byte = 9 ∨ byte = 13 := by
  rw [stateLine] at hline
  refine ⟨line.takeWhile StateScan.isIndent, (line.dropWhile StateScan.isIndent).drop 5, ?_,
    fun byte hmem => isIndent_iff.mp (List.mem_takeWhile_imp hmem)⟩
  split at hline
  · rename_i hstate
    have hparts := List.take_append_drop 5 (line.dropWhile StateScan.isIndent)
    have hstate' : (line.dropWhile StateScan.isIndent).take 5 = ascii "STATE" := hstate
    rw [hstate'] at hparts
    rw [hparts, List.takeWhile_append_dropWhile]
  · cases hline

theorem follows_iff {rest : Bytes} :
    (rest.head?.all fun byte => byte = 58 || byte = 32 || byte = 9) = true ↔
      ∀ byte ∈ rest.head?, byte = 58 ∨ byte = 32 ∨ byte = 9 := by
  cases rest <;> simp [or_assoc]

theorem stateLine_isSome {line : Bytes} : (stateLine line).isSome = true ↔ StateLine line := by
  constructor
  · intro hline
    obtain ⟨indent, rest, rfl, hindent⟩ := exists_of_stateLine hline
    refine ⟨indent, rest, rfl, hindent, follows_iff.mp ?_⟩
    rw [stateLine_indented hindent] at hline
    split at hline
    · assumption
    · cases hline
  · rintro ⟨indent, rest, rfl, hindent, hrest⟩
    rw [stateLine_indented hindent, if_pos (follows_iff.mpr hrest)]
    rfl

/-- A line of the list model that gives a state. -/
theorem stateLine_eq_some {line : Bytes} (hline : StateLine line) {state : ServiceState} :
    stateLine line = some (some state) ↔ StateNumber line state.number := by
  constructor
  · intro hstate
    obtain ⟨indent, rest, rfl, hindent, hrest⟩ := hline
    rw [stateLine_indented hindent, if_pos (follows_iff.mpr hrest), Option.some.injEq] at hstate
    obtain ⟨between, blanks, number, rfl, hbetween, hblanks, digits, tail, rfl, hsome, hdigits,
      hvalue, hlow, hhigh, htail⟩ := stateField_eq_some.mp hstate
    exact ⟨indent, between, blanks, digits, tail, rfl, hindent, hbetween, hblanks,
      hsome.resolve_left (by decide), hdigits, hvalue, hlow, hhigh, htail⟩
  · rintro ⟨indent, between, blanks, digits, tail, rfl, hindent, hbetween, hblanks, hsome, hdigits,
      hvalue, hlow, hhigh, htail⟩
    have hstarts := stateLine_isSome.mpr hline
    rw [stateLine_indented hindent] at hstarts ⊢
    split at hstarts
    · rename_i hfollows
      rw [if_pos hfollows, Option.some.injEq]
      exact stateField_eq_some.mpr ⟨between, blanks, digits ++ tail, rfl, hbetween, hblanks, digits,
        tail, rfl, .inr hsome, hdigits, hvalue, hlow, hhigh, htail⟩
    · cases hstarts

/-- The list model reads the number of the first line that starts with `STATE`. -/
theorem praktorServiceParseState_eq_some {text : Bytes} {state : ServiceState} :
    praktorServiceParseState text = some state ↔ StateText text state.number := by
  have hjoin : praktorServiceParseState text = some state ↔
      (text.splitOn 10).findSome? stateLine = some (some state) := by
    rw [praktorServiceParseState, Option.join_eq_some_iff]
  rw [hjoin, List.findSome?_eq_some_iff]
  constructor
  · rintro ⟨before, line, after, hlines, hline, hbefore⟩
    have hstarts : StateLine line := stateLine_isSome.mp (by rw [hline]; rfl)
    refine ⟨before, line, after, hlines, fun other hmem hother => ?_, hstarts,
      (stateLine_eq_some hstarts).mp hline⟩
    have hsome := stateLine_isSome.mpr hother
    rw [hbefore other hmem] at hsome
    cases hsome
  · rintro ⟨before, line, after, hlines, hbefore, hstarts, hnumber⟩
    refine ⟨before, line, after, hlines, (stateLine_eq_some hstarts).mpr hnumber,
      fun other hmem => ?_⟩
    cases hother : stateLine other with
    | none => rfl
    | some result =>
        exact absurd (stateLine_isSome.mp (by rw [hother]; rfl)) (hbefore other hmem)

/-- Every number that a text can give is that of a state. -/
theorem exists_state {value : Nat} (hlow : 1 ≤ value) (hhigh : value ≤ 4) :
    ∃ state : ServiceState, state.number = value := by
  match value with
  | 1 => exact ⟨.stopped, rfl⟩
  | 2 => exact ⟨.startPending, rfl⟩
  | 3 => exact ⟨.stopPending, rfl⟩
  | 4 => exact ⟨.running, rfl⟩

/-- What `praktor_service_parse_state` makes of a text. -/
structure StatesParsed (text : Bytes) : Prop where
  /-- No read leaves the text. -/
  inside : StateScan.parse (.held text) ≠ none
  /-- A number is read exactly when the grammar gives it. -/
  ok_iff : ∀ value, StateScan.parse (.held text) = some (.ok value) ↔ StateText text value
  refused : ∀ status, StateScan.parse (.held text) = some (.error status) → status = .einval
  /-- The bytes after the line that decides are not read. -/
  unread : ∀ (before : List Bytes) (line after : Bytes), (∀ other ∈ before, 10 ∉ other) →
    10 ∉ line → StateLine line → text = StateScan.terminated before ++ (line ++ 10 :: after) →
    StateScan.lines (StateScan.terminated before ++ (line ++ [10])) text.length 0 =
      StateScan.parse (.held text)

/-- The state of a service is read exactly from the texts of the grammar, inside the text and
not beyond the line that decides. -/
theorem statesParsed (text : Bytes) : StatesParsed text where
  inside := by
    rw [StateScan.parse_eq]
    exact Option.some_ne_none _
  ok_iff value := by
    rw [StateScan.parse_eq, Option.some.injEq]
    constructor
    · intro hok
      cases hstate : praktorServiceParseState text with
      | none =>
          rw [ServiceOutput.read, hstate] at hok
          cases hok
      | some state =>
          rw [ServiceOutput.read, hstate] at hok
          obtain rfl : state.number = value := Except.ok.inj hok
          exact praktorServiceParseState_eq_some.mp hstate
    · intro htext
      obtain ⟨before, line, after, hlines, hbefore, hstarts, hnumber⟩ := htext
      obtain ⟨hlow, hhigh⟩ : 1 ≤ value ∧ value ≤ 4 := by
        obtain ⟨_, _, _, _, _, -, -, -, -, -, -, -, hlow, hhigh, -⟩ := hnumber
        exact ⟨hlow, hhigh⟩
      obtain ⟨state, rfl⟩ := exists_state hlow hhigh
      rw [ServiceOutput.read, praktorServiceParseState_eq_some.mpr
        ⟨before, line, after, hlines, hbefore, hstarts, hnumber⟩]
      rfl
  refused status hrefused := by
    rw [StateScan.parse_eq, Option.some.injEq] at hrefused
    cases hstate : praktorServiceParseState (ServiceOutput.held text).read with
    | none =>
        rw [hstate] at hrefused
        exact (Except.error.inj hrefused).symm
    | some state =>
        rw [hstate] at hrefused
        cases hrefused
  unread before line after hbefore hline hstarts htext := by
    have hsize : (StateScan.terminated before ++ line).length < text.length := by
      rw [htext]
      simp only [List.length_append, List.length_cons]
      omega
    have hunread := StateScan.lines_unread before hbefore hline (stateLine_isSome.mpr hstarts) []
      after hsize
    rw [List.nil_append, List.nil_append, ← htext] at hunread
    exact hunread

end Praktor.Process
